import ScriptGraph.Services.Events
import ScriptGraph.Services.Log
import ScriptGraph.Services.Points
import ScriptGraph.Services.Variables

/-!
# Services

What nodes can reach outside the graph.  Points and events are there only if the
host provides them.
-/

namespace ScriptGraph

open Json

structure Services where
  store : VariableStore := .empty
  points : Option PointStore := none
  events : Option EventBus := none
  log : Array LogEntry := #[]
  /-- A number in `[0, 1)` for each node that asks; the host has the source. -/
  draw : String → Float := fun _ => 0.0
  /-- How often each executor that counts its calls has been called. -/
  tallies : Table Nat := .empty

namespace Services

def pointStore (services : Services) : Except Failure PointStore :=
  match services.points with
  | some store => .ok store
  | none => .error (.unavailable "Point store")

def eventBus (services : Services) : Except Failure EventBus :=
  match services.events with
  | some bus => .ok bus
  | none => .error (.unavailable "Event publisher")

def setVariable (services : Services) (name : String) (value : Value) :
    Services :=
  { services with store := services.store.insert name value }

def logLine (services : Services) (entry : LogEntry) : Services :=
  { services with log := services.log.push entry }

def count (services : Services) (key : String) : Nat × Services :=
  let n := (services.tallies.get? key).getD 0 + 1
  (n, { services with tallies := services.tallies.insert key n })

end Services

end ScriptGraph
