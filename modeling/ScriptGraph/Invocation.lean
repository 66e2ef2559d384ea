import ScriptGraph.Json.Coercion
import ScriptGraph.Output
import ScriptGraph.Services

/-!
# Invocations

An executor is given an `Invocation`, all that it may know about the node it
runs for, and the services; it answers with a `Reply` and the services
afterwards.  Executors are total functions: an executor that breaks off replies
`crash`.
-/

namespace ScriptGraph

open Json

structure Invocation where
  nodeId : String
  nodeKind : String := ""
  config : Value := .null
  inputs : Table Value := .empty
  snapshot : Table Value := .empty
  /-- The data of the trigger; not given to pure nodes. -/
  triggerData : Option Value := none
  event : Option String := none
  deriving DecidableEq, Repr

namespace Invocation

def input? (inv : Invocation) (name : String) : Option Value :=
  inv.inputs.get? name

def real? (inv : Invocation) (name : String) : Option Float :=
  (inv.input? name).bind Value.toReal?

def integer? (inv : Invocation) (name : String) : Option Int64 :=
  (inv.input? name).bind Value.toInteger?

def bool? (inv : Invocation) (name : String) : Option Bool :=
  (inv.input? name).bind Value.toBool?

def text? (inv : Invocation) (name : String) : Option String :=
  (inv.input? name).bind Value.asText?

def config? (inv : Invocation) (key : String) : Option Value :=
  inv.config.get? key

def configText? (inv : Invocation) (key : String) : Option String :=
  (inv.config? key).bind Value.asText?

def configInteger? (inv : Invocation) (key : String) : Option Int64 :=
  (inv.config? key).bind Value.asInt64?

def storedVariable? (inv : Invocation) (name : String) : Option Value :=
  inv.snapshot.get? name

def setVariable (inv : Invocation) (services : Services) (name : String)
    (value : Value) : Invocation × Services :=
  ({ inv with snapshot := inv.snapshot.insert name value },
    services.setVariable name value)

def log (inv : Invocation) (services : Services) (level : LogLevel)
    (message : String) : Services :=
  services.logLine ⟨level, inv.nodeId, message⟩

end Invocation

/-! ## Executors -/

inductive Reply where
  | output (output : Output)
  | failure (failure : Failure)
  /-- It broke off, with a message if it left one. -/
  | crash (message : Option String)
  deriving DecidableEq, Repr

def Reply.outcome : Reply → Except Failure Output
  | output out => .ok out
  | failure cause => .error cause
  | crash message => .error (.crashed (message.getD "unknown panic"))

abbrev Executor := Invocation → Services → Reply × Services

namespace Executor

def ofOutput (f : Invocation → Output) : Executor := fun inv services =>
  (.output (f inv), services)

def reading (f : Invocation → Services → Output) : Executor :=
  fun inv services => (.output (f inv services), services)

end Executor

end ScriptGraph
