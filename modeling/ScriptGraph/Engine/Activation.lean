import ScriptGraph.Blueprint
import ScriptGraph.Catalogue
import ScriptGraph.Limits
import ScriptGraph.Report
import ScriptGraph.Trigger

/-!
# Activations

A run is an activation of its blueprint's graph, and every call of a function is
an activation of the function's graph.  An `Activation` is what belongs to one
of them; a `RunState` adds the services, which all share.
-/

namespace ScriptGraph.Engine

open Json

structure Setup where
  catalogue : Catalogue
  limits : Limits
  functions : Table Function
  trigger : Trigger

structure Scope where
  graph : Graph
  /-- Whether it is the body of a function, where the exit marker returns. -/
  isBody : Bool
  deriving DecidableEq, Repr

structure Activation where
  outputs : Table (Table Value) := .empty
  view : VariableView
  diagnostics : Array Diagnostic := #[]
  pulling : List String := []
  steps : Nat := 0
  limitReported : Bool := false
  depth : Nat := 0
  deriving DecidableEq, Repr

/-- The state of a run, seen from its innermost activation. -/
structure RunState where
  activation : Activation
  services : Services

namespace RunState

def report (state : RunState) (node : String) (condition : Condition)
    (message : String) : RunState :=
  { state with activation :=
    { state.activation with
      diagnostics :=
        state.activation.diagnostics.push ⟨node, condition, message⟩ } }

def setOutputs (state : RunState) (node : String) (values : Table Value) :
    RunState :=
  { state with activation :=
    { state.activation with
      outputs := state.activation.outputs.insert node values } }

def outputs? (state : RunState) (node : String) : Option (Table Value) :=
  state.activation.outputs.get? node

def syncVariables (state : RunState) : RunState :=
  { state with activation :=
    { state.activation with
      view := state.activation.view.sync state.services.store } }

def publish (state : RunState) (name : String) (value : Value) : RunState :=
  let (view, store) :=
    state.activation.view.publish state.services.store name value
  { activation := { state.activation with view := view }
    services := { state.services with store := store } }

def beginPull (state : RunState) (node : String) : RunState :=
  { state with
    activation :=
      { state.activation with pulling := node :: state.activation.pulling } }

def endPull (state : RunState) (node : String) : RunState :=
  { state with activation :=
    { state.activation with pulling := state.activation.pulling.erase node } }

/-- Counts a visit if the limit allows one more; the first time that it does not
is reported. -/
def takeStep (state : RunState) (limits : Limits) (node : String) :
    Bool × RunState :=
  if state.activation.steps < limits.maxSteps.toNat then
    (true, { state with activation :=
      { state.activation with steps := state.activation.steps + 1 } })
  else if state.activation.limitReported then (false, state)
  else
    let message :=
      "stopped after " ++
        String.ofList (Nat.toDigits 10 limits.maxSteps.toNat) ++ " steps"
    let reported := state.report node .stepLimit message
    (false, { reported with
      activation := { reported.activation with limitReported := true } })

def invoke (state : RunState) (entry : Entry) (inv : Invocation) :
    Except Failure Output × RunState :=
  let (reply, services) := entry.run inv state.services
  (reply.outcome, { state with services := services })

end RunState

end ScriptGraph.Engine
