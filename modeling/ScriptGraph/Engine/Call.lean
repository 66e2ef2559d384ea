import ScriptGraph.Engine.Walk

/-!
# Calling functions

A call is an activation of its own: it starts with the arguments as the outputs
of the entry marker, walks the body unless the function is pure, and takes its
results from the inputs of the exit marker.  Steps are counted on across the
call, and its diagnostics are reported under the calling node.
-/

namespace ScriptGraph.Engine

open Json

def callee (setup : Setup) (node : Node) (depth : Nat) :
    Except Failure Function :=
  match setup.functions.get? (functionName node) with
  | none => .error (.unknownFunction (functionName node))
  | some function =>
    match function.validate (functionName node) with
    | .error invalid => .error (.invalidFunction invalid)
    | .ok () =>
      if depth < setup.limits.maxCallDepth.toNat then .ok function
      else .error (.callDepthExceeded setup.limits.maxCallDepth.toNat)

def enterBody (function : Function) (arguments : Table Value)
    (state : RunState) : RunState :=
  { services := state.services
    activation :=
      { outputs :=
        .single entryMarker (Parameter.values function.inputs arguments)
        view := state.activation.view.attach
        steps := state.activation.steps
        limitReported := state.activation.limitReported
        depth := state.activation.depth + 1 } }

def leaveBody (caller : String) (body : RunState) (state : RunState) :
    RunState :=
  RunState.syncVariables
    { services := body.services
      activation :=
        { state.activation with
          steps := body.activation.steps
          limitReported := body.activation.limitReported
          diagnostics := state.activation.diagnostics ++
            body.activation.diagnostics.map fun diagnostic =>
              diagnostic.within caller } }

/-- Walks the body of a function from its entry marker; a pure function is not
walked. -/
def walkBody (setup : Setup) (scope : Scope) (deeper : Caller)
    (function : Function) (state : RunState) : RunState :=
  if function.isPure then state
  else match scope.graph.target? entryMarker "exec" with
    | some first => walk setup scope deeper first state
    | none => state

def callWith (setup : Setup) (deeper : Caller) : Caller :=
  fun node arguments state =>
  match callee setup node state.activation.depth with
  | .error cause => (.error cause, state)
  | .ok function =>
    let scope : Scope := ⟨function.graph, true⟩
    let body := walkBody setup scope deeper function
      (enterBody function arguments state)
    -- The results are pulled while the activation of the body lasts.
    let (returned, body) := gather setup scope deeper exitMarker body
    (.ok (Parameter.values function.outputs returned),
      leaveBody node.id body state)

/-- Calls that nest at most `levels` deep.  Every call makes the next one
deeper, and `callee` refuses those beyond the limit, so a level above the limit
is not reached. -/
def callWithin (setup : Setup) : Nat → Caller
  | 0 => fun _ _ state =>
    (.error (.callDepthExceeded setup.limits.maxCallDepth.toNat), state)
  | levels + 1 => fun node arguments state =>
    callWith setup (callWithin setup levels) node arguments state

def call (setup : Setup) : Caller :=
  callWithin setup (setup.limits.maxCallDepth.toNat + 1)

end ScriptGraph.Engine
