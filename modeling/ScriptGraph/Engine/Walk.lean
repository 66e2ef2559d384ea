import ScriptGraph.Engine.Pull

/-!
# Walking control

A walk keeps a stack of frames: nodes to visit and loops to go on with.  `pop`
does the work of one frame and says what the stack is then; `walk` repeats it
until the stack is empty or the step limit stops the walk.
-/

namespace ScriptGraph.Engine

open Json

inductive Frame where
  | visit (node : String)
  /-- Start the iteration `index` of a loop, or end the loop if that is
  `stop`. -/
  | loop (node pin : String) (index stop : Int64)
  deriving DecidableEq, Repr

/-! ## Loops -/

def completedPin : String := "completed"

/-- Where a loop stops: at its end, or once it has repeated as often as the
limit allows. -/
def loopStop (limits : Limits) (start stop : Int64) : Int64 :=
  -- A range too wide for an integer counts as the largest one.
  let range := Binary64.nearestInt64 (stop.toInt - start.toInt)
  if 0 < range ∧ limits.maxIterations.toNat < range.toInt.toNat then
    Binary64.nearestInt64
      (start.toInt +
        min (limits.maxIterations.toNat : Int) Int64.maxValue.toInt)
  else stop

def visitTarget (scope : Scope) (node pin : String) : List Frame :=
  (scope.graph.target? node pin).toList.map .visit

def iterate (setup : Setup) (scope : Scope) (node pin : String)
    (index stop : Int64) (rest : List Frame) (state : RunState) :
    List Frame × RunState :=
  if index < stop then
    let state := state.setOutputs node (.single "index" (.ofInt index.toInt))
    let state := state.publish setup.limits.loopVariable (.ofInt index.toInt)
    -- The index is below another integer, so the next one does not wrap around.
    (visitTarget scope node pin ++ .loop node pin (index + 1) stop :: rest,
      state)
  else (visitTarget scope node completedPin ++ rest, state)

/-! ## Nodes -/

def flowFrames (setup : Setup) (scope : Scope) (node : String) :
    Flow → List Frame
  | .proceed pin => visitTarget scope node pin
  | .sequence pins => pins.flatMap (visitTarget scope node)
  | .loop pin start stop _ =>
    [.loop node pin start (loopStop setup.limits start stop)]
  | .error _ => []
  | .finish => []

def follow (setup : Setup) (scope : Scope) (node : String) (output : Output)
    (rest : List Frame) (state : RunState) : List Frame × RunState :=
  let state := (state.setOutputs node output.values).syncVariables
  let state := match output.flow with
    | .error message => state.report node .nodeError message
    | _ => state
  (flowFrames setup scope node output.flow ++ rest, state)

def visitInvocation (setup : Setup) (node : Node) (inputs : Table Value)
    (state : RunState) : Invocation :=
  { nodeId := node.id
    nodeKind := node.kind
    config := node.config
    inputs := inputs
    snapshot := state.activation.view.snapshot
    triggerData := setup.trigger.data
    event := setup.trigger.event? }

def outputOf : Except Failure Output → Output
  | .ok output => output
  | .error cause => .error cause.message

def visitCall (setup : Setup) (scope : Scope) (call : Caller) (node : Node)
    (state : RunState) : Output × RunState :=
  let (inputs, state) := gather setup scope call node.id state
  let (outcome, state) := call node inputs state
  (outputOf (outcome.map (Output.proceed "then")), state)

def visitEntry (setup : Setup) (scope : Scope) (call : Caller) (entry : Entry)
    (node : Node) (state : RunState) : Output × RunState :=
  let (inputs, state) := gather setup scope call node.id state
  let (outcome, state) :=
    state.invoke entry (visitInvocation setup node inputs state)
  (outputOf outcome, state)

def visit (setup : Setup) (scope : Scope) (call : Caller) (id : String)
    (rest : List Frame) (state : RunState) : List Frame × RunState :=
  match scope.graph.node? id with
  -- A wire to a node that is not there ends its branch and nothing else.
  | none => (rest, state)
  | some node =>
    -- A function returns at once, whatever frames its body still has.
    if scope.isBody && id == exitMarker then ([], state)
    else if node.kind == callKind then
      let (output, state) := visitCall setup scope call node state
      follow setup scope id output rest state
    else match setup.catalogue.lookup node.kind with
      | none =>
        (rest, state.report id .unknownNodeKind
          ("unknown node type '" ++ node.kind ++ "'"))
      | some entry =>
        let (output, state) := visitEntry setup scope call entry node state
        follow setup scope id output rest state

/-! ## The walk -/

/-- Does the work of a frame.  The answer is the stack to go on with, or `none`
if the step limit stops the walk. -/
def pop (setup : Setup) (scope : Scope) (call : Caller) (frame : Frame)
    (rest : List Frame) (state : RunState) : Option (List Frame) × RunState :=
  match frame with
  | .visit node =>
    match state.takeStep setup.limits node with
    | (false, state) => (none, state)
    | (true, state) =>
      let (stack, state) := visit setup scope call node rest state
      (some stack, state)
  | .loop node pin index stop =>
    let (stack, state) := iterate setup scope node pin index stop rest state
    (some stack, state)

def walkWithin (setup : Setup) (scope : Scope) (call : Caller) :
    Nat → List Frame → RunState → RunState
  -- Not reached in a `walk`, which starts with `popBound`.
  | 0, _, state => state
  | _ + 1, [], state => state
  | fuel + 1, frame :: rest, state =>
    match pop setup scope call frame rest state with
    | (none, state) => state
    | (some stack, state) => walkWithin setup scope call fuel stack state

/-- More frames than a walk can pop: each visit takes a step and leaves at most
one loop, which has fewer than `2 ^ 64` iterations. -/
def popBound (limits : Limits) (state : RunState) : Nat :=
  (limits.maxSteps.toNat - state.activation.steps) * (UInt64.size + 1) + 1

def walk (setup : Setup) (scope : Scope) (call : Caller) (start : String)
    (state : RunState) : RunState :=
  walkWithin setup scope call (popBound setup.limits state) [.visit start] state

end ScriptGraph.Engine
