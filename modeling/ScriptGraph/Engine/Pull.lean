import ScriptGraph.Engine.Activation

/-!
# Pulling data

The inputs of a node are its defaults, overlaid with what its data wires bring.
A wire brings the value of a node that has one; a pure node without values is
evaluated first, at most once in an activation, and a node whose evaluation is
under way brings nothing, which cuts cycles.
-/

namespace ScriptGraph.Engine

open Json

abbrev Caller :=
  Node → Table Value → RunState → Except Failure (Table Value) × RunState

/-! ## Inputs without wires -/

def pinDefaults (kind? : Option NodeKind) : Table Value :=
  match kind? with
  | none => .empty
  | some kind =>
    .ofList (kind.dataInputs.filterMap fun pin => pin.default.map fun value =>
      (pin.name, value))

def nodeDefaults (kind? : Option NodeKind) (node : Node) : Table Value :=
  match node.config.get? "defaults" with
  | some (.object members) => (pinDefaults kind?).insertAll members
  | _ => pinDefaults kind?

/-! ## Data wires -/

/-- Whether a wire carries control: its target pin is declared so, or is called
`exec` where nothing is declared; or its source pin is declared so. -/
def carriesControl (setup : Setup) (scope : Scope)
    (targetKind? : Option NodeKind) (source target : Endpoint) : Bool :=
  let atTarget := match targetKind?.bind fun kind =>
    kind.pin? target.pin .input with
    | some pin => pin.type.isExec
    | none => target.pin == "exec"
  let sourceKind? := (scope.graph.node? source.node).bind fun node =>
    setup.catalogue.kind? node.kind
  let atSource := match sourceKind?.bind fun kind =>
    kind.pin? source.pin .output with
    | some pin => pin.type.isExec
    | none => false
  atTarget || atSource

/-- The source of a wire and the pin it brings data to; `none` if the wire
carries control or is not well formed. -/
def dataWire? (setup : Setup) (scope : Scope) (targetKind? : Option NodeKind)
    (wire : Wire) : Option (Endpoint × String) :=
  match wire.source, wire.target with
  | some source, some target =>
    if carriesControl setup scope targetKind? source target then none
    else some (source, target.pin)
  | _, _ => none

def dataWires (setup : Setup) (scope : Scope) (targetKind? : Option NodeKind)
    (node : String) : List (Endpoint × String) :=
  (scope.graph.wiresInto node).filterMap (dataWire? setup scope targetKind?)

def bringAll (pull : Endpoint → RunState → Option Value × RunState) :
    List (Endpoint × String) → Table Value → RunState → Table Value × RunState
  | [], inputs, state => (inputs, state)
  | (source, pin) :: rest, inputs, state =>
    match pull source state with
    | (some value, state) => bringAll pull rest (inputs.insert pin value) state
    | (none, state) => bringAll pull rest inputs state

def gatherWith (setup : Setup) (scope : Scope)
    (pull : Endpoint → RunState → Option Value × RunState) (id : String)
    (state : RunState) : Table Value × RunState :=
  match scope.graph.node? id with
  | none => (.empty, state)
  | some node =>
    let kind? := setup.catalogue.kind? node.kind
    bringAll pull (dataWires setup scope kind? id)
      (nodeDefaults kind? node) state

/-! ## Pulling -/

inductive Evaluator where
  | entry (entry : Entry)
  | call

def functionName (node : Node) : String :=
  (node.configText? "function").getD ""

def callsPureFunction (setup : Setup) (node : Node) : Bool :=
  match (node.configText? "function").bind fun name =>
      setup.functions.get? name with
  | some function => function.isPure
  | none => false

def evaluator? (setup : Setup) (node : Node) : Option Evaluator :=
  if node.kind == callKind then
    if callsPureFunction setup node then some .call else none
  else match setup.catalogue.lookup node.kind with
    | some entry => if entry.kind.isPure then some (.entry entry) else none
    | none => none

def pureInvocation (node : Node) (inputs : Table Value) (state : RunState) :
    Invocation :=
  -- A node that is pulled is not told what has triggered the run.
  { nodeId := node.id
    nodeKind := node.kind
    config := node.config
    inputs := inputs
    snapshot := state.activation.view.snapshot }

def pulledValues (output : Output) : Except String (Table Value) :=
  match output.errorMessage? with
  | some message => .error message
  | none => .ok output.values

def evaluate (call : Caller) (how : Evaluator) (node : Node)
    (inputs : Table Value) (state : RunState) :
    Except String (Table Value) × RunState :=
  match how with
  | .entry entry =>
    match state.invoke entry (pureInvocation node inputs state) with
    | (.ok output, state) => (pulledValues output, state)
    | (.error cause, state) => (.error cause.message, state)
  | .call =>
    match call node inputs state with
    | (.ok values, state) => (.ok values, state)
    | (.error cause, state) => (.error cause.message, state)

/-- Ends a pull: the values are kept, so that the node is not evaluated again.
A failure is reported and leaves no values. -/
def settlePull (id : String) (outcome : Except String (Table Value))
    (state : RunState) : Table Value × RunState :=
  let state := state.endPull id
  match outcome with
  | .ok values => (values, state.setOutputs id values)
  | .error message =>
    (.empty, (state.report id .pullError message).setOutputs id .empty)

def pullable? (setup : Setup) (scope : Scope) (id : String) :
    Option (Node × Evaluator) :=
  (scope.graph.node? id).bind fun node => (evaluator? setup node).map fun how =>
    (node, how)

def pullWith (setup : Setup) (scope : Scope) (call : Caller)
    (deeper : Endpoint → RunState → Option Value × RunState) (source : Endpoint)
    (state : RunState) : Option Value × RunState :=
  match state.outputs? source.node with
  | some values => (values.get? source.pin, state)
  | none =>
    match pullable? setup scope source.node with
    -- A node with effects brings nothing until control has visited it.
    | none => (none, state)
    | some (node, how) =>
      if state.activation.pulling.contains source.node then (none, state)
      else
        let (inputs, state) :=
          gatherWith setup scope deeper source.node
            (state.beginPull source.node)
        let (outcome, state) := evaluate call how node inputs state
        let (values, state) := settlePull source.node outcome state
        (values.get? source.pin, state)

/-- Pulls that nest at most `levels` deep.  Each is for another node of the
graph, so levels beyond the number of nodes are not reached. -/
def pullWithin (setup : Setup) (scope : Scope) (call : Caller) :
    Nat → Endpoint → RunState → Option Value × RunState
  | 0 => fun _ state => (none, state)
  | levels + 1 => fun source state =>
    pullWith setup scope call (pullWithin setup scope call levels) source state

def pullDepth (scope : Scope) : Nat :=
  scope.graph.nodes.length + 1

def pull (setup : Setup) (scope : Scope) (call : Caller) (source : Endpoint)
    (state : RunState) : Option Value × RunState :=
  pullWithin setup scope call (pullDepth scope) source state

def gather (setup : Setup) (scope : Scope) (call : Caller) (id : String)
    (state : RunState) : Table Value × RunState :=
  gatherWith setup scope (pull setup scope call) id state

end ScriptGraph.Engine
