import Mathlib.Logic.Relation
import ScriptGraph.Proofs.Advance

/-!
# The engine as a machine

The engine is written as three functions that call one another.  Here the
same work is done by one machine, a small piece at each step: pop a frame,
bring what one wire carries, run a node on its inputs, enter the body of a
function or return from it.  What the functions keep in their pending calls
stands in the configuration instead:

* the stack of frames of the walk;
* the gatherings of inputs that are under way, innermost first, each for a
  node to be visited, a node to be pulled, or the results of a body;
* the callers that wait for the body at hand to return, nearest first;
* the entries of the run that have not been walked from.

A wire whose source has to be evaluated stays in its gathering until the
gathering for the source, opened on top, has put the values of the source
into the activation.  Nothing in a configuration counts steps of the machine.
-/

namespace ScriptGraph.Engine.Machine

open Json

inductive Demand where
  | visit
  | pull
  deriving DecidableEq, Repr

structure Job where
  demand : Demand
  node : Node
  how : Evaluator

inductive Purpose where
  | job (job : Job)
  | results

structure Gathering where
  purpose : Purpose
  wires : List (Endpoint × String)
  inputs : Table Value

structure Suspended where
  scope : Scope
  stack : List Frame
  job : Job
  gatherings : List Gathering
  activation : Activation
  function : Function

structure Config where
  scope : Scope
  stack : List Frame
  gatherings : List Gathering
  state : RunState
  callers : List Suspended
  pending : List String

/-! ## Running a node -/

def beginGathering (setup : Setup) (purpose : Purpose) (id : String)
    (config : Config) : Config :=
  { config with gatherings :=
    ⟨purpose, inputWires setup config.scope id,
      inputDefaults setup config.scope id⟩ :: config.gatherings }

def Job.invocation (setup : Setup) (job : Job) (inputs : Table Value)
    (state : RunState) : Invocation :=
  match job.demand with
  | .visit => visitInvocation setup job.node inputs state
  | .pull => pureInvocation job.node inputs state

def pulledOutcome : Except Failure Output → Except String (Table Value)
  | .ok output => pulledValues output
  | .error cause => .error cause.message

/-- Ends a job: a visited node is followed, the values of a pulled one kept. -/
def conclude (setup : Setup) (job : Job) (answer : Except Failure Output)
    (config : Config) : Config :=
  match job.demand with
  | .visit =>
    let (stack, state) :=
      follow setup config.scope job.node.id
        (outputOf answer) config.stack config.state
    { config with stack, state }
  | .pull =>
    { config with
      state := (settlePull job.node.id (pulledOutcome answer) config.state).2 }

def bodyStack (function : Function) : List Frame :=
  if function.isPure then []
  else visitTarget ⟨function.graph, true⟩ entryMarker "exec"

def enter (function : Function) (job : Job) (inputs : Table Value)
    (config : Config) : Config :=
  { scope := ⟨function.graph, true⟩
    stack := bodyStack function
    gatherings := []
    state := enterBody function inputs config.state
    callers :=
      ⟨config.scope, config.stack, job, config.gatherings,
        config.state.activation, function⟩ :: config.callers
    pending := config.pending }

def perform (setup : Setup) (job : Job) (inputs : Table Value)
    (config : Config) : Config :=
  match job.how with
  | .entry entry =>
    let (outcome, state) :=
      config.state.invoke entry (job.invocation setup inputs config.state)
    conclude setup job outcome { config with state }
  | .call =>
    match callee setup job.node config.state.activation.depth with
    | .error cause => conclude setup job (.error cause) config
    | .ok function => enter function job inputs config

def giveBack (setup : Setup) (results : Table Value) (body : RunState)
    (caller : Suspended) (callers : List Suspended) (pending : List String) :
    Config :=
  conclude setup caller.job
    (.ok (Output.proceed "then"
      (Parameter.values caller.function.outputs results)))
    { scope := caller.scope
      stack := caller.stack
      gatherings := caller.gatherings
      state := leaveBody caller.job.node.id body
        ⟨caller.activation, body.services⟩
      callers
      pending }

/-! ## Steps -/

def bringNext (setup : Setup) (purpose : Purpose) (source : Endpoint)
    (pin : String) (wires : List (Endpoint × String)) (inputs : Table Value)
    (more : List Gathering) (config : Config) : Config :=
  match config.state.outputs? source.node with
  | some values =>
    { config with gatherings :=
      ⟨purpose, wires, overlay inputs pin (values.get? source.pin)⟩ :: more }
  | none =>
    match pullable? setup config.scope source.node with
    | none => { config with gatherings := ⟨purpose, wires, inputs⟩ :: more }
    | some (node, how) =>
      if config.state.activation.pulling.contains source.node then
        { config with gatherings := ⟨purpose, wires, inputs⟩ :: more }
      else
        beginGathering setup (.job ⟨.pull, node, how⟩) source.node
          { config with state := config.state.beginPull source.node }

def visitNode (setup : Setup) (id : String) (config : Config) : Config :=
  match config.scope.graph.node? id with
  | none => config
  | some node =>
    if config.scope.isBody && id == exitMarker then { config with stack := [] }
    else if node.kind == callKind then
      beginGathering setup (.job ⟨.visit, node, .call⟩) node.id config
    else match setup.catalogue.lookup node.kind with
      | none =>
        let message := "unknown node type '" ++ node.kind ++ "'"
        { config with state := config.state.report id .unknownNodeKind message }
      | some entry =>
          beginGathering setup
            (.job ⟨.visit, node, .entry entry⟩) node.id config

/-- Goes on where no gathering is under way: with the first frame, with the
results of a body whose walk has ended, or with the next entry of the run. -/
def walkOn (setup : Setup) (config : Config) : Option Config :=
  match config.stack with
  | .visit id :: rest =>
    match config.state.takeStep setup.limits id with
    | (false, state) => some { config with stack := [], state }
    | (true, state) =>
        some (visitNode setup id { config with stack := rest, state })
  | .loop node pin index stop :: rest =>
    let (stack, state) :=
      iterate setup config.scope node pin index stop rest config.state
    some { config with stack, state }
  | [] =>
    match config.callers, config.pending with
    | _ :: _, _ => some (beginGathering setup .results exitMarker config)
    | [], id :: pending => some { config with stack := [.visit id], pending }
    | [], [] => none

/-- One step of the machine; `none` when there is nothing left to do. -/
def step (setup : Setup) (config : Config) : Option Config :=
  match config.gatherings with
  | [] => walkOn setup config
  | ⟨purpose, (source, pin) :: wires, inputs⟩ :: more =>
    some (bringNext setup purpose source pin wires inputs more config)
  | ⟨.job job, [], inputs⟩ :: more =>
    some (perform setup job inputs { config with gatherings := more })
  | ⟨.results, [], inputs⟩ :: _ =>
    match config.callers with
    | [] => none
    | caller :: callers =>
      some (giveBack setup inputs config.state caller callers config.pending)

def start (catalogue : Catalogue) (blueprint : Blueprint) (trigger : Trigger)
    (services : Services) : Config where
  scope := ⟨blueprint.graph, false⟩
  stack := []
  gatherings := []
  state := startState blueprint services
  callers := []
  pending := (selectEntries catalogue blueprint trigger).map Node.id

/-! ## Executions -/

def StepsTo (setup : Setup) (config next : Config) : Prop :=
  step setup config = some next

abbrev Reaches (setup : Setup) : Config → Config → Prop :=
  Relation.ReflTransGen (StepsTo setup)

def Halted (setup : Setup) (config : Config) : Prop :=
  step setup config = none

inductive Passes (setup : Setup) (first : Config) :
    List Config → Config → Prop where
  | refl : Passes setup first [] first
  | tail {history : List Config} {config next : Config} :
      Passes setup first history config → StepsTo setup config next →
      Passes setup first (history ++ [config]) next

theorem Reaches.passes {setup : Setup} {first last : Config}
    (h : Reaches setup first last) :
    ∃ history, Passes setup first history last := by
  induction h with
  | refl => exact ⟨[], .refl⟩
  | tail _ stepped ih =>
      obtain ⟨history, passed⟩ := ih
      exact ⟨_, passed.tail stepped⟩

end ScriptGraph.Engine.Machine
