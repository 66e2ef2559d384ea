import ScriptGraph.Engine.Call

/-!
# Runs

An engine runs its blueprint for one trigger after another.  A run starts the
variables anew, walks from every entry that the trigger selects, and ends with a
report.
-/

namespace ScriptGraph

open Json

structure Engine where
  catalogue : Catalogue
  limits : Limits := {}
  blueprint : Option Blueprint := none

namespace Engine

inductive RunError where
  | noBlueprint
  deriving DecidableEq, Repr

def RunError.message : RunError → String
  | noBlueprint => "No blueprint loaded"

/-! ## Entries -/

def entries (catalogue : Catalogue) (blueprint : Blueprint) :
    List (Node × NodeKind) :=
  blueprint.nodes.filterMap fun node =>
    match catalogue.kind? node.kind with
    | some kind => if kind.isEntry then some (node, kind) else none
    | none => none

/-- Whether an entry takes the event of a trigger: one with a configured event
takes no other. -/
def acceptsEvent (trigger : Trigger) (node : Node) : Bool :=
  match node.configText? "event_type" with
  | some wanted => trigger.event? == some wanted
  | none => true

/-- The entries that a trigger starts: those for its kind that take its event,
or all entries if none is for its kind. -/
def selectEntries (catalogue : Catalogue) (blueprint : Blueprint)
    (trigger : Trigger) : List Node :=
  let all := entries catalogue blueprint
  let matching :=
    (all.filter fun entry => entry.2.respondsTo trigger.kind).map Prod.fst
  -- Where entries are for this kind, all of them may refuse the event.
  if matching.isEmpty then all.map Prod.fst
  else matching.filter (acceptsEvent trigger)

/-! ## Runs -/

def startState (blueprint : Blueprint) (services : Services) : RunState :=
  let (view, store) := VariableView.init blueprint.variableDefaults
  { services := { services with store := store },
    activation := { view := view } }

def finalReport (state : RunState) : Report :=
  { status := .completed
    outputs := state.activation.outputs
    finalVariables := state.activation.view.final state.services.store
    diagnostics := state.activation.diagnostics.toList }

def walkEntries (setup : Setup) (scope : Scope) (entries : List Node)
    (state : RunState) : RunState :=
  entries.foldl
    (fun state entry => walk setup scope (call setup) entry.id state) state

def runBlueprint (catalogue : Catalogue) (limits : Limits)
    (blueprint : Blueprint) (trigger : Trigger) (services : Services) :
    Report × Services :=
  let setup : Setup :=
    { catalogue, limits, functions := blueprint.functions, trigger }
  let state := walkEntries setup ⟨blueprint.graph, false⟩
    (selectEntries catalogue blueprint trigger) (startState blueprint services)
  (finalReport state, state.services)

def run (engine : Engine) (trigger : Trigger) (services : Services) :
    Except RunError Report × Services :=
  match engine.blueprint with
  | none => (.error .noBlueprint, services)
  | some blueprint =>
    let (report, services) :=
      runBlueprint engine.catalogue engine.limits blueprint trigger services
    (.ok report, services)

end Engine

end ScriptGraph
