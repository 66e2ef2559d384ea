import ScriptGraph.Library
import ScriptGraph.Proofs.FunctionProblems
import ScriptGraph.Proofs.Moves
import ScriptGraph.Proofs.Simulation

/-!
# Bodies have no loose ends

The engine follows wires wherever they lead: a frame may name a node that is not
there, a wire may come from nowhere, and both are passed over in silence.  The
check that precedes every call looks at the connections of the function once.
Here the two are brought together.  In a graph that has passed the check every
end of a wire is a pin of some node, so whatever a step of the machine puts on
the stack of a body or into its gatherings names a node of the body.
-/

namespace ScriptGraph

/-! ## Graphs without loose ends -/

def Graph.Has (graph : Graph) (id : String) : Prop :=
  ∃ node, graph.node? id = some node

/-- Every wire leads from a node to a node, and there is an exit. -/
structure Graph.Wired (graph : Graph) : Prop where
  ends : ∀ wire ∈ graph.wires, ∃ source target,
    wire = ⟨some source, some target⟩ ∧ graph.Has source.node ∧
    graph.Has target.node
  exit : graph.Has exitMarker

theorem Graph.Wired.target {graph : Graph} (wired : graph.Wired)
    {node pin id : String} (h : graph.target? node pin = some id) :
    graph.Has id := by
  obtain ⟨wire, hwire, htarget⟩ := List.exists_of_findSome?_eq_some h
  obtain ⟨source, target, rfl, -, htargetNode⟩ :=
    wired.ends wire (List.mem_of_mem_filter hwire)
  cases htarget
  exact htargetNode

namespace Function

theorem graph_has_iff {function : Function} {id : String} :
    function.graph.Has id ↔ function.HasNode id := by
  simp [Graph.Has, Graph.node?, graph, Graph.ofConnections, HasNode,
    ← Option.isSome_iff_exists]

theorem graph_wired {function : Function} (h : function.problems = []) :
    function.graph.Wired := by
  have formed := problems_eq_nil_iff.mp h
  constructor
  · intro wire hwire
    obtain ⟨connection, hconnection, rfl⟩ := List.mem_map.mp hwire
    obtain ⟨source, hsource, hsourceNode⟩ :=
      formed.ends connection hconnection .source
    obtain ⟨target, htarget, htargetNode⟩ :=
      formed.ends connection hconnection .target
    refine ⟨source, target, ?_, graph_has_iff.mpr hsourceNode,
      graph_has_iff.mpr htargetNode⟩
    exact congrArg₂ Wire.mk hsource htarget
  · exact graph_has_iff.mpr formed.exit

end Function

namespace Engine

open Json

/-! ## Frames and wires -/

def Frame.node : Frame → String
  | .visit node => node
  | .loop node _ _ _ => node

section Leads

variable {setup : Setup} {scope : Scope} (wired : scope.graph.Wired)

include wired

theorem has_visitTarget (node pin : String) :
    ∀ frame ∈ visitTarget scope node pin, scope.graph.Has frame.node := by
  intro frame hframe
  obtain ⟨id, hid, rfl⟩ := List.mem_map.mp hframe
  exact wired.target (Option.mem_toList.mp hid)

theorem has_flowFrames {node : String} (hnode : scope.graph.Has node)
    (flow : Flow) :
    ∀ frame ∈ flowFrames setup scope node flow, scope.graph.Has frame.node := by
  cases flow with
  | proceed pin => exact has_visitTarget wired node pin
  | sequence pins =>
      intro frame hframe
      obtain ⟨pin, -, hpin⟩ := List.mem_flatMap.mp hframe
      exact has_visitTarget wired node pin frame hpin
  | loop pin start stop current => exact List.forall_mem_singleton.mpr hnode
  | error message => exact List.forall_mem_nil _
  | finish => exact List.forall_mem_nil _

theorem has_iterate {node pin : String} {index stop : Int64} {rest : List Frame}
    {state : RunState} (hnode : scope.graph.Has node)
    (hrest : ∀ frame ∈ rest, scope.graph.Has frame.node) :
    ∀ frame ∈ (iterate setup scope node pin index stop rest state).1,
      scope.graph.Has frame.node := by
  unfold iterate
  split
  · exact List.forall_mem_append.mpr
      ⟨has_visitTarget wired node pin, List.forall_mem_cons.mpr ⟨hnode, hrest⟩⟩
  · exact List.forall_mem_append.mpr
      ⟨has_visitTarget wired node completedPin, hrest⟩

theorem dataWire?_eq {wire : Wire} (hwire : wire ∈ scope.graph.wires)
    (kind? : Option NodeKind) :
    ∃ source target, wire = ⟨some source, some target⟩ ∧
      scope.graph.Has source.node ∧ dataWire? setup scope kind? wire =
        if carriesControl setup scope kind? source target then none
        else some (source, target.pin) := by
  obtain ⟨source, target, rfl, hsource, -⟩ := wired.ends wire hwire
  exact ⟨source, target, rfl, hsource, rfl⟩

theorem has_inputWires (id : String) :
    ∀ wire ∈ inputWires setup scope id, scope.graph.Has wire.1.node := by
  unfold inputWires
  cases scope.graph.node? id with
  | none => exact List.forall_mem_nil _
  | some node =>
      intro brought hbrought
      obtain ⟨wire, hwire, hdata⟩ := List.mem_filterMap.mp hbrought
      obtain ⟨source, target, -, hsource, heq⟩ :=
        dataWire?_eq wired (List.mem_of_mem_filter hwire)
          (setup.catalogue.kind? node.kind)
      rw [heq] at hdata
      split at hdata
      · cases hdata
      · cases hdata
        exact hsource

end Leads

namespace Machine

/-! ## Bodies under way -/

/-- A body under way: it has no loose ends, and what it has still to do is for
its nodes. -/
structure Grounded (scope : Scope) (stack : List Frame)
    (gatherings : List Gathering) : Prop where
  wired : scope.graph.Wired
  frames : ∀ frame ∈ stack, scope.graph.Has frame.node
  sources : ∀ gathering ∈ gatherings, ∀ wire ∈ gathering.wires,
    scope.graph.Has wire.1.node

structure Config.Grounded (config : Config) : Prop where
  here : config.scope.isBody = true →
    Machine.Grounded config.scope config.stack config.gatherings
  callers : ∀ caller ∈ config.callers,
    caller.function.problems = [] ∧
      (caller.scope.isBody = true →
        Machine.Grounded caller.scope caller.stack caller.gatherings)

section Bodies

variable {setup : Setup} {root : Scope} {config next : Config}

theorem Grounded.less {scope : Scope} {stack frames : List Frame}
    {gatherings left : List Gathering}
    (grounded : Grounded scope stack gatherings) (hframes : frames ⊆ stack)
    (hleft : left ⊆ gatherings) : Grounded scope frames left where
  wired := grounded.wired
  frames frame h := grounded.frames frame (hframes h)
  sources gathering h := grounded.sources gathering (hleft h)

theorem Grounded.begin {scope : Scope} {stack : List Frame}
    {gatherings : List Gathering} (grounded : Grounded scope stack gatherings)
    (purpose : Purpose) (id : String) :
    Grounded scope stack
      (⟨purpose, inputWires setup scope id, inputDefaults setup scope id⟩ ::
        gatherings) where
  wired := grounded.wired
  frames := grounded.frames
  sources := List.forall_mem_cons.mpr
    ⟨has_inputWires grounded.wired id, grounded.sources⟩

theorem Config.Grounded.conclude (grounded : config.Grounded) {job : Job}
    (hjob : config.scope.graph.Has job.node.id)
    (answer : Except Failure Output) :
    (conclude setup job answer config).Grounded := by
  obtain ⟨here, callers⟩ := grounded
  unfold Machine.conclude
  cases job.demand with
  | pull => exact ⟨here, callers⟩
  | visit =>
      refine ⟨fun isBody => ?_, callers⟩
      obtain ⟨wired, frames, sources⟩ := here isBody
      exact ⟨wired,
        List.forall_mem_append.mpr ⟨has_flowFrames wired hjob _, frames⟩,
        sources⟩

theorem bodyStack_grounded {function : Function}
    (valid : function.problems = []) :
    Grounded ⟨function.graph, true⟩ (bodyStack function) [] := by
  have wired := Function.graph_wired valid
  refine ⟨wired, ?_, List.forall_mem_nil _⟩
  unfold bodyStack
  split
  · exact List.forall_mem_nil _
  · exact @has_visitTarget ⟨function.graph, true⟩ wired entryMarker "exec"

theorem Config.Placed.job_has {job : Job} {inputs : Table Value}
    {more : List Gathering} (placed : config.Placed setup root)
    (hgatherings : config.gatherings = ⟨.job job, [], inputs⟩ :: more) :
    config.scope.graph.Has job.node.id :=
  ⟨_, (placed.jobs job (by simp [hgatherings])).found⟩

theorem Move.grounded (h : Move setup config next) (hroot : root.isBody = false)
    (placed : config.Placed setup root) (grounded : config.Grounded) :
    next.Grounded := by
  obtain ⟨here, callers⟩ := grounded
  have left : ∀ {gathering : Gathering} {more : List Gathering},
      config.gatherings = gathering :: more → config.scope.isBody = true →
        Machine.Grounded config.scope config.stack more :=
    fun hgatherings isBody => (here isBody).less (List.Subset.refl _)
      (by simp [hgatherings])
  cases h with
  | bring hgatherings =>
      refine ⟨fun isBody => ?_, callers⟩
      obtain ⟨wired, frames, sources⟩ := here isBody
      rw [hgatherings] at sources
      obtain ⟨hfirst, hmore⟩ := List.forall_mem_cons.mp sources
      exact ⟨wired, frames,
        List.forall_mem_cons.mpr ⟨(List.forall_mem_cons.mp hfirst).2, hmore⟩⟩
  | openPull hgatherings hsource huncached hnode hhow hfresh =>
      exact ⟨fun isBody => (here isBody).begin _ _, callers⟩
  | invoke hgatherings hhow =>
      apply Config.Grounded.conclude
      · exact ⟨left hgatherings, callers⟩
      · exact placed.job_has hgatherings
  | refuseCall hgatherings hhow hcallee =>
      apply Config.Grounded.conclude
      · exact ⟨left hgatherings, callers⟩
      · exact placed.job_has hgatherings
  | enter hgatherings hhow hcallee =>
      have valid := (callee_ok hcallee).2.1
      exact ⟨fun _ => bodyStack_grounded valid,
        List.forall_mem_cons.mpr ⟨⟨valid, left hgatherings⟩, callers⟩⟩
  | giveBack hgatherings hcallers =>
      have called := placed.called
      rw [hcallers] at called callers
      obtain ⟨⟨-, waiting⟩, outer⟩ := List.forall_mem_cons.mp callers
      obtain ⟨-, -, -, fits, -⟩ := called
      exact Config.Grounded.conclude ⟨waiting, outer⟩
        ⟨_, (fits _ List.mem_cons_self).found⟩ _
  | refuse hgatherings hstack htaken =>
      exact ⟨fun isBody => (here isBody).less (by simp) (List.Subset.refl _),
        callers⟩
  | pass hgatherings hstack htaken hframes =>
      refine ⟨fun isBody => (here isBody).less ?_ (List.Subset.refl _), callers⟩
      rcases hframes with ⟨-, rfl⟩ | ⟨-, rfl⟩ <;> simp [hstack]
  | unknown hgatherings hstack htaken hnode hexit hrunner =>
      exact ⟨fun isBody => (here isBody).less (by simp [hstack])
        (List.Subset.refl _), callers⟩
  | @visit id rest after node how hgatherings hstack htaken hnode hexit
    hrunner =>
      refine ⟨fun isBody => ?_, callers⟩
      have waiting : Machine.Grounded config.scope rest config.gatherings :=
        (here isBody).less (by simp [hstack]) (List.Subset.refl _)
      exact waiting.begin _ _
  | iterate hgatherings hstack =>
      refine ⟨fun isBody => ?_, callers⟩
      obtain ⟨wired, frames, sources⟩ := here isBody
      rw [hstack] at frames
      obtain ⟨hnode, hrest⟩ := List.forall_mem_cons.mp frames
      exact ⟨wired, has_iterate wired hnode hrest, sources⟩
  | collect hgatherings hstack hcallers =>
      exact ⟨fun isBody => (here isBody).begin _ _, callers⟩
  | nextEntry hgatherings hstack hcallers hpending =>
      -- Entries are walked from in the graph of the blueprint only.
      have called := placed.called
      rw [hcallers] at called
      refine ⟨fun isBody => ?_, callers⟩
      rw [show config.scope = root from called, hroot] at isBody
      cases isBody

theorem Reaches.grounded (reached : Reaches setup config next)
    (hroot : root.isBody = false) (placed : config.Placed setup root)
    (grounded : config.Grounded) : next.Grounded := by
  induction reached with
  | refl => exact grounded
  | tail before stepped ih =>
      exact (step_moves stepped).grounded hroot
        (Reaches.placed before placed) ih

theorem start_grounded (catalogue : Catalogue) (blueprint : Blueprint)
    (trigger : Trigger) (services : Services) :
    (start catalogue blueprint trigger services).Grounded :=
  ⟨nofun, List.forall_mem_nil _⟩

end Bodies

/-- What a body under way finds when it looks for a node or reads a
connection. -/
structure Connected (setup : Setup) (config : Config) (function : Function) :
    Prop where
  scope : config.scope = ⟨function.graph, true⟩
  frames : ∀ frame ∈ config.stack, function.graph.Has frame.node
  sources : ∀ gathering ∈ config.gatherings, ∀ wire ∈ gathering.wires,
    function.graph.Has wire.1.node
  exit : function.graph.Has exitMarker
  connections : ∀ connection ∈ function.connections, ∀ kind?, ∃ source target,
    connection.source? = some source ∧ connection.target? = some target ∧
      dataWire? setup config.scope kind? connection.wire =
        if carriesControl setup config.scope kind? source target then none
        else some (source, target.pin)

/-- While a function is called, its body never comes to a node that is not
there: not when a frame is popped, nor when a value is pulled, nor when the
results are gathered.  No connection of the body is passed over, except for
those that carry control. -/
theorem bodies_connected (catalogue : Catalogue) (limits : Limits)
    (blueprint : Blueprint) (trigger : Trigger) (services : Services) :
    let setup := setupOf catalogue limits blueprint trigger
    let first := start catalogue blueprint trigger services
    (∃ final, Reaches setup first final ∧ Halted setup final ∧
      runBlueprint catalogue limits blueprint trigger services =
        (finalReport final.state, final.state.services)) ∧
    ∀ config, Reaches setup first config →
      ∀ caller callers, config.callers = caller :: callers →
      blueprint.functions.get? (functionName caller.job.node) =
        some caller.function ∧
        caller.function.validate (functionName caller.job.node) = .ok () ∧
        Connected setup config caller.function := by
  intro setup first
  refine ⟨run_reaches catalogue limits blueprint trigger services, ?_⟩
  intro config reached caller callers hcallers
  have placed := start_placed setup catalogue blueprint trigger services
  have called := (Reaches.placed reached placed).called
  have grounded := Reaches.grounded reached rfl placed (start_grounded ..)
  rw [hcallers] at called
  obtain ⟨hscope, -, hfunction, -, -⟩ := called
  have valid := (grounded.callers caller (by simp [hcallers])).1
  have here := grounded.here (by rw [hscope])
  obtain ⟨wired, frames, sources⟩ := here
  refine ⟨hfunction, by simp [Function.validate, valid], hscope, ?_, ?_, ?_, ?_⟩
  · simpa [hscope] using frames
  · simpa [hscope] using sources
  · simpa [hscope] using wired.exit
  · intro connection hconnection kind?
    have hwire : connection.wire ∈ config.scope.graph.wires := by
      rw [hscope]
      exact List.mem_map_of_mem hconnection
    obtain ⟨source, target, hends, -, hdata⟩ := dataWire?_eq wired hwire kind?
    exact ⟨source, target, congrArg Wire.source hends,
      congrArg Wire.target hends, hdata⟩

/-! ### A loop in the body of a function, and a value that is pulled there -/

namespace Repeated

def body : Function where
  nodes := [⟨"__entry__", "", .origin, .null⟩, ⟨"__exit__", "", .origin, .null⟩,
    ⟨"loop", "flow/ForLoop", .origin,
      .object [("defaults", .object [("end", .ofInt 2)])]⟩,
    ⟨"show", "utility/Print", .origin, .null⟩,
    ⟨"one", "utility/Constant", .origin, .object [("value", .ofInt 1)]⟩]
  connections := [⟨"__entry__.exec", "loop.exec"⟩, ⟨"loop.body", "show.exec"⟩,
    ⟨"one.value", "show.message"⟩, ⟨"loop.completed", "__exit__.exec"⟩]

def blueprint : Blueprint where
  id := "repeated"
  name := "Repeated"
  nodes := [⟨"start", "event/OnStart", .origin, .null⟩,
    ⟨"call", "function/Call", .origin, .object [("function", .text "body")]⟩]
  connections := [⟨"start.exec", "call.exec"⟩]
  functions := .single "body" body

def setup : Setup :=
  setupOf Catalogue.standard {} blueprint ⟨"start", none, none⟩

def first : Config :=
  start Catalogue.standard blueprint ⟨"start", none, none⟩ {}

def showing : Config := runFor setup 9 first

theorem showing_connected :
    ∃ caller, showing.callers = [caller] ∧
      showing.stack.map Frame.node = ["loop"] ∧
      (showing.gatherings.map fun gathering => gathering.wires.map fun wire =>
        wire.1.node) =
        [["one"]] ∧
      Connected setup showing caller.function := by
  have shown : showing.callers.length = 1 ∧
      showing.stack.map Frame.node = ["loop"] ∧
      (showing.gatherings.map fun gathering => gathering.wires.map fun wire =>
        wire.1.node) =
        [["one"]] := by
    decide +kernel
  obtain ⟨caller, hcaller⟩ := List.length_eq_one_iff.mp shown.1
  have connected :=
    (bodies_connected Catalogue.standard {} blueprint
      ⟨"start", none, none⟩ {}).2
    showing (reaches_runFor setup 9 first) caller [] hcaller
  exact ⟨caller, hcaller, shown.2.1, shown.2.2, connected.2.2⟩

end Repeated

end Machine

end Engine

end ScriptGraph
