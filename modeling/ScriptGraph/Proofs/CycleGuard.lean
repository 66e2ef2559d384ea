import Mathlib.Data.List.Chain
import ScriptGraph.Library
import ScriptGraph.Proofs.Ledgers
import ScriptGraph.Proofs.Naive

/-!
# The guard against cycles

An activation notes for which nodes a pull is under way, and a pull for one of
them brings nothing.  This guard is exact: it holds the nodes of the open pulls
and no others, none of which has outputs yet.  It is released on every path:
gathering inputs and pulling a pin leave it as it was, a pull that is over has
left outputs for its node, and where a walk pops a frame no pull is open.

The open pulls of an activation form a chain.  The inputs of each are being
gathered for the sake of a wire of the next, so the node of each feeds the next.
When the guard refuses a node, that node is somewhere in the chain, and the wire
that asks for it closes the chain to a cycle.
-/

namespace ScriptGraph.Engine.Machine

open Json
open Naive (Feeds)

/-! ## Chains of gatherings -/

def Purpose.target : Purpose → String
  | .job work => work.node.id
  | .results => exitMarker

/-- The inner gathering is for a pull of the node that the outer one's first
wire comes from. -/
def Serves (inner outer : Gathering) : Prop :=
  ∃ job source pin wires, inner.purpose = .job job ∧ job.demand = .pull ∧
    outer.wires = (source, pin) :: wires ∧ source.node = job.node.id

structure Linked (setup : Setup) (scope : Scope) (gatherings : List Gathering) :
    Prop where
  chain : gatherings.IsChain Serves
  wired : ∀ gathering ∈ gatherings,
    gathering.wires ⊆ inputWires setup scope gathering.purpose.target

structure Config.Linked (setup : Setup) (config : Config) : Prop where
  hand : Machine.Linked setup config.scope config.gatherings
  callers : ∀ caller ∈ config.callers,
    Machine.Linked setup caller.scope caller.gatherings

section Chains

variable {setup : Setup} {scope : Scope} {gathering : Gathering}
  {more : List Gathering}

theorem linked_nil : Linked setup scope [] :=
  ⟨.nil, List.forall_mem_nil _⟩

theorem Linked.tail (linked : Linked setup scope (gathering :: more)) :
    Linked setup scope more :=
  ⟨linked.chain.tail, (List.forall_mem_cons.mp linked.wired).2⟩

theorem Linked.begin (linked : Linked setup scope more) (purpose : Purpose)
    (inputs : Table Value)
    (serves : ∀ outer ∈ more.head?,
      Serves ⟨purpose, inputWires setup scope purpose.target, inputs⟩ outer) :
    Linked setup scope
      (⟨purpose, inputWires setup scope purpose.target, inputs⟩ :: more) :=
  ⟨List.isChain_cons.mpr ⟨serves, linked.chain⟩,
    List.forall_mem_cons.mpr ⟨List.Subset.refl _, linked.wired⟩⟩

theorem Linked.results {wires : List (Endpoint × String)} {inputs : Table Value}
    (linked : Linked setup scope (⟨.results, wires, inputs⟩ :: more)) :
    more = [] := by
  cases more with
  | nil => rfl
  | cons outer more =>
      obtain ⟨job, _, _, _, hpurpose, -⟩ :=
        (List.isChain_cons_cons.mp linked.chain).1
      cases hpurpose

end Chains

section Steps

variable {setup : Setup} {config next : Config}

theorem Config.Linked.conclude (linked : config.Linked setup) (job : Job)
    (answer : Except Failure Output) :
    (conclude setup job answer config).Linked setup := by
  obtain ⟨hand, callers⟩ := linked
  constructor
  · simpa using hand
  · simpa [conclude_callers] using callers

theorem Move.linked (h : Move setup config next)
    (linked : config.Linked setup) :
    next.Linked setup := by
  obtain ⟨hand, callers⟩ := linked
  cases h with
  | @bring purpose source pin wires inputs more hgatherings =>
      rw [hgatherings] at hand
      obtain ⟨chain, wired⟩ := hand
      obtain ⟨serves, rest⟩ := List.isChain_cons.mp chain
      obtain ⟨first, others⟩ := List.forall_mem_cons.mp wired
      refine ⟨⟨List.isChain_cons.mpr ⟨serves, rest⟩, ?_⟩, callers⟩
      exact List.forall_mem_cons.mpr ⟨(List.cons_subset.mp first).2, others⟩
  | @openPull purpose source pin wires inputs more node how hgatherings hsource
      huncached hnode hhow hfresh =>
      refine ⟨hand.begin (.job ⟨.pull, node, how⟩) _ ?_, callers⟩
      -- The new pull is for the wire at the front of the one that asks.
      intro outer houter
      rw [hgatherings] at houter
      cases houter
      exact ⟨_, source, pin, wires, rfl, rfl, rfl, hsource⟩
  | invoke hgatherings hhow =>
      rw [hgatherings] at hand
      refine Config.Linked.conclude ?_ _ _
      exact ⟨hand.tail, callers⟩
  | refuseCall hgatherings hhow hcallee =>
      rw [hgatherings] at hand
      refine Config.Linked.conclude ?_ _ _
      exact ⟨hand.tail, callers⟩
  | enter hgatherings hhow hcallee =>
      rw [hgatherings] at hand
      -- The body starts a chain of its own, which the call does not lengthen.
      exact ⟨linked_nil, List.forall_mem_cons.mpr ⟨hand.tail, callers⟩⟩
  | giveBack hgatherings hcallers =>
      rw [hcallers] at callers
      obtain ⟨caller, outer⟩ := List.forall_mem_cons.mp callers
      exact Config.Linked.conclude ⟨caller, outer⟩ _ _
  | refuse hgatherings hstack htaken => exact ⟨hand, callers⟩
  | pass hgatherings hstack htaken hframes => exact ⟨hand, callers⟩
  | unknown hgatherings hstack htaken hnode hexit hrunner =>
      exact ⟨hand, callers⟩
  | @visit id rest after node how hgatherings hstack htaken hnode hexit
    hrunner =>
      refine ⟨hand.begin (.job ⟨.visit, node, how⟩) _ ?_, callers⟩
      simp [hgatherings]
  | iterate hgatherings hstack => exact ⟨hand, callers⟩
  | collect hgatherings hstack hcallers =>
      refine ⟨hand.begin .results _ ?_, callers⟩
      simp [hgatherings]
  | nextEntry hgatherings hstack hcallers hpending => exact ⟨hand, callers⟩

theorem Reaches.linked (reached : Reaches setup config next)
    (linked : config.Linked setup) :
    next.Linked setup := by
  induction reached with
  | refl => exact linked
  | tail _ stepped ih => exact (step_moves stepped).linked ih

theorem start_linked (setup : Setup) (catalogue : Catalogue)
    (blueprint : Blueprint) (trigger : Trigger) (services : Services) :
    (start catalogue blueprint trigger services).Linked setup :=
  ⟨linked_nil, List.forall_mem_nil _⟩

end Steps

/-! ## What the guard holds -/

/-- An activation in which these jobs are under way: the guard holds the nodes
that are pulled, each once, and none of them has outputs. -/
structure Guards (jobs : List Job) (activation : Activation) : Prop where
  opened : ∀ id, id ∈ activation.pulling ↔
    ∃ job ∈ jobs, job.demand = .pull ∧ job.node.id = id
  once : activation.pulling.Nodup
  unset : ∀ id ∈ activation.pulling, activation.outputs.get? id = none

structure Config.Guarded (config : Config) : Prop where
  hand : Guards (openJobs config.gatherings) config.state.activation
  callers : ∀ caller ∈ config.callers,
    Guards (caller.job :: openJobs caller.gatherings) caller.activation

section Guarding

variable {setup : Setup} {config : Config}

theorem mem_pulledIds {jobs : List Job} {id : String} :
    id ∈ pulledIds jobs ↔
      ∃ job ∈ jobs, job.demand = .pull ∧ job.node.id = id := by
  simp [pulledIds, and_assoc]

theorem Level.Tracked.guards {scope : Scope} {stack : List Frame}
    {jobs : List Job} {activation : Activation} {depth : Nat}
    (tracked : (levelOf scope stack jobs activation).Tracked depth)
    (unset : ∀ job ∈ jobs, job.demand = .pull →
      activation.outputs.get? job.node.id = none) :
    Guards jobs activation := by
  have hpulling : activation.pulling = pulledIds jobs := tracked.pulling
  refine ⟨fun id =>
    by rw [hpulling, mem_pulledIds], tracked.nodup, fun id hid => ?_⟩
  rw [hpulling, mem_pulledIds] at hid
  obtain ⟨job, hjob, hdemand, rfl⟩ := hid
  exact unset job hjob hdemand

theorem Nested.tracked {limits : Limits} {levels : List Level}
    (nested : Nested limits levels) :
    ∀ level ∈ levels, ∃ depth, level.Tracked depth := by
  induction levels with
  | nil => simp
  | cons first outer ih =>
      intro level hlevel
      rcases List.mem_cons.mp hlevel with rfl | hlevel
      · exact ⟨_, nested.1⟩
      · exact ih nested.2.2 level hlevel

theorem exists_ledgerBelow {caller : Suspended} {callers : List Suspended}
    (hcaller : caller ∈ callers) (hand : Ledger) :
    ∃ depth, depth < callers.length ∧
      ledgerBelow depth hand callers = caller.ledger := by
  induction callers generalizing hand with
  | nil => cases hcaller
  | cons first rest ih =>
      rcases List.mem_cons.mp hcaller with rfl | hcaller
      · refine ⟨rest.length, by simp, ?_⟩
        rw [ledgerBelow_cons (Nat.le_refl _), ledgerBelow_of_le (Nat.le_refl _)]
      · obtain ⟨depth, hdepth, hledger⟩ := ih hcaller first.ledger
        refine ⟨depth, Nat.lt_succ_of_lt hdepth, ?_⟩
        rw [ledgerBelow_cons hdepth.le, hledger]

theorem Config.Regular.guarded (regular : config.Regular setup) :
    config.Guarded := by
  constructor
  · have sound := regular.sound config.callers.length (Nat.le_refl _)
    rw [Config.ledgerAt, ledgerBelow_of_le (Nat.le_refl _)] at sound
    exact regular.nested.1.guards sound.unset
  · intro caller hcaller
    obtain ⟨depth, hdepth, hledger⟩ := exists_ledgerBelow hcaller config.ledger
    have sound := regular.sound depth hdepth.le
    rw [Config.ledgerAt, hledger] at sound
    have hlevel : caller.level ∈ config.levels :=
      List.mem_cons_of_mem _ (List.mem_map_of_mem hcaller)
    obtain ⟨_, tracked⟩ := regular.nested.tracked _ hlevel
    exact tracked.guards sound.unset

theorem Config.Regular.released (regular : config.Regular setup)
    (hgatherings : config.gatherings = []) (hstack : config.stack ≠ []) :
    ∀ level ∈ config.levels, level.pulling = [] := by
  intro level hlevel
  obtain ⟨_, tracked⟩ := regular.nested.tracked level hlevel
  rw [tracked.pulling, List.eq_nil_iff_forall_not_mem]
  intro id hid
  obtain ⟨job, hjob, hdemand, -⟩ := mem_pulledIds.mp hid
  rcases List.mem_cons.mp hlevel with rfl | hcaller
  · simp [Config.level, levelOf, hgatherings] at hjob
  · have quiet := (regular.ordered.2.1 level hcaller).2 ⟨job, hjob, hdemand⟩
    exact hstack quiet.1

end Guarding

/-! ## Pulls that end -/

def Config.OpenAt (config : Config) (depth : Nat) (id : String) : Prop :=
  ∃ job ∈ (config.ledgerAt depth).jobs, job.demand = .pull ∧ job.node.id = id

section Closing

variable {setup : Setup} {config next : Config} {depth : Nat} {id : String}

theorem Alters.closes {before after : Ledger} {performed? : Option Job}
    (h : Alters before performed? after) {job : Job}
    (hjob : job ∈ before.jobs) :
    job ∈ after.jobs ∨ after.outputs.get? job.node.id ≠ none := by
  cases h with
  | walk hloops => exact .inl hjob
  | begin hwaits hloops hunset => exact .inl (List.mem_cons_of_mem _ hjob)
  | wait hwaits hjobs => exact .inl hjob
  | finish values hperformed hjobs hapart hloops =>
      rw [hjobs] at hjob
      rcases List.mem_cons.mp hjob with rfl | hjob
      · exact .inr (by simp)
      · exact .inl hjob
  | iterate values hnode hjobs hloops => exact .inl hjob

theorem Move.left (h : Move setup config next) (linked : config.Linked setup)
    (hshorter : next.callers.length < config.callers.length) :
    config.callers.length = next.callers.length + 1 ∧
      openJobs config.gatherings = [] := by
  cases h with
  | @giveBack results more caller callers hgatherings hcallers =>
      have hand := linked.hand
      rw [hgatherings] at hand
      refine ⟨?_, ?_⟩
      · simp [Machine.giveBack, conclude_callers, hcallers]
      · simp [hgatherings, hand.results]
  | enter hgatherings hhow hcallee =>
      simp only [Machine.enter, List.length_cons] at hshorter
      omega
  | invoke hgatherings hhow => simp [conclude_callers] at hshorter
  | refuseCall hgatherings hhow hcallee => simp [conclude_callers] at hshorter
  | _ => simp [beginGathering] at hshorter

theorem StepsTo.closes (stepped : StepsTo setup config next)
    (regular : config.Regular setup) (linked : config.Linked setup)
    (hdepth : depth ≤ config.callers.length) (opened : config.OpenAt depth id) :
    depth ≤ next.callers.length ∧
      (next.OpenAt depth id ∨
        (next.ledgerAt depth).outputs.get? id ≠ none) := by
  obtain ⟨job, hjob, hdemand, rfl⟩ := opened
  have move := step_moves stepped
  by_cases hnext : depth ≤ next.callers.length
  · refine ⟨hnext, ?_⟩
    have alters := move.alters regular.nested regular.ordered hdepth hnext
    rcases alters.closes hjob with stays | houtputs
    · exact .inl ⟨job, stays, hdemand, rfl⟩
    · exact .inr houtputs
  · obtain ⟨hlength, hjobs⟩ := move.left linked (by omega)
    rw [Config.ledgerAt, ledgerBelow_of_le (by omega)] at hjob
    simp [Config.ledger, hjobs] at hjob

end Closing

/-! ## Pulls that the guard refuses -/

def Config.refused? (setup : Setup) (config : Config) : Option Endpoint :=
  match config.gatherings with
  | ⟨_, (source, _) :: _, _⟩ :: _ =>
    if (config.state.outputs? source.node).isNone &&
        (pullable? setup config.scope source.node).isSome
        && config.state.activation.pulling.contains source.node then
      some source
    else none
  | _ => none

/-- The node lies on a cycle of data wires between nodes that are being
pulled. -/
def Config.OnOpenCycle (setup : Setup) (config : Config) (id : String) : Prop :=
  Relation.TransGen
    (fun source target => Feeds setup config.scope source target ∧
    source ∈ config.state.activation.pulling ∧
    target ∈ config.state.activation.pulling) id id

section Cycles

variable {setup : Setup} {scope : Scope} {config : Config}

theorem refused?_eq_some {source : Endpoint}
    (h : config.refused? setup = some source) :
    ∃ purpose pin wires inputs more,
      config.gatherings = ⟨purpose, (source, pin) :: wires, inputs⟩ :: more ∧
      config.state.outputs? source.node = none ∧
      (pullable? setup config.scope source.node).isSome ∧
      source.node ∈ config.state.activation.pulling := by
  unfold Config.refused? at h
  split at h
  · next purpose found pin wires inputs more hgatherings =>
      split at h
      · next hrefused =>
          cases h
          simp only [Bool.and_eq_true, Option.isNone_iff_eq_none,
            List.contains_iff_mem] at hrefused
          exact ⟨purpose, pin, wires, inputs, more, hgatherings, hrefused.1.1,
            hrefused.1.2, hrefused.2⟩
      · cases h
  · cases h

theorem pull_of_refused {source : Endpoint}
    (h : config.refused? setup = some source) :
    pull setup config.scope (call setup) source config.state =
      (none, config.state) := by
  obtain ⟨_, _, _, _, _, -, huncached, hpullable, hopen⟩ := refused?_eq_some h
  obtain ⟨⟨node, how⟩, hfound⟩ := Option.isSome_iff_exists.mp hpullable
  rw [pull_eq setup config.scope (call_steady setup), pullWith, huncached,
    hfound]
  exact if_pos (List.contains_iff_mem.mpr hopen)

theorem Job.Fits.pullable {job : Job} (fits : job.Fits setup scope)
    (hdemand : job.demand = .pull) :
    (pullable? setup scope job.node.id).isSome := by
  have hpullable :=
    (pullable?_eq_some setup scope).mpr ⟨fits.found, fits.pulled hdemand⟩
  rw [hpullable]
  rfl

/-- The innermost of the open pulls feeds all others, and on the way there are
only open pulls. -/
theorem Linked.feeds {opened : String → Prop} {first : Gathering}
    {more : List Gathering} (linked : Linked setup scope (first :: more))
    (fits : ∀ job ∈ openJobs (first :: more), job.Fits setup scope)
    (isOpen : ∀ job ∈ openJobs (first :: more), job.demand = .pull →
      opened job.node.id)
    {job : Job} (hjob : job ∈ openJobs (first :: more))
    (hdemand : job.demand = .pull) :
    ∃ inner, first.purpose = .job inner ∧ inner.demand = .pull ∧
      Relation.ReflTransGen
        (fun source target => Feeds setup scope source target ∧
        opened source ∧ opened target) inner.node.id job.node.id := by
  obtain ⟨purpose, wires, inputs⟩ := first
  -- From the innermost pull outward, one wire for each gathering.
  induction more generalizing purpose wires inputs with
  | nil =>
      cases purpose with
      | results => simp at hjob
      | job inner =>
          simp only [openJobs_job, openJobs_nil, List.mem_singleton] at hjob
          subst hjob
          exact ⟨job, rfl, hdemand, .refl⟩
  | cons second rest ih =>
      obtain ⟨below, left, known⟩ := second
      obtain ⟨inner, source, pin, others, hpurpose, hinner, hwires, hsource⟩ :=
        (List.isChain_cons_cons.mp linked.chain).1
      dsimp only at hpurpose hwires
      subst hpurpose hwires
      simp only [openJobs_job, List.forall_mem_cons] at fits isOpen
      refine ⟨inner, rfl, hinner, ?_⟩
      rcases List.mem_cons.mp hjob with rfl | hjob
      · exact .refl
      · obtain ⟨outer, rfl, houter, path⟩ :=
          ih _ _ _ linked.tail fits.2 isOpen.2 hjob
        have hwire : (source, pin) ∈ inputWires setup scope outer.node.id :=
          linked.tail.wired _ List.mem_cons_self List.mem_cons_self
        have feeds : Feeds setup scope inner.node.id outer.node.id :=
          ⟨fits.1.pullable hinner,
            (fits.2 outer List.mem_cons_self).pullable houter,
            (source, pin), hwire, hsource⟩
        exact .head ⟨feeds, isOpen.1 hinner,
          isOpen.2 outer List.mem_cons_self houter⟩ path

theorem Config.Guarded.cycle {root : Scope} {source : Endpoint}
    (guarded : config.Guarded) (linked : config.Linked setup)
    (placed : config.Placed setup root)
    (refused : config.refused? setup = some source) :
    config.OnOpenCycle setup source.node := by
  obtain ⟨purpose, pin, wires, inputs, more, hgatherings, -, hpullable,
      hopen⟩ :=
    refused?_eq_some refused
  obtain ⟨job, hjob, hdemand, hid⟩ := (guarded.hand.opened source.node).mp hopen
  have hand := linked.hand
  have fits := placed.jobs
  have isOpen : ∀ job ∈ openJobs config.gatherings, job.demand = .pull →
      job.node.id ∈ config.state.activation.pulling := by
    intro job hjob hdemand
    exact (guarded.hand.opened _).mpr ⟨job, hjob, hdemand, rfl⟩
  rw [hgatherings] at hand fits isOpen hjob
  obtain ⟨inner, hinner, hpulled, path⟩ := hand.feeds fits isOpen hjob hdemand
  dsimp only at hinner
  subst hinner
  rw [hid] at path
  -- The wire that asks for the node leads to the innermost pull, which feeds
  -- the node's own.
  have hwire : (source, pin) ∈ inputWires setup config.scope inner.node.id :=
    hand.wired _ List.mem_cons_self List.mem_cons_self
  have feeds : Feeds setup config.scope source.node inner.node.id :=
    ⟨hpullable, (fits inner List.mem_cons_self).pullable hpulled, (source, pin),
      hwire, rfl⟩
  exact .head' ⟨feeds, hopen, isOpen inner List.mem_cons_self hpulled⟩ path

end Cycles

/-! ## Runs -/

/-- The guard against cycles is exact and always released.  Gathering inputs
and pulling a pin leave it as they find it, in any state of any graph.
Throughout a run it holds exactly the nodes whose pulls are open, none of which
has outputs, in every activation; where a walk pops a frame it is empty; a pull
that does not stay open has left outputs for its node; and what it refuses is a
node on a cycle of data wires between nodes that are being pulled. -/
theorem guard_exact_and_released (catalogue : Catalogue) (limits : Limits)
    (blueprint : Blueprint) (trigger : Trigger) (services : Services) :
    let setup := setupOf catalogue limits blueprint trigger
    let first := start catalogue blueprint trigger services
    (∃ final, Reaches setup first final ∧ Halted setup final ∧
      runBlueprint catalogue limits blueprint trigger services =
        (finalReport final.state, final.state.services)) ∧
    (∀ scope state,
      (∀ id, (gather setup scope (call setup) id state).2.activation.pulling =
        state.activation.pulling) ∧
      ∀ source,
        (pull setup scope (call setup) source state).2.activation.pulling =
          state.activation.pulling) ∧
    ∀ config, Reaches setup first config →
      config.Guarded ∧
      (config.gatherings = [] → config.stack ≠ [] →
        ∀ level ∈ config.levels, level.pulling = []) ∧
      (∀ next depth id, StepsTo setup config next →
        depth ≤ config.callers.length → config.OpenAt depth id →
        depth ≤ next.callers.length ∧
          (next.OpenAt depth id ∨
            (next.ledgerAt depth).outputs.get? id ≠ none)) ∧
      ∀ source, config.refused? setup = some source →
        pull setup config.scope (call setup) source config.state =
          (none, config.state) ∧ config.OnOpenCycle setup source.node := by
  intro setup first
  refine ⟨run_reaches catalogue limits blueprint trigger services,
    fun scope state => ⟨?_, ?_⟩, ?_⟩
  · intro id
    exact (gather_advances setup scope (call_steady setup) id state).pulling
  · intro source
    exact (pull_advances setup scope (call_steady setup) source state).pulling
  · intro config reached
    have regular : config.Regular setup :=
      Reaches.regular reached
        (start_regular setup catalogue blueprint trigger services)
    have linked : config.Linked setup :=
      Reaches.linked reached
        (start_linked setup catalogue blueprint trigger services)
    have placed := Reaches.placed reached
      (start_placed setup catalogue blueprint trigger services)
    refine ⟨regular.guarded, regular.released, ?_, ?_⟩
    · intro next depth id stepped hdepth opened
      exact stepped.closes regular linked hdepth opened
    · intro source refused
      exact ⟨pull_of_refused refused,
        regular.guarded.cycle linked placed refused⟩

/-! ### Two nodes that feed each other -/

namespace Circular

def blueprint : Blueprint where
  id := "circular"
  name := "Circular"
  nodes := [⟨"start", "event/OnStart", .origin, .null⟩,
    ⟨"show", "utility/Print", .origin, .null⟩,
    ⟨"here", "utility/ToString", .origin, .null⟩,
    ⟨"there", "utility/ToString", .origin, .null⟩]
  connections := [⟨"start.exec", "show.exec"⟩, ⟨"here.result", "show.message"⟩,
    ⟨"there.result", "here.value"⟩, ⟨"here.result", "there.value"⟩]

def setup : Setup :=
  setupOf Catalogue.standard {} blueprint ⟨"start", none, none⟩

def first : Config :=
  start Catalogue.standard blueprint ⟨"start", none, none⟩ {}

def asking : Config := runFor setup 6 first

theorem asking_refused :
    asking.refused? setup = some ⟨"here", "result"⟩ ∧
      asking.state.activation.pulling = ["there", "here"] ∧
      asking.OnOpenCycle setup "here" := by
  have refused : asking.refused? setup = some ⟨"here", "result"⟩ := by
    decide +kernel
  have guarded := (guard_exact_and_released Catalogue.standard {} blueprint
    ⟨"start", none, none⟩ {}).2.2 asking (reaches_runFor setup 6 first)
  exact ⟨refused, by decide +kernel, (guarded.2.2.2 _ refused).2⟩

end Circular

end ScriptGraph.Engine.Machine
