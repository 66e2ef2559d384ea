import Mathlib.Order.WellFounded
import ScriptGraph.Proofs.Levels
import ScriptGraph.Proofs.Simulation

/-!
# Every run ends

A graph may be wired in circles in every way: control may come back to a
node, data may depend on itself, and functions may call one another.  None of
this makes a run go on forever.  From every configuration the machine comes
to a halt, and so it has no infinite execution, nor do the pops of a walk go
on without end.  On the way, the pulls that are open in an activation are for
different nodes of its graph, and the calls nest at most as deep as the limit
says.
-/

namespace ScriptGraph.Engine.Machine

open Json

def Endless {α : Type} (relation : α → α → Prop) : Prop :=
  ∃ run : Nat → α, ∀ n, relation (run n) (run (n + 1))

theorem not_endless {α : Type} {relation : α → α → Prop}
    (h : WellFounded fun next first => relation first next) :
    ¬Endless relation := by
  rintro ⟨run, follows⟩
  exact (wellFounded_iff_isEmpty_descending_chain.mp h).false ⟨run, follows⟩

/-! ## The machine halts -/

section Halting

variable {setup : Setup} {config next : Config}

def Halts (setup : Setup) (config : Config) : Prop :=
  ∃ final, Reaches setup config final ∧ Halted setup final

theorem Halts.of_reaches (h : Reaches setup config next)
    (halts : Halts setup next) :
    Halts setup config := by
  obtain ⟨final, reached, halted⟩ := halts
  exact ⟨final, h.trans reached, halted⟩

theorem idle_halts (scope : Scope) (stack : List Frame) (state : RunState)
    (pending : List String) :
    Halts setup ⟨scope, stack, [], state, [], pending⟩ := by
  induction pending generalizing stack state with
  | nil => exact ⟨_, walk_reaches (calls_reach _) stack state rfl, rfl⟩
  | cons id pending ih =>
      refine .of_reaches (walk_reaches (calls_reach _) stack state rfl) ?_
      exact .of_reaches (.single rfl) (ih [.visit id] _)

theorem job_halts {scope : Scope} {stack : List Frame} {job : Job}
    {more : List Gathering} {callers : List Suspended} {pending : List String}
    (rest : ∀ stack state,
      Halts setup ⟨scope, stack, more, state, callers, pending⟩)
    (inputs : Table Value) (state : RunState) :
    Halts setup ⟨scope, stack, ⟨.job job, [], inputs⟩ :: more, state, callers,
      pending⟩ := by
  have concluded : ∀ answer state, Halts setup
      (conclude setup job answer
        ⟨scope, stack, more, state, callers, pending⟩) := by
    intro answer state
    unfold conclude
    cases job.demand with
    | visit => exact rest _ _
    | pull => exact rest _ _
  cases hhow : job.how with
  | entry entry =>
      have invoked := concluded
        (state.invoke entry (job.invocation setup inputs state)).1
        (state.invoke entry (job.invocation setup inputs state)).2
      refine .of_reaches (.single ?_) invoked
      simp only [StepsTo, step, perform, hhow]
  | call =>
      exact .of_reaches
        (calls_reach _ job inputs scope stack more state callers
          pending hhow rfl)
        (concluded _ _)

theorem giveBack_halts {callers : List Suspended} {pending : List String}
    (rest : ∀ scope stack gatherings state,
      Halts setup ⟨scope, stack, gatherings, state, callers, pending⟩)
    (results : Table Value) (body : RunState) (caller : Suspended) :
    Halts setup (giveBack setup results body caller callers pending) := by
  unfold giveBack conclude
  cases caller.job.demand with
  | visit => exact rest _ _ _ _
  | pull => exact rest _ _ _ _

theorem gathering_halts {scope : Scope} {stack : List Frame}
    {more : List Gathering} {callers : List Suspended} {pending : List String}
    (rest : ∀ stack state,
      Halts setup ⟨scope, stack, more, state, callers, pending⟩)
    (returns : ∀ results state,
      Halts setup ⟨scope, stack, ⟨.results, [], results⟩ :: more, state,
        callers, pending⟩)
    (gathering : Gathering) (state : RunState) :
    Halts setup ⟨scope, stack, gathering :: more, state, callers, pending⟩ := by
  obtain ⟨purpose, wires, inputs⟩ := gathering
  refine .of_reaches (wires_reach (calls_reach _) state rfl ..) ?_
  cases purpose with
  | job job => exact job_halts rest _ _
  | results => exact returns _ _

theorem halts (config : Config) : Halts setup config := by
  obtain ⟨scope, stack, gatherings, state, callers, pending⟩ := config
  induction callers generalizing scope stack gatherings state with
  | nil =>
      induction gatherings generalizing stack state with
      | nil => exact idle_halts scope stack state pending
      | cons gathering more ih =>
          exact gathering_halts ih (fun _ _ => ⟨_, .refl, rfl⟩) gathering state
  | cons caller callers outer =>
      have returns : ∀ stack more results state, Halts setup
          ⟨scope, stack, ⟨.results, [], results⟩ :: more, state,
            caller :: callers, pending⟩ := by
        intro stack more results state
        exact .of_reaches (.single rfl)
          (giveBack_halts outer results state caller)
      induction gatherings generalizing stack state with
      | nil =>
          refine .of_reaches (walk_reaches (calls_reach _) stack state rfl) ?_
          refine .of_reaches
            (.head rfl (gather_reaches
              (calls_reach _) .results exitMarker _ rfl)) ?_
          exact returns _ _ _ _
      | cons gathering more ih =>
          exact gathering_halts ih (returns stack more) gathering state

/-- The machine has one way to go on, so the configurations from which it
halts are accessible. -/
theorem Halts.acc (h : Halts setup config) :
    Acc (fun next config => StepsTo setup config next) config := by
  obtain ⟨final, reached, halted⟩ := h
  induction reached using Relation.ReflTransGen.head_induction_on with
  | refl =>
      refine .intro _ fun next stepped => ?_
      rw [StepsTo, halted] at stepped
      cases stepped
  | head first _ ih =>
      refine .intro _ fun next stepped => ?_
      have same := Option.some.inj (first.symm.trans stepped)
      rw [← same]
      exact ih

theorem not_endless_steps (setup : Setup) : ¬Endless (StepsTo setup) :=
  not_endless ⟨fun config => (halts config).acc⟩

end Halting

/-! ## Pops come to an end -/

section Pops

variable (setup : Setup) (scope : Scope)

def PopsTo (before after : List Frame × RunState) : Prop :=
  ∃ frame rest, before.1 = frame :: rest ∧
    pop setup scope (call setup) frame rest before.2 = (some after.1, after.2)

def WalkOver (walk : List Frame × RunState) : Prop :=
  ∀ frame rest, walk.1 = frame :: rest →
    (pop setup scope (call setup) frame rest walk.2).1 = none

theorem popsTo_wellFounded :
    WellFounded fun after before => PopsTo setup scope before after := by
  refine Subrelation.wf ?_
    (measure fun walk : List Frame × RunState =>
      popsLeft setup.limits walk.1 walk.2).wf
  rintro ⟨after, next⟩ ⟨stack, state⟩ ⟨frame, rest, rfl, hpop⟩
  exact popsLeft_pop_lt setup scope (call_steady setup) hpop

theorem pops_end (walk : List Frame × RunState) :
    ∃ last, Relation.ReflTransGen (PopsTo setup scope) walk last ∧
      WalkOver setup scope last := by
  induction walk using (popsTo_wellFounded setup scope).induction with
  | _ walk ih =>
      by_cases hover : WalkOver setup scope walk
      · exact ⟨walk, .refl, hover⟩
      · obtain ⟨frame, rest, hstack, hgoes⟩ : ∃ frame rest,
            walk.1 = frame :: rest ∧
            (pop setup scope (call setup) frame rest walk.2).1 ≠ none := by
          simpa [WalkOver] using hover
        obtain ⟨after, hafter⟩ := Option.ne_none_iff_exists'.mp hgoes
        have popped : PopsTo setup scope walk
            (after, (pop setup scope (call setup) frame rest walk.2).2) :=
          ⟨frame, rest, hstack, Prod.ext hafter rfl⟩
        obtain ⟨last, reached, hlast⟩ := ih _ popped
        exact ⟨last, .head popped reached, hlast⟩

end Pops

/-! ## Nesting -/

def pulledIds (jobs : List Job) : List String :=
  (jobs.filter fun job => job.demand = .pull).map fun job => job.node.id

structure Level.Tracked (level : Level) (depth : Nat) : Prop where
  pulling : level.pulling = pulledIds level.jobs
  nodup : level.pulling.Nodup
  inGraph : ∀ id ∈ level.pulling, id ∈ Graph.ids level.scope.graph
  depth : level.depth = depth

def Nested (limits : Limits) : List Level → Prop
  | [] => True
  | level :: outer =>
      level.Tracked outer.length ∧ outer.length ≤ limits.maxCallDepth.toNat ∧
        Nested limits outer

section Nesting

variable {setup : Setup} {level after : Level} {depth : Nat}

theorem Closes.tracked (h : Closes level after)
    (tracked : level.Tracked depth) :
    after.Tracked depth := by
  obtain ⟨hpulling, hnodup, hids, hdepth⟩ := tracked
  cases h with
  | @visit job jobs stack hjobs hdemand =>
      refine ⟨?_, hnodup, hids, hdepth⟩
      rw [hpulling, hjobs]
      simp [pulledIds, hdemand]
  | @pull job jobs hjobs hdemand =>
      refine ⟨?_, hnodup.erase _, ?_, hdepth⟩
      · dsimp only
        rw [hpulling, hjobs]
        simp [pulledIds, hdemand]
      · intro id hid
        exact hids id (List.mem_of_mem_erase hid)

theorem Change.nested {attempt : Bool} {before levels : List Level}
    (h : Change setup attempt before levels)
    (nested : Nested setup.limits before) :
    Nested setup.limits levels := by
  cases h with
  | stay => exact nested
  | walk stack hjobs hstack =>
      obtain ⟨⟨hpulling, hnodup, hids, hdepth⟩, outer⟩ := nested
      exact ⟨⟨hpulling, hnodup, hids, hdepth⟩, outer⟩
  | refuse hjobs hstack hlimit =>
      obtain ⟨⟨hpulling, hnodup, hids, hdepth⟩, outer⟩ := nested
      exact ⟨⟨hpulling, hnodup, hids, hdepth⟩, outer⟩
  | take stack hjobs hstack hlimit hvisit =>
      obtain ⟨⟨hpulling, hnodup, hids, hdepth⟩, outer⟩ := nested
      refine ⟨⟨?_, hnodup, hids, hdepth⟩, outer⟩
      rw [hjobs] at hpulling
      rcases hvisit with rfl | ⟨job, rfl, hdemand⟩
      · exact hpulling
      · simpa [pulledIds, hdemand] using hpulling
  | openPull hnode hhow hfresh =>
      obtain ⟨⟨hpulling, hnodup, hids, hdepth⟩, outer⟩ := nested
      refine ⟨⟨?_, hnodup.cons hfresh, ?_, hdepth⟩, outer⟩
      · simp [pulledIds, hpulling]
      · intro id hid
        rcases List.mem_cons.mp hid with rfl | hid
        · exact mem_ids hnode
        · exact hids id hid
  | close hclose => exact ⟨hclose.tracked nested.1, nested.2⟩
  | enter hjobs hhow hcallee =>
      -- Calls are refused beyond the limit, so the body is not too deep.
      have hlt := (callee_ok hcallee).2.2
      have hdepth := nested.1.depth
      refine ⟨⟨rfl, .nil, by simp [bodyLevel], ?_⟩, ?_, nested⟩
      · simp [bodyLevel, hdepth]
      · rw [List.length_cons]
        omega
  | leave hclose =>
      obtain ⟨-, -, ⟨hpulling, hnodup, hids, hdepth⟩, outer⟩ := nested
      exact ⟨hclose.tracked ⟨hpulling, hnodup, hids, hdepth⟩, outer⟩

def Level.openPulls (level : Level) : Nat :=
  level.jobs.countP fun job => job.demand = .pull

theorem Level.Tracked.openPulls_le (tracked : level.Tracked depth) :
    level.openPulls ≤ (Graph.ids level.scope.graph).card := by
  calc level.openPulls
      = level.pulling.length := by
        rw [tracked.pulling, pulledIds, List.length_map, Level.openPulls,
          List.countP_eq_length_filter]
    _ = level.pulling.toFinset.card :=
      (List.toFinset_card_of_nodup tracked.nodup).symm
    _ ≤ (Graph.ids level.scope.graph).card := by
        apply Finset.card_le_card
        intro id hid
        exact tracked.inGraph id (List.mem_toFinset.mp hid)

theorem Nested.openPulls_le {limits : Limits} {levels : List Level}
    (nested : Nested limits levels) :
    ∀ level ∈ levels, level.openPulls ≤ (Graph.ids level.scope.graph).card := by
  induction levels with
  | nil => simp
  | cons first outer ih =>
      intro level hlevel
      rcases List.mem_cons.mp hlevel with rfl | hlevel
      · exact nested.1.openPulls_le
      · exact ih nested.2.2 level hlevel

theorem Reaches.nested {first last : Config}
    (reached : Reaches setup first last)
    (nested : Nested setup.limits first.levels) :
    Nested setup.limits last.levels := by
  induction reached with
  | refl => exact nested
  | tail _ stepped ih => exact (step_changes stepped).nested ih

theorem start_nested (limits : Limits) (catalogue : Catalogue)
    (blueprint : Blueprint) (trigger : Trigger) (services : Services) :
    Nested limits (start catalogue blueprint trigger services).levels :=
  ⟨⟨rfl, .nil, List.forall_mem_nil _, rfl⟩, Nat.zero_le _, trivial⟩

end Nesting

/-! ## Runs -/

/-- A run comes to its end.  The machine has no infinite execution from any
configuration, and the pops of a walk empty or abandon its stack, from any
stack and any state.  Along the run, calls nest no deeper than the limit and
the pulls open in an activation are no more than the ids of its graph. -/
theorem every_run_ends (catalogue : Catalogue) (limits : Limits)
    (blueprint : Blueprint) (trigger : Trigger) (services : Services) :
    let setup := setupOf catalogue limits blueprint trigger
    let first := start catalogue blueprint trigger services
    (∃ final, Reaches setup first final ∧ Halted setup final ∧
      runBlueprint catalogue limits blueprint trigger services =
        (finalReport final.state, final.state.services)) ∧
    ¬Endless (StepsTo setup) ∧
    (∀ scope, ¬Endless (PopsTo setup scope) ∧
      ∀ walk, ∃ last, Relation.ReflTransGen (PopsTo setup scope) walk last ∧
        WalkOver setup scope last) ∧
    ∀ config, Reaches setup first config →
      config.callers.length ≤ limits.maxCallDepth.toNat ∧
      ∀ level ∈ config.levels, level.openPulls ≤
        (Graph.ids level.scope.graph).card := by
  intro setup first
  refine ⟨run_reaches catalogue limits blueprint trigger services,
    not_endless_steps setup, ?_, ?_⟩
  · intro scope
    exact ⟨not_endless (popsTo_wellFounded setup scope), pops_end setup scope⟩
  · intro config reached
    have nested :=
      Reaches.nested reached
        (start_nested limits catalogue blueprint trigger services)
    refine ⟨?_, nested.openPulls_le⟩
    have hdeep := nested.2.1
    rwa [List.length_map] at hdeep

end ScriptGraph.Engine.Machine
