import ScriptGraph.Proofs.Levels
import ScriptGraph.Proofs.Simulation

/-!
# One step budget for a whole run

Visits are counted in the activation at hand, and the count goes with every
call and comes back with every return.  So all walks of a run, in whatever
activation, draw on the same budget: the activation at hand has counted as
many visits as have been made, and it knows whether one has been refused.

That no executor is run by a walk after a refusal rests on where a walk can
stand.  A visit is refused while no inputs are being gathered, and then every
caller waits for a call that its own walk has made, because a call that is
pulled is of a pure function, whose body is not walked.  So no node is left
whose visit has begun and whose executor has still to run.
-/

namespace ScriptGraph.Engine.Machine

open Json

/-! ## Where a walk can stand -/

def Level.Pulls (level : Level) : Prop :=
  ∃ job ∈ level.jobs, job.demand = .pull

def Level.Quiet (level : Level) : Prop :=
  level.stack = [] ∧ ∀ job ∈ level.jobs, job.demand = .pull

def Level.Waits (level : Level) : Prop :=
  ∃ job jobs, level.jobs = job :: jobs ∧ job.how = .call

structure Level.InOrder (setup : Setup) (level : Level) : Prop where
  pulledAbove : level.jobs.Pairwise fun job _ => job.demand = .pull
  pullable : ∀ job ∈ level.jobs, job.demand = .pull →
    evaluator? setup job.node = some job.how

/-- Above an activation that pulls, nothing is walked. -/
def Ordered (setup : Setup) : List Level → Prop
  | [] => True
  | level :: outer =>
      level.InOrder setup ∧
        (∀ caller ∈ outer, caller.Waits ∧ (caller.Pulls → level.Quiet)) ∧
        Ordered setup outer

section Order

variable {setup : Setup} {level after : Level} {outer : List Level}

theorem Ordered.inOrder {levels : List Level} (ordered : Ordered setup levels) :
    ∀ level ∈ levels, level.InOrder setup := by
  induction levels with
  | nil => simp
  | cons first outer ih =>
      intro level hlevel
      rcases List.mem_cons.mp hlevel with rfl | hlevel
      · exact ordered.1
      · exact ih ordered.2.2 level hlevel

theorem Level.InOrder.head_pulls {job : Job} {jobs : List Job}
    (inOrder : level.InOrder setup) (hjobs : level.jobs = job :: jobs)
    (pulls : level.Pulls) : job.demand = .pull := by
  obtain ⟨other, hother, hdemand⟩ := pulls
  have above := inOrder.pulledAbove
  rw [hjobs] at hother above
  rcases List.mem_cons.mp hother with rfl | hother
  · exact hdemand
  · exact (List.pairwise_cons.mp above).1 other hother

theorem bodyStack_of_pull {job : Job} {jobs : List Job} {depth : Nat}
    {function : Function} (inOrder : level.InOrder setup)
    (hjobs : level.jobs = job :: jobs) (hhow : job.how = .call)
    (hcallee : callee setup job.node depth = .ok function)
    (hdemand : job.demand = .pull) :
    bodyStack function = [] := by
  have pulled := inOrder.pullable job (by simp [hjobs]) hdemand
  rw [hhow] at pulled
  exact if_pos (callee_pure (evaluator?_call pulled) hcallee)

theorem Closes.jobs_eq (h : Closes level after) :
    ∃ job, level.jobs = job :: after.jobs := by
  cases h with
  | visit stack hjobs hdemand => exact ⟨_, hjobs⟩
  | pull hjobs hdemand => exact ⟨_, hjobs⟩

theorem Closes.inOrder (h : Closes level after)
    (inOrder : level.InOrder setup) :
    after.InOrder setup := by
  obtain ⟨above, pullable⟩ := inOrder
  obtain ⟨job, hjobs⟩ := h.jobs_eq
  rw [hjobs] at above pullable
  exact ⟨above.of_cons,
    fun job hjob => pullable job (List.mem_cons_of_mem _ hjob)⟩

theorem Closes.quiet (h : Closes level after) (quiet : level.Quiet) :
    after.Quiet := by
  obtain ⟨hstack, pulls⟩ := quiet
  cases h with
  | @visit job jobs stack hjobs hdemand =>
      have pulled := pulls job (by simp [hjobs])
      rw [hdemand] at pulled
      cases pulled
  | pull hjobs hdemand =>
      rw [hjobs] at pulls
      exact ⟨hstack, fun job hjob => pulls job (List.mem_cons_of_mem _ hjob)⟩

theorem Ordered.replace (ordered : Ordered setup (level :: outer))
    (inOrder : after.InOrder setup)
    (quiet : outer ≠ [] → level.Quiet → after.Quiet) :
    Ordered setup (after :: outer) := by
  obtain ⟨-, callers, rest⟩ := ordered
  refine ⟨inOrder,
    fun caller hcaller => ⟨(callers caller hcaller).1, fun pulls => ?_⟩, rest⟩
  exact quiet (List.ne_nil_of_mem hcaller) ((callers caller hcaller).2 pulls)

theorem Ordered.enter {job : Job} {jobs : List Job} {function : Function}
    (ordered : Ordered setup (level :: outer))
    (hjobs : level.jobs = job :: jobs) (hhow : job.how = .call)
    (hcallee : callee setup job.node level.depth = .ok function) :
    Ordered setup (bodyLevel function level :: level :: outer) := by
  obtain ⟨inOrder, callers, rest⟩ := ordered
  have quiet : job.demand = .pull → (bodyLevel function level).Quiet :=
    fun hdemand =>
    ⟨bodyStack_of_pull inOrder hjobs hhow hcallee hdemand, by simp [bodyLevel]⟩
  refine ⟨⟨.nil, by simp [bodyLevel]⟩, ?_, inOrder, callers, rest⟩
  intro caller hcaller
  rcases List.mem_cons.mp hcaller with rfl | hcaller
  · exact ⟨⟨job, jobs, hjobs, hhow⟩,
      fun pulls => quiet (inOrder.head_pulls hjobs pulls)⟩
  · refine ⟨(callers caller hcaller).1, fun pulls => quiet ?_⟩
    exact ((callers caller hcaller).2 pulls).2 job (by simp [hjobs])

theorem Change.ordered {attempt : Bool} {before levels : List Level}
    (h : Change setup attempt before levels) (ordered : Ordered setup before) :
    Ordered setup levels := by
  cases h with
  | stay => exact ordered
  | walk stack hjobs hwalks =>
      obtain ⟨above, pullable⟩ := ordered.1
      refine ordered.replace ⟨above, pullable⟩ fun hcallers quiet => ?_
      rcases hwalks with hstack | hnone
      · exact absurd quiet.1 hstack
      · exact absurd hnone hcallers
  | refuse hjobs hstack hlimit =>
      obtain ⟨above, pullable⟩ := ordered.1
      exact ordered.replace ⟨above, pullable⟩ fun _ quiet =>
        absurd quiet.1 hstack
  | take stack hjobs hstack hlimit hvisit =>
      refine ordered.replace ?_ fun _ quiet => absurd quiet.1 hstack
      rcases hvisit with rfl | ⟨job, rfl, hdemand⟩
      · exact ⟨.nil, by simp⟩
      · exact ⟨List.pairwise_singleton _ _, by simp [hdemand]⟩
  | openPull hnode hhow hfresh =>
      obtain ⟨above, pullable⟩ := ordered.1
      refine ordered.replace ⟨?_, ?_⟩ ?_
      · exact List.pairwise_cons.mpr ⟨fun _ _ => rfl, above⟩
      · exact List.forall_mem_cons.mpr ⟨fun _ => hhow, pullable⟩
      · rintro - ⟨hstack, pulls⟩
        exact ⟨hstack, List.forall_mem_cons.mpr ⟨rfl, pulls⟩⟩
  | close hclose =>
      exact ordered.replace (hclose.inOrder ordered.1) fun _ => hclose.quiet
  | enter hjobs hhow hcallee => exact ordered.enter hjobs hhow hcallee
  | leave hclose =>
      obtain ⟨above, pullable⟩ := ordered.2.2.1
      exact ordered.2.2.replace (hclose.inOrder ⟨above, pullable⟩) fun _ =>
        hclose.quiet

end Order

/-! ## The budget -/

def Level.Silent (level : Level) : Prop :=
  ∀ job ∈ level.jobs, job.demand = .visit → job.how = .call

/-- What the activation at hand and its callers know after a number of
attempts to visit a node. -/
structure Budget (limits : Limits) (attempts : Nat) (level : Level)
    (outer : List Level) :
    Prop where
  steps : level.steps = min attempts limits.maxSteps.toNat
  limitReported : level.limitReported =
    decide (limits.maxSteps.toNat < attempts)
  reports : level.reports + (outer.map Level.reports).sum =
    if limits.maxSteps.toNat < attempts then 1 else 0
  silent : limits.maxSteps.toNat < attempts → level.Silent ∧ ∀ caller ∈ outer,
    caller.Silent

section Counting

variable {setup : Setup} {attempts : Nat} {level after : Level}
  {outer rest : List Level}

theorem Level.InOrder.silent (inOrder : level.InOrder setup)
    (waits : level.Waits) (idle : ¬level.Pulls) : level.Silent := by
  intro job hjob hdemand
  obtain ⟨first, jobs, hjobs, hhow⟩ := waits
  have above := inOrder.pulledAbove
  rw [hjobs] at hjob above
  rcases List.mem_cons.mp hjob with rfl | hjob
  · exact hhow
  · have hfirst := (List.pairwise_cons.mp above).1 job hjob
    exact absurd ⟨first, by simp [hjobs], hfirst⟩ idle

theorem Ordered.callers_silent (ordered : Ordered setup (level :: outer))
    (hstack : level.stack ≠ []) : ∀ caller ∈ outer, caller.Silent := by
  intro caller hcaller
  obtain ⟨waits, quiet⟩ := ordered.2.1 caller hcaller
  have inOrder := ordered.2.2.inOrder caller hcaller
  exact inOrder.silent waits fun pulls => hstack (quiet pulls).1

theorem Closes.silent (h : Closes level after) (silent : level.Silent) :
    after.Silent := by
  obtain ⟨job, hjobs⟩ := h.jobs_eq
  intro other hother
  exact silent other (by simp [hjobs, hother])

theorem Closes.budget (h : Closes level after)
    (budget : Budget setup.limits attempts level outer) :
    Budget setup.limits attempts after outer := by
  have silent : setup.limits.maxSteps.toNat < attempts →
      after.Silent ∧ ∀ caller ∈ outer, caller.Silent := fun hspent =>
    ⟨h.silent (budget.silent hspent).1, (budget.silent hspent).2⟩
  cases h with
  | visit stack hjobs hdemand =>
      exact ⟨budget.steps, budget.limitReported, budget.reports, silent⟩
  | pull hjobs hdemand =>
      exact ⟨budget.steps, budget.limitReported, budget.reports, silent⟩

theorem Budget.refuse (budget : Budget setup.limits attempts level outer)
    (ordered : Ordered setup (level :: outer)) (hjobs : level.jobs = [])
    (hstack : level.stack ≠ [])
    (hlimit : setup.limits.maxSteps.toNat ≤ level.steps) :
    Budget setup.limits (attempts + 1)
      { level with
        stack := []
        limitReported := true
        reports := level.reports + (!level.limitReported).toNat } outer := by
  obtain ⟨hsteps, hreported, hreports, -⟩ := budget
  have hspent : setup.limits.maxSteps.toNat < attempts + 1 := by omega
  refine ⟨?_, ?_, ?_, fun _ => ⟨?_, ordered.callers_silent hstack⟩⟩
  · dsimp only
    omega
  · simp [hspent]
  · dsimp only
    rw [hreported, if_pos hspent, Nat.add_right_comm, hreports]
    by_cases hbefore : setup.limits.maxSteps.toNat < attempts
    · simp [hbefore]
    · simp [hbefore]
  · intro job hjob
    simp [hjobs] at hjob

theorem Budget.take (budget : Budget setup.limits attempts level outer)
    (stack : List Frame) (jobs : List Job)
    (hlimit : level.steps < setup.limits.maxSteps.toNat) :
    Budget setup.limits (attempts + 1)
      { level with stack, jobs, steps := level.steps + 1 } outer := by
  obtain ⟨hsteps, hreported, hreports, -⟩ := budget
  have hbefore : ¬setup.limits.maxSteps.toNat < attempts := by omega
  have hafter : ¬setup.limits.maxSteps.toNat < attempts + 1 := by omega
  rw [if_neg hbefore] at hreports
  refine ⟨?_, ?_, ?_, fun hspent => absurd hspent hafter⟩
  · dsimp only
    omega
  · simp [hreported, hbefore, hafter]
  · rw [if_neg hafter]
    exact hreports

theorem Change.budget {attempt : Bool}
    (h : Change setup attempt (level :: outer) (after :: rest))
    (ordered : Ordered setup (level :: outer))
    (budget : Budget setup.limits attempts level outer) :
    Budget setup.limits (attempts + attempt.toNat) after rest := by
  cases h with
  | stay => exact budget
  | walk stack hjobs hwalks =>
      obtain ⟨hsteps, hreported, hreports, hsilent⟩ := budget
      exact ⟨hsteps, hreported, hreports, hsilent⟩
  | refuse hjobs hstack hlimit =>
      exact budget.refuse ordered hjobs hstack hlimit
  | take stack hjobs hstack hlimit hvisit => exact budget.take stack _ hlimit
  | openPull hnode hhow hfresh =>
      obtain ⟨hsteps, hreported, hreports, hsilent⟩ := budget
      refine ⟨hsteps, hreported, hreports,
        fun hspent => ⟨?_, (hsilent hspent).2⟩⟩
      intro job hjob hdemand
      rcases List.mem_cons.mp hjob with rfl | hjob
      · cases hdemand
      · exact (hsilent hspent).1 job hjob hdemand
  | close hclose => exact hclose.budget budget
  | enter hjobs hhow hcallee =>
      obtain ⟨hsteps, hreported, hreports, hsilent⟩ := budget
      refine ⟨hsteps, hreported, ?_,
        fun hspent => ⟨by simp [Level.Silent, bodyLevel], ?_⟩⟩
      · simpa [bodyLevel] using hreports
      · exact List.forall_mem_cons.mpr (hsilent hspent)
  | leave hclose =>
      obtain ⟨hsteps, hreported, hreports, hsilent⟩ := budget
      refine hclose.budget ⟨hsteps, hreported, ?_, fun hspent => ?_⟩
      · rw [List.map_cons, List.sum_cons] at hreports
        simp only [resume, Bool.toNat_false, Nat.add_zero]
        omega
      · obtain ⟨caller, others⟩ := List.forall_mem_cons.mp (hsilent hspent).2
        exact ⟨caller, others⟩

end Counting

/-! ## Along an execution -/

def Config.makesVisit (limits : Limits) (config : Config) : Bool :=
  match config.gatherings, config.stack with
  | [], .visit id :: _ => (config.state.takeStep limits id).1
  | _, _ => false

/-- The next step of the machine runs the executor of a node that a walk
visits. -/
def Config.InvokesByWalk (config : Config) : Prop :=
  ∃ node entry inputs more,
    config.gatherings = ⟨.job ⟨.visit, node, .entry entry⟩, [], inputs⟩ :: more

def Config.limitReports (config : Config) : Nat :=
  (config.levels.map Level.reports).sum

section Executions

variable {setup : Setup} {first config : Config} {history : List Config}

theorem takeStep_fst (state : RunState) (limits : Limits) (id : String) :
    (state.takeStep limits id).1 =
      decide (state.activation.steps < limits.maxSteps.toNat) := by
  unfold RunState.takeStep
  split
  · next hsteps => simp [hsteps]
  · next hsteps =>
      split
      · simp [hsteps]
      · simp [hsteps]

theorem makesVisit_eq (limits : Limits) (config : Config) :
    config.makesVisit limits =
      (config.attemptsVisit &&
        decide (config.level.steps < limits.maxSteps.toNat)) := by
  obtain ⟨scope, stack, gatherings, state, callers, pending⟩ := config
  cases gatherings with
  | cons gathering more => rfl
  | nil =>
      cases stack with
      | nil => rfl
      | cons frame rest =>
          cases frame with
          | loop node pin index stop => rfl
          | visit id => exact takeStep_fst state limits id

theorem Level.Silent.not_invokesByWalk (silent : config.level.Silent) :
    ¬config.InvokesByWalk := by
  rintro ⟨node, entry, inputs, more, hgatherings⟩
  have opened : ⟨.visit, node, .entry entry⟩ ∈ config.level.jobs := by
    simp [Config.level, levelOf, openJobs, hgatherings, Gathering.job?]
  cases silent _ opened rfl

theorem Passes.ordered (h : Passes setup first history config)
    (ordered : Ordered setup first.levels) : Ordered setup config.levels := by
  induction h with
  | refl => exact ordered
  | tail _ stepped ih => exact (step_changes stepped).ordered ih

theorem countP_concat (p : Config → Bool) (history : List Config)
    (config : Config) :
    (history ++ [config]).countP p = history.countP p + (p config).toNat := by
  rw [List.countP_append, List.countP_singleton]
  cases p config with
  | false => rfl
  | true => rfl

theorem Passes.budget (h : Passes setup first history config)
    (ordered : Ordered setup first.levels)
    (budget : Budget setup.limits 0 first.level
      (first.callers.map Suspended.level)) :
    Budget setup.limits (history.countP Config.attemptsVisit) config.level
      (config.callers.map Suspended.level) := by
  induction h with
  | refl => exact budget
  | tail passed stepped ih =>
      rw [countP_concat]
      exact (step_changes stepped).budget (passed.ordered ordered) ih

theorem Passes.visits_eq (h : Passes setup first history config)
    (ordered : Ordered setup first.levels)
    (budget : Budget setup.limits 0 first.level
      (first.callers.map Suspended.level)) :
    history.countP (Config.makesVisit setup.limits) =
      min (history.countP Config.attemptsVisit)
        setup.limits.maxSteps.toNat := by
  induction h with
  | refl => simp
  | @tail history config next passed stepped ih =>
      have hsteps := (passed.budget ordered budget).steps
      rw [countP_concat, countP_concat, makesVisit_eq, hsteps, ih]
      cases config.attemptsVisit with
      | false => simp
      | true =>
          rcases Nat.lt_or_ge (history.countP Config.attemptsVisit)
            setup.limits.maxSteps.toNat with hleft | hspent
          · rw [Nat.min_eq_left hleft.le, decide_eq_true hleft, Bool.and_true,
              Bool.toNat_true]
            omega
          · rw [Nat.min_eq_right hspent, decide_eq_false (Nat.lt_irrefl _),
              Bool.and_false, Bool.toNat_true, Bool.toNat_false]
            omega

theorem Halted.callers_eq (halted : Halted setup config) :
    config.callers = [] := by
  obtain ⟨scope, stack, gatherings, state, callers, pending⟩ := config
  cases callers with
  | nil => rfl
  | cons caller callers =>
      exfalso
      cases gatherings with
      | nil =>
          cases stack with
          | nil => cases halted
          | cons frame rest =>
              cases frame with
              | loop node pin index stop => cases halted
              | visit id =>
                  simp only [Halted, step, walkOn] at halted
                  split at halted <;> cases halted
      | cons gathering more =>
          obtain ⟨purpose, wires, inputs⟩ := gathering
          cases wires with
          | cons wire wires => cases halted
          | nil => cases purpose <;> cases halted

end Executions

theorem start_ordered (setup : Setup) (catalogue : Catalogue)
    (blueprint : Blueprint) (trigger : Trigger) (services : Services) :
    Ordered setup (start catalogue blueprint trigger services).levels :=
  ⟨⟨.nil, List.forall_mem_nil _⟩, List.forall_mem_nil _, trivial⟩

theorem start_budget (limits : Limits) (catalogue : Catalogue)
    (blueprint : Blueprint) (trigger : Trigger) (services : Services) :
    Budget limits 0 (start catalogue blueprint trigger services).level [] :=
  ⟨(Nat.zero_min _).symm, rfl, rfl,
    fun hspent => absurd hspent (Nat.not_lt_zero _)⟩

/-- At every point of a run, the visits made so far are within the limit, the
step limit has been reported once if more were attempted and not at all
otherwise, and once it has been reported no walk runs an executor.  So the
diagnostics of the whole run report it at most once, and exactly if one visit
too many was attempted. -/
theorem one_step_budget (catalogue : Catalogue) (limits : Limits)
    (blueprint : Blueprint) (trigger : Trigger) (services : Services) :
    let setup := setupOf catalogue limits blueprint trigger
    let first := start catalogue blueprint trigger services
    let report := (runBlueprint catalogue limits blueprint trigger services).1
    (∀ history config, Passes setup first history config →
      history.countP (Config.makesVisit limits) ≤ limits.maxSteps.toNat ∧
      config.limitReports =
        (if limits.maxSteps.toNat < history.countP Config.attemptsVisit then
          1 else 0) ∧
      (0 < config.limitReports → ¬config.InvokesByWalk)) ∧
    ∃ history final, Passes setup first history final ∧ Halted setup final ∧
      report = finalReport final.state ∧ limitReports report.diagnostics ≤ 1 ∧
      (limitReports report.diagnostics = 1 ↔
        limits.maxSteps.toNat < history.countP Config.attemptsVisit) := by
  intro setup first report
  have ordered := start_ordered setup catalogue blueprint trigger services
  have started := start_budget limits catalogue blueprint trigger services
  constructor
  · intro history config passed
    have budget := passed.budget ordered started
    have hreports : config.limitReports =
        if limits.maxSteps.toNat < history.countP Config.attemptsVisit then
          1 else 0 :=
      budget.reports
    refine ⟨?_, hreports, fun hreported => ?_⟩
    · have hvisits := passed.visits_eq ordered started
      exact hvisits.le.trans (Nat.min_le_right _ _)
    · have hspent :
          limits.maxSteps.toNat < history.countP Config.attemptsVisit := by
        -- A report is made only after more attempts than the budget has steps.
        by_contra hleft
        rw [hreports, if_neg hleft] at hreported
        exact Nat.lt_irrefl 0 hreported
      exact (budget.silent hspent).1.not_invokesByWalk
  · obtain ⟨final, reached, halted, hrun⟩ :=
      run_reaches catalogue limits blueprint trigger services
    obtain ⟨history, passed⟩ := reached.passes
    have budget := passed.budget ordered started
    have hreport : report = finalReport final.state := congrArg Prod.fst hrun
    have hreports : limitReports report.diagnostics =
        if limits.maxSteps.toNat < history.countP Config.attemptsVisit then
          1 else 0 := by
      rw [hreport]
      rw [halted.callers_eq] at budget
      exact budget.reports
    refine ⟨history, final, passed, halted, hreport, ?_, ?_⟩
    · rw [hreports]
      split
      · exact Nat.le_refl 1
      · exact Nat.zero_le 1
    · rw [hreports]
      split
      · next hspent => simp [hspent]
      · next hleft => simp [hleft]

end ScriptGraph.Engine.Machine
