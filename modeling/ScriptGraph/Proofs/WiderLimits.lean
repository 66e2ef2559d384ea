import ScriptGraph.Library
import ScriptGraph.Proofs.Diagnostics
import ScriptGraph.Proofs.Ledgers

/-!
# Limits that are not met

Two machines that differ in their limits take the same steps as long as no
limit is met: as long as no visit is refused, no loop is stopped before its end
and no call is refused for its depth.  Both go one way only, so a run that
meets no limit is also the run under wider limits.

Where a run does come to its last step, the two part.  From there on the walk
with the smaller budget runs no executor any more, although inputs are still
gathered and callers go on.  So the executors that its walks have run up to
the end are the ones that were run before the two parted.
-/

namespace ScriptGraph.Engine

open Json

/-! ## Loops -/

theorem toInt_nearestInt64 (n : Int) :
    (Binary64.nearestInt64 n).toInt =
      max Int64.minValue.toInt (min Int64.maxValue.toInt n) := by
  have hlow : Int64.minValue.toInt = -2 ^ 63 := rfl
  have hhigh : Int64.maxValue.toInt = 2 ^ 63 - 1 := rfl
  rw [Binary64.nearestInt64, Binary64.clampInt]
  exact Int64.toInt_ofInt_of_le (by omega) (by omega)

theorem loopStop_eq_self_iff (limits : Limits) (start stop : Int64) :
    loopStop limits start stop = stop ↔
      ¬(0 < Binary64.nearestInt64 (stop.toInt - start.toInt) ∧
        limits.maxIterations.toNat <
        (Binary64.nearestInt64 (stop.toInt - start.toInt)).toInt.toNat) := by
  unfold loopStop
  constructor
  · rintro hstop ⟨hpos, hlong⟩
    rw [if_pos ⟨hpos, hlong⟩] at hstop
    have hends := congrArg Int64.toInt hstop
    have hlow : Int64.minValue.toInt = -2 ^ 63 := rfl
    have hhigh : Int64.maxValue.toInt = 2 ^ 63 - 1 := rfl
    have hstart := Int64.le_toInt start
    have hbound := Int64.toInt_lt stop
    rw [toInt_nearestInt64, hlow, hhigh] at hlong hends
    omega
  · intro hshort
    exact if_neg hshort

theorem loopStop_of_le {limits wider : Limits} {start stop : Int64}
    (hle : limits.maxIterations ≤ wider.maxIterations)
    (h : loopStop limits start stop = stop) :
    loopStop wider start stop = stop := by
  rw [loopStop_eq_self_iff] at h ⊢
  rintro ⟨hpos, hlong⟩
  exact h ⟨hpos, Nat.lt_of_le_of_lt (UInt64.le_iff_toNat_le.mp hle) hlong⟩

def Setup.withLimits (setup : Setup) (limits : Limits) : Setup :=
  { setup with limits }

namespace Machine

/-! ## One way to go on -/

section Determinism

variable {setup : Setup} {first config final : Config}
  {history others : List Config}

theorem Passes.head_cases (h : Passes setup first history final) :
    history = [] ∧ final = first ∨
      ∃ next rest, StepsTo setup first next ∧ history = first :: rest ∧
        Passes setup next rest final := by
  induction h with
  | refl => exact .inl ⟨rfl, rfl⟩
  | @tail history config last passed stepped ih =>
      right
      rcases ih with ⟨rfl, rfl⟩ | ⟨next, rest, begun, rfl, inner⟩
      · exact ⟨last, [], stepped, rfl, .refl⟩
      · exact ⟨next, rest ++ [config], begun, rfl, inner.tail stepped⟩

theorem Passes.extends (h : Passes setup first history config)
    (full : Passes setup first others final) (halted : Halted setup final) :
    ∃ rest, others = history ++ rest ∧ Passes setup config rest final := by
  induction h with
  | refl => exact ⟨others, rfl, full⟩
  | @tail history config next passed stepped ih =>
      obtain ⟨rest, hothers, inner⟩ := ih
      rcases inner.head_cases with ⟨-, rfl⟩ | ⟨after, more, begun, rfl, last⟩
      · rw [StepsTo, halted] at stepped
        cases stepped
      · have hsame : after = next := Option.some.inj (begun.symm.trans stepped)
        subst hsame
        exact ⟨more, by simp [hothers], last⟩

theorem Passes.eq_of_halted (h : Passes setup first history config)
    (ended : Halted setup config) (full : Passes setup first others final)
    (halted : Halted setup final) : config = final := by
  obtain ⟨rest, -, inner⟩ := h.extends full halted
  rcases inner.head_cases with ⟨-, rfl⟩ | ⟨next, more, begun, -⟩
  · rfl
  · rw [StepsTo, ended] at begun
    cases begun

end Determinism

/-! ## Meeting a limit -/

def Config.loopBounds? (setup : Setup) (config : Config) :
    Option (Int64 × Int64) :=
  match config.gatherings with
  | ⟨.job ⟨.visit, node, .entry entry⟩, [], inputs⟩ :: _ =>
    match (outputOf (config.state.invoke entry
      (visitInvocation setup node inputs config.state)).1).flow with
    | .loop _ start stop _ => some (start, stop)
    | _ => none
  | _ => none

def Config.capsLoop (setup : Setup) (config : Config) : Bool :=
  (config.loopBounds? setup).any fun bounds =>
    loopStop setup.limits bounds.1 bounds.2 != bounds.2

def Config.calls? (config : Config) : Option Node :=
  match config.gatherings with
  | ⟨.job ⟨_, node, .call⟩, [], _⟩ :: _ => some node
  | _ => none

def Config.exceedsDepth (setup : Setup) (config : Config) : Bool :=
  config.calls?.any fun node =>
    match callee setup node config.state.activation.depth with
    | .error (.callDepthExceeded _) => true
    | _ => false

structure Agrees (setup : Setup) (wider : Limits) (config : Config) : Prop where
  steps : config.attemptsVisit = true →
    config.state.activation.steps < setup.limits.maxSteps.toNat
  loops : ∀ bounds ∈ config.loopBounds? setup,
    loopStop wider bounds.1 bounds.2 = loopStop setup.limits bounds.1 bounds.2
  calls : ∀ node ∈ config.calls?, callee (setup.withLimits wider) node
    config.state.activation.depth =
      callee setup node config.state.activation.depth

section Agreement

variable {setup : Setup} {wider : Limits} {config : Config}

theorem conclude_withLimits (job : Job) (answer : Except Failure Output)
    (config : Config) (loops : job.demand = .visit → ∀ pin start stop current,
      (outputOf answer).flow = .loop pin start stop current →
      loopStop wider start stop = loopStop setup.limits start stop) :
    conclude (setup.withLimits wider) job answer config =
      conclude setup job answer config := by
  unfold conclude
  cases hdemand : job.demand with
  | pull => rfl
  | visit =>
      have hframes :
          flowFrames (setup.withLimits wider) config.scope job.node.id
          (outputOf answer).flow =
            flowFrames setup config.scope job.node.id
              (outputOf answer).flow := by
        cases hflow : (outputOf answer).flow with
        | loop pin start stop current =>
            simp only [flowFrames]
            rw [← loops hdemand pin start stop current hflow]
            rfl
        | _ => rfl
      simp only [follow, hframes]

theorem walkOn_withLimits
    (hvariable : wider.loopVariable = setup.limits.loopVariable)
    (hmax : setup.limits.maxSteps ≤ wider.maxSteps)
    (agrees : Agrees setup wider config)
    (hgatherings : config.gatherings = []) :
    walkOn (setup.withLimits wider) config = walkOn setup config := by
  obtain ⟨scope, stack, gatherings, state, callers, pending⟩ := config
  subst hgatherings
  cases stack with
  | nil => rfl
  | cons frame rest =>
      cases frame with
      | loop node pin index stop => simp only [walkOn, iterate,
        Setup.withLimits, hvariable]
      | visit id =>
          have hsteps := agrees.steps rfl
          have hwider : state.activation.steps < wider.maxSteps.toNat :=
            Nat.lt_of_lt_of_le hsteps (UInt64.le_iff_toNat_le.mp hmax)
          have htaken : state.takeStep wider id =
              state.takeStep setup.limits id := by
            simp only [RunState.takeStep, if_pos hwider]
            rw [if_pos hsteps]
          simp only [walkOn, Setup.withLimits, htaken]
          rfl

theorem perform_withLimits {job : Job} {inputs : Table Value}
    {more : List Gathering} (agrees : Agrees setup wider config)
    (hgatherings : config.gatherings = ⟨.job job, [], inputs⟩ :: more)
    (after : Config) (hstate : after.state = config.state) :
    perform (setup.withLimits wider) job inputs after =
      perform setup job inputs after := by
  obtain ⟨demand, node, how⟩ := job
  unfold perform
  rw [hstate]
  cases how with
  | entry entry =>
      dsimp only
      refine conclude_withLimits _ _ _
        fun hdemand pin start stop current hflow => ?_
      have hvisit : demand = .visit := hdemand
      subst hvisit
      refine agrees.loops (start, stop) ?_
      rw [Config.loopBounds?, hgatherings]
      dsimp only
      rw [show (outputOf (config.state.invoke entry
        (visitInvocation setup node inputs config.state)).1).flow =
          .loop pin start stop current from hflow]
      rfl
  | call =>
      have hcallee := agrees.calls node (by simp [Config.calls?, hgatherings])
      dsimp only
      rw [hcallee]
      cases callee setup node config.state.activation.depth with
      | ok function => rfl
      | error cause =>
          exact conclude_withLimits _ _ _ fun _ pin start stop current hflow =>
            by cases hflow

theorem step_withLimits
    (hvariable : wider.loopVariable = setup.limits.loopVariable)
    (hmax : setup.limits.maxSteps ≤ wider.maxSteps)
    (agrees : Agrees setup wider config) :
    step (setup.withLimits wider) config = step setup config := by
  unfold step
  cases hgatherings : config.gatherings with
  | nil => exact walkOn_withLimits hvariable hmax agrees hgatherings
  | cons gathering more =>
      obtain ⟨purpose, wires, inputs⟩ := gathering
      cases wires with
      | cons wire wires => rfl
      | nil =>
          cases purpose with
          | job job =>
              simp only [Option.some.injEq]
              exact perform_withLimits agrees hgatherings _ rfl
          | results =>
              cases config.callers with
              | nil => rfl
              | cons caller callers =>
                  simp only [Option.some.injEq]
                  exact conclude_withLimits _ _ _
                    fun _ pin start stop current hflow => by
                    cases hflow

end Agreement

/-! ## Executions that agree -/

structure Widens (limits wider : Limits) : Prop where
  loopVariable : wider.loopVariable = limits.loopVariable
  maxSteps : limits.maxSteps ≤ wider.maxSteps
  maxIterations : limits.maxIterations ≤ wider.maxIterations
  maxCallDepth : limits.maxCallDepth ≤ wider.maxCallDepth

section Executions

variable {setup : Setup} {wider : Limits} {first config : Config}
  {history : List Config}

theorem callee_withLimits {node : Node} {depth : Nat}
    (hle : setup.limits.maxCallDepth ≤ wider.maxCallDepth)
    (h : ∀ limit, callee setup node depth ≠ .error (.callDepthExceeded limit)) :
    callee (setup.withLimits wider) node depth = callee setup node depth := by
  unfold callee at h ⊢
  simp only [Setup.withLimits]
  cases hfunction : setup.functions.get? (functionName node) with
  | none => rfl
  | some function =>
      simp only [hfunction] at h ⊢
      cases hvalid : function.validate (functionName node) with
      | error invalid => rfl
      | ok checked =>
          simp only [hvalid] at h ⊢
          by_cases hdepth : depth < setup.limits.maxCallDepth.toNat
          · have hwider :=
              Nat.lt_of_lt_of_le hdepth (UInt64.le_iff_toNat_le.mp hle)
            rw [if_pos hdepth]
            exact if_pos hwider
          · rw [if_neg hdepth] at h
            exact absurd rfl (h _)

theorem Widens.agrees (widens : Widens setup.limits wider)
    (steps : config.attemptsVisit = true →
      config.state.activation.steps < setup.limits.maxSteps.toNat)
    (loops : config.capsLoop setup = false)
    (calls : config.exceedsDepth setup = false) :
    Agrees setup wider config := by
  refine ⟨steps, fun bounds hbounds => ?_, fun node hnode => ?_⟩
  · have hstop : loopStop setup.limits bounds.1 bounds.2 = bounds.2 := by
      simpa [Config.capsLoop, Option.mem_def.mp hbounds] using loops
    rw [hstop]
    exact loopStop_of_le widens.maxIterations hstop
  · refine callee_withLimits widens.maxCallDepth fun limit hcallee => ?_
    simp [Config.exceedsDepth, Option.mem_def.mp hnode, hcallee] at calls

theorem Passes.withLimits (h : Passes setup first history config)
    (hvariable : wider.loopVariable = setup.limits.loopVariable)
    (hmax : setup.limits.maxSteps ≤ wider.maxSteps)
    (agrees : ∀ passed ∈ history, Agrees setup wider passed) :
    Passes (setup.withLimits wider) first history config := by
  induction h with
  | refl => exact .refl
  | tail _ stepped ih =>
      rw [List.forall_mem_append, List.forall_mem_singleton] at agrees
      refine (ih agrees.1).tail ?_
      rw [StepsTo, step_withLimits hvariable hmax agrees.2]
      exact stepped

theorem Halted.withLimits (h : Halted setup config) :
    Halted (setup.withLimits wider) config := by
  obtain ⟨scope, stack, gatherings, state, callers, pending⟩ := config
  cases gatherings with
  | nil =>
      cases stack with
      | nil => exact h
      | cons frame rest =>
          cases frame with
          | loop node pin index stop => cases h
          | visit id =>
              simp only [Halted, step, walkOn] at h
              split at h <;> cases h
  | cons gathering more =>
      obtain ⟨purpose, wires, inputs⟩ := gathering
      cases wires with
      | cons wire wires => cases h
      | nil =>
          cases purpose with
          | job job => cases h
          | results =>
              cases callers with
              | nil => rfl
              | cons caller callers => cases h

theorem Passes.steps_lt (h : Passes setup first history config)
    (ordered : Ordered setup first.levels)
    (budget : Budget setup.limits 0 first.level
      (first.callers.map Suspended.level))
    (hleft : history.countP Config.attemptsVisit ≤
      setup.limits.maxSteps.toNat) :
    ∀ passed ∈ history, passed.attemptsVisit = true →
      passed.state.activation.steps < setup.limits.maxSteps.toNat := by
  induction h with
  | refl => simp
  | @tail history config next before stepped ih =>
      rw [countP_concat] at hleft
      rw [List.forall_mem_append, List.forall_mem_singleton]
      refine ⟨ih (by omega), fun attempts => ?_⟩
      have hsteps : config.state.activation.steps = min _ _ :=
        (before.budget ordered budget).steps
      rw [attempts, Bool.toNat_true] at hleft
      omega

end Executions

/-! ## Executors run by walks -/

def Config.walkInvocation? (setup : Setup) (config : Config) :
    Option (List String × Invocation × Services) :=
  match config.gatherings with
  | ⟨.job ⟨.visit, node, .entry _⟩, [], inputs⟩ :: _ =>
    some (callPath config.callers,
      visitInvocation setup node inputs config.state, config.state.services)
  | _ => none

section Invocations

variable {setup : Setup} {first config : Config} {history : List Config}

theorem walkInvocation?_of_silent (h : ¬config.InvokesByWalk) :
    config.walkInvocation? setup = none := by
  unfold Config.walkInvocation?
  split
  · next hgatherings => exact absurd ⟨_, _, _, _, hgatherings⟩ h
  · rfl

theorem walkInvocation?_of_attempt (h : config.attemptsVisit = true) :
    config.walkInvocation? setup = none := by
  unfold Config.attemptsVisit at h
  split at h
  · next hgatherings hstack => simp only [Config.walkInvocation?, hgatherings]
  · cases h

/-- What an execution has in common with the one that has a larger budget:
everything up to the first refusal, and after that its walks run nothing. -/
theorem Passes.shared {maxSteps : UInt64}
    (h : Passes setup first history config)
    (hmax : setup.limits.maxSteps ≤ maxSteps)
    (ordered : Ordered setup first.levels)
    (budget : Budget setup.limits 0 first.level
      (first.callers.map Suspended.level)) :
    ∃ shared middle,
      Passes (setup.withLimits { setup.limits with maxSteps }) first shared
        middle ∧
      shared.filterMap (Config.walkInvocation? setup) =
        history.filterMap (Config.walkInvocation? setup) ∧
      (history.countP Config.attemptsVisit ≤ setup.limits.maxSteps.toNat →
        shared = history ∧ middle = config) := by
  induction h with
  | refl => exact ⟨[], first, .refl, rfl, fun _ => ⟨rfl, rfl⟩⟩
  | @tail history config next before stepped ih =>
      obtain ⟨shared, middle, together, hinvoked, hsame⟩ := ih
      rw [countP_concat, filterMap_concat]
      by_cases hspent :
        setup.limits.maxSteps.toNat < history.countP Config.attemptsVisit
      · have silent :=
          ((before.budget ordered budget).silent hspent).1.not_invokesByWalk
        refine ⟨shared, middle, together, ?_,
          fun hleft => absurd hleft (by omega)⟩
        simp [hinvoked, walkInvocation?_of_silent silent]
      · obtain ⟨rfl, rfl⟩ := hsame (by omega)
        have hsteps : middle.state.activation.steps = min _ _ :=
          (before.budget ordered budget).steps
        by_cases hleft :
            shared.countP Config.attemptsVisit + middle.attemptsVisit.toNat ≤
            setup.limits.maxSteps.toNat
        · have agrees : Agrees setup { setup.limits with maxSteps } middle := by
            refine ⟨fun attempts => ?_, fun _ _ => rfl, fun _ _ => rfl⟩
            rw [attempts, Bool.toNat_true] at hleft
            omega
          have further := step_withLimits (by rfl) hmax agrees
          rw [stepped] at further
          refine ⟨shared ++ [middle], next, together.tail further,
            ?_, fun _ => ⟨rfl, rfl⟩⟩
          rw [filterMap_concat]
        · -- The visit is refused here, and the larger budget may allow it.
          have attempts : middle.attemptsVisit = true := by
            by_contra hidle
            rw [Bool.eq_false_iff.mpr hidle, Bool.toNat_false] at hleft
            omega
          refine ⟨shared, middle, together, ?_, fun hmore => absurd hmore hleft⟩
          simp [walkInvocation?_of_attempt attempts]

end Invocations

/-! ## Runs -/

structure Execution (catalogue : Catalogue) (limits : Limits)
    (blueprint : Blueprint) (trigger : Trigger) (services : Services)
    (history : List Config) (final : Config) :
    Prop where
  passes : Passes (setupOf catalogue limits blueprint trigger)
    (start catalogue blueprint trigger services) history final
  halted : Halted (setupOf catalogue limits blueprint trigger) final
  run_eq : runBlueprint catalogue limits blueprint trigger services =
    (finalReport final.state, final.state.services)

section Runs

variable {catalogue : Catalogue} {limits wider : Limits} {blueprint : Blueprint}
  {trigger : Trigger} {services : Services} {history others : List Config}
  {final last config : Config}

theorem exists_execution (catalogue : Catalogue) (limits : Limits)
    (blueprint : Blueprint) (trigger : Trigger) (services : Services) :
    ∃ history final,
      Execution catalogue limits blueprint trigger services history final := by
  obtain ⟨final, reached, halted, hrun⟩ :=
    run_reaches catalogue limits blueprint trigger services
  obtain ⟨history, passed⟩ := reached.passes
  exact ⟨history, final, passed, halted, hrun⟩

theorem Execution.run_eq_of_passes
    (execution : Execution catalogue wider blueprint trigger services
      others last)
    (passed : Passes (setupOf catalogue wider blueprint trigger)
      (start catalogue blueprint trigger services) history final)
    (halted : Halted (setupOf catalogue wider blueprint trigger) final) :
    runBlueprint catalogue wider blueprint trigger services =
      (finalReport final.state, final.state.services) := by
  rw [passed.eq_of_halted halted execution.passes execution.halted]
  exact execution.run_eq

theorem Execution.attempts_le
    (execution : Execution catalogue limits blueprint trigger services
      history final)
    (unreported :
      (runBlueprint catalogue limits blueprint trigger services).1.has
        .stepLimit = false) :
    history.countP Config.attemptsVisit ≤ limits.maxSteps.toNat := by
  have budget : Budget limits _ _ _ := execution.passes.budget
    (start_ordered _ catalogue blueprint trigger services)
    (start_budget limits catalogue blueprint trigger services)
  have hreports : final.level.reports = 0 := by
    rw [execution.run_eq] at unreported
    exact List.countP_eq_zero.mpr (List.any_eq_false.mp unreported)
  by_contra hspent
  have reports := budget.reports
  rw [if_pos (Nat.lt_of_not_le hspent), execution.halted.callers_eq,
    hreports] at reports
  cases reports

/-- Limits show only where they are met.  If a run does not report the step
limit, stops no loop before its end and refuses no call for its depth, then the
run under limits that are nowhere narrower has the same report and leaves the
same services.  If they differ in the budget of visits alone, then the
executors that the walks of the run with the smaller one have run, where they
were run and what they were given, are in any case those with which the other
run begins. -/
theorem limits_seen_only_when_met (catalogue : Catalogue)
    (limits wider : Limits) (blueprint : Blueprint) (trigger : Trigger)
    (services : Services) (widens : Widens limits wider) :
    let setup := setupOf catalogue limits blueprint trigger
    let longer : Limits := { limits with maxSteps := wider.maxSteps }
    ((runBlueprint catalogue limits blueprint trigger services).1.has
      .stepLimit = false →
      (∀ config, Reaches setup (start catalogue blueprint trigger services)
        config → config.capsLoop setup = false ∧
        config.exceedsDepth setup = false) →
      runBlueprint catalogue wider blueprint trigger services =
        runBlueprint catalogue limits blueprint trigger services) ∧
    ∃ history final others last,
      Execution catalogue limits blueprint trigger services history final ∧
      Execution catalogue longer blueprint trigger services others last ∧
      history.filterMap (Config.walkInvocation? setup) <+:
        others.filterMap
          (Config.walkInvocation?
            (setupOf catalogue longer blueprint trigger)) := by
  intro setup longer
  obtain ⟨history, final, execution⟩ :=
    exists_execution catalogue limits blueprint trigger services
  have ordered := start_ordered setup catalogue blueprint trigger services
  have budget := start_budget limits catalogue blueprint trigger services
  constructor
  · intro unreported unmet
    have visits :=
      execution.passes.steps_lt ordered budget
        (execution.attempts_le unreported)
    -- Where no limit is met, a step is the same step under the wider limits.
    have passed := execution.passes.withLimits widens.loopVariable
      widens.maxSteps fun config hconfig => by
        obtain ⟨loops, calls⟩ :=
          unmet config (execution.passes.reaches_of_mem hconfig)
        exact Widens.agrees widens (visits config hconfig) loops calls
    obtain ⟨others, last, other⟩ :=
      exists_execution catalogue wider blueprint trigger services
    rw [other.run_eq_of_passes passed execution.halted.withLimits,
      execution.run_eq]
  · obtain ⟨others, last, other⟩ :=
      exists_execution catalogue longer blueprint trigger services
    -- The runs go together until the smaller budget is spent; after that the
    -- walks of the shorter one run nothing.
    obtain ⟨shared, middle, passed, hinvoked, -⟩ :=
      execution.passes.shared widens.maxSteps ordered budget
    obtain ⟨rest, hothers, -⟩ := passed.extends other.passes other.halted
    refine ⟨history, final, others, last, execution, other, ?_⟩
    rw [hothers, List.filterMap_append, ← hinvoked]
    exact List.prefix_append _ _

end Runs

/-! ### Limits that a run comes up to -/

def holdsThroughout (setup : Setup) (check : Config → Bool) :
    Nat → Config → Bool
  | 0, _ => false
  | count + 1, config =>
    check config && (step setup config).all (holdsThroughout setup check count)

theorem Reaches.check {setup : Setup} {check : Config → Bool} {count : Nat}
    {first config : Config} (reached : Reaches setup first config)
    (holds : holdsThroughout setup check count first = true) :
    check config = true := by
  induction reached using Relation.ReflTransGen.head_induction_on
    generalizing count with
  | refl =>
      cases count with
      | zero => cases holds
      | succ count => exact (Bool.and_eq_true_iff.mp holds).1
  | head stepped _ ih =>
      cases count with
      | zero => cases holds
      | succ count =>
          have hnext := (Bool.and_eq_true_iff.mp holds).2
          rw [stepped] at hnext
          exact ih hnext

namespace Exact

def mark : Function where
  nodes := [⟨"__entry__", "", .origin, .null⟩, ⟨"__exit__", "", .origin, .null⟩,
    ⟨"set", "utility/SetVariable", .origin,
      .object [("defaults", .object [("value", .ofInt 1)]),
        ("variable", .text "x")]⟩]
  connections := [⟨"__entry__.exec", "set.exec"⟩, ⟨"set.then", "__exit__.exec"⟩]

def blueprint : Blueprint where
  id := "exact"
  name := "Exact"
  nodes := [⟨"start", "event/OnStart", .origin, .null⟩,
    ⟨"loop", "flow/ForLoop", .origin,
      .object [("defaults", .object [("end", .ofInt 2)])]⟩,
    ⟨"call", "function/Call", .origin, .object [("function", .text "mark")]⟩]
  connections := [⟨"start.exec", "loop.exec"⟩, ⟨"loop.body", "call.exec"⟩]
  functions := .single "mark" mark

def limits : Limits := { maxSteps := 8, maxIterations := 2, maxCallDepth := 1 }

def trigger : Trigger := ⟨"start", none, none⟩

def setup : Setup := setupOf Catalogue.standard limits blueprint trigger

def unmet (config : Config) : Bool :=
  !config.capsLoop setup && !config.exceedsDepth setup

theorem widens : Widens limits {} :=
  ⟨rfl, by decide, by decide, by decide⟩

theorem same_run :
    Widens limits {} ∧ limits.maxSteps ≠ ({} : Limits).maxSteps ∧
      runBlueprint Catalogue.standard {} blueprint trigger {} =
        runBlueprint Catalogue.standard limits blueprint trigger {} := by
  refine ⟨widens, by decide, ?_⟩
  have holds : holdsThroughout setup unmet 23
      (start Catalogue.standard blueprint trigger {}) = true := by
    decide +kernel
  refine (limits_seen_only_when_met Catalogue.standard limits
    {} blueprint trigger {}
    widens).1 (by decide +kernel) fun config reached => ?_
  have hunmet := Reaches.check reached holds
  rw [unmet, Bool.and_eq_true_iff, Bool.not_eq_true',
    Bool.not_eq_true'] at hunmet
  exact hunmet

end Exact

end Machine

end ScriptGraph.Engine
