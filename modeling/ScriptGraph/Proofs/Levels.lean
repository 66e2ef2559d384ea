import ScriptGraph.Proofs.Machine
import ScriptGraph.Proofs.Saturation

/-!
# The activations of a configuration

A configuration holds the activation at hand and those of its callers.  A
`Level` keeps of each what the limits of a run are about: the stack of
frames, the jobs that are begun and not ended, the depth, the open pulls, the
steps, and how often the step limit is reported.

`Change` lists what a step of the machine may do to the levels, and
`step_changes` shows that it does nothing else.  The invariants of the
machine are proved from that list.
-/

namespace ScriptGraph.Engine.Machine

open Json

structure Level where
  scope : Scope
  stack : List Frame
  jobs : List Job
  depth : Nat
  pulling : List String
  steps : Nat
  limitReported : Bool
  reports : Nat

def limitReports (diagnostics : List Diagnostic) : Nat :=
  diagnostics.countP fun diagnostic => diagnostic.condition == .stepLimit

def levelOf (scope : Scope) (stack : List Frame) (jobs : List Job)
    (activation : Activation) : Level where
  scope := scope
  stack := stack
  jobs := jobs
  depth := activation.depth
  pulling := activation.pulling
  steps := activation.steps
  limitReported := activation.limitReported
  reports := limitReports activation.diagnostics.toList

def Gathering.job? (gathering : Gathering) : Option Job :=
  match gathering.purpose with
  | .job job => some job
  | .results => none

def openJobs (gatherings : List Gathering) : List Job :=
  gatherings.filterMap Gathering.job?

def Level.push (level : Level) (job : Job) : Level :=
  { level with jobs := job :: level.jobs }

def Suspended.level (caller : Suspended) : Level :=
  levelOf caller.scope caller.stack (caller.job :: openJobs caller.gatherings)
    caller.activation

def Config.level (config : Config) : Level :=
  levelOf config.scope config.stack
    (openJobs config.gatherings) config.state.activation

def Config.levels (config : Config) : List Level :=
  config.level :: config.callers.map Suspended.level

def Config.attemptsVisit (config : Config) : Bool :=
  match config.gatherings, config.stack with
  | [], .visit _ :: _ => true
  | _, _ => false

/-! ## What may change -/

inductive Closes : Level → Level → Prop where
  | visit {level : Level} {job : Job} {jobs : List Job} (stack : List Frame) :
      level.jobs = job :: jobs → job.demand = .visit →
      Closes level { level with stack, jobs }
  | pull {level : Level} {job : Job} {jobs : List Job} :
      level.jobs = job :: jobs → job.demand = .pull →
      Closes level
        { level with jobs, pulling := level.pulling.erase job.node.id }

def resume (body caller : Level) : Level :=
  { caller with
    steps := body.steps
    limitReported := body.limitReported
    reports := caller.reports + body.reports }

def bodyLevel (function : Function) (caller : Level) : Level where
  scope := ⟨function.graph, true⟩
  stack := bodyStack function
  jobs := []
  depth := caller.depth + 1
  pulling := []
  steps := caller.steps
  limitReported := caller.limitReported
  reports := 0

/-- What one step of the machine does to the levels; the flag tells whether
the step attempts a visit. -/
inductive Change (setup : Setup) : Bool → List Level → List Level → Prop where
  | stay (levels : List Level) : Change setup false levels levels
  | walk {level : Level} {rest : List Level} (stack : List Frame) :
      level.jobs = [] → level.stack ≠ [] ∨ rest = [] →
      Change setup false (level :: rest) ({ level with stack } :: rest)
  | refuse {level : Level} {rest : List Level} :
      level.jobs = [] → level.stack ≠ [] →
      setup.limits.maxSteps.toNat ≤ level.steps →
      Change setup true (level :: rest)
        ({ level with
          stack := []
          limitReported := true
          reports := level.reports + (!level.limitReported).toNat } :: rest)
  | take {level : Level} {rest : List Level} (stack : List Frame)
      {jobs : List Job} :
      level.jobs = [] → level.stack ≠ [] →
      level.steps < setup.limits.maxSteps.toNat →
      jobs = [] ∨ (∃ job : Job, jobs = [job] ∧ job.demand = .visit) →
      Change setup true (level :: rest)
        ({ level with stack, jobs, steps := level.steps + 1 } :: rest)
  | openPull {level : Level} {rest : List Level} {node : Node}
      {how : Evaluator} :
      level.scope.graph.node? node.id = some node →
      evaluator? setup node = some how →
      node.id ∉ level.pulling →
      Change setup false (level :: rest)
        ({ level with
          jobs := ⟨.pull, node, how⟩ :: level.jobs
          pulling := node.id :: level.pulling } :: rest)
  | close {level after : Level} {rest : List Level} :
      Closes level after → Change setup false (level :: rest) (after :: rest)
  | enter {level : Level} {rest : List Level} {job : Job} {jobs : List Job}
      {function : Function} :
      level.jobs = job :: jobs → job.how = .call →
      callee setup job.node level.depth = .ok function →
      Change setup false (level :: rest)
        (bodyLevel function level :: level :: rest)
  | leave {body level after : Level} {rest : List Level} :
      Closes (resume body level) after →
      Change setup false (body :: level :: rest) (after :: rest)

/-! ## What the operations of the engine leave of a level -/

section Operations

variable {setup : Setup} {scope : Scope} {stack : List Frame} {jobs : List Job}

theorem levelOf_report {condition : Condition} (h : condition ≠ .stepLimit)
    (node message : String) (state : RunState) :
    levelOf scope stack jobs (state.report node condition message).activation =
      levelOf scope stack jobs state.activation := by
  simp [levelOf, RunState.report, limitReports, h]

theorem levelOf_iterate (node pin : String) (index stop : Int64)
    (rest : List Frame) (state : RunState) :
    levelOf scope stack jobs
      (iterate setup scope node pin index stop rest state).2.activation =
      levelOf scope stack jobs state.activation := by
  unfold iterate
  split
  · rfl
  · rfl

theorem levelOf_follow (node : String) (output : Output) (rest : List Frame)
    (state : RunState) :
    levelOf scope stack jobs
      (follow setup scope node output rest state).2.activation =
      levelOf scope stack jobs state.activation := by
  unfold follow
  cases output.flow with
  | error message => exact levelOf_report (by simp) _ _ _
  | _ => rfl

theorem levelOf_settlePull (id : String) (outcome : Except String (Table Value))
    (state : RunState) :
    levelOf scope stack jobs (settlePull id outcome state).2.activation =
      { levelOf scope stack jobs state.activation with
        pulling := state.activation.pulling.erase id } := by
  cases outcome with
  | ok values => rfl
  | error message =>
      exact levelOf_report (by simp) id message (state.endPull id)

theorem limitReports_within (diagnostics : List Diagnostic) (caller : String) :
    limitReports (diagnostics.map fun diagnostic => diagnostic.within caller) =
      limitReports diagnostics := by
  rw [limitReports, List.countP_map]
  rfl

theorem levelOf_leaveBody (caller : String) (body state : RunState)
    (inside : Scope) (frames : List Frame) (pulls : List Job) :
    levelOf scope stack jobs (leaveBody caller body state).activation =
      resume (levelOf inside frames pulls body.activation)
        (levelOf scope stack jobs state.activation) := by
  have reported :
      limitReports (leaveBody caller body state).activation.diagnostics.toList =
      limitReports state.activation.diagnostics.toList +
        limitReports body.activation.diagnostics.toList := by
    rw [← limitReports_within body.activation.diagnostics.toList caller]
    simp [leaveBody, RunState.syncVariables, limitReports]
  simp only [levelOf, resume, reported]
  rfl

theorem takeStep_refused {limits : Limits} {id : String}
    {state after : RunState} (h : state.takeStep limits id = (false, after)) :
    limits.maxSteps.toNat ≤ state.activation.steps ∧ ∀ scope stack jobs,
      levelOf scope stack jobs after.activation =
        { levelOf scope stack jobs state.activation with
          limitReported := true
          reports := limitReports state.activation.diagnostics.toList +
            (!state.activation.limitReported).toNat } := by
  unfold RunState.takeStep at h
  split at h
  · exact absurd (Prod.mk.inj h).1 (by simp)
  · next hsteps =>
      refine ⟨Nat.le_of_not_lt hsteps, fun scope stack jobs => ?_⟩
      split at h
      · next hreported =>
          rw [← (Prod.mk.inj h).2]
          simp [levelOf, hreported]
      · next hreported =>
          rw [← (Prod.mk.inj h).2]
          simp [levelOf, RunState.report, limitReports, hreported]

end Operations

/-! ## What a step changes -/

section Steps

variable {setup : Setup} {config next : Config}

theorem conclude_callers (job : Job) (answer : Except Failure Output)
    (config : Config) :
    (conclude setup job answer config).callers = config.callers := by
  unfold conclude
  cases job.demand <;> rfl

theorem conclude_closes (job : Job) (answer : Except Failure Output)
    (config : Config) {level : Level} (hlevel : level = config.level.push job) :
    Closes level (conclude setup job answer config).level := by
  subst hlevel
  unfold conclude
  cases hdemand : job.demand with
  | visit =>
      simp only [Config.level, levelOf_follow]
      exact Closes.visit _ rfl hdemand
  | pull =>
      simp only [Config.level, levelOf_settlePull]
      exact Closes.pull rfl hdemand

theorem bringNext_changes (purpose : Purpose) (source : Endpoint) (pin : String)
    (wires : List (Endpoint × String)) (inputs : Table Value)
    (more : List Gathering)
    (hgatherings : config.gatherings =
      ⟨purpose, (source, pin) :: wires, inputs⟩ :: more) :
    Change setup false config.levels
      (bringNext setup purpose source pin wires inputs more config).levels := by
  have same : ∀ wires inputs,
      { config with gatherings := ⟨purpose, wires, inputs⟩ :: more }.levels =
        config.levels := by
    intro wires inputs
    simp only [Config.levels, Config.level, hgatherings, openJobs,
      List.filterMap_cons]
    rfl
  unfold bringNext
  cases config.state.outputs? source.node with
  | some values =>
      dsimp only
      rw [same]
      exact .stay _
  | none =>
      cases hpullable : pullable? setup config.scope source.node with
      | none =>
          dsimp only
          rw [same]
          exact .stay _
      | some found =>
          obtain ⟨node, how⟩ := found
          obtain ⟨hnode, hhow⟩ :=
            (pullable?_eq_some setup config.scope).mp hpullable
          have hid := node?_id hnode
          rw [← hid] at hnode
          dsimp only
          split
          · rw [same]
            exact .stay _
          · next hfresh =>
              rw [← hid] at hfresh ⊢
              exact .openPull hnode hhow
                (by simpa [Config.level, levelOf] using hfresh)

theorem perform_changes (job : Job) (inputs : Table Value)
    (more : List Gathering)
    (hgatherings : config.gatherings = ⟨.job job, [], inputs⟩ :: more) :
    Change setup false config.levels
      (perform setup job inputs { config with gatherings := more }).levels := by
  have hlevel : config.level =
      { config with gatherings := more }.level.push job := by
    simp only [Config.level, hgatherings]
    rfl
  unfold perform
  cases hhow : job.how with
  | entry entry =>
      dsimp only
      simp only [Config.levels, conclude_callers]
      exact .close (conclude_closes job _ _ hlevel)
  | call =>
      cases hcallee : callee setup job.node config.state.activation.depth with
      | error cause =>
          dsimp only
          simp only [Config.levels, conclude_callers]
          exact .close (conclude_closes job _ _ hlevel)
      | ok function =>
          have entered :
              (enter function job inputs
                { config with gatherings := more }).levels =
              bodyLevel function config.level :: config.levels := by
            rw [Config.levels, Config.levels, hlevel]
            rfl
          dsimp only
          rw [entered]
          exact .enter (congrArg Level.jobs hlevel) hhow hcallee

theorem giveBack_changes (results : Table Value) (caller : Suspended)
    (callers : List Suspended) (hcallers : config.callers = caller :: callers) :
    Change setup false config.levels
      (giveBack setup results config.state caller callers
        config.pending).levels := by
  rw [Config.levels, hcallers, List.map_cons]
  unfold giveBack
  rw [Config.levels, conclude_callers]
  refine .leave (conclude_closes caller.job _ _ ?_)
  simp only [Config.level,
    levelOf_leaveBody caller.job.node.id config.state _ config.scope
      config.stack (openJobs config.gatherings)]
  rfl

theorem visitNode_levels (setup : Setup) (id : String) (config : Config)
    (hgatherings : config.gatherings = []) :
    ∃ stack jobs,
      (visitNode setup id config).levels =
        { config.level with stack, jobs } ::
          config.callers.map Suspended.level ∧
      (jobs = [] ∨ ∃ job : Job, jobs = [job] ∧ job.demand = .visit) := by
  unfold visitNode
  cases config.scope.graph.node? id with
  | none =>
      refine ⟨config.stack, [], ?_, .inl rfl⟩
      simp only [Config.levels, Config.level, hgatherings]
      rfl
  | some node =>
      dsimp only
      split
      · refine ⟨[], [], ?_, .inl rfl⟩
        simp only [Config.levels, Config.level, hgatherings]
        rfl
      · split
        · refine ⟨config.stack, [⟨.visit, node, .call⟩], ?_, .inr ⟨_, rfl, rfl⟩⟩
          simp only [Config.levels, Config.level, beginGathering, hgatherings]
          rfl
        · cases setup.catalogue.lookup node.kind with
          | none =>
              refine ⟨config.stack, [], ?_, .inl rfl⟩
              dsimp only
              simp only [Config.levels, Config.level, hgatherings]
              rw [levelOf_report (by simp)]
              rfl
          | some entry =>
              refine ⟨config.stack, [⟨.visit, node, .entry entry⟩], ?_,
                .inr ⟨_, rfl, rfl⟩⟩
              simp only [Config.levels, Config.level, beginGathering,
                hgatherings]
              rfl

theorem walkOn_changes (hgatherings : config.gatherings = [])
    (h : walkOn setup config = some next) :
    Change setup config.attemptsVisit config.levels next.levels := by
  have hjobs : config.level.jobs = [] := by
    rw [Config.level, hgatherings]
    rfl
  unfold walkOn at h
  cases hstack : config.stack with
  | nil =>
      have hattempt : config.attemptsVisit = false := by
        rw [Config.attemptsVisit, hgatherings, hstack]
      rw [hstack] at h
      rw [hattempt]
      -- Nothing is left to walk: a body goes on to its results, a run to its
      -- next entry.
      cases hcallers : config.callers with
      | cons caller callers =>
          rw [hcallers] at h
          cases h
          exact .stay _
      | nil =>
          cases hpending : config.pending with
          | nil => simp [hcallers, hpending] at h
          | cons id pending =>
              simp only [hcallers, hpending] at h
              rw [← Option.some.inj h]
              simp only [Config.levels, hcallers, List.map_nil]
              exact .walk [.visit id] hjobs (.inr rfl)
  | cons frame rest =>
      have hframes : config.level.stack ≠ [] := by
        simp [Config.level, levelOf, hstack]
      rw [hstack] at h
      cases frame with
      | loop node pin index stop =>
          have hattempt : config.attemptsVisit = false := by
            rw [Config.attemptsVisit, hgatherings, hstack]
          dsimp only at h
          rw [hattempt, ← Option.some.inj h]
          simp only [Config.levels, Config.level, levelOf_iterate]
          exact .walk _ hjobs (.inl hframes)
      | visit id =>
          have hattempt : config.attemptsVisit = true := by
            rw [Config.attemptsVisit, hgatherings, hstack]
          rw [hattempt]
          rcases hstep : config.state.takeStep setup.limits id with
            ⟨allowed, after⟩
          simp only [hstep] at h
          cases allowed with
          | false =>
              obtain ⟨hlimit, hlevel⟩ := takeStep_refused hstep
              rw [← Option.some.inj h]
              simp only [Config.levels, Config.level, hlevel]
              exact .refuse hjobs hframes hlimit
          | true =>
              obtain ⟨hlimit, hafter⟩ := takeStep_allowed hstep
              obtain ⟨stack, jobs, hlevels, hvisit⟩ := visitNode_levels setup id
                { config with stack := rest, state := after } hgatherings
              rw [← Option.some.inj h, hlevels, hafter]
              exact .take stack hjobs hframes hlimit hvisit

theorem step_changes (h : StepsTo setup config next) :
    Change setup config.attemptsVisit config.levels next.levels := by
  unfold StepsTo step at h
  cases hgatherings : config.gatherings with
  | nil =>
      rw [hgatherings] at h
      exact walkOn_changes hgatherings h
  | cons gathering more =>
      have hattempt : config.attemptsVisit = false := by
        rw [Config.attemptsVisit, hgatherings]
      rw [hgatherings] at h
      rw [hattempt]
      obtain ⟨purpose, wires, inputs⟩ := gathering
      cases wires with
      | cons wire wires =>
          cases h
          exact bringNext_changes purpose wire.1 wire.2 wires inputs more
            hgatherings
      | nil =>
          cases purpose with
          | job job =>
              cases h
              exact perform_changes job inputs more hgatherings
          | results =>
              cases hcallers : config.callers with
              | nil => simp [hcallers] at h
              | cons caller callers =>
                  simp only [hcallers] at h
                  cases h
                  exact giveBack_changes inputs caller callers hcallers

end Steps

end ScriptGraph.Engine.Machine
