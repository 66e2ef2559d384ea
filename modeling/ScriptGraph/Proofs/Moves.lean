import ScriptGraph.Proofs.Levels

/-!
# The moves of the machine

`Move` lists what a step of the machine can do, with the guards under which
it does so, and `step_moves` shows that every step is one of them.  Where
`Change` keeps of an activation what the limits are about, a move has the
whole configuration before and after.

The first invariant drawn from the list says where the machine stands: every
job that is under way is for a node of the graph at hand and runs what that
node's kind says, and every caller waits for the body of the function that
its node names.
-/

namespace ScriptGraph.Engine.Machine

open Json

/-! ## What a visited node runs -/

def runner? (setup : Setup) (node : Node) : Option Evaluator :=
  if node.kind == callKind then some .call
  else (setup.catalogue.lookup node.kind).map .entry

theorem runner?_call {setup : Setup} {node : Node}
    (h : runner? setup node = some .call) :
    node.kind = callKind := by
  unfold runner? at h
  split at h
  · next hkind => simpa using hkind
  · simp at h

theorem runner?_of_evaluator? {setup : Setup} {node : Node} {how : Evaluator}
    (h : evaluator? setup node = some how) : runner? setup node = some how := by
  unfold evaluator? at h
  unfold runner?
  split at h
  · next hkind =>
      rw [if_pos hkind]
      split at h
      · exact h
      · simp at h
  · next hkind =>
      rw [if_neg hkind]
      split at h
      · next entry hentry =>
          split at h
          · simpa [hentry] using h
          · simp at h
      · simp at h

/-! ## Moves -/

def isExit (scope : Scope) (id : String) : Bool :=
  scope.isBody && id == exitMarker

def unknownKindMessage (kind : String) : String :=
  "unknown node type '" ++ kind ++ "'"

inductive Move (setup : Setup) (config : Config) : Config → Prop where
  | bring {purpose : Purpose} {source : Endpoint} {pin : String}
      {wires : List (Endpoint × String)} {inputs : Table Value}
        {more : List Gathering} :
      config.gatherings = ⟨purpose, (source, pin) :: wires, inputs⟩ :: more →
      Move setup config { config with gatherings :=
        ⟨purpose, wires, overlay inputs pin
          ((config.state.outputs? source.node).bind fun values =>
            values.get? source.pin)⟩ ::
            more }
  | openPull {purpose : Purpose} {source : Endpoint} {pin : String}
      {wires : List (Endpoint × String)} {inputs : Table Value}
        {more : List Gathering}
      {node : Node} {how : Evaluator} :
      config.gatherings = ⟨purpose, (source, pin) :: wires, inputs⟩ :: more →
      source.node = node.id → config.state.outputs? node.id = none →
      config.scope.graph.node? node.id = some node →
      evaluator? setup node = some how →
      node.id ∉ config.state.activation.pulling →
      Move setup config (beginGathering setup (.job ⟨.pull, node, how⟩) node.id
        { config with state := config.state.beginPull node.id })
  | invoke {job : Job} {entry : Entry} {inputs : Table Value}
      {more : List Gathering} :
      config.gatherings = ⟨.job job, [], inputs⟩ :: more →
      job.how = .entry entry →
      Move setup config (conclude setup job
        (config.state.invoke entry (job.invocation setup inputs config.state)).1
        { config with
          gatherings := more
          state := (config.state.invoke entry
            (job.invocation setup inputs config.state)).2 })
  | refuseCall {job : Job} {cause : Failure} {inputs : Table Value}
      {more : List Gathering} :
      config.gatherings = ⟨.job job, [], inputs⟩ :: more → job.how = .call →
      callee setup job.node config.state.activation.depth = .error cause →
      Move setup config
        (conclude setup job (.error cause) { config with gatherings := more })
  | enter {job : Job} {function : Function} {inputs : Table Value}
      {more : List Gathering} :
      config.gatherings = ⟨.job job, [], inputs⟩ :: more → job.how = .call →
      callee setup job.node config.state.activation.depth = .ok function →
      Move setup config
        (enter function job inputs { config with gatherings := more })
  | giveBack {results : Table Value} {more : List Gathering}
      {caller : Suspended} {callers : List Suspended} :
      config.gatherings = ⟨.results, [], results⟩ :: more →
      config.callers = caller :: callers →
      Move setup config
        (giveBack setup results config.state caller callers config.pending)
  | refuse {id : String} {rest : List Frame} {after : RunState} :
      config.gatherings = [] → config.stack = .visit id :: rest →
      config.state.takeStep setup.limits id = (false, after) →
      Move setup config { config with stack := [], state := after }
  | pass {id : String} {rest frames : List Frame} {after : RunState} :
      config.gatherings = [] → config.stack = .visit id :: rest →
      config.state.takeStep setup.limits id = (true, after) →
      (config.scope.graph.node? id = none ∧ frames = rest ∨
        isExit config.scope id = true ∧ frames = []) →
      Move setup config { config with stack := frames, state := after }
  | unknown {id : String} {rest : List Frame} {after : RunState} {node : Node} :
      config.gatherings = [] → config.stack = .visit id :: rest →
      config.state.takeStep setup.limits id = (true, after) →
      config.scope.graph.node? id = some node → isExit config.scope id = false →
      runner? setup node = none →
      Move setup config { config with
        stack := rest
        state := after.report id .unknownNodeKind
          (unknownKindMessage node.kind) }
  | visit {id : String} {rest : List Frame} {after : RunState} {node : Node}
      {how : Evaluator} :
      config.gatherings = [] → config.stack = .visit id :: rest →
      config.state.takeStep setup.limits id = (true, after) →
      config.scope.graph.node? id = some node → isExit config.scope id = false →
      runner? setup node = some how →
      Move setup config (beginGathering setup (.job ⟨.visit, node, how⟩) node.id
        { config with stack := rest, state := after })
  | iterate {node pin : String} {index stop : Int64} {rest : List Frame} :
      config.gatherings = [] →
      config.stack = .loop node pin index stop :: rest →
      Move setup config { config with
        stack := (iterate setup config.scope node pin index stop rest
          config.state).1
        state := (iterate setup config.scope node pin index stop rest
          config.state).2 }
  | collect {caller : Suspended} {callers : List Suspended} :
      config.gatherings = [] → config.stack = [] →
      config.callers = caller :: callers →
      Move setup config (beginGathering setup .results exitMarker config)
  | nextEntry {id : String} {pending : List String} :
      config.gatherings = [] → config.stack = [] → config.callers = [] →
      config.pending = id :: pending →
      Move setup config { config with stack := [.visit id], pending }

section Steps

variable {setup : Setup} {config next : Config}

theorem bringNext_moves {purpose : Purpose} {source : Endpoint} {pin : String}
    {wires : List (Endpoint × String)} {inputs : Table Value}
    {more : List Gathering}
    (hgatherings : config.gatherings =
      ⟨purpose, (source, pin) :: wires, inputs⟩ :: more) :
    Move setup config
      (bringNext setup purpose source pin wires inputs more config) := by
  have brought : Move setup config _ := .bring hgatherings
  unfold bringNext
  cases hcached : config.state.outputs? source.node with
  | some values => simpa [hcached] using brought
  | none =>
      rw [hcached] at brought
      cases hpullable : pullable? setup config.scope source.node with
      | none => exact brought
      | some found =>
          obtain ⟨node, how⟩ := found
          obtain ⟨hnode, hhow⟩ :=
            (pullable?_eq_some setup config.scope).mp hpullable
          have hid := node?_id hnode
          dsimp only
          split
          · exact brought
          · next hfresh =>
              rw [← hid] at hcached hnode hfresh ⊢
              exact .openPull hgatherings hid.symm hcached hnode hhow
                (by simpa using hfresh)

theorem perform_moves {job : Job} {inputs : Table Value} {more : List Gathering}
    (hgatherings : config.gatherings = ⟨.job job, [], inputs⟩ :: more) :
    Move setup config
      (perform setup job inputs { config with gatherings := more }) := by
  unfold perform
  cases hhow : job.how with
  | entry entry => exact .invoke hgatherings hhow
  | call =>
      cases hcallee : callee setup job.node config.state.activation.depth with
      | error cause => exact .refuseCall hgatherings hhow hcallee
      | ok function => exact .enter hgatherings hhow hcallee

theorem visitNode_moves {id : String} {rest : List Frame} {after : RunState}
    (hgatherings : config.gatherings = [])
    (hstack : config.stack = .visit id :: rest)
    (htaken : config.state.takeStep setup.limits id = (true, after)) :
    Move setup config
      (visitNode setup id { config with stack := rest, state := after }) := by
  unfold visitNode
  cases hnode : config.scope.graph.node? id with
  | none => exact .pass hgatherings hstack htaken (.inl ⟨hnode, rfl⟩)
  | some node =>
      dsimp only
      split
      · next hexit => exact .pass hgatherings hstack htaken (.inr ⟨hexit, rfl⟩)
      · next hstays =>
          have hexit : isExit config.scope id = false :=
            Bool.eq_false_iff.mpr hstays
          split
          · next hkind =>
              have hrunner : runner? setup node = some .call := by
                simp [runner?, hkind]
              exact .visit hgatherings hstack htaken hnode hexit hrunner
          · next hkind =>
              cases hentry : setup.catalogue.lookup node.kind with
              | none =>
                  have hrunner : runner? setup node = none := by
                    simp [runner?, hkind, hentry]
                  exact .unknown hgatherings hstack htaken hnode hexit hrunner
              | some entry =>
                  have hrunner : runner? setup node = some (.entry entry) := by
                    simp [runner?, hkind, hentry]
                  exact .visit hgatherings hstack htaken hnode hexit hrunner

theorem walkOn_moves (hgatherings : config.gatherings = [])
    (h : walkOn setup config = some next) : Move setup config next := by
  obtain ⟨scope, stack, gatherings, state, callers, pending⟩ := config
  cases stack with
  | nil =>
      cases callers with
      | cons caller callers =>
          cases h
          exact .collect hgatherings rfl rfl
      | nil =>
          cases pending with
          | nil => simp [walkOn] at h
          | cons id pending =>
              cases h
              exact .nextEntry hgatherings rfl rfl rfl
  | cons frame rest =>
      cases frame with
      | loop node pin index stop =>
          cases h
          exact .iterate hgatherings rfl
      | visit id =>
          rcases htaken : state.takeStep setup.limits id with ⟨allowed, after⟩
          simp only [walkOn, htaken] at h
          cases allowed with
          | false =>
              cases h
              exact .refuse hgatherings rfl htaken
          | true =>
              cases h
              exact visitNode_moves hgatherings rfl htaken

theorem step_moves (h : StepsTo setup config next) :
    Move setup config next := by
  unfold StepsTo step at h
  cases hgatherings : config.gatherings with
  | nil =>
      rw [hgatherings] at h
      exact walkOn_moves hgatherings h
  | cons gathering more =>
      obtain ⟨purpose, wires, inputs⟩ := gathering
      rw [hgatherings] at h
      cases wires with
      | cons wire wires =>
          cases h
          exact bringNext_moves hgatherings
      | nil =>
          cases purpose with
          | job job =>
              cases h
              exact perform_moves hgatherings
          | results =>
              cases hcallers : config.callers with
              | nil => simp [hcallers] at h
              | cons caller callers =>
                  simp only [hcallers, Option.some.injEq] at h
                  rw [← h]
                  exact .giveBack hgatherings hcallers

end Steps

theorem Passes.reaches {setup : Setup} {first last : Config}
    {history : List Config} (h : Passes setup first history last) :
    Reaches setup first last := by
  induction h with
  | refl => exact .refl
  | tail _ stepped ih => exact ih.tail stepped

theorem Passes.reaches_of_mem {setup : Setup} {first last config : Config}
    {history : List Config} (h : Passes setup first history last)
    (passed : config ∈ history) :
    Reaches setup first config := by
  induction h with
  | refl => simp at passed
  | tail before _ ih =>
      rcases List.mem_append.mp passed with earlier | hlast
      · exact ih earlier
      · rw [List.mem_singleton.mp hlast]
        exact before.reaches

/-- The configuration after a number of steps, or where the machine halts. -/
def runFor (setup : Setup) : Nat → Config → Config
  | 0, config => config
  | count + 1, config =>
    match step setup config with
    | some next => runFor setup count next
    | none => config

theorem reaches_runFor (setup : Setup) (count : Nat) (config : Config) :
    Reaches setup config (runFor setup count config) := by
  induction count generalizing config with
  | zero => exact .refl
  | succ count ih =>
      unfold runFor
      cases hstep : step setup config with
      | none => exact .refl
      | some next => exact .head hstep (ih next)

/-! ## What the ends of jobs leave alone -/

section Concluding

variable {setup : Setup}

@[simp] theorem openJobs_nil : openJobs [] = [] := rfl

@[simp] theorem openJobs_job (job : Job) (wires : List (Endpoint × String))
    (inputs : Table Value) (more : List Gathering) :
    openJobs (⟨.job job, wires, inputs⟩ :: more) = job :: openJobs more := rfl

@[simp] theorem openJobs_results (wires : List (Endpoint × String))
    (inputs : Table Value) (more : List Gathering) :
    openJobs (⟨.results, wires, inputs⟩ :: more) = openJobs more := rfl

theorem openJobs_cons_congr (purpose : Purpose)
    (wires others : List (Endpoint × String)) (inputs values : Table Value)
    (more : List Gathering) :
    openJobs (⟨purpose, wires, inputs⟩ :: more) =
      openJobs (⟨purpose, others, values⟩ :: more) := by
  cases purpose <;> rfl

variable (job : Job) (answer : Except Failure Output) (config : Config)

@[simp] theorem conclude_scope :
    (conclude setup job answer config).scope = config.scope := by
  unfold conclude
  cases job.demand <;> rfl

@[simp] theorem conclude_gatherings :
    (conclude setup job answer config).gatherings = config.gatherings := by
  unfold conclude
  cases job.demand <;> rfl

end Concluding

/-! ## Invocations -/

/-- The executor that the next step of the machine runs, and what it is told. -/
def Config.invocation? (setup : Setup) (config : Config) :
    Option (Entry × Invocation) :=
  match config.gatherings with
  | ⟨.job ⟨demand, node, .entry entry⟩, [], inputs⟩ :: _ =>
    some (entry,
      Job.invocation setup ⟨demand, node, .entry entry⟩ inputs config.state)
  | _ => none

theorem invocation?_eq_some {setup : Setup} {config : Config} {entry : Entry}
    {inv : Invocation} :
    config.invocation? setup = some (entry, inv) ↔
      ∃ job inputs more, config.gatherings = ⟨.job job, [], inputs⟩ :: more ∧
        job.how = .entry entry ∧
        job.invocation setup inputs config.state = inv := by
  constructor
  · intro h
    unfold Config.invocation? at h
    split at h
    · next hgatherings =>
        cases h
        exact ⟨_, _, _, hgatherings, rfl, rfl⟩
    · cases h
  · rintro ⟨⟨demand, node, how⟩, inputs, more, hgatherings, rfl, rfl⟩
    simp only [Config.invocation?, hgatherings]

@[simp] theorem Job.invocation_nodeKind (setup : Setup) (job : Job)
    (inputs : Table Value) (state : RunState) :
    (job.invocation setup inputs state).nodeKind = job.node.kind := by
  unfold Job.invocation
  cases job.demand <;> rfl

@[simp] theorem Job.invocation_snapshot (setup : Setup) (job : Job)
    (inputs : Table Value) (state : RunState) :
    (job.invocation setup inputs state).snapshot =
      state.activation.view.snapshot := by
  unfold Job.invocation
  cases job.demand <;> rfl

/-! ## Where the machine stands -/

structure Job.Fits (setup : Setup) (scope : Scope) (job : Job) : Prop where
  found : scope.graph.node? job.node.id = some job.node
  runs : runner? setup job.node = some job.how
  pulled : job.demand = .pull → evaluator? setup job.node = some job.how

/-- From `root` on, every caller waits in its graph for the function that a
node of the graph names, and the graph of the last one's function is `scope`. -/
def CalledFrom (setup : Setup) (root : Scope) : List Suspended → Scope → Prop
  | [], scope => scope = root
  | caller :: callers, scope =>
      scope = ⟨caller.function.graph, true⟩ ∧ caller.job.node.kind = callKind ∧
        setup.functions.get? (functionName caller.job.node) =
          some caller.function ∧
        (∀ job ∈ caller.job :: openJobs caller.gatherings,
          job.Fits setup caller.scope) ∧
        CalledFrom setup root callers caller.scope

structure Config.Placed (setup : Setup) (root : Scope) (config : Config) :
    Prop where
  jobs : ∀ job ∈ openJobs config.gatherings, job.Fits setup config.scope
  called : CalledFrom setup root config.callers config.scope

section Places

variable {setup : Setup} {root : Scope} {config next : Config}

theorem Config.Placed.conclude (placed : config.Placed setup root) (job : Job)
    (answer : Except Failure Output) :
    (conclude setup job answer config).Placed setup root := by
  obtain ⟨jobs, called⟩ := placed
  constructor
  · simpa using jobs
  · simpa [conclude_callers] using called

theorem Config.Placed.begin (placed : config.Placed setup root) {job : Job}
    (fits : job.Fits setup config.scope) (id : String) (stack : List Frame)
    (state : RunState) :
    (beginGathering setup (.job job) id { config with stack, state }).Placed
      setup root :=
  ⟨List.forall_mem_cons.mpr ⟨fits, placed.jobs⟩, placed.called⟩

theorem Move.placed (h : Move setup config next)
    (placed : config.Placed setup root) :
    next.Placed setup root := by
  obtain ⟨jobs, called⟩ := placed
  cases h with
  | @bring purpose source pin wires inputs more hgatherings =>
      refine ⟨?_, called⟩
      rw [hgatherings] at jobs
      rw [openJobs_cons_congr purpose wires ((source, pin) :: wires) _ inputs]
      exact jobs
  | openPull hgatherings hsource huncached hnode hhow hfresh =>
      exact Config.Placed.begin ⟨jobs, called⟩
        ⟨hnode, runner?_of_evaluator? hhow, fun _ => hhow⟩ _ _ _
  | invoke hgatherings hhow =>
      simp only [hgatherings, openJobs_job, List.forall_mem_cons] at jobs
      refine Config.Placed.conclude ?_ _ _
      exact ⟨jobs.2, called⟩
  | refuseCall hgatherings hhow hcallee =>
      simp only [hgatherings, openJobs_job, List.forall_mem_cons] at jobs
      refine Config.Placed.conclude ?_ _ _
      exact ⟨jobs.2, called⟩
  | enter hgatherings hhow hcallee =>
      simp only [hgatherings, openJobs_job, List.forall_mem_cons] at jobs
      have hkind := runner?_call (hhow ▸ jobs.1.runs)
      -- In the body no job is open yet, and the caller keeps its own.
      refine ⟨List.forall_mem_nil _, rfl, hkind, (callee_ok hcallee).1,
        ?_, called⟩
      exact List.forall_mem_cons.mpr jobs
  | giveBack hgatherings hcallers =>
      rw [hcallers] at called
      obtain ⟨-, -, -, fits, outer⟩ := called
      refine Config.Placed.conclude ?_ _ _
      exact ⟨(List.forall_mem_cons.mp fits).2, outer⟩
  | refuse hgatherings hstack htaken => exact ⟨jobs, called⟩
  | pass hgatherings hstack htaken hframes => exact ⟨jobs, called⟩
  | unknown hgatherings hstack htaken hnode hexit hrunner =>
      exact ⟨jobs, called⟩
  | visit hgatherings hstack htaken hnode hexit hrunner =>
      rw [← node?_id hnode] at hnode
      exact Config.Placed.begin ⟨jobs, called⟩ ⟨hnode, hrunner, by simp⟩ _ _ _
  | iterate hgatherings hstack => exact ⟨jobs, called⟩
  | collect hgatherings hstack hcallers =>
      exact ⟨by simpa [beginGathering] using jobs, called⟩
  | nextEntry hgatherings hstack hcallers hpending => exact ⟨jobs, called⟩

theorem Reaches.placed (reached : Reaches setup config next)
    (placed : config.Placed setup root) : next.Placed setup root := by
  induction reached with
  | refl => exact placed
  | tail _ stepped ih => exact (step_moves stepped).placed ih

theorem start_placed (setup : Setup) (catalogue : Catalogue)
    (blueprint : Blueprint) (trigger : Trigger) (services : Services) :
    (start catalogue blueprint trigger services).Placed setup
      ⟨blueprint.graph, false⟩ :=
  ⟨List.forall_mem_nil _, rfl⟩

end Places

end ScriptGraph.Engine.Machine
