import ScriptGraph.Proofs.Moves
import ScriptGraph.Proofs.StepBudget
import ScriptGraph.Proofs.Termination

/-!
# The ledgers of activations

A `Ledger` has what an activation keeps about the outputs of its nodes: the
outputs themselves, the jobs that are going to add to them, and the loops that
are going to replace some.  `Alters` lists what a step of the machine can do to
the ledger of one activation, whether that is at hand or waits for a function
to return.

A node that is being pulled has no outputs yet, and a node whose loop is under
way has some.

The activation below `depth` callers lasts as long as the machine has so many
of them.  It is at hand when the machine has no more.
-/

namespace ScriptGraph.Engine.Machine

open Json

/-! ## Ledgers -/

def loopNodes (stack : List Frame) : List String :=
  stack.filterMap fun
    | .loop node _ _ _ => some node
    | .visit _ => none

structure Ledger where
  loops : List String
  jobs : List Job
  outputs : Table (Table Value)
  waits : Bool

def Config.ledger (config : Config) : Ledger where
  loops := loopNodes config.stack
  jobs := openJobs config.gatherings
  outputs := config.state.activation.outputs
  waits := false

def Suspended.ledger (caller : Suspended) : Ledger where
  loops := loopNodes caller.stack
  jobs := caller.job :: openJobs caller.gatherings
  outputs := caller.activation.outputs
  waits := true

/-- The ledger of the activation below `depth` of the callers, where `hand` is
that of the activation above all of them. -/
def ledgerBelow (depth : Nat) (hand : Ledger) : List Suspended → Ledger
  | [] => hand
  | caller :: callers =>
      if callers.length < depth then hand
      else ledgerBelow depth caller.ledger callers

def Config.ledgerAt (depth : Nat) (config : Config) : Ledger :=
  ledgerBelow depth config.ledger config.callers

def Config.performs? (config : Config) : Option Job :=
  match config.gatherings with
  | ⟨.job job, [], _⟩ :: _ => some job
  | _ => none

def Config.performsAt? (depth : Nat) (config : Config) : Option Job :=
  if config.callers.length = depth then config.performs? else none

/-- What a step of the machine does to the ledger of an activation, and which
job it does for it. -/
inductive Alters (before : Ledger) : Option Job → Ledger → Prop where
  | walk {loops : List String} :
      loops ⊆ before.loops → Alters before none { before with loops }
  | begin {job : Job} {loops : List String} :
      before.waits = false → loops ⊆ before.loops →
      (job.demand = .pull → before.outputs.get? job.node.id = none) →
      Alters before none { before with loops, jobs := job :: before.jobs }
  | wait {job : Job} {jobs : List Job} :
      before.waits = false → before.jobs = job :: jobs →
      Alters before (some job) { before with waits := true }
  | finish {job : Job} {jobs : List Job} {loops : List String}
      (values : Table Value) {performed? : Option Job} :
      performed? = (if before.waits then none else some job) →
      before.jobs = job :: jobs →
      (∀ other ∈ jobs, other.demand = .pull → other.node.id ≠ job.node.id) →
      loops ⊆ before.loops ∨
      job.demand = .visit ∧ loops ⊆ job.node.id :: before.loops →
      Alters before performed?
        ⟨loops, jobs, before.outputs.insert job.node.id values, false⟩
  | iterate {node : String} {loops : List String} (values : Table Value) :
      node ∈ before.loops → before.jobs = [] → loops ⊆ before.loops →
      Alters before none
        { before with loops, outputs := before.outputs.insert node values }

/-! ## What a ledger keeps -/

structure Ledger.Sound (ledger : Ledger) : Prop where
  unset : ∀ job ∈ ledger.jobs, job.demand = .pull →
    ledger.outputs.get? job.node.id = none
  looped : ∀ id ∈ ledger.loops, ledger.outputs.get? id ≠ none

theorem get?_insert_ne_none {α : Type} {table : Table α} {key : String}
    (h : table.get? key ≠ none) (other : String) (value : α) :
    (table.insert other value).get? key ≠ none := by
  rw [Table.get?_insert]
  split
  · simp
  · exact h

theorem Alters.sound {before after : Ledger} {performed? : Option Job}
    (h : Alters before performed? after) (sound : before.Sound) :
    after.Sound := by
  obtain ⟨unset, looped⟩ := sound
  cases h with
  | walk hloops => exact ⟨unset, fun id hid => looped id (hloops hid)⟩
  | begin hwaits hloops hunset =>
      exact ⟨List.forall_mem_cons.mpr ⟨hunset, unset⟩,
        fun id hid => looped id (hloops hid)⟩
  | wait hwaits hjobs => exact ⟨unset, looped⟩
  | finish values hperformed hjobs hapart hloops =>
      rw [hjobs] at unset
      constructor
      · intro other hother hdemand
        dsimp only
        rw [Table.get?_insert_of_ne _ _ (hapart other hother hdemand)]
        exact unset other (List.mem_cons_of_mem _ hother) hdemand
      · intro id hid
        rcases hloops with hloops | ⟨-, hloops⟩
        · exact get?_insert_ne_none (looped id (hloops hid)) _ _
        · rcases List.mem_cons.mp (hloops hid) with rfl | hid
          · simp
          · exact get?_insert_ne_none (looped id hid) _ _
  | iterate values hnode hjobs hloops =>
      refine ⟨by simp [hjobs], fun id hid => ?_⟩
      exact get?_insert_ne_none (looped id (hloops hid)) _ _

/-! ## What the operations of the engine do to a ledger -/

section Operations

variable {setup : Setup} {scope : Scope}

@[simp] theorem loopNodes_nil : loopNodes [] = [] := rfl

@[simp] theorem loopNodes_visit (id : String) (rest : List Frame) :
    loopNodes (.visit id :: rest) = loopNodes rest := rfl

@[simp] theorem loopNodes_loop (node pin : String) (index stop : Int64)
    (rest : List Frame) :
    loopNodes (.loop node pin index stop :: rest) = node :: loopNodes rest :=
  rfl

@[simp] theorem loopNodes_append (frames rest : List Frame) :
    loopNodes (frames ++ rest) = loopNodes frames ++ loopNodes rest :=
  List.filterMap_append ..

@[simp] theorem loopNodes_visitTarget (scope : Scope) (node pin : String) :
    loopNodes (visitTarget scope node pin) = [] := by
  unfold visitTarget
  cases scope.graph.target? node pin <;> rfl

theorem loopNodes_flowFrames (node : String) (flow : Flow) :
    loopNodes (flowFrames setup scope node flow) ⊆ [node] := by
  cases flow with
  | proceed pin => simp [flowFrames]
  | sequence pins =>
      have none : ∀ pins : List String,
          loopNodes (pins.flatMap (visitTarget scope node)) = [] := by
        intro pins
        induction pins with
        | nil => rfl
        | cons pin pins ih => simp [ih]
      simp [flowFrames, none]
  | loop pin start stop => exact List.Subset.refl _
  | error message => simp [flowFrames]
  | finish => simp [flowFrames]

theorem loopNodes_bodyStack (function : Function) :
    loopNodes (bodyStack function) = [] := by
  unfold bodyStack
  split
  · rfl
  · exact loopNodes_visitTarget _ _ _

theorem conclude_ledger (setup : Setup) (job : Job)
    (answer : Except Failure Output) (config : Config) :
    ∃ loops values, (conclude setup job answer config).ledger =
        ⟨loops, openJobs config.gatherings,
          config.state.activation.outputs.insert job.node.id values, false⟩ ∧
      (loops ⊆ loopNodes config.stack ∨
        job.demand = .visit ∧
        loops ⊆ job.node.id :: loopNodes config.stack) := by
  unfold conclude
  cases hdemand : job.demand with
  | pull =>
      refine ⟨loopNodes config.stack, ?_⟩
      cases pulledOutcome answer with
      | ok values => exact ⟨values, rfl, .inl (List.Subset.refl _)⟩
      | error message => exact ⟨.empty, rfl, .inl (List.Subset.refl _)⟩
  | visit =>
      refine ⟨loopNodes
        (flowFrames setup config.scope job.node.id (outputOf answer).flow ++
        config.stack), (outputOf answer).values, ?_, .inr ⟨rfl, ?_⟩⟩
      · unfold follow
        cases (outputOf answer).flow <;> rfl
      · rw [loopNodes_append]
        refine List.append_subset.mpr ⟨?_, List.subset_cons_self _ _⟩
        exact List.Subset.trans (loopNodes_flowFrames _ _) (by simp)

theorem takeStep_outputs {limits : Limits} {id : String}
    {state after : RunState} {allowed : Bool}
    (h : state.takeStep limits id = (allowed, after)) :
    after.activation.outputs = state.activation.outputs := by
  unfold RunState.takeStep at h
  split at h
  · cases h
    rfl
  · split at h
    · cases h
      rfl
    · cases h
      rfl

/-- Of two jobs that are under way for one node, the inner one is not a pull. -/
theorem Level.Tracked.apart {level : Level} {depth : Nat} {job : Job}
    {jobs : List Job} (tracked : level.Tracked depth)
    (inOrder : level.InOrder setup) (hjobs : level.jobs = job :: jobs) :
    ∀ other ∈ jobs, other.demand = .pull → other.node.id ≠ job.node.id := by
  intro other hother hdemand hsame
  have above := inOrder.pulledAbove
  have distinct := tracked.nodup
  rw [hjobs] at above
  rw [tracked.pulling, hjobs] at distinct
  have hpull := (List.pairwise_cons.mp above).1 other hother
  simp only [pulledIds, hpull, List.filter_cons, decide_true, if_true,
    List.map_cons, List.nodup_cons, List.mem_map, List.mem_filter] at distinct
  exact distinct.1 ⟨other, ⟨hother, by simpa using hdemand⟩, hsame⟩

end Operations

/-! ## What a step does to a ledger -/

section Depths

variable {depth : Nat} {hand other : Ledger} {caller : Suspended}
  {callers : List Suspended}

theorem ledgerBelow_of_le (h : callers.length ≤ depth) :
    ledgerBelow depth hand callers = hand := by
  cases callers with
  | nil => rfl
  | cons caller callers => exact if_pos h

theorem ledgerBelow_of_lt (h : depth < callers.length) :
    ledgerBelow depth hand callers = ledgerBelow depth other callers := by
  cases callers with
  | nil => simp at h
  | cons caller callers =>
      have hdepth : ¬callers.length < depth := by
        rw [List.length_cons] at h
        omega
      simp [ledgerBelow, hdepth]

theorem ledgerBelow_cons (h : depth ≤ callers.length) :
    ledgerBelow depth hand (caller :: callers) =
      ledgerBelow depth caller.ledger callers :=
  if_neg (Nat.not_lt.mpr h)

theorem Alters.below {performed? : Option Job}
    (h : Alters hand performed? other) (hdepth : depth ≤ callers.length) :
    Alters (ledgerBelow depth hand callers)
      (if callers.length = depth then performed? else none)
      (ledgerBelow depth other callers) := by
  by_cases heq : callers.length = depth
  · rw [if_pos heq, ledgerBelow_of_le heq.le, ledgerBelow_of_le heq.le]
    exact h
  · have hlt : depth < callers.length := by omega
    have same : ledgerBelow depth hand callers =
        ledgerBelow depth other callers :=
      ledgerBelow_of_lt hlt
    rw [if_neg heq, same]
    exact .walk (List.Subset.refl _)

end Depths

section Steps

variable {setup : Setup} {config next : Config} {depth : Nat}

theorem iterate_alters {node pin : String} {index stop : Int64}
    {rest : List Frame} (hgatherings : config.gatherings = [])
    (hstack : config.stack = .loop node pin index stop :: rest) :
    Alters config.ledger none
      { config with
        stack := (iterate setup config.scope node pin index stop rest
          config.state).1
        state := (iterate setup config.scope node pin index stop rest
          config.state).2 }.ledger := by
  have hloops : config.ledger.loops = node :: loopNodes rest := by
    simp [Config.ledger, hstack]
  have hjobs : config.ledger.jobs = [] := by simp [Config.ledger, hgatherings]
  unfold iterate
  split
  · refine .iterate _ ?_ hjobs ?_
    · simp [hloops]
    · simp [hloops]
  · refine .walk ?_
    simp [hloops]

theorem conclude_alters {job : Job} {answer : Except Failure Output}
    {before : Ledger} {performed? : Option Job}
    (hperformed : performed? = if before.waits then none else some job)
    (hjobs : before.jobs = job :: openJobs config.gatherings)
    (hloops : before.loops = loopNodes config.stack)
    (houtputs : before.outputs = config.state.activation.outputs)
    (hapart : ∀ other ∈ openJobs config.gatherings, other.demand = .pull →
      other.node.id ≠ job.node.id) :
    Alters before performed? (conclude setup job answer config).ledger := by
  obtain ⟨loops, values, hledger, hleft⟩ :=
    conclude_ledger setup job answer config
  rw [hledger, ← houtputs]
  rw [← hloops] at hleft
  exact .finish values hperformed hjobs hapart hleft

theorem performs?_idle (h : config.gatherings = []) :
    config.performs? = none := by
  simp only [Config.performs?, h]

theorem performs?_wire {purpose : Purpose} {wire : Endpoint × String}
    {wires : List (Endpoint × String)} {inputs : Table Value}
    {more : List Gathering}
    (h : config.gatherings = ⟨purpose, wire :: wires, inputs⟩ :: more) :
    config.performs? = none := by
  simp only [Config.performs?, h]

theorem performs?_job {job : Job} {inputs : Table Value} {more : List Gathering}
    (h : config.gatherings = ⟨.job job, [], inputs⟩ :: more) :
    config.performs? = some job := by
  simp only [Config.performs?, h]

theorem Alters.at_hand {performed? : Option Job}
    (hperforms : config.performs? = performed?)
    (hcallers : next.callers = config.callers)
    (hdepth : depth ≤ config.callers.length)
    (h : Alters config.ledger performed? next.ledger) :
    Alters (config.ledgerAt depth) (config.performsAt? depth)
      (next.ledgerAt depth) := by
  have altered := h.below hdepth
  rw [Config.ledgerAt, Config.ledgerAt, Config.performsAt?, hcallers, hperforms]
  exact altered

theorem enter_alters {job : Job} {function : Function} {inputs : Table Value}
    {more : List Gathering}
    (hgatherings : config.gatherings = ⟨.job job, [], inputs⟩ :: more)
    (hdepth : depth ≤ config.callers.length) :
    Alters (config.ledgerAt depth) (config.performsAt? depth)
      ((enter function job inputs { config with gatherings := more }).ledgerAt
        depth) := by
  have hjobs : config.ledger.jobs = job :: openJobs more := by
    simp [Config.ledger, hgatherings]
  have suspended :
      (⟨config.scope, config.stack, job, more, config.state.activation,
      function⟩ : Suspended).ledger = { config.ledger with waits := true } := by
    rw [Suspended.ledger, ← hjobs]
    rfl
  have waits :
      Alters config.ledger (some job) { config.ledger with waits := true } :=
    .wait rfl hjobs
  have altered := waits.below hdepth
  rw [Config.ledgerAt, Config.ledgerAt, enter, ledgerBelow_cons hdepth,
    suspended, Config.performsAt?, performs?_job hgatherings]
  exact altered

theorem giveBack_alters {results : Table Value} {more : List Gathering}
    {caller : Suspended} {callers : List Suspended}
    (hgatherings : config.gatherings = ⟨.results, [], results⟩ :: more)
    (hcallers : config.callers = caller :: callers)
    (hdepth : depth ≤ callers.length)
    (hapart : ∀ other ∈ openJobs caller.gatherings, other.demand = .pull →
      other.node.id ≠ caller.job.node.id) :
    Alters (config.ledgerAt depth) (config.performsAt? depth)
      ((giveBack setup results config.state caller callers
        config.pending).ledgerAt depth) := by
  have hperforms : config.performsAt? depth = none := by
    simp [Config.performsAt?, Config.performs?, hgatherings]
  have ended : Alters caller.ledger none
      (giveBack setup results config.state caller callers
        config.pending).ledger :=
    conclude_alters rfl rfl rfl rfl hapart
  have altered := ended.below hdepth
  rw [ite_self] at altered
  rw [Config.ledgerAt, Config.ledgerAt, hcallers, ledgerBelow_cons hdepth,
    hperforms]
  have hleft :
      (giveBack setup results config.state caller callers
        config.pending).callers =
      callers := conclude_callers _ _ _
  rw [hleft]
  exact altered

theorem Move.alters (h : Move setup config next)
    (nested : Nested setup.limits config.levels)
    (ordered : Ordered setup config.levels)
    (hdepth : depth ≤ config.callers.length)
    (hnext : depth ≤ next.callers.length) :
    Alters (config.ledgerAt depth) (config.performsAt? depth)
      (next.ledgerAt depth) := by
  cases h with
  | @bring purpose source pin wires inputs more hgatherings =>
      refine .at_hand (performs?_wire hgatherings) rfl hdepth ?_
      -- A wire at the front changes what is gathered, not for which jobs.
      have hjobs := openJobs_cons_congr purpose
        ((source, pin) :: wires) wires inputs
        (overlay inputs pin
          ((config.state.outputs? source.node).bind fun values =>
            values.get? source.pin)) more
      rw [Config.ledger, Config.ledger, hgatherings, hjobs]
      exact .walk (List.Subset.refl _)
  | openPull hgatherings hsource huncached hnode hhow hfresh =>
      refine .at_hand (performs?_wire hgatherings) rfl hdepth ?_
      exact .begin rfl (List.Subset.refl _) fun _ => huncached
  | @invoke job entry inputs more hgatherings hhow =>
      refine .at_hand (performs?_job hgatherings)
        (conclude_callers _ _ _) hdepth ?_
      have hjobs : config.level.jobs = job :: openJobs more := by
        simp [Config.level, levelOf, hgatherings]
      exact conclude_alters rfl hjobs rfl rfl (nested.1.apart ordered.1 hjobs)
  | @refuseCall job cause inputs more hgatherings hhow hcallee =>
      refine .at_hand (performs?_job hgatherings)
        (conclude_callers _ _ _) hdepth ?_
      have hjobs : config.level.jobs = job :: openJobs more := by
        simp [Config.level, levelOf, hgatherings]
      exact conclude_alters rfl hjobs rfl rfl (nested.1.apart ordered.1 hjobs)
  | enter hgatherings hhow hcallee => exact enter_alters hgatherings hdepth
  | @giveBack results more caller callers hgatherings hcallers =>
      have hshorter : depth ≤ callers.length := by
        simpa [Machine.giveBack, conclude_callers] using hnext
      -- The level that goes on is the second one, that of the caller.
      rw [Config.levels, hcallers] at nested ordered
      exact giveBack_alters hgatherings hcallers hshorter
        (nested.2.2.1.apart ordered.2.2.1 rfl)
  | refuse hgatherings hstack htaken =>
      refine .at_hand (performs?_idle hgatherings) rfl hdepth ?_
      rw [Config.ledger, Config.ledger, takeStep_outputs htaken]
      exact .walk (by simp)
  | pass hgatherings hstack htaken hframes =>
      refine .at_hand (performs?_idle hgatherings) rfl hdepth ?_
      rw [Config.ledger, Config.ledger, takeStep_outputs htaken]
      refine .walk ?_
      rcases hframes with ⟨-, rfl⟩ | ⟨-, rfl⟩
      · simp [hstack]
      · simp
  | unknown hgatherings hstack htaken hnode hexit hrunner =>
      refine .at_hand (performs?_idle hgatherings) rfl hdepth ?_
      rw [Config.ledger, Config.ledger, RunState.report,
        takeStep_outputs htaken]
      exact .walk (by simp [hstack])
  | visit hgatherings hstack htaken hnode hexit hrunner =>
      refine .at_hand (performs?_idle hgatherings) rfl hdepth ?_
      rw [Config.ledger, Config.ledger, beginGathering, takeStep_outputs htaken]
      exact .begin rfl (by simp [hstack]) (by simp)
  | iterate hgatherings hstack =>
      refine .at_hand (performs?_idle hgatherings) rfl hdepth ?_
      exact iterate_alters hgatherings hstack
  | collect hgatherings hstack hcallers =>
      refine .at_hand (performs?_idle hgatherings) rfl hdepth ?_
      exact .walk (List.Subset.refl _)
  | nextEntry hgatherings hstack hcallers hpending =>
      refine .at_hand (performs?_idle hgatherings) rfl hdepth ?_
      exact .walk (by simp)

theorem Move.entered (h : Move setup config next)
    (hlonger : config.callers.length < next.callers.length) :
    next.callers.length = config.callers.length + 1 ∧ next.ledger.Sound := by
  cases h with
  | enter hgatherings hhow hcallee =>
      refine ⟨rfl, ?_⟩
      constructor
      · simp [Config.ledger, Machine.enter]
      · simp [Config.ledger, Machine.enter, loopNodes_bodyStack]
  | invoke hgatherings hhow => simp [conclude_callers] at hlonger
  | refuseCall hgatherings hhow hcallee => simp [conclude_callers] at hlonger
  | giveBack hgatherings hcallers =>
      rw [Machine.giveBack, conclude_callers, hcallers,
        List.length_cons] at hlonger
      dsimp only at hlonger
      omega
  | _ => simp [beginGathering] at hlonger

end Steps

/-! ## Along an execution -/

structure Config.Regular (setup : Setup) (config : Config) : Prop where
  nested : Nested setup.limits config.levels
  ordered : Ordered setup config.levels
  sound : ∀ depth, depth ≤ config.callers.length → (config.ledgerAt depth).Sound

section Executions

variable {setup : Setup} {config next : Config}

theorem StepsTo.regular (stepped : StepsTo setup config next)
    (regular : config.Regular setup) :
    next.Regular setup := by
  obtain ⟨nested, ordered, sound⟩ := regular
  have move := step_moves stepped
  refine ⟨(step_changes stepped).nested nested,
    (step_changes stepped).ordered ordered, ?_⟩
  intro depth hnext
  by_cases hdepth : depth ≤ config.callers.length
  · exact (move.alters nested ordered hdepth hnext).sound (sound depth hdepth)
  · -- The activation is new, and so is its ledger.
    obtain ⟨hlength, fresh⟩ := move.entered (by omega)
    rw [Config.ledgerAt, ledgerBelow_of_le (by omega)]
    exact fresh

theorem Reaches.regular (reached : Reaches setup config next)
    (regular : config.Regular setup) : next.Regular setup := by
  induction reached with
  | refl => exact regular
  | tail _ stepped ih => exact stepped.regular ih

theorem start_regular (setup : Setup) (catalogue : Catalogue)
    (blueprint : Blueprint) (trigger : Trigger) (services : Services) :
    (start catalogue blueprint trigger services).Regular setup where
  nested := start_nested setup.limits catalogue blueprint trigger services
  ordered := start_ordered setup catalogue blueprint trigger services
  sound _ _ := ⟨List.forall_mem_nil _, List.forall_mem_nil _⟩

end Executions

end ScriptGraph.Engine.Machine
