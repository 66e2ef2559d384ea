import ScriptGraph.Proofs.Diagnostics
import ScriptGraph.Proofs.Ledgers

/-!
# What the outputs of a run report

A node gets outputs when it is executed, when it is pulled, and each time a
loop of it begins an iteration.  The outputs of a body are dropped when the
function returns, and its results become the outputs of the node that called
it.  `Config.writes?` reads off a configuration what the next step writes into
the outputs, and of which activation, without looking at the outputs that are
there.

The outputs that a run reports are those of its outermost activation: for each
node the values that were written last, and none for a node that was not run.
-/

namespace ScriptGraph.Engine.Machine

open Json

/-! ## Records -/

structure Record where
  node : String
  values : Table Value

/-- What a job leaves.  A visit keeps the values of an output that reports an
error, a pull does not. -/
def Job.valuesOf (job : Job) : Except Failure Output → Table Value
  | .ok output =>
    if job.demand = .pull ∧ output.isError = true then .empty else output.values
  | .error _ => .empty

def Job.record? (setup : Setup) (job : Job) (inputs : Table Value)
    (state : RunState) : Option Record :=
  match job.how with
  | .entry entry =>
    some ⟨job.node.id,
      job.valuesOf (state.invoke entry (job.invocation setup inputs state)).1⟩
  | .call =>
    match callee setup job.node state.activation.depth with
    | .error cause => some ⟨job.node.id, job.valuesOf (.error cause)⟩
    | .ok _ => none

/-- What the next step of the machine writes, and how many callers are below
the activation that it is written to. -/
def Config.writes? (setup : Setup) (config : Config) : Option (Nat × Record) :=
  match config.gatherings, config.stack, config.callers with
  | ⟨.job job, [], inputs⟩ :: _, _, callers =>
    (job.record? setup inputs config.state).map (callers.length, ·)
  | ⟨.results, [], results⟩ :: _, _, caller :: callers =>
    some (callers.length,
      ⟨caller.job.node.id, Parameter.values caller.function.outputs results⟩)
  | [], .loop node _ index stop :: _, callers =>
    if index < stop then
      some (callers.length, ⟨node, .single "index" (.ofInt index.toInt)⟩)
    else none
  | _, _, _ => none

def Config.writesAt? (setup : Setup) (depth : Nat) (config : Config) :
    Option Record :=
  (config.writes? setup).bind fun written =>
    if written.1 = depth then some written.2 else none

def record (outputs : Table (Table Value)) : Option Record → Table (Table Value)
  | some written => outputs.insert written.node written.values
  | none => outputs

def latest? (records : List Record) (id : String) : Option (Table Value) :=
  (records.reverse.find? fun written => written.node == id).map Record.values

theorem latest?_concat (records : List Record) (last? : Option Record)
    (id : String) {outputs : Table (Table Value)}
    (h : outputs.get? id = latest? records id) :
    (record outputs last?).get? id = latest? (records ++ last?.toList) id := by
  cases last? with
  | none => simpa [record] using h
  | some written =>
      by_cases hid : written.node = id
      · simp [record, latest?, hid]
      · have hne : id ≠ written.node := fun heq => hid heq.symm
        simpa [record, latest?, hid, Table.get?_insert_of_ne _ _ hne] using h

/-! ## What a step writes -/

section Operations

variable {setup : Setup}

theorem follow_outputs (scope : Scope) (id : String) (output : Output)
    (rest : List Frame) (state : RunState) :
    (follow setup scope id output rest state).2.activation.outputs =
      state.activation.outputs.insert id output.values := by
  unfold follow
  cases output.flow <;> rfl

theorem settlePull_outputs (id : String) (outcome : Except String (Table Value))
    (state : RunState) :
    (settlePull id outcome state).2.activation.outputs =
      state.activation.outputs.insert id (outcome.toOption.getD .empty) := by
  cases outcome <;> rfl

theorem conclude_outputs (job : Job) (answer : Except Failure Output)
    (config : Config) :
    (conclude setup job answer config).state.activation.outputs =
      config.state.activation.outputs.insert job.node.id
        (job.valuesOf answer) := by
  unfold conclude
  cases hdemand : job.demand with
  | visit =>
      dsimp only
      rw [follow_outputs]
      cases answer <;> simp [outputOf, Job.valuesOf, hdemand, Output.error]
  | pull =>
      dsimp only
      rw [settlePull_outputs]
      cases answer with
      | error cause => rfl
      | ok output =>
          cases hflow : output.flow <;>
            simp [pulledOutcome, pulledValues, Job.valuesOf, hdemand,
              Output.errorMessage?, Output.isError, hflow, Except.toOption]

end Operations

section Steps

variable {setup : Setup} {config next : Config} {depth : Nat}

def Writes (setup : Setup) (depth : Nat) (config next : Config) : Prop :=
  (next.ledgerAt depth).outputs =
    record (config.ledgerAt depth).outputs (config.writesAt? setup depth)

theorem Writes.at_hand (written? : Option Record)
    (hcallers : next.callers = config.callers)
    (hwrites : config.writes? setup = written?.map (config.callers.length, ·))
    (houtputs : next.state.activation.outputs =
      record config.state.activation.outputs written?)
    (hdepth : depth ≤ config.callers.length) :
    Writes setup depth config next := by
  unfold Writes Config.ledgerAt Config.writesAt?
  rw [hcallers, hwrites]
  by_cases heq : config.callers.length = depth
  · rw [ledgerBelow_of_le heq.le, ledgerBelow_of_le heq.le]
    refine houtputs.trans ?_
    cases written? <;> simp [heq, Config.ledger]
  · have same : ledgerBelow depth next.ledger config.callers =
        ledgerBelow depth config.ledger config.callers :=
          ledgerBelow_of_lt (by omega)
    rw [same]
    cases written? <;> simp [heq, record]

theorem Writes.of_enter {job : Job} {function : Function} {inputs : Table Value}
    {more : List Gathering}
    (hgatherings : config.gatherings = ⟨.job job, [], inputs⟩ :: more)
    (hhow : job.how = .call)
    (hcallee : callee setup job.node config.state.activation.depth =
      .ok function)
    (hdepth : depth ≤ config.callers.length) :
    Writes setup depth config
      (enter function job inputs { config with gatherings := more }) := by
  have hwrites : config.writesAt? setup depth = none := by
    simp [Config.writesAt?, Config.writes?, hgatherings, Job.record?, hhow,
      hcallee]
  unfold Writes
  rw [hwrites, Config.ledgerAt, Config.ledgerAt, enter, ledgerBelow_cons hdepth]
  by_cases heq : config.callers.length = depth
  · rw [ledgerBelow_of_le heq.le, ledgerBelow_of_le heq.le]
    rfl
  · exact congrArg Ledger.outputs (ledgerBelow_of_lt (by omega))

theorem Writes.of_giveBack {results : Table Value} {more : List Gathering}
    {caller : Suspended} {callers : List Suspended}
    (hgatherings : config.gatherings = ⟨.results, [], results⟩ :: more)
    (hcallers : config.callers = caller :: callers)
    (hdepth : depth ≤ callers.length) :
    Writes setup depth config
      (giveBack setup results config.state caller callers config.pending) := by
  have hnext :
      (giveBack setup results config.state caller callers
        config.pending).callers =
      callers := conclude_callers _ _ _
  unfold Writes
  rw [Config.ledgerAt, Config.ledgerAt, hnext, hcallers,
    ledgerBelow_cons hdepth]
  by_cases heq : callers.length = depth
  · have hwrites : config.writesAt? setup depth =
        some ⟨caller.job.node.id,
          Parameter.values caller.function.outputs results⟩ := by
      simp [Config.writesAt?, Config.writes?, hgatherings, hcallers, heq]
    rw [hwrites, ledgerBelow_of_le heq.le, ledgerBelow_of_le heq.le, giveBack]
    refine (conclude_outputs _ _ _).trans ?_
    simp [Job.valuesOf, Output.proceed, Output.isError, record,
      Suspended.ledger, leaveBody, RunState.syncVariables]
  · have hwrites : config.writesAt? setup depth = none := by
      simp [Config.writesAt?, Config.writes?, hgatherings, hcallers, heq]
    rw [hwrites]
    exact congrArg Ledger.outputs (ledgerBelow_of_lt (by omega))

theorem writes?_wire {purpose : Purpose} {wire : Endpoint × String}
    {wires : List (Endpoint × String)} {inputs : Table Value}
    {more : List Gathering}
    (h : config.gatherings = ⟨purpose, wire :: wires, inputs⟩ :: more) :
    config.writes? setup = none := by
  simp [Config.writes?, h]

theorem writes?_visit {id : String} {rest : List Frame}
    (hgatherings : config.gatherings = [])
    (hstack : config.stack = .visit id :: rest) :
    config.writes? setup = none := by
  simp [Config.writes?, hgatherings, hstack]

theorem writes?_idle (hgatherings : config.gatherings = [])
    (hstack : config.stack = []) :
    config.writes? setup = none := by
  simp [Config.writes?, hgatherings, hstack]

theorem Move.writes (h : Move setup config next)
    (hdepth : depth ≤ config.callers.length)
    (hnext : depth ≤ next.callers.length) : Writes setup depth config next := by
  cases h with
  | bring hgatherings =>
      exact .at_hand none rfl (writes?_wire hgatherings) rfl hdepth
  | openPull hgatherings hsource huncached hnode hhow hfresh =>
      exact .at_hand none rfl (writes?_wire hgatherings) rfl hdepth
  | @invoke job entry inputs more hgatherings hhow =>
      refine .at_hand (job.record? setup inputs config.state)
        (conclude_callers _ _ _) ?_ ?_ hdepth
      · simp [Config.writes?, hgatherings]
      · simp only [Job.record?, hhow]
        exact conclude_outputs _ _ _
  | @refuseCall job cause inputs more hgatherings hhow hcallee =>
      refine .at_hand (job.record? setup inputs config.state)
        (conclude_callers _ _ _) ?_ ?_ hdepth
      · simp [Config.writes?, hgatherings]
      · simp only [Job.record?, hhow, hcallee]
        exact conclude_outputs _ _ _
  | enter hgatherings hhow hcallee =>
      exact .of_enter hgatherings hhow hcallee hdepth
  | @giveBack results more caller callers hgatherings hcallers =>
      have hshorter : depth ≤ callers.length := by
        simpa [Machine.giveBack, conclude_callers] using hnext
      exact .of_giveBack hgatherings hcallers hshorter
  | refuse hgatherings hstack htaken =>
      exact .at_hand none rfl (writes?_visit hgatherings hstack)
        (takeStep_outputs htaken) hdepth
  | pass hgatherings hstack htaken hframes =>
      exact .at_hand none rfl (writes?_visit hgatherings hstack)
        (takeStep_outputs htaken) hdepth
  | unknown hgatherings hstack htaken hnode hexit hrunner =>
      have taken := takeStep_outputs htaken
      exact .at_hand none rfl (writes?_visit hgatherings hstack) taken hdepth
  | visit hgatherings hstack htaken hnode hexit hrunner =>
      exact .at_hand none rfl (writes?_visit hgatherings hstack)
        (takeStep_outputs htaken) hdepth
  | @iterate node pin index stop rest hgatherings hstack =>
      -- A loop writes its index when it goes round and nothing when it ends.
      by_cases hless : index < stop
      · refine .at_hand
          (some ⟨node, .single "index" (.ofInt index.toInt)⟩) rfl ?_ ?_ hdepth
        · simp [Config.writes?, hgatherings, hstack, hless]
        · simp only [Engine.iterate, if_pos hless]
          rfl
      · refine .at_hand none rfl ?_ ?_ hdepth
        · simp [Config.writes?, hgatherings, hstack, hless]
        · simp only [Engine.iterate, if_neg hless]
          rfl
  | collect hgatherings hstack hcallers =>
      exact .at_hand none rfl (writes?_idle hgatherings hstack) rfl hdepth
  | nextEntry hgatherings hstack hcallers hpending =>
      exact .at_hand none rfl (writes?_idle hgatherings hstack) rfl hdepth

end Steps

/-! ## What has been run -/

def Ledger.Ran (ledger : Ledger) (id : String) : Prop :=
  ledger.outputs.get? id ≠ none ∨
    ledger.waits = true ∧ ∃ job jobs, ledger.jobs = job :: jobs ∧
    job.node.id = id

theorem get?_insert_ne_none_iff {α : Type} (table : Table α)
    (key other : String) (value : α) :
    (table.insert other value).get? key ≠ none ↔
      table.get? key ≠ none ∨ other = key := by
  rw [Table.get?_insert]
  by_cases heq : key = other
  · simp [heq]
  · have hne : other ≠ key := fun h => heq h.symm
    simp [heq, hne]

theorem Alters.ran {before after : Ledger} {performed? : Option Job}
    (h : Alters before performed? after) (sound : before.Sound) (id : String) :
    after.Ran id ↔
      before.Ran id ∨ ∃ job, performed? = some job ∧ job.node.id = id := by
  unfold Ledger.Ran
  cases h with
  | walk hloops => simp
  | begin hwaits hloops hunset => simp [hwaits]
  | wait hwaits hjobs => simp [hwaits, hjobs]
  | @finish job jobs loops values _ hperformed hjobs hapart hloops =>
      simp only [get?_insert_ne_none_iff]
      cases hwaits : before.waits with
      | true => simp [hperformed, hwaits, hjobs]
      | false => simp [hperformed, hwaits]
  | @iterate node loops values hnode hjobs hloops =>
      -- The loop is of a node that has outputs already.
      have hset := sound.looped node hnode
      simp only [get?_insert_ne_none_iff, hjobs]
      constructor
      · rintro ((hid | rfl) | ⟨-, job, jobs, hnone, -⟩)
        · exact .inl (.inl hid)
        · exact .inl (.inl hset)
        · simp at hnone
      · rintro ((hid | ⟨-, job, jobs, hnone, -⟩) | ⟨job, hnone, -⟩)
        · exact .inl (.inl hid)
        · simp at hnone
        · simp at hnone

section Executions

variable {setup : Setup} {first config : Config} {history : List Config}

theorem Passes.outputs (h : Passes setup first history config)
    (hnone : (first.ledgerAt 0).outputs = .empty) (id : String) :
    (config.ledgerAt 0).outputs.get? id =
      latest? (history.filterMap (Config.writesAt? setup 0)) id := by
  induction h with
  | refl => simp [hnone, latest?]
  | @tail history config next passed stepped ih =>
      have written :=
        (step_moves stepped).writes (Nat.zero_le _) (Nat.zero_le _)
      rw [written, filterMap_concat]
      exact latest?_concat _ _ _ ih

theorem Passes.ran (h : Passes setup first history config)
    (regular : first.Regular setup) (hnone : ∀ id, ¬(first.ledgerAt 0).Ran id)
    (id : String) :
    (config.ledgerAt 0).Ran id ↔
      ∃ passed ∈ history, ∃ job, passed.performsAt? 0 = some job ∧
      job.node.id = id := by
  induction h with
  | refl => simp [hnone]
  | @tail history config next passed stepped ih =>
      have here := Reaches.regular passed.reaches regular
      have altered := (step_moves stepped).alters here.nested here.ordered
        (Nat.zero_le _) (Nat.zero_le _)
      rw [altered.ran (here.sound 0 (Nat.zero_le _)), ih]
      simp only [List.mem_append, List.mem_singleton, or_and_right, exists_or,
        exists_eq_left]

end Executions

/-! ## Runs -/

/-- The next step executes the node or evaluates it on demand, for the graph
of the blueprint and not for the body of a function. -/
def Config.Runs (setup : Setup) (graph : Graph) (id : String)
    (config : Config) : Prop :=
  ∃ job, config.performsAt? 0 = some job ∧ graph.node? id = some job.node ∧
    runner? setup job.node = some job.how

theorem Config.Placed.runs_iff {setup : Setup} {root : Scope} {config : Config}
    (placed : config.Placed setup root) (id : String) :
    config.Runs setup root.graph id ↔
      ∃ job, config.performsAt? 0 = some job ∧ job.node.id = id := by
  constructor
  · rintro ⟨job, hperforms, hnode, -⟩
    exact ⟨job, hperforms, node?_id hnode⟩
  · rintro ⟨job, hperforms, rfl⟩
    unfold Config.performsAt? at hperforms
    split at hperforms
    · next hcallers =>
        have hscope : config.scope = root := by
          have called := placed.called
          rw [List.length_eq_zero_iff.mp hcallers] at called
          exact called
        unfold Config.performs? at hperforms
        split at hperforms
        · next hgatherings =>
            cases hperforms
            have fits := placed.jobs job (by simp [hgatherings])
            exact ⟨job,
              by simp [Config.performsAt?, Config.performs?, hcallers,
                hgatherings],
              hscope ▸ fits.found, fits.runs⟩
        · cases hperforms
    · cases hperforms

/-- The outputs that a run reports for a node are the values that were written
for it last in the graph of the blueprint: by an execution, by the beginning of
an iteration, by a pull, or by the return of the function that it calls.  There
are some exactly if the node is one of the graph that the walk has executed or
a pull has evaluated there. -/
theorem outputs_report_what_ran (catalogue : Catalogue) (limits : Limits)
    (blueprint : Blueprint) (trigger : Trigger) (services : Services) :
    let setup := setupOf catalogue limits blueprint trigger
    let first := start catalogue blueprint trigger services
    let report := (runBlueprint catalogue limits blueprint trigger services).1
    ∃ history final, Passes setup first history final ∧ Halted setup final ∧
      report = finalReport final.state ∧
      ∀ id,
        report.outputs.get? id =
          latest? (history.filterMap (Config.writesAt? setup 0)) id ∧
        (report.outputs.contains id = true ↔
          ∃ config ∈ history, config.Runs setup blueprint.graph id) := by
  intro setup first report
  obtain ⟨final, reached, halted, hrun⟩ :=
    run_reaches catalogue limits blueprint trigger services
  obtain ⟨history, passed⟩ := reached.passes
  have hreport : report = finalReport final.state := congrArg Prod.fst hrun
  have regular := start_regular setup catalogue blueprint trigger services
  -- Nobody waits at the end, so the ledger at the bottom is the one at hand.
  have houtputs : report.outputs = (final.ledgerAt 0).outputs := by
    rw [hreport, Config.ledgerAt, halted.callers_eq]
    rfl
  have hran : ∀ id, (final.ledgerAt 0).Ran id ↔
      report.outputs.contains id = true := by
    intro id
    rw [houtputs, Table.contains, Option.isSome_iff_ne_none, Ledger.Ran,
      Config.ledgerAt, halted.callers_eq]
    simp [ledgerBelow, Config.ledger]
  refine ⟨history, final, passed, halted, hreport, fun id => ⟨?_, ?_⟩⟩
  · rw [houtputs]
    exact passed.outputs rfl id
  · rw [← hran id, passed.ran regular (fun id => ?_) id]
    · refine exists_congr fun config => and_congr_right fun hconfig => ?_
      have placed := Reaches.placed (passed.reaches_of_mem hconfig)
        (start_placed setup catalogue blueprint trigger services)
      exact (placed.runs_iff id).symm
    · rintro (hset | ⟨hwaits, -⟩)
      · exact hset rfl
      · cases hwaits

end ScriptGraph.Engine.Machine
