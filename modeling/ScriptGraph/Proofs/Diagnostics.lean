import ScriptGraph.Proofs.Moves
import ScriptGraph.Proofs.StepBudget
import ScriptGraph.Proofs.Termination

/-!
# Diagnostics in the order of events

Every activation lists its own diagnostics, and when the body of a function
returns, its list is appended to that of the caller under the caller's id.  At
any point of a run the lists of all open activations, put together in this
way, are what the run would report if every body returned at once.  One step
of the machine adds to that list what it passes over in this very step, and
nothing else: so the report of a run is the list of what its steps passed over,
in their order.

What a step passes over is read off the configuration (`Config.condition?`),
without the lists that the activations keep.
-/

namespace ScriptGraph.Engine.Machine

open Json

/-! ## Conditions -/

def failureOf : Except Failure Output → Option String
  | .ok output => output.errorMessage?
  | .error cause => some cause.message

def Demand.condition : Demand → Condition
  | .visit => .nodeError
  | .pull => .pullError

def Job.failure? (job : Job) (answer : Except Failure Output) :
    Option Diagnostic :=
  (failureOf answer).map fun message =>
    ⟨job.node.id, job.demand.condition, message⟩

def Job.performed? (setup : Setup) (job : Job) (inputs : Table Value)
    (state : RunState) : Option Diagnostic :=
  match job.how with
  | .entry entry =>
      job.failure? (state.invoke entry (job.invocation setup inputs state)).1
  | .call =>
    match callee setup job.node state.activation.depth with
    | .error cause => job.failure? (.error cause)
    | .ok _ => none

def stepLimitMessage (limits : Limits) : String :=
  "stopped after " ++ String.ofList (Nat.toDigits 10 limits.maxSteps.toNat) ++
    " steps"

def visited? (setup : Setup) (scope : Scope) (id : String) (state : RunState) :
    Option Diagnostic :=
  if state.activation.steps < setup.limits.maxSteps.toNat then
    match scope.graph.node? id with
    | none => none
    | some node =>
      if !isExit scope id && (runner? setup node).isNone then
        some ⟨id, .unknownNodeKind, unknownKindMessage node.kind⟩
      else none
  else some ⟨id, .stepLimit, stepLimitMessage setup.limits⟩

def Config.condition? (setup : Setup) (config : Config) : Option Diagnostic :=
  match config.gatherings, config.stack with
  | ⟨.job job, [], inputs⟩ :: _, _ => job.performed? setup inputs config.state
  | [], .visit id :: _ => visited? setup config.scope id config.state
  | _, _ => none

def callPath (callers : List Suspended) : List String :=
  callers.reverse.map fun caller => caller.job.node.id

theorem callPath_cons (caller : Suspended) (callers : List Suspended) :
    callPath (caller :: callers) =
      callPath callers ++ [caller.job.node.id] := by
  simp [callPath]

def under (path : List String) (diagnostic : Diagnostic) : Diagnostic :=
  { diagnostic with node := "/".intercalate (path ++ [diagnostic.node]) }

@[simp] theorem under_condition (path : List String) (diagnostic : Diagnostic) :
    (under path diagnostic).condition = diagnostic.condition := rfl

def Config.incident? (setup : Setup) (config : Config) : Option Diagnostic :=
  (config.condition? setup).map (under (callPath config.callers))

def isLimitReport (diagnostic : Diagnostic) : Bool :=
  diagnostic.condition == .stepLimit

def firstOnly {α : Type} (p : α → Bool) : List α → List α
  | [] => []
  | a :: rest =>
    a :: if p a then rest.filter (fun b => !p b) else firstOnly p rest

theorem firstOnly_append {α : Type} (p : α → Bool) (list : List α)
    (last? : Option α) :
    firstOnly p (list ++ last?.toList) =
      firstOnly p list ++ last?.toList.filter fun a =>
        !(p a && list.any p) := by
  cases last? with
  | none => simp
  | some a =>
      induction list with
      | nil => cases ha : p a <;> simp [firstOnly, ha]
      | cons b rest ih =>
          rw [List.cons_append, firstOnly, firstOnly, ih]
          cases hb : p b with
          | true => cases ha : p a <;> simp [hb, ha]
          | false => simp [hb]

theorem filterMap_concat {α β : Type} (f : α → Option β) (list : List α)
    (last : α) :
    (list ++ [last]).filterMap f = list.filterMap f ++ (f last).toList := by
  cases hlast : f last <;> simp [hlast]

/-! ## What has been reported so far -/

/-- The diagnostics of an activation, as the run will report them. -/
def merged : List Suspended → List Diagnostic → List Diagnostic
  | [], inner => inner
  | caller :: callers, inner =>
      merged callers (caller.activation.diagnostics.toList ++
        inner.map fun diagnostic => diagnostic.within caller.job.node.id)

def Config.reported (config : Config) : List Diagnostic :=
  merged config.callers config.state.activation.diagnostics.toList

theorem intercalate_concat (ids : List String) (caller id : String) :
    "/".intercalate (ids ++ [caller] ++ [id]) =
      "/".intercalate (ids ++ [caller ++ "/" ++ id]) := by
  have pair : "/".intercalate [caller, id] =
      "/".intercalate [caller ++ "/" ++ id] := by
    rw [String.intercalate_cons_cons, String.intercalate_singleton,
      String.intercalate_singleton]
  cases ids with
  | nil => exact pair
  | cons first rest =>
      have split : ∀ last : List String, last ≠ [] →
          "/".intercalate (first :: rest ++ last) =
          "/".intercalate (first :: rest) ++ "/" ++ "/".intercalate last :=
            fun last hlast =>
        String.intercalate_append_of_ne_nil (by simp) hlast
      rw [List.append_assoc, split _ (by simp), split _ (by simp)]
      exact congrArg _ pair

theorem merged_concat (callers : List Suspended) (inner : List Diagnostic)
    (diagnostic : Diagnostic) :
    merged callers (inner ++ [diagnostic]) =
      merged callers inner ++ [under (callPath callers) diagnostic] := by
  -- Outward from the nearest caller: each one puts its own id in front.
  induction callers generalizing inner diagnostic with
  | nil => simp [merged, callPath, under]
  | cons caller callers ih =>
      rw [merged, merged, List.map_append, List.map_singleton,
        ← List.append_assoc, ih, callPath_cons, under, under,
        intercalate_concat]
      rfl

theorem merged_optional (callers : List Suspended) (inner : List Diagnostic)
    (diagnostic? : Option Diagnostic) :
    merged callers (inner ++ diagnostic?.toList) =
      merged callers inner ++
        (diagnostic?.map (under (callPath callers))).toList := by
  cases diagnostic? with
  | none => simp
  | some diagnostic => exact merged_concat callers inner diagnostic

/-! ## What the operations of the engine report -/

section Operations

variable {setup : Setup}

theorem follow_diagnostics (setup : Setup) (scope : Scope) (id : String)
    (output : Output) (rest : List Frame) (state : RunState) :
    (follow setup scope id output rest state).2.activation.diagnostics.toList =
      state.activation.diagnostics.toList ++
        (output.errorMessage?.map fun message =>
          ⟨id, .nodeError, message⟩).toList := by
  unfold follow Output.errorMessage?
  cases output.flow with
  | error message => simp [RunState.report, RunState.setOutputs,
    RunState.syncVariables]
  | _ => simp [RunState.setOutputs, RunState.syncVariables]

theorem settlePull_diagnostics (id : String) (answer : Except Failure Output)
    (state : RunState) :
    (settlePull id
      (pulledOutcome answer) state).2.activation.diagnostics.toList =
      state.activation.diagnostics.toList ++
        ((failureOf answer).map fun message =>
          ⟨id, .pullError, message⟩).toList := by
  cases answer with
  | error cause =>
      simp [failureOf, settlePull, pulledOutcome, RunState.report,
        RunState.setOutputs, RunState.endPull]
  | ok output =>
      simp only [failureOf, pulledOutcome, pulledValues]
      cases output.errorMessage? with
      | none => simp [settlePull, RunState.setOutputs, RunState.endPull]
      | some message =>
          simp [settlePull, RunState.report, RunState.setOutputs,
            RunState.endPull]

theorem conclude_diagnostics (job : Job) (answer : Except Failure Output)
    (config : Config) :
    (conclude setup job answer config).state.activation.diagnostics.toList =
      config.state.activation.diagnostics.toList ++
        (job.failure? answer).toList := by
  unfold conclude Job.failure?
  cases job.demand with
  | pull => exact settlePull_diagnostics _ _ _
  | visit =>
      cases answer with
      | ok output =>
          exact follow_diagnostics setup config.scope _ output config.stack _
      | error cause =>
          exact follow_diagnostics setup config.scope _
            (.error _) config.stack _

theorem Closes.limitReported {level after : Level} (h : Closes level after) :
    after.limitReported = level.limitReported := by
  cases h with
  | visit stack hjobs hdemand => rfl
  | pull hjobs hdemand => rfl

theorem conclude_limitReported (job : Job) (answer : Except Failure Output)
    (config : Config) :
    (conclude setup job answer config).state.activation.limitReported =
      config.state.activation.limitReported :=
  (conclude_closes job answer config rfl).limitReported

theorem iterate_diagnostics (scope : Scope) (node pin : String)
    (index stop : Int64) (rest : List Frame) (state : RunState) :
    (iterate setup scope node pin index stop rest
      state).2.activation.diagnostics =
        state.activation.diagnostics ∧
      (iterate setup scope node pin index stop rest
        state).2.activation.limitReported =
        state.activation.limitReported := by
  unfold iterate
  split
  · exact ⟨rfl, rfl⟩
  · exact ⟨rfl, rfl⟩

theorem takeStep_refused_diagnostics {limits : Limits} {id : String}
    {state after : RunState} (h : state.takeStep limits id = (false, after)) :
    after.activation.diagnostics.toList = state.activation.diagnostics.toList ++
      if state.activation.limitReported then []
      else [⟨id, .stepLimit, stepLimitMessage limits⟩] := by
  unfold RunState.takeStep at h
  split at h
  · exact absurd (Prod.mk.inj h).1 (by simp)
  · split at h
    · next hreported =>
        cases h
        simp [hreported]
    · next hreported =>
        cases h
        rw [if_neg hreported]
        exact Array.toList_push

theorem Job.failure?_not_limit (job : Job) (answer : Except Failure Output) :
    ∀ diagnostic ∈ job.failure? answer, isLimitReport diagnostic = false := by
  intro diagnostic hfailure
  obtain ⟨message, -, rfl⟩ := Option.map_eq_some_iff.mp hfailure
  cases hdemand : job.demand with
  | visit => simp [isLimitReport, Demand.condition]
  | pull => simp [isLimitReport, Demand.condition]

end Operations

/-! ## What a step reports -/

/-- A step adds what it passes over to what has been reported, unless that is
the step limit once more. -/
structure Reports (setup : Setup) (config next : Config) : Prop where
  reported : next.reported = config.reported ++
    (config.incident? setup).toList.filter fun diagnostic =>
      !(isLimitReport diagnostic && config.state.activation.limitReported)
  limitReported : next.state.activation.limitReported =
    (config.state.activation.limitReported ||
      (config.incident? setup).toList.any isLimitReport)

section Steps

variable {setup : Setup} {config next : Config}

theorem Reports.of_appended {diagnostic? : Option Diagnostic}
    (hcondition : config.condition? setup = diagnostic?)
    (hlimit : ∀ diagnostic ∈ diagnostic?, isLimitReport diagnostic = false)
    (hcallers : next.callers = config.callers)
    (happended : next.state.activation.diagnostics.toList =
      config.state.activation.diagnostics.toList ++ diagnostic?.toList)
    (hflag : next.state.activation.limitReported =
      config.state.activation.limitReported) :
    Reports setup config next := by
  have incident : ∀ located ∈ config.incident? setup, isLimitReport located =
      false := by
    intro located hlocated
    rw [Config.incident?, hcondition] at hlocated
    obtain ⟨diagnostic, hdiagnostic, rfl⟩ := Option.map_eq_some_iff.mp hlocated
    exact hlimit diagnostic hdiagnostic
  constructor
  · have kept : (config.incident? setup).toList.filter (fun diagnostic =>
        !(isLimitReport diagnostic && config.state.activation.limitReported)) =
          (config.incident? setup).toList := by
      cases hincident : config.incident? setup with
      | none => rfl
      | some located => simp [incident located hincident]
    rw [kept, Config.reported, Config.reported, hcallers, happended,
      merged_optional, Config.incident?, hcondition]
  · rw [hflag]
    cases hincident : config.incident? setup with
    | none => simp
    | some located => simp [incident located hincident]

theorem Reports.of_quiet (hcondition : config.condition? setup = none)
    (hreported : next.reported = config.reported)
    (hflag : next.state.activation.limitReported =
      config.state.activation.limitReported) :
    Reports setup config next := by
  constructor
  · simp [Config.incident?, hcondition, hreported]
  · simp [Config.incident?, hcondition, hflag]

theorem refuse_reports {id : String} {rest : List Frame} {after : RunState}
    (hgatherings : config.gatherings = [])
    (hstack : config.stack = .visit id :: rest)
    (htaken : config.state.takeStep setup.limits id = (false, after)) :
    Reports setup config { config with stack := [], state := after } := by
  obtain ⟨hsteps, hlevel⟩ := takeStep_refused htaken
  have hflag : after.activation.limitReported = true :=
    congrArg Level.limitReported (hlevel config.scope [] [])
  have hcondition : config.condition? setup =
      some ⟨id, .stepLimit, stepLimitMessage setup.limits⟩ := by
    simp only [Config.condition?, hgatherings, hstack, visited?]
    rw [if_neg (Nat.not_lt.mpr hsteps)]
  have happended := takeStep_refused_diagnostics htaken
  constructor
  · cases hreported : config.state.activation.limitReported with
    | true => simp [Config.incident?, hcondition, Config.reported, happended,
        hreported, isLimitReport]
    | false =>
        simp [Config.incident?, hcondition, Config.reported, happended,
          hreported, merged_concat]
  · simp [Config.incident?, hcondition, hflag, isLimitReport]

theorem giveBack_reports {results : Table Value} {more : List Gathering}
    {caller : Suspended} {callers : List Suspended}
    (hgatherings : config.gatherings = ⟨.results, [], results⟩ :: more)
    (hcallers : config.callers = caller :: callers) :
    Reports setup config
      (giveBack setup results config.state caller callers config.pending) := by
  have hcondition : config.condition? setup = none := by
    simp only [Config.condition?, hgatherings]
  refine .of_quiet hcondition ?_ (conclude_limitReported _ _ _)
  rw [Config.reported, Config.reported, hcallers, merged, giveBack,
    conclude_callers, conclude_diagnostics]
  simp [Job.failure?, failureOf, Output.errorMessage?, Output.proceed,
    leaveBody, RunState.syncVariables]

theorem condition?_wire {purpose : Purpose} {wire : Endpoint × String}
    {wires : List (Endpoint × String)} {inputs : Table Value}
    {more : List Gathering}
    (h : config.gatherings = ⟨purpose, wire :: wires, inputs⟩ :: more) :
    config.condition? setup = none := by
  simp only [Config.condition?, h]

theorem condition?_idle (hgatherings : config.gatherings = [])
    (hstack : config.stack = []) :
    config.condition? setup = none := by
  simp only [Config.condition?, hgatherings, hstack]

theorem Move.reports (h : Move setup config next) :
    Reports setup config next := by
  cases h with
  | bring hgatherings => exact .of_quiet (condition?_wire hgatherings) rfl rfl
  | openPull hgatherings hsource huncached hnode hhow hfresh =>
      exact .of_quiet (condition?_wire hgatherings) rfl rfl
  | @invoke job entry inputs more hgatherings hhow =>
      have hcondition : config.condition? setup = job.failure?
          (config.state.invoke entry
            (job.invocation setup inputs config.state)).1 := by
        simp only [Config.condition?, hgatherings, Job.performed?, hhow]
      exact .of_appended hcondition (job.failure?_not_limit _)
        (conclude_callers _ _ _)
        (conclude_diagnostics _ _ _) (conclude_limitReported _ _ _)
  | @refuseCall job cause inputs more hgatherings hhow hcallee =>
      have hcondition : config.condition? setup =
          job.failure? (.error cause) := by
        simp only [Config.condition?, hgatherings, Job.performed?, hhow,
          hcallee]
      exact .of_appended hcondition (job.failure?_not_limit _)
        (conclude_callers _ _ _)
        (conclude_diagnostics _ _ _) (conclude_limitReported _ _ _)
  | enter hgatherings hhow hcallee =>
      have hcondition : config.condition? setup = none := by
        simp only [Config.condition?, hgatherings, Job.performed?, hhow,
          hcallee]
      -- The body has no diagnostics yet, so merged they are those of the
      -- caller.
      refine .of_quiet hcondition ?_ rfl
      simp [Config.reported, Machine.enter, merged, enterBody]
  | giveBack hgatherings hcallers => exact giveBack_reports hgatherings hcallers
  | refuse hgatherings hstack htaken =>
      exact refuse_reports hgatherings hstack htaken
  | pass hgatherings hstack htaken hframes =>
      obtain ⟨hsteps, rfl⟩ := takeStep_allowed htaken
      have hcondition : config.condition? setup = none := by
        simp only [Config.condition?, hgatherings, hstack, visited?, hsteps,
          if_true]
        -- The node is not there, or it is where the body returns.
        rcases hframes with ⟨hnode, -⟩ | ⟨hexit, -⟩
        · simp [hnode]
        · cases config.scope.graph.node? _ <;> simp [hexit]
      exact .of_quiet hcondition rfl rfl
  | @unknown id rest after node hgatherings hstack htaken hnode hexit hrunner =>
      obtain ⟨hsteps, rfl⟩ := takeStep_allowed htaken
      have hcondition : config.condition? setup =
          some ⟨id, .unknownNodeKind, unknownKindMessage node.kind⟩ := by
        simp [Config.condition?, hgatherings, hstack, visited?, hsteps, hnode,
          hexit, hrunner]
      refine .of_appended hcondition ?_ rfl ?_ rfl
      · simp [isLimitReport]
      · simp [RunState.report]
  | visit hgatherings hstack htaken hnode hexit hrunner =>
      obtain ⟨hsteps, rfl⟩ := takeStep_allowed htaken
      have hcondition : config.condition? setup = none := by
        simp [Config.condition?, hgatherings, hstack, visited?, hsteps, hnode,
          hexit, hrunner]
      exact .of_quiet hcondition rfl rfl
  | @iterate node pin index stop rest hgatherings hstack =>
      have hcondition : config.condition? setup = none := by
        simp only [Config.condition?, hgatherings, hstack]
      obtain ⟨hsame, hflag⟩ :=
        iterate_diagnostics config.scope node pin index stop rest config.state
      refine .of_quiet hcondition ?_ hflag
      simp only [Config.reported, hsame]
  | collect hgatherings hstack hcallers =>
      exact .of_quiet (condition?_idle hgatherings hstack) rfl rfl
  | nextEntry hgatherings hstack hcallers hpending =>
      exact .of_quiet (condition?_idle hgatherings hstack) rfl rfl

theorem Passes.reported {first : Config} {history : List Config}
    (h : Passes setup first history config) (hnone : first.reported = [])
    (hflag : first.state.activation.limitReported = false) :
    config.reported =
      firstOnly isLimitReport (history.filterMap (Config.incident? setup)) ∧
      config.state.activation.limitReported =
        (history.filterMap (Config.incident? setup)).any isLimitReport := by
  induction h with
  | refl => exact ⟨hnone, hflag⟩
  | @tail history config next passed stepped ih =>
      obtain ⟨hreported, hlimit⟩ := (step_moves stepped).reports
      rw [ih.2] at hreported hlimit
      rw [filterMap_concat, firstOnly_append, List.any_append]
      exact ⟨hreported.trans (congrArg (· ++ _) ih.1), hlimit⟩

end Steps

/-! ## Where conditions arise -/

/-- From `root`, each node of the path calls a function whose graph holds the
next one, and the graph of the last one's function is `scope`. -/
def LeadsTo (setup : Setup) (scope : Scope) : Scope → List String → Prop
  | root, [] => scope = root
  | root, id :: path =>
      ∃ node function, root.graph.node? id = some node ∧ node.kind = callKind ∧
        setup.functions.get? (functionName node) = some function ∧
        LeadsTo setup scope ⟨function.graph, true⟩ path

/-- The walk has come to the node, or the node has been visited or pulled and
has its inputs. -/
def Config.StandsAt (config : Config) (id : String) : Prop :=
  (config.gatherings = [] ∧ ∃ rest, config.stack = .visit id :: rest) ∨
    ∃ job inputs more, config.gatherings = ⟨.job job, [], inputs⟩ :: more ∧
      job.node.id = id ∧ config.scope.graph.node? id = some job.node

section Places

variable {setup : Setup} {root scope : Scope} {config : Config}

theorem LeadsTo.concat {path : List String} {id : String} {node : Node}
    {function : Function} (h : LeadsTo setup scope root path)
    (hnode : scope.graph.node? id = some node) (hkind : node.kind = callKind)
    (hfunction : setup.functions.get? (functionName node) = some function) :
    LeadsTo setup ⟨function.graph, true⟩ root (path ++ [id]) := by
  induction path generalizing root with
  | nil =>
      rw [LeadsTo] at h
      subst h
      exact ⟨node, function, hnode, hkind, hfunction, rfl⟩
  | cons first path ih =>
      obtain ⟨caller, called, hcaller, hcalls, hcalled, inner⟩ := h
      exact ⟨caller, called, hcaller, hcalls, hcalled, ih inner⟩

theorem CalledFrom.leadsTo {callers : List Suspended}
    (h : CalledFrom setup root callers scope) :
    LeadsTo setup scope root (callPath callers) := by
  induction callers generalizing scope with
  | nil => exact h
  | cons caller callers ih =>
      obtain ⟨rfl, hkind, hfunction, fits, outer⟩ := h
      have hnode := (fits caller.job (by simp)).found
      rw [callPath_cons]
      exact (ih outer).concat hnode hkind hfunction

theorem Job.performed?_node {job : Job} {inputs : Table Value}
    {state : RunState} {diagnostic : Diagnostic}
    (h : job.performed? setup inputs state = some diagnostic) :
    diagnostic.node = job.node.id := by
  have named : ∀ answer, job.failure? answer = some diagnostic →
      diagnostic.node = job.node.id := by
    intro answer hfailure
    obtain ⟨message, -, rfl⟩ := Option.map_eq_some_iff.mp hfailure
    rfl
  unfold Job.performed? at h
  split at h
  · exact named _ h
  · split at h
    · exact named _ h
    · cases h

theorem visited?_node {id : String} {state : RunState} {diagnostic : Diagnostic}
    (h : visited? setup scope id state = some diagnostic) :
    diagnostic.node = id := by
  unfold visited? at h
  split at h
  · split at h
    · cases h
    · split at h
      · cases h
        rfl
      · cases h
  · cases h
    rfl

theorem condition?_standsAt (placed : config.Placed setup root)
    {diagnostic : Diagnostic} (h : config.condition? setup = some diagnostic) :
    config.StandsAt diagnostic.node := by
  unfold Config.condition? at h
  split at h
  · next job inputs more hgatherings =>
      have fits := placed.jobs job (by simp [hgatherings])
      rw [Job.performed?_node h]
      exact .inr ⟨job, inputs, more, hgatherings, rfl, fits.found⟩
  · next id rest hgatherings hstack =>
      rw [visited?_node h]
      exact .inl ⟨hgatherings, rest, hstack⟩
  · cases h

end Places

/-- The diagnostics of a run are what its steps have passed over, in the order
of the steps and each of them once, except that only the first refused visit
is reported.  Each has the id of its node under the ids of the calls that
enclose it.  There are no more of these than the limit on calls allows, each
names a node that calls the function in whose graph the next one is, and the
id itself is where the run stands in the graph of the last function. -/
theorem diagnostics_chronological (catalogue : Catalogue) (limits : Limits)
    (blueprint : Blueprint) (trigger : Trigger) (services : Services) :
    let setup := setupOf catalogue limits blueprint trigger
    let first := start catalogue blueprint trigger services
    let report := (runBlueprint catalogue limits blueprint trigger services).1
    ∃ history final, Passes setup first history final ∧ Halted setup final ∧
      report = finalReport final.state ∧
      report.diagnostics =
        firstOnly isLimitReport (history.filterMap (Config.incident? setup)) ∧
      ∀ config ∈ history, ∀ diagnostic,
      config.condition? setup = some diagnostic →
        (callPath config.callers).length ≤ limits.maxCallDepth.toNat ∧
        LeadsTo setup config.scope ⟨blueprint.graph, false⟩
          (callPath config.callers) ∧
        config.StandsAt diagnostic.node := by
  intro setup first report
  obtain ⟨final, reached, halted, hrun⟩ :=
    run_reaches catalogue limits blueprint trigger services
  obtain ⟨history, passed⟩ := reached.passes
  have hreport : report = finalReport final.state := congrArg Prod.fst hrun
  have hreported := (passed.reported rfl rfl).1
  refine ⟨history, final, passed, halted, hreport, ?_, ?_⟩
  · rw [hreport, ← hreported, Config.reported, halted.callers_eq]
    rfl
  · intro config hconfig diagnostic hcondition
    have before := passed.reaches_of_mem hconfig
    have nested :=
      Reaches.nested before
        (start_nested limits catalogue blueprint trigger services)
    have placed := Reaches.placed before
      (start_placed setup catalogue blueprint trigger services)
    refine ⟨?_, placed.called.leadsTo, condition?_standsAt placed hcondition⟩
    have hdeep := nested.2.1
    rw [List.length_map] at hdeep
    rwa [callPath, List.length_map, List.length_reverse]

end ScriptGraph.Engine.Machine
