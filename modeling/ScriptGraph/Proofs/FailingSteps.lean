import ScriptGraph.Proofs.CallContract
import ScriptGraph.Proofs.CleanFailures
import ScriptGraph.Proofs.Freshness
import ScriptGraph.Proofs.SideEffects

/-!
# Failing steps

A visit that ends in an error leaves nothing half done.  Three things come
together: executors fail without a trace, gathering the inputs of a node has no
side effects, whatever it evaluates, and a call is refused before it begins,
while one that is made does not fail.

What remains of such a visit is its step, the values of nodes that were pulled
for it, its diagnostics, and an empty table of values for the node itself.
-/

namespace ScriptGraph

open Json

namespace Engine

/-! ## What pulls add -/

/-- A relation between the states before and after that no part of a pull
breaks. -/
structure PullStable (setup : Setup) (scope : Scope) (call : Caller)
    (R : RunState → RunState → Prop) : Prop where
  refl : ∀ state, R state state
  trans : ∀ {first second third}, R first second → R second third →
    R first third
  evaluate : ∀ node how inputs state, evaluator? setup node = some how →
    R state (evaluate call how node inputs state).2
  settle : ∀ id outcome {state after},
    (pullable? setup scope id).isSome = true → R (state.beginPull id) after →
    R state (settlePull id outcome after).2

namespace PullStable

variable {setup : Setup} {scope : Scope} {call : Caller}
  {R : RunState → RunState → Prop}
  {pull : Endpoint → RunState → Option Value × RunState}

theorem gatherWith (stable : PullStable setup scope call R)
    (h : ∀ source state, R state (pull source state).2) (id : String)
    (state : RunState) :
    R state (gatherWith setup scope pull id state).2 := by
  rw [gatherWith_eq]
  generalize inputWires setup scope id = wires
  generalize inputDefaults setup scope id = inputs
  induction wires generalizing inputs state with
  | nil => exact stable.refl state
  | cons wire rest ih =>
      obtain ⟨source, pin⟩ := wire
      rw [bringAll_cons]
      exact stable.trans (h source state) (ih _ _)

theorem pullWith (stable : PullStable setup scope call R)
    (h : ∀ source state, R state (pull source state).2) (source : Endpoint)
    (state : RunState) :
    R state (pullWith setup scope call pull source state).2 := by
  unfold Engine.pullWith
  cases state.outputs? source.node with
  | some values => exact stable.refl state
  | none =>
      cases hpullable : pullable? setup scope source.node with
      | none => exact stable.refl state
      | some found =>
          obtain ⟨node, how⟩ := found
          have hhow := ((pullable?_eq_some setup scope).mp hpullable).2
          dsimp only
          split
          · exact stable.refl state
          · refine stable.settle _ _ (by simp [hpullable]) ?_
            exact stable.trans (stable.gatherWith h _ _)
              (stable.evaluate node how _ _ hhow)

theorem gather (stable : PullStable setup scope call R) (id : String)
    (state : RunState) :
    R state (gather setup scope call id state).2 := by
  refine stable.gatherWith (fun source state => ?_) id state
  unfold Engine.pull
  generalize pullDepth scope = levels
  induction levels generalizing source state with
  | zero => exact stable.refl state
  | succ levels ih => exact stable.pullWith ih source state

end PullStable

def AddsPullErrors (before after : RunState) : Prop :=
  ∃ added, after.activation.diagnostics.toList =
    before.activation.diagnostics.toList ++ added ∧
    ∀ diagnostic ∈ added, diagnostic.condition = .pullError

namespace AddsPullErrors

variable {state middle after : RunState}

theorem of_eq
    (h : after.activation.diagnostics = state.activation.diagnostics) :
    AddsPullErrors state after :=
  ⟨[], by simp [h], List.forall_mem_nil _⟩

theorem trans (first : AddsPullErrors state middle)
    (second : AddsPullErrors middle after) :
    AddsPullErrors state after := by
  obtain ⟨some, hsome, hsomeErrors⟩ := first
  obtain ⟨more, hmore, hmoreErrors⟩ := second
  exact ⟨some ++ more, by rw [hmore, hsome, List.append_assoc],
    List.forall_mem_append.mpr ⟨hsomeErrors, hmoreErrors⟩⟩

end AddsPullErrors

structure Pulled (setup : Setup) (scope : Scope) (before after : RunState) :
    Prop where
  outputs : ∀ id, pullable? setup scope id = none →
    after.outputs? id = before.outputs? id
  reports : AddsPullErrors before after

def PureCallsReport (setup : Setup) (call : Caller) : Prop :=
  ∀ node arguments state, callsPureFunction setup node = true →
    (call node arguments state).2.activation.outputs =
      state.activation.outputs ∧
      AddsPullErrors state (call node arguments state).2

section Pulls

variable {setup : Setup} {scope : Scope} {call : Caller}

theorem evaluate_pulled (calls : PureCallsReport setup call) {node : Node}
    {how : Evaluator} (hhow : evaluator? setup node = some how)
    (inputs : Table Value) (state : RunState) :
    Pulled setup scope state (evaluate call how node inputs state).2 := by
  cases how with
  | entry entry =>
      have invoked : Pulled setup scope state
          (state.invoke entry (pureInvocation node inputs state)).2 :=
        ⟨fun _ _ => rfl, .of_eq rfl⟩
      simp only [evaluate]
      rcases hinvoke : state.invoke entry
        (pureInvocation node inputs state) with ⟨outcome, next⟩
      rw [hinvoke] at invoked
      cases outcome <;> exact invoked
  | call =>
      obtain ⟨outputs, reports⟩ :=
        calls node inputs state (evaluator?_call hhow)
      simp only [evaluate]
      rcases hcall : call node inputs state with ⟨outcome, next⟩
      rw [hcall] at outputs reports
      cases outcome <;>
        exact ⟨fun id _ => congrArg (fun table => Table.get? table id) outputs,
          reports⟩

theorem settlePull_pulled {id : String} {state after : RunState}
    (hpullable : (pullable? setup scope id).isSome = true)
    (h : Pulled setup scope (state.beginPull id) after)
    (outcome : Except String (Table Value)) :
    Pulled setup scope state (settlePull id outcome after).2 := by
  obtain ⟨outputs, reports⟩ := h
  have kept : ∀ values other, pullable? setup scope other = none →
      (after.activation.outputs.insert id values).get? other =
        state.outputs? other := by
    intro values other hother
    have hne : other ≠ id := by
      rintro rfl
      simp [hother] at hpullable
    rw [Table.get?_insert_of_ne _ _ hne]
    exact outputs other hother
  cases outcome with
  | ok values => exact ⟨kept values, reports⟩
  | error message =>
      refine ⟨kept .empty,
        AddsPullErrors.trans reports ⟨[⟨id, .pullError, message⟩], ?_, by simp⟩⟩
      simp [settlePull, RunState.report, RunState.setOutputs, RunState.endPull]

theorem pullStable_pulled (calls : PureCallsReport setup call) :
    PullStable setup scope call (Pulled setup scope) where
  refl _ := ⟨fun _ _ => rfl, .of_eq rfl⟩
  trans first second :=
    ⟨fun id h => (second.outputs id h).trans (first.outputs id h),
      first.reports.trans second.reports⟩
  evaluate _ _ inputs state hhow := evaluate_pulled calls hhow inputs state
  settle _ outcome _ _ hpullable h := settlePull_pulled hpullable h outcome

theorem callWith_reports (calls : PureCallsReport setup call) :
    PureCallsReport setup (callWith setup call) := by
  intro node arguments state hpure
  unfold callWith
  cases hcallee : callee setup node state.activation.depth with
  | error cause => exact ⟨rfl, .of_eq rfl⟩
  | ok function =>
      have hwalk : walkBody setup ⟨function.graph, true⟩ call function
          (enterBody function arguments state) =
            enterBody function arguments state := by
        rw [walkBody, if_pos (callee_pure hpure hcallee)]
      have gathered :
          Pulled setup ⟨function.graph, true⟩
            (enterBody function arguments state)
          (gather setup ⟨function.graph, true⟩ call exitMarker
            (enterBody function arguments state)).2 :=
        (pullStable_pulled calls).gather exitMarker _
      obtain ⟨added, hadded, herrors⟩ := gathered.reports
      dsimp only
      rw [hwalk]
      refine ⟨rfl,
        added.map fun diagnostic => diagnostic.within node.id, ?_, ?_⟩
      · rw [leaveBody_diagnostics, hadded]
        rfl
      · intro diagnostic hdiagnostic
        obtain ⟨inner, hinner, rfl⟩ := List.mem_map.mp hdiagnostic
        exact herrors inner hinner

theorem call_reports (setup : Setup) :
    PureCallsReport setup (Engine.call setup) := by
  unfold Engine.call
  generalize setup.limits.maxCallDepth.toNat + 1 = levels
  induction levels with
  | zero => exact fun _ _ state _ => ⟨rfl, .of_eq rfl⟩
  | succ levels ih => exact callWith_reports ih

end Pulls

namespace Machine

/-! ## Visits that end in an error -/

def newReports (before after : RunState) : List Diagnostic :=
  after.activation.diagnostics.toList.drop before.activation.diagnostics.size

theorem newReports_eq {before after : RunState} {added : List Diagnostic}
    (h : after.activation.diagnostics.toList =
      before.activation.diagnostics.toList ++ added) :
    newReports before after = added := by
  simp [newReports, h]

/-- What a visit that ends in an error leaves. -/
structure Failed (setup : Setup) (scope : Scope) (id message : String)
    (before after : RunState) : Prop where
  services : after.services = before.services
  steps : after.activation.steps = before.activation.steps + 1
  values : after.outputs? id = some .empty
  kept : ∀ other values, other ≠ id → before.outputs? other = some values →
    after.outputs? other = some values
  pulled : ∀ other, other ≠ id → before.outputs? other = none →
    after.outputs? other ≠ none → (pullable? setup scope other).isSome = true
  reports : ∃ pulls, after.activation.diagnostics.toList =
      before.activation.diagnostics.toList ++
        (pulls ++ [⟨id, .nodeError, message⟩]) ∧
    ∀ diagnostic ∈ pulls, diagnostic.condition = .pullError
  view : after.activation.view = before.activation.view
  pulling : after.activation.pulling = before.activation.pulling
  limitReported : after.activation.limitReported =
    before.activation.limitReported
  depth : after.activation.depth = before.activation.depth

section Visits

variable {setup : Setup} {scope : Scope} {before taken : RunState}
  {id message : String}

theorem Failed.message_eq {after : RunState}
    (failed : Failed setup scope id message before after) {other : String}
    (h : ⟨id, .nodeError, other⟩ ∈ newReports before after) :
    other = message := by
  obtain ⟨pulls, hpulls, herrors⟩ := failed.reports
  rw [newReports_eq hpulls] at h
  rcases List.mem_append.mp h with hpull | hlast
  · cases herrors _ hpull
  · simpa using hlast

theorem follow_error {output : Output}
    (hmessage : output.errorMessage? = some message) (rest : List Frame)
    (state : RunState) :
    follow setup scope id output rest state =
      (rest, (state.setOutputs id output.values).syncVariables.report id
        .nodeError message) := by
  unfold Output.errorMessage? at hmessage
  unfold follow
  cases hflow : output.flow with
  | error found =>
      rw [hflow] at hmessage
      cases hmessage
      rfl
  | _ => simp [hflow] at hmessage

theorem gather_leaves_services (reading : Naive.PureKindsRead setup.catalogue)
    (scope : Scope) (id : String) (state : RunState) :
    OnlyAdds (fun services => services) state
      (gather setup scope (call setup) id state).2 :=
  gather_adds (reading.keep _) (call_adds (reading.keep _)) id state

theorem follow_failed (reading : Naive.PureKindsRead setup.catalogue)
    (synced : Synced before)
    (htaken : before.takeStep setup.limits id = (true, taken)) {output : Output}
    (hmessage : output.errorMessage? = some message)
    (hvalues : output.values = .empty) (rest : List Frame) :
    Failed setup scope id message before
      (follow setup scope id output rest
        (gather setup scope (call setup) id taken).2).2 := by
  have adds := gather_leaves_services reading scope id taken
  have advances := gather_advances setup scope (call_steady setup) id taken
  have pulled :
      Pulled setup scope taken (gather setup scope (call setup) id taken).2 :=
    (pullStable_pulled (call_reports setup)).gather id taken
  obtain ⟨-, rfl⟩ := takeStep_allowed htaken
  rw [follow_error hmessage, hvalues]
  obtain ⟨pulls, hpulls, herrors⟩ := pulled.reports
  exact {
    services := adds.services
    steps := adds.steps
    values := Table.get?_insert_self ..
    kept := fun other values hne hfound =>
      (Table.get?_insert_of_ne _ _ hne).trans (adds.outputs other values hfound)
    pulled := fun other hne hnone hsome => by
      by_contra hpullable
      refine hsome ((Table.get?_insert_of_ne _ _ hne).trans ?_)
      exact (pulled.outputs other (by simpa using hpullable)).trans hnone
    reports := by
      refine ⟨pulls, ?_, herrors⟩
      rw [← List.append_assoc]
      exact Array.toList_push.trans (congrArg (· ++ _) hpulls)
    -- Following copies the store anew, which is what the copy was before.
    view := congrArg VariableView.mk
      ((congrArg Services.store adds.services).trans synced.symm)
    pulling := advances.pulling
    limitReported := adds.limitReported
    depth := adds.depth }

/-- Whatever a visit does, if it reports an error of its node then it leaves the
other frames and nothing else behind. -/
def FailsAtomically (setup : Setup) (scope : Scope) (id : String)
    (before : RunState) (rest : List Frame) (result : List Frame × RunState) :
    Prop :=
  ∀ message, ⟨id, .nodeError, message⟩ ∈ newReports before result.2 →
    result.1 = rest ∧ Failed setup scope id message before result.2

theorem FailsAtomically.of_quiet {rest : List Frame}
    {result : List Frame × RunState} (added : List Diagnostic)
    (hreports : result.2.activation.diagnostics.toList =
      before.activation.diagnostics.toList ++ added)
    (hquiet : ∀ diagnostic ∈ added, diagnostic.condition = .nodeError →
      diagnostic.node ≠ id) :
    FailsAtomically setup scope id before rest result := by
  intro message h
  rw [newReports_eq hreports] at h
  exact absurd rfl (hquiet _ h rfl)

theorem quiet_of_pullErrors {reports : List Diagnostic}
    (h : ∀ diagnostic ∈ reports, diagnostic.condition = .pullError) :
    ∀ diagnostic ∈ reports, diagnostic.condition = .nodeError →
      diagnostic.node ≠ id := by
  intro diagnostic hdiagnostic hcondition
  rw [h diagnostic hdiagnostic] at hcondition
  cases hcondition

theorem gather_reports
    (htaken : before.takeStep setup.limits id = (true, taken)) :
    AddsPullErrors before (gather setup scope (call setup) id taken).2 := by
  have pulled :
      Pulled setup scope taken (gather setup scope (call setup) id taken).2 :=
    (pullStable_pulled (call_reports setup)).gather id taken
  obtain ⟨-, rfl⟩ := takeStep_allowed htaken
  exact pulled.reports

theorem follow_atomic (reading : Naive.PureKindsRead setup.catalogue)
    (synced : Synced before)
    (htaken : before.takeStep setup.limits id = (true, taken)) {output : Output}
    (clean : output.Clean) (rest : List Frame) :
    FailsAtomically setup scope id before rest
      (follow setup scope id output rest
        (gather setup scope (call setup) id taken).2) := by
  intro message h
  cases hmessage : output.errorMessage? with
  | some found =>
      have failed : Failed setup scope id found before
          (follow setup scope id output rest
            (gather setup scope (call setup) id taken).2).2 :=
        follow_failed reading synced htaken hmessage (clean found hmessage) rest
      cases failed.message_eq h
      exact ⟨by rw [follow_error hmessage], failed⟩
  | none =>
      obtain ⟨pulls, hpulls, herrors⟩ :=
        @gather_reports setup scope before taken id htaken
      refine FailsAtomically.of_quiet pulls ?_
        (quiet_of_pullErrors herrors) message h
      rw [follow_diagnostics, hpulls, hmessage]
      exact List.append_nil _

theorem ne_within (caller inner : String) :
    caller ++ "/" ++ inner ≠ caller := by
  intro h
  have hlength := congrArg String.length h
  have hslash : "/".length = 1 := by decide
  simp only [String.length_append] at hlength
  omega

theorem visitCall_atomic (reading : Naive.PureKindsRead setup.catalogue)
    (synced : Synced before) {node : Node}
    (htaken : before.takeStep setup.limits node.id = (true, taken))
    (rest : List Frame) :
    FailsAtomically setup scope node.id before rest
      (follow setup scope node.id
        (visitCall setup scope (call setup) node taken).1 rest
        (visitCall setup scope (call setup) node taken).2) := by
  rcases hgather : gather setup scope (call setup) node.id taken with
    ⟨inputs, gathered⟩
  simp only [visitCall, hgather]
  cases hcallee : callee setup node gathered.activation.depth with
  | error cause =>
      rw [call_of_callee_error inputs hcallee]
      have followed := @follow_atomic setup scope before taken node.id reading
        synced htaken (.error cause.message) (Output.clean_error _) rest
      rw [hgather] at followed
      exact followed
  | ok function =>
      -- The body reports under ids that are longer than the id of the node.
      obtain ⟨found, returns⟩ := returns_of_ok inputs hcallee
      obtain ⟨values, hvalues, -⟩ := returns.results
      obtain ⟨inner, hinner, hnodes⟩ := returns.diagnostics
      obtain ⟨pulls, hpulls, herrors⟩ :=
        @gather_reports setup scope before taken node.id htaken
      rw [hgather] at hpulls
      refine .of_quiet (pulls ++ inner) ?_ ?_
      · rw [follow_diagnostics, hinner, hpulls, hvalues]
        simp [outputOf, Output.proceed, Output.errorMessage?, Except.map]
      · refine List.forall_mem_append.mpr ⟨quiet_of_pullErrors herrors, ?_⟩
        intro diagnostic hdiagnostic _
        obtain ⟨name, hname⟩ := hnodes diagnostic hdiagnostic
        rw [hname]
        exact ne_within node.id name

theorem errorMessage?_outputOf (outcome : Except Failure Output) :
    (outputOf outcome).errorMessage? = failureOf outcome := by
  cases outcome <;> rfl

theorem visitEntry_atomic (reading : Naive.PureKindsRead setup.catalogue)
    (synced : Synced before) (holds : before.services.PointsHold) {node : Node}
    {entry : Entry} (clean : Library.FailsCleanly entry.run)
    (htaken : before.takeStep setup.limits node.id = (true, taken))
    (rest : List Frame) :
    FailsAtomically setup scope node.id before rest
      (follow setup scope node.id
        (visitEntry setup scope (call setup) entry node taken).1 rest
        (visitEntry setup scope (call setup) entry node taken).2) := by
  have adds := gather_leaves_services reading scope node.id taken
  have same : taken.services = before.services := by
    rw [(takeStep_allowed htaken).2]
  rcases hgather : gather setup scope (call setup) node.id taken with
    ⟨inputs, gathered⟩
  rw [hgather] at adds
  have left := clean (visitInvocation setup node inputs gathered)
    gathered.services (by rw [adds.services, same]; exact holds)
  simp only [visitEntry, hgather]
  cases hfailure : failureOf
      (gathered.invoke entry
        (visitInvocation setup node inputs gathered)).1 with
  | some found =>
      obtain ⟨hservices, hvalues⟩ := left.failed found hfailure
      -- The executor has failed without a trace, so only the pulls before it
      -- count.
      have hinvoked :
          (gathered.invoke entry
            (visitInvocation setup node inputs gathered)).2 = gathered :=
        congrArg (RunState.mk gathered.activation) hservices
      have followed := @follow_atomic setup scope before taken node.id reading
        synced htaken
        (outputOf (gathered.invoke entry
          (visitInvocation setup node inputs gathered)).1)
        (fun _ _ => hvalues) rest
      rw [hgather] at followed
      rw [hinvoked]
      exact followed
  | none =>
      obtain ⟨pulls, hpulls, herrors⟩ :=
        @gather_reports setup scope before taken node.id htaken
      rw [hgather] at hpulls
      refine .of_quiet pulls ?_ (quiet_of_pullErrors herrors)
      rw [follow_diagnostics, errorMessage?_outputOf, hfailure]
      exact (List.append_nil _).trans hpulls

theorem visit_atomic (reading : Naive.PureKindsRead setup.catalogue)
    (clean : setup.catalogue.KindsFailCleanly) (synced : Synced before)
    (holds : before.services.PointsHold)
    (htaken : before.takeStep setup.limits id = (true, taken))
    (rest : List Frame) :
    FailsAtomically setup scope id before rest
      (visit setup scope (call setup) id rest taken) := by
  have hreports : taken.activation.diagnostics.toList =
      before.activation.diagnostics.toList ++ [] := by
    rw [(takeStep_allowed htaken).2, List.append_nil]
  unfold visit
  cases hnode : scope.graph.node? id with
  | none => exact .of_quiet [] hreports (List.forall_mem_nil _)
  | some node =>
      cases node?_id hnode
      dsimp only
      split
      · exact .of_quiet [] hreports (List.forall_mem_nil _)
      · split
        · exact visitCall_atomic reading synced htaken rest
        · cases hlookup : setup.catalogue.lookup node.kind with
          | some entry =>
              exact visitEntry_atomic reading synced holds
                (clean _ entry hlookup) htaken rest
          | none =>
              refine .of_quiet [⟨node.id, .unknownNodeKind, _⟩]
                (Array.toList_push.trans (congrArg (· ++ _) ?_)) (by simp)
              rw [hreports, List.append_nil]

theorem pop_atomic (reading : Naive.PureKindsRead setup.catalogue)
    (clean : setup.catalogue.KindsFailCleanly) (synced : Synced before)
    (holds : before.services.PointsHold) (rest : List Frame)
    (h : ⟨id, .nodeError, message⟩ ∈ newReports before
      (pop setup scope (call setup) (.visit id) rest before).2) :
    (pop setup scope (call setup) (.visit id) rest before).1 = some rest ∧
      Failed setup scope id message before
        (pop setup scope (call setup) (.visit id) rest before).2 := by
  rcases htaken : before.takeStep setup.limits id with ⟨allowed, taken⟩
  simp only [pop, htaken] at h ⊢
  cases allowed with
  | false =>
      rw [newReports_eq (takeStep_refused_diagnostics htaken)] at h
      split at h <;> simp at h
  | true =>
      obtain ⟨hrest, failed⟩ :=
        visit_atomic reading clean synced holds htaken rest message h
      exact ⟨congrArg some hrest, failed⟩

end Visits

/-- In a run with the library, a visit that ends in an error of its own node
leaves all services as they were and no trace in its activation, apart from what
`Failed` names.  The frames that wait behind it are the stack again, and the
callers and the entries of the run wait as before. -/
theorem failing_step_atomic (limits : Limits) (blueprint : Blueprint)
    (trigger : Trigger) (services : Services)
    (points : services.points = none ∨
      (∃ table, services.points = some (.memory table)) ∨
      ∃ store, services.points = some store ∧ store.driver.Atomic) :
    let setup := setupOf Catalogue.standard limits blueprint trigger
    let first := start Catalogue.standard blueprint trigger services
    (∃ final, Reaches setup first final ∧ Halted setup final ∧
      runBlueprint Catalogue.standard limits blueprint trigger services =
        (finalReport final.state, final.state.services)) ∧
    ∀ config, Reaches setup first config → ∀ id rest, config.gatherings = [] →
      config.stack = .visit id :: rest →
      let popped :=
        pop setup config.scope (call setup) (.visit id) rest config.state
      Reaches setup config
        { config with stack := popped.1.getD [], state := popped.2 } ∧
      ∀ message, ⟨id, .nodeError, message⟩ ∈ newReports config.state popped.2 →
        popped.1 = some rest ∧
        Failed setup config.scope id message config.state popped.2 := by
  intro setup first
  refine ⟨run_reaches Catalogue.standard limits blueprint trigger services, ?_⟩
  intro config reached id rest hgatherings hstack popped
  have placed :=
    start_placed setup Catalogue.standard blueprint trigger services
  have holds : first.state.services.PointsHold := by
    intro store hstore
    rcases points with hnone | ⟨table, htable⟩ | ⟨found, hfound, atomic⟩
    · cases hnone.symm.trans hstore
    · cases htable.symm.trans hstore
      exact PointDriver.memory_atomic
    · cases hfound.symm.trans hstore
      exact atomic
  have synced :=
    Reaches.synced reached (Library.standard_reads.keep _) placed rfl
  constructor
  · obtain ⟨scope, stack, gatherings, state, callers, pending⟩ := config
    cases hgatherings
    cases hstack
    exact pop_reaches (calls_reach _) (.visit id) rest state rfl
  · intro message h
    exact pop_atomic Library.standard_reads
      Catalogue.standard_failsCleanly synced
      (Reaches.pointsHold reached Catalogue.standard_failsCleanly placed holds)
        rest h

/-! ### A write that the point store refuses, in the body of a function -/

namespace Refused

def body : Function where
  nodes := [⟨"__entry__", "", .origin, .null⟩, ⟨"__exit__", "", .origin, .null⟩,
    ⟨"both", "flow/Sequence", .origin, .null⟩,
    ⟨"write", "point/WritePoint", .origin, .object [("path", .text "p")]⟩,
    ⟨"show", "utility/Print", .origin, .null⟩,
    ⟨"one", "utility/Constant", .origin, .object [("value", .ofInt 1)]⟩]
  connections :=
    [⟨"__entry__.exec", "both.exec"⟩, ⟨"both.then_0", "write.exec"⟩,
    ⟨"both.then_1", "show.exec"⟩, ⟨"one.value", "write.value"⟩]

def blueprint : Blueprint where
  id := "refused"
  name := "Refused"
  nodes := [⟨"start", "event/OnStart", .origin, .null⟩,
    ⟨"call", "function/Call", .origin, .object [("function", .text "body")]⟩]
  connections := [⟨"start.exec", "call.exec"⟩]
  functions := .single "body" body

def setup : Setup :=
  setupOf Catalogue.standard {} blueprint ⟨"start", none, none⟩

def first : Config :=
  start Catalogue.standard blueprint ⟨"start", none, none⟩
    { points := some .refusing }

def writing : Config := runFor setup 7 first

def written : Option (List Frame) × RunState :=
  pop setup writing.scope (call setup) (.visit "write")
    [.visit "show"] writing.state

theorem refusing_atomic : PointDriver.refusing.Atomic := fun _ _ _ _ _ => rfl

theorem writing_fails :
    writing.stack = [.visit "write", .visit "show"] ∧
      written.1 = some [.visit "show"] ∧
      ∃ message, Failed setup writing.scope "write" message writing.state
        written.2 := by
  have shown : writing.gatherings.isEmpty = true ∧
      writing.stack = [.visit "write", .visit "show"] ∧
      ⟨"write", .nodeError, "Write failed: p"⟩ ∈
        newReports writing.state written.2 := by
    decide +kernel
  obtain ⟨hgatherings, hstack, hreport⟩ := shown
  have atomic := (failing_step_atomic {} blueprint ⟨"start", none, none⟩
    { points := some .refusing } (.inr (.inr ⟨_, rfl, refusing_atomic⟩))).2
    writing (reaches_runFor setup 7 first) "write" [.visit "show"]
    (List.isEmpty_iff.mp hgatherings) hstack
  obtain ⟨hrest, failed⟩ := atomic.2 _ hreport
  exact ⟨hstack, hrest, _, failed⟩

end Refused

end Machine

end Engine

end ScriptGraph
