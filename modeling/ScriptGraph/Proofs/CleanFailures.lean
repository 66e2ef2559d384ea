import ScriptGraph.Proofs.Diagnostics
import ScriptGraph.Proofs.PureKinds

/-!
# Failures without a trace

Every executor of the library looks for what may go wrong before it does
anything, and gives no values when it reports an error.  The one that cannot
know beforehand is the one that writes points: whether the store refuses is seen
when it has been asked.  So the store has to refuse without a trace, as the one
in memory does, and that remains so throughout a run.
-/

namespace ScriptGraph

open Json

/-! ## Stores that refuse without a trace -/

def PointDriver.Atomic (driver : PointDriver) : Prop :=
  ∀ points path value cause, (driver.write points path value).1 = .error cause →
    (driver.write points path value).2 = points

theorem PointDriver.memory_atomic : memory.Atomic := by
  intro points path value cause h
  unfold memory at h ⊢
  by_cases hpath : path.isEmpty
  · simp [hpath]
  · simp [hpath] at h

def Services.PointsHold (services : Services) : Prop :=
  ∀ store, services.points = some store → store.driver.Atomic

theorem Services.points_of_pointStore {services : Services} {store : PointStore}
    (h : services.pointStore = .ok store) : services.points = some store := by
  unfold pointStore at h
  split at h
  · next hpoints =>
      cases h
      exact hpoints
  · cases h

theorem PointStore.write_refused {store written : PointStore} {path : String}
    {value : Value} {cause : PointError} (atomic : store.driver.Atomic)
    (h : store.write path value = (.error cause, written)) :
    written = store := by
  obtain ⟨driver, points⟩ := store
  obtain ⟨hanswer, rfl⟩ := Prod.mk.inj h
  exact congrArg (PointStore.mk driver) (atomic points path value cause hanswer)

/-! ## Executors that fail without a trace -/

def Output.Clean (output : Output) : Prop :=
  ∀ message, output.errorMessage? = some message → output.values = .empty

namespace Output

@[simp] theorem clean_proceed (pin : String) (values : Table Value) :
    (proceed pin values).Clean := nofun

@[simp] theorem clean_sequence (pins : List String) :
    (sequence pins).Clean := nofun

@[simp] theorem clean_loop (pin : String) (start stop : Int64) :
    (loop pin start stop).Clean := nofun

@[simp] theorem clean_single (pin : String) (value : Value) :
    (single pin value).Clean := nofun

@[simp] theorem clean_error (message : String) : (error message).Clean :=
  fun _ _ => rfl

end Output

namespace Library

open Engine (outputOf)

open Engine.Machine (failureOf)

/-- What an executor leaves: if it fails, all is as before and there are no
values, and in any case the point store refuses without a trace. -/
structure LeavesClean (before : Services) (result : Reply × Services) :
    Prop where
  failed : ∀ message, failureOf result.1.outcome = some message →
    result.2 = before ∧ (outputOf result.1.outcome).values = .empty
  pointsHold : result.2.PointsHold

def FailsCleanly (run : Executor) : Prop :=
  ∀ inv services, services.PointsHold → LeavesClean services (run inv services)

section Results

variable {before after : Services}

theorem LeavesClean.of_output {output : Output} (clean : output.Clean)
    (holds : before.PointsHold) : LeavesClean before (.output output, before) :=
  ⟨fun message h => ⟨rfl, clean message h⟩, holds⟩

theorem LeavesClean.of_error {reply : Reply}
    (hvalues : (outputOf reply.outcome).values = .empty)
    (holds : before.PointsHold) : LeavesClean before (reply, before) :=
  ⟨fun _ _ => ⟨rfl, hvalues⟩, holds⟩

theorem LeavesClean.of_proceed (pin : String) (values : Table Value)
    (holds : after.PointsHold) :
    LeavesClean before (.output (.proceed pin values), after) :=
  ⟨nofun, holds⟩

theorem failsCleanly_ofOutput {f : Invocation → Output}
    (h : ∀ inv, (f inv).Clean) :
    FailsCleanly (.ofOutput f) :=
  fun inv _ holds => .of_output (h inv) holds

theorem failsCleanly_reading {f : Invocation → Services → Output}
    (h : ∀ inv services, (f inv services).Clean) : FailsCleanly (.reading f) :=
  fun inv services holds => .of_output (h inv services) holds

end Results

theorem math_fails : ∀ item ∈ Math.kinds, FailsCleanly item.2 := by
  simp only [Math.kinds, Math.binary, List.forall_mem_cons]
  simp [failsCleanly_ofOutput, failsCleanly_reading]

theorem logic_fails : ∀ item ∈ Logic.kinds, FailsCleanly item.2 := by
  simp only [Logic.kinds, Logic.binary, List.forall_mem_cons]
  simp [failsCleanly_ofOutput]

theorem comparison_fails : ∀ item ∈ Comparison.kinds, FailsCleanly item.2 := by
  simp only [Comparison.kinds, Comparison.fixed, List.forall_mem_cons]
  refine ⟨?_, ?_, ?_, ?_, ?_, ?_, failsCleanly_ofOutput fun inv => ?_, ?_,
    List.forall_mem_nil _⟩
  case refine_7 => split <;> simp
  all_goals simp [failsCleanly_ofOutput]

theorem sequence_fails : FailsCleanly FlowControl.sequence := by
  intro inv services holds
  unfold FlowControl.sequence
  dsimp only
  split
  · exact .of_output (Output.clean_sequence _) holds
  · exact .of_error rfl holds

example (services : Services) :
    FlowControl.sequence
      { nodeId := "many"
        config := .object [("outputs", .ofInt 384307168202282326)] } services =
      (.crash (some "capacity overflow"), services) := rfl

theorem flowControl_fails :
    ∀ item ∈ FlowControl.kinds, FailsCleanly item.2 := by
  simp only [FlowControl.kinds, List.forall_mem_cons]
  simp [failsCleanly_ofOutput, sequence_fails]

theorem publish_fails : FailsCleanly Events.publish := by
  intro inv services holds
  unfold Events.publish
  dsimp only
  split
  · exact .of_output (Output.clean_error _) holds
  · exact .of_output (Output.clean_error _) holds
  · exact .of_proceed _ _ holds

theorem events_fails : ∀ item ∈ Events.kinds, FailsCleanly item.2 := by
  simp only [Events.kinds, List.forall_mem_cons]
  simp [failsCleanly_ofOutput, publish_fails]

theorem read_fails : FailsCleanly Points.read := by
  intro inv services holds
  unfold Points.read
  split
  · exact .of_proceed _ _ holds
  · exact .of_error rfl holds

/-- The one executor that may fail after it has acted: the point store has been
asked to write. -/
theorem write_fails : FailsCleanly Points.write := by
  intro inv services holds
  unfold Points.write
  split
  · exact .of_error rfl holds
  · exact .of_error rfl holds
  · next path store hpath hstore =>
      have hpoints := Services.points_of_pointStore hstore
      have atomic := holds store hpoints
      rcases hwrite : store.write path (.ofOption (inv.input? "value")) with
        ⟨answer, written⟩
      cases answer with
      | ok done =>
          refine .of_proceed _ _ ?_
          intro kept hkept
          cases hkept
          rw [show written.driver = store.driver from
            congrArg (fun r => r.2.driver) hwrite.symm]
          exact atomic
      | error cause =>
          have same : { services with points := some written } = services := by
            rw [PointStore.write_refused atomic hwrite, ← hpoints]
          simp only [same]
          exact .of_error rfl holds

theorem points_fails : ∀ item ∈ Points.kinds, FailsCleanly item.2 := by
  simp [Points.kinds, read_fails, write_fails]

theorem logMessage_fails (level : Invocation → LogLevel) :
    FailsCleanly (Utility.logMessage level) :=
  fun _ _ holds => .of_proceed _ _ holds

theorem setVariable_fails : FailsCleanly Utility.setVariable := by
  intro inv services holds
  unfold Utility.setVariable
  split
  · exact .of_output (Output.clean_error _) holds
  · exact .of_proceed _ _ holds

theorem utility_fails : ∀ item ∈ Utility.kinds, FailsCleanly item.2 := by
  simp only [Utility.kinds, List.forall_mem_cons]
  refine ⟨logMessage_fails _, logMessage_fails _, ?_,
    failsCleanly_reading fun inv services => ?_,
    setVariable_fails, ?_, List.forall_mem_nil _⟩
  case refine_2 =>
    split
    · exact Output.clean_error _
    · exact Output.clean_single _ _
  all_goals simp [failsCleanly_ofOutput]

theorem kinds_fail : ∀ item ∈ Library.kinds, FailsCleanly item.2 := by
  simp only [Library.kinds, List.forall_mem_append]
  exact ⟨⟨⟨⟨⟨⟨math_fails, logic_fails⟩, comparison_fails⟩, flowControl_fails⟩,
    events_fails⟩, points_fails⟩, utility_fails⟩

end Library

namespace Catalogue

variable {catalogue : Catalogue} {id : String} {entry : Entry}

theorem lookup_register {kind : NodeKind} {run : Executor}
    (h : (catalogue.register kind run).lookup id = some entry) :
    catalogue.lookup id = some entry ∨ entry = ⟨kind, run, none⟩ := by
  simp only [lookup, register, Table.get?_insert] at h ⊢
  cases hplugin : catalogue.plugin.get? id with
  | some found => exact .inl (by simpa [hplugin] using h)
  | none =>
      simp only [hplugin] at h
      split at h
      · exact .inr (Option.some.inj h).symm
      · exact .inl h

theorem lookup_registerAll {kinds : List (NodeKind × Executor)}
    (h : (catalogue.registerAll kinds).lookup id = some entry) :
    catalogue.lookup id = some entry ∨ (entry.kind, entry.run) ∈ kinds := by
  induction kinds generalizing catalogue with
  | nil => exact .inl h
  | cons item kinds ih =>
      rcases ih h with hbefore | hlater
      · rcases lookup_register hbefore with hfound | rfl
        · exact .inl hfound
        · exact .inr List.mem_cons_self
      · exact .inr (List.mem_cons_of_mem _ hlater)

def KindsFailCleanly (catalogue : Catalogue) : Prop :=
  ∀ id entry, catalogue.lookup id = some entry → Library.FailsCleanly entry.run

theorem standard_failsCleanly : standard.KindsFailCleanly := by
  intro id entry h
  rcases lookup_registerAll h with hnone | hkind
  · cases hnone
  · exact Library.kinds_fail _ hkind

end Catalogue

namespace Engine

/-! ## The point store throughout a run -/

namespace Machine

section PointsHold

variable {setup : Setup} {root : Scope} {config next : Config}

@[simp] theorem follow_services (setup : Setup) (scope : Scope) (id : String)
    (output : Output) (rest : List Frame) (state : RunState) :
    (follow setup scope id output rest state).2.services = state.services := by
  unfold follow
  cases output.flow <;> rfl

@[simp] theorem conclude_services (job : Job) (answer : Except Failure Output)
    (config : Config) :
    (conclude setup job answer config).state.services =
      config.state.services := by
  unfold conclude
  cases job.demand with
  | visit =>
      exact follow_services setup config.scope job.node.id _ config.stack _
  | pull => cases pulledOutcome answer <;> rfl

theorem takeStep_services (limits : Limits) (id : String) (state : RunState) :
    (state.takeStep limits id).2.services = state.services := by
  unfold RunState.takeStep
  split
  · rfl
  · split <;> rfl

theorem runner?_entry {node : Node} {entry : Entry}
    (h : runner? setup node = some (.entry entry)) :
    setup.catalogue.lookup node.kind = some entry := by
  unfold runner? at h
  split at h
  · cases h
  · simpa using h

theorem iterate_points (scope : Scope) (node pin : String) (index stop : Int64)
    (rest : List Frame) (state : RunState) :
    (iterate setup scope node pin index stop rest state).2.services.points =
      state.services.points := by
  unfold iterate
  split <;> rfl

theorem Move.pointsHold (h : Move setup config next)
    (clean : setup.catalogue.KindsFailCleanly)
    (placed : config.Placed setup root)
    (holds : config.state.services.PointsHold) :
    next.state.services.PointsHold := by
  have taken : ∀ {id : String} {allowed : Bool} {after : RunState},
      config.state.takeStep setup.limits id = (allowed, after) →
      after.services.PointsHold := by
    intro id allowed after htaken
    rw [show after.services = _ from
      congrArg (fun r => r.2.services) htaken.symm, takeStep_services]
    exact holds
  cases h with
  | bring hgatherings => exact holds
  | openPull hgatherings hsource huncached hnode hhow hfresh => exact holds
  | @invoke job entry inputs more hgatherings hhow =>
      -- The only step in which an executor gets hold of the points.
      have fits := placed.jobs job (by simp [hgatherings])
      have hlookup := runner?_entry (hhow ▸ fits.runs)
      rw [conclude_services]
      exact (clean job.node.kind entry hlookup _ _ holds).pointsHold
  | refuseCall hgatherings hhow hcallee =>
      rw [conclude_services]
      exact holds
  | enter hgatherings hhow hcallee => exact holds
  | giveBack hgatherings hcallers =>
      rw [Machine.giveBack, conclude_services]
      exact holds
  | refuse hgatherings hstack htaken => exact taken htaken
  | pass hgatherings hstack htaken hframes => exact taken htaken
  | unknown hgatherings hstack htaken hnode hexit hrunner =>
      have held := taken htaken
      exact held
  | visit hgatherings hstack htaken hnode hexit hrunner =>
      have held := taken htaken
      exact held
  | iterate hgatherings hstack =>
      intro store hstore
      exact holds store ((iterate_points ..).symm.trans hstore)
  | collect hgatherings hstack hcallers => exact holds
  | nextEntry hgatherings hstack hcallers hpending => exact holds

theorem Reaches.pointsHold (reached : Reaches setup config next)
    (clean : setup.catalogue.KindsFailCleanly)
    (placed : config.Placed setup root)
    (holds : config.state.services.PointsHold) :
    next.state.services.PointsHold := by
  induction reached with
  | refl => exact holds
  | tail before stepped ih =>
      exact (step_moves stepped).pointsHold clean
        (Reaches.placed before placed) ih

end PointsHold

end Machine

end Engine

end ScriptGraph
