import ScriptGraph.Proofs.Moves
import ScriptGraph.Proofs.PureKinds
import ScriptGraph.Proofs.Simulation

/-!
# Variables are never stale

Every activation has a copy of the variables, which its nodes are given, and
all activations write to one store.  While the body of a function runs, the
copies of its callers fall behind; they are brought up to date before anything
is run in them again.  So the copy in the activation at hand is the store at
every step of a run, whatever has failed on the way, as long as nodes that are
only pulled do not write variables.
-/

namespace ScriptGraph.Engine.Machine

open Json

def Synced (state : RunState) : Prop :=
  state.activation.view.snapshot = state.services.store

section Operations

variable {setup : Setup} {scope : Scope} {state : RunState}

theorem takeStep_synced {limits : Limits} {id : String} {allowed : Bool}
    {after : RunState} (synced : Synced state)
    (h : state.takeStep limits id = (allowed, after)) :
    Synced after := by
  unfold RunState.takeStep at h
  split at h
  · cases h
    exact synced
  · split at h
    · cases h
      exact synced
    · cases h
      exact synced

theorem follow_synced (setup : Setup) (scope : Scope) (id : String)
    (output : Output) (rest : List Frame) (state : RunState) :
    Synced (follow setup scope id output rest state).2 := by
  unfold follow
  cases output.flow <;> rfl

theorem settlePull_synced (synced : Synced state) (id : String)
    (outcome : Except String (Table Value)) :
    Synced (settlePull id outcome state).2 := by
  cases outcome with
  | ok values => exact synced
  | error message => exact synced

theorem iterate_synced (synced : Synced state) (node pin : String)
    (index stop : Int64) (rest : List Frame) :
    Synced (iterate setup scope node pin index stop rest state).2 := by
  unfold iterate
  split
  · exact congrArg (fun table : Table Value => table.insert _ _) synced
  · exact synced

end Operations

section Moves

variable {setup : Setup} {root : Scope} {config next : Config}

theorem conclude_synced {job : Job} {answer : Except Failure Output}
    (h : job.demand = .pull → Synced config.state) :
    Synced (conclude setup job answer config).state := by
  unfold conclude
  cases hdemand : job.demand with
  | visit => exact follow_synced setup config.scope job.node.id _ config.stack _
  | pull => exact settlePull_synced (h hdemand) _ _

theorem Move.synced (h : Move setup config next)
    (keep : PureKindsKeep setup.catalogue Services.store)
    (placed : config.Placed setup root) (synced : Synced config.state) :
    Synced next.state := by
  have fits := placed.jobs
  cases h with
  | bring hgatherings => exact synced
  | openPull hgatherings hsource huncached hnode hhow hfresh => exact synced
  | @invoke job entry inputs more hgatherings hhow =>
      simp only [hgatherings, openJobs_job, List.forall_mem_cons] at fits
      apply conclude_synced
      intro hdemand
      have hevaluator := fits.1.pulled hdemand
      rw [hhow] at hevaluator
      obtain ⟨hlookup, hpure⟩ := evaluator?_entry hevaluator
      exact synced.trans (keep job.node.kind entry hlookup hpure _ _).symm
  | refuseCall hgatherings hhow hcallee => exact conclude_synced fun _ => synced
  | enter hgatherings hhow hcallee => exact synced
  | giveBack hgatherings hcallers => exact conclude_synced fun _ => rfl
  | refuse hgatherings hstack htaken => exact takeStep_synced synced htaken
  | pass hgatherings hstack htaken hframes =>
      exact takeStep_synced synced htaken
  | unknown hgatherings hstack htaken hnode hexit hrunner =>
      have taken := takeStep_synced synced htaken
      exact taken
  | visit hgatherings hstack htaken hnode hexit hrunner =>
      have taken := takeStep_synced synced htaken
      exact taken
  | iterate hgatherings hstack => exact iterate_synced synced _ _ _ _ _
  | collect hgatherings hstack hcallers => exact synced
  | nextEntry hgatherings hstack hcallers hpending => exact synced

theorem Reaches.synced (reached : Reaches setup config next)
    (keep : PureKindsKeep setup.catalogue Services.store)
    (placed : config.Placed setup root) (synced : Synced config.state) :
    Synced next.state := by
  induction reached with
  | refl => exact synced
  | tail before stepped ih =>
      exact (step_moves stepped).synced keep (Reaches.placed before placed) ih

end Moves

/-- In a run with a catalogue whose pure kinds do not write variables, such as
the library, every executor is given the variables as they are in the store at
that moment: when it is visited or pulled, in the graph of the blueprint or in
the body of a function, in loops, and after nodes or calls that have failed. -/
theorem snapshot_eq_store (catalogue : Catalogue) (limits : Limits)
    (blueprint : Blueprint) (trigger : Trigger) (services : Services)
    (keep : PureKindsKeep catalogue Services.store) :
    let setup := setupOf catalogue limits blueprint trigger
    let first := start catalogue blueprint trigger services
    PureKindsKeep Catalogue.standard Services.store ∧
    (∃ final, Reaches setup first final ∧ Halted setup final ∧
      runBlueprint catalogue limits blueprint trigger services =
        (finalReport final.state, final.state.services)) ∧
    ∀ config, Reaches setup first config →
      ∀ entry inv, config.invocation? setup = some (entry, inv) →
        inv.snapshot = config.state.services.store := by
  intro setup first
  refine ⟨Library.standard_reads.keep _,
    run_reaches catalogue limits blueprint trigger services, ?_⟩
  intro config reached entry inv invokes
  obtain ⟨job, inputs, more, hgatherings, hhow, rfl⟩ :=
    invocation?_eq_some.mp invokes
  rw [Job.invocation_snapshot]
  exact Reaches.synced reached keep
    (start_placed setup catalogue blueprint trigger services) rfl

/-! ### A variable that the body of a function writes and its caller reads -/

namespace Assigned

def assign : Function where
  nodes := [⟨"__entry__", "", .origin, .null⟩, ⟨"__exit__", "", .origin, .null⟩,
    ⟨"set", "utility/SetVariable", .origin,
      .object [("defaults", .object [("value", .ofInt 1)]),
        ("variable", .text "x")]⟩]
  connections := [⟨"__entry__.exec", "set.exec"⟩, ⟨"set.then", "__exit__.exec"⟩]

def blueprint : Blueprint where
  id := "assigned"
  name := "Assigned"
  nodes := [⟨"start", "event/OnStart", .origin, .null⟩,
    ⟨"call", "function/Call", .origin, .object [("function", .text "assign")]⟩,
    ⟨"show", "utility/Print", .origin, .null⟩,
    ⟨"get", "utility/GetVariable", .origin, .object [("variable", .text "x")]⟩]
  connections := [⟨"start.exec", "call.exec"⟩, ⟨"call.then", "show.exec"⟩,
    ⟨"get.value", "show.message"⟩]
  functions := .single "assign" assign

def setup : Setup :=
  setupOf Catalogue.standard {} blueprint ⟨"start", none, none⟩

def first : Config :=
  start Catalogue.standard blueprint ⟨"start", none, none⟩ {}

def reading : Config := runFor setup 12 first

theorem reading_snapshot :
    ∃ entry inv, reading.invocation? setup = some (entry, inv) ∧
      inv.nodeId = "get" ∧ inv.snapshot = .single "x" (.ofInt 1) ∧
      reading.state.services.store = inv.snapshot := by
  have current :=
    (snapshot_eq_store Catalogue.standard {} blueprint ⟨"start", none, none⟩ {}
    (Library.standard_reads.keep _)).2.2 reading (reaches_runFor setup 12 first)
  have shown : (reading.invocation? setup).map
      (fun found => (found.2.nodeId, found.2.snapshot)) =
        some ("get", .single "x" (.ofInt 1)) := by
    decide +kernel
  obtain ⟨⟨entry, inv⟩, invokes, hshown⟩ := Option.map_eq_some_iff.mp shown
  obtain ⟨hid, hsnapshot⟩ := Prod.mk.inj hshown
  exact ⟨entry, inv, invokes, hid, hsnapshot, (current entry inv invokes).symm⟩

end Assigned

end ScriptGraph.Engine.Machine
