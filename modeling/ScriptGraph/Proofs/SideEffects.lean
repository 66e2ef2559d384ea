import ScriptGraph.Proofs.Moves
import ScriptGraph.Proofs.PureKinds
import ScriptGraph.Proofs.Simulation

/-!
# Pulling data has no side effects

Pulling shares its code with walking: a pure function is called by the same
routine that walks the body of any other.  That reading a value nevertheless
changes nothing is shown in two ways.

`OnlyAdds` compares the states before and after: no visit has been counted,
the outputs that were there still are, and whatever part of the services pure
kinds leave alone is as before.

The machine, set to gather and to do nothing else, shows what happens in
between: no frame is ever on a stack, in this activation or in the bodies of
functions, and every executor that is run belongs to a pure kind.
-/

namespace ScriptGraph.Engine

open Json

/-! ## Before and after -/

/-- The activation has made no visits, and nothing is missing from it. -/
structure Retains (before after : RunState) : Prop where
  steps : after.activation.steps = before.activation.steps
  limitReported : after.activation.limitReported =
    before.activation.limitReported
  depth : after.activation.depth = before.activation.depth
  outputs : ∀ id values, before.outputs? id = some values →
    after.outputs? id = some values

structure OnlyAdds {α : Type} (part : Services → α) (before after : RunState) :
    Prop extends Retains before after where
  services : part after.services = part before.services

namespace OnlyAdds

variable {α : Type} {part : Services → α} {state middle after : RunState}

theorem refl (part : Services → α) (state : RunState) :
    OnlyAdds part state state :=
  ⟨⟨rfl, rfl, rfl, fun _ _ h => h⟩, rfl⟩

theorem trans (first : OnlyAdds part state middle)
    (second : OnlyAdds part middle after) :
    OnlyAdds part state after where
  steps := second.steps.trans first.steps
  limitReported := second.limitReported.trans first.limitReported
  depth := second.depth.trans first.depth
  outputs id values h := second.outputs id values (first.outputs id values h)
  services := second.services.trans first.services

theorem settlePull {id : String} (h : OnlyAdds part (state.beginPull id) after)
    (fresh : state.outputs? id = none) (outcome : Except String (Table Value)) :
    OnlyAdds part state (settlePull id outcome after).2 := by
  have kept : ∀ values other found, state.outputs? other = some found →
      (after.activation.outputs.insert id values).get? other = some found := by
    intro values other found hfound
    have hne : other ≠ id := by
      rintro rfl
      simp [fresh] at hfound
    rw [Table.get?_insert_of_ne _ _ hne]
    exact h.outputs other found hfound
  cases outcome with
  | ok values =>
      exact ⟨⟨h.steps, h.limitReported, h.depth, kept values⟩, h.services⟩
  | error message =>
      exact ⟨⟨h.steps, h.limitReported, h.depth, kept .empty⟩, h.services⟩

end OnlyAdds

section Pulls

variable {α : Type} {part : Services → α} {setup : Setup} {scope : Scope}
  {call : Caller} {pull : Endpoint → RunState → Option Value × RunState}

def PureCallsAdd (setup : Setup) (part : Services → α) (call : Caller) : Prop :=
  ∀ node arguments state, callsPureFunction setup node = true →
    OnlyAdds part state (call node arguments state).2

theorem bringAll_adds
    (h : ∀ source state, OnlyAdds part state (pull source state).2)
    (wires : List (Endpoint × String)) (inputs : Table Value)
    (state : RunState) :
    OnlyAdds part state (bringAll pull wires inputs state).2 := by
  induction wires generalizing inputs state with
  | nil => exact .refl part state
  | cons wire rest ih =>
      obtain ⟨source, pin⟩ := wire
      rw [bringAll_cons]
      exact (h source state).trans (ih _ _)

theorem gatherWith_adds
    (h : ∀ source state, OnlyAdds part state (pull source state).2)
    (id : String) (state : RunState) :
    OnlyAdds part state (gatherWith setup scope pull id state).2 := by
  rw [gatherWith_eq]
  exact bringAll_adds h _ _ _

theorem evaluate_adds (keep : PureKindsKeep setup.catalogue part)
    (calls : PureCallsAdd setup part call) {node : Node} {how : Evaluator}
    (hhow : evaluator? setup node = some how) (inputs : Table Value)
    (state : RunState) :
    OnlyAdds part state (evaluate call how node inputs state).2 := by
  cases how with
  | entry entry =>
      obtain ⟨hlookup, hpure⟩ := evaluator?_entry hhow
      have hkeep := keep node.kind entry hlookup hpure
        (pureInvocation node inputs state) state.services
      have invoked : OnlyAdds part state
          (state.invoke entry (pureInvocation node inputs state)).2 :=
        ⟨⟨rfl, rfl, rfl, fun _ _ h => h⟩, hkeep⟩
      simp only [evaluate]
      rcases hinvoke : state.invoke entry
        (pureInvocation node inputs state) with ⟨outcome, next⟩
      rw [hinvoke] at invoked
      cases outcome <;> exact invoked
  | call =>
      have called := calls node inputs state (evaluator?_call hhow)
      simp only [evaluate]
      rcases hcall : call node inputs state with ⟨outcome, next⟩
      rw [hcall] at called
      cases outcome <;> exact called

theorem pullWith_adds (keep : PureKindsKeep setup.catalogue part)
    (calls : PureCallsAdd setup part call)
    (h : ∀ source state, OnlyAdds part state (pull source state).2)
    (source : Endpoint) (state : RunState) :
    OnlyAdds part state (pullWith setup scope call pull source state).2 := by
  unfold pullWith
  cases hcached : state.outputs? source.node with
  | some values => exact .refl part state
  | none =>
      cases hpullable : pullable? setup scope source.node with
      | none => exact .refl part state
      | some found =>
          obtain ⟨node, how⟩ := found
          have hhow := ((pullable?_eq_some setup scope).mp hpullable).2
          dsimp only
          split
          · exact .refl part state
          · have gathered : OnlyAdds part (state.beginPull source.node)
                (gatherWith setup scope pull source.node
                  (state.beginPull source.node)).2 :=
              gatherWith_adds h _ _
            exact (gathered.trans
              (evaluate_adds keep calls hhow _ _)).settlePull hcached _

theorem pull_adds (keep : PureKindsKeep setup.catalogue part)
    (calls : PureCallsAdd setup part call) (source : Endpoint)
    (state : RunState) :
    OnlyAdds part state (Engine.pull setup scope call source state).2 := by
  unfold Engine.pull
  generalize pullDepth scope = levels
  induction levels generalizing source state with
  | zero => exact .refl part state
  | succ levels ih => exact pullWith_adds keep calls ih source state

theorem gather_adds (keep : PureKindsKeep setup.catalogue part)
    (calls : PureCallsAdd setup part call) (id : String) (state : RunState) :
    OnlyAdds part state (gather setup scope call id state).2 :=
  gatherWith_adds (pull_adds keep calls) id state

theorem callWith_adds (keep : PureKindsKeep setup.catalogue part)
    (calls : PureCallsAdd setup part call) :
    PureCallsAdd setup part (callWith setup call) := by
  intro node arguments state hpure
  unfold callWith
  cases hcallee : callee setup node state.activation.depth with
  | error cause => exact .refl part state
  | ok function =>
      have hwalk : walkBody setup ⟨function.graph, true⟩ call function
          (enterBody function arguments state) =
            enterBody function arguments state := by
        rw [walkBody, if_pos (callee_pure hpure hcallee)]
      have gathered : OnlyAdds part (enterBody function arguments state)
          (gather setup ⟨function.graph, true⟩ call exitMarker
            (enterBody function arguments state)).2 :=
              gather_adds keep calls _ _
      dsimp only
      rw [hwalk]
      exact ⟨⟨gathered.steps, gathered.limitReported, rfl, fun _ _ h => h⟩,
        gathered.services⟩

theorem call_adds (keep : PureKindsKeep setup.catalogue part) :
    PureCallsAdd setup part (Engine.call setup) := by
  unfold Engine.call
  generalize setup.limits.maxCallDepth.toNat + 1 = levels
  induction levels with
  | zero => exact fun _ _ state _ => .refl part state
  | succ levels ih => exact callWith_adds keep ih

end Pulls

namespace Machine

/-! ## In between -/

def pullingAlone (scope : Scope) (wires : List (Endpoint × String))
    (inputs : Table Value) (state : RunState) : Config :=
  ⟨scope, [], [⟨.results, wires, inputs⟩], state, [], []⟩

structure Config.Calm (config : Config) : Prop where
  pending : config.pending = []
  stack : config.stack = []
  jobs : ∀ job ∈ openJobs config.gatherings, job.demand = .pull
  callers : ∀ caller ∈ config.callers,
    caller.stack = [] ∧ ∀ job ∈ caller.job :: openJobs caller.gatherings,
      job.demand = .pull

section Calm

variable {setup : Setup} {root : Scope} {config next : Config}

theorem Config.Calm.conclude {job : Job} (calm : config.Calm)
    (hdemand : job.demand = .pull) (answer : Except Failure Output) :
    (conclude setup job answer config).Calm := by
  obtain ⟨pending, stack, jobs, callers⟩ := calm
  unfold Machine.conclude
  rw [hdemand]
  exact ⟨pending, stack, jobs, callers⟩

theorem Job.Fits.bodyStack_eq {scope : Scope} {job : Job} {depth : Nat}
    {function : Function} (fits : job.Fits setup scope)
    (hdemand : job.demand = .pull) (hhow : job.how = .call)
    (hcallee : callee setup job.node depth = .ok function) :
    bodyStack function = [] := by
  have hevaluator := fits.pulled hdemand
  rw [hhow] at hevaluator
  exact if_pos (callee_pure (evaluator?_call hevaluator) hcallee)

theorem Move.calm (h : Move setup config next)
    (placed : config.Placed setup root) (calm : config.Calm) : next.Calm := by
  obtain ⟨pending, stack, jobs, callers⟩ := calm
  have fits := placed.jobs
  cases h with
  | @bring purpose source pin wires inputs more hgatherings =>
      refine ⟨pending, stack, ?_, callers⟩
      rw [hgatherings] at jobs
      rw [openJobs_cons_congr purpose wires ((source, pin) :: wires) _ inputs]
      exact jobs
  | openPull hgatherings hsource huncached hnode hhow hfresh =>
      exact ⟨pending, stack, List.forall_mem_cons.mpr ⟨rfl, jobs⟩, callers⟩
  | invoke hgatherings hhow =>
      simp only [hgatherings, openJobs_job, List.forall_mem_cons] at jobs
      refine Config.Calm.conclude ?_ jobs.1 _
      exact ⟨pending, stack, jobs.2, callers⟩
  | refuseCall hgatherings hhow hcallee =>
      simp only [hgatherings, openJobs_job, List.forall_mem_cons] at jobs
      refine Config.Calm.conclude ?_ jobs.1 _
      exact ⟨pending, stack, jobs.2, callers⟩
  | enter hgatherings hhow hcallee =>
      simp only [hgatherings, openJobs_job, List.forall_mem_cons] at jobs fits
      -- Whoever is pulled calls a pure function, whose body has nothing to
      -- walk.
      have hbody := fits.1.bodyStack_eq jobs.1 hhow hcallee
      refine ⟨pending, hbody, List.forall_mem_nil _, ?_⟩
      exact List.forall_mem_cons.mpr
        ⟨⟨stack, List.forall_mem_cons.mpr jobs⟩, callers⟩
  | giveBack hgatherings hcallers =>
      rw [hcallers] at callers
      obtain ⟨⟨hstack, hjobs⟩, outer⟩ := List.forall_mem_cons.mp callers
      obtain ⟨hdemand, hopen⟩ := List.forall_mem_cons.mp hjobs
      refine Config.Calm.conclude ?_ hdemand _
      exact ⟨pending, hstack, hopen, outer⟩
  | refuse hgatherings hstack htaken => simp [stack] at hstack
  | pass hgatherings hstack htaken hframes => simp [stack] at hstack
  | unknown hgatherings hstack htaken hnode hexit hrunner =>
      simp [stack] at hstack
  | visit hgatherings hstack htaken hnode hexit hrunner =>
      simp [stack] at hstack
  | iterate hgatherings hstack => simp [stack] at hstack
  | collect hgatherings hstack hcallers =>
      exact ⟨pending, stack, by simpa [beginGathering] using jobs, callers⟩
  | nextEntry hgatherings hstack hcallers hpending => simp [pending] at hpending

theorem alone_placed (setup : Setup) (scope : Scope)
    (wires : List (Endpoint × String)) (inputs : Table Value)
    (state : RunState) :
    (pullingAlone scope wires inputs state).Placed setup scope :=
  ⟨List.forall_mem_nil _, rfl⟩

theorem Reaches.calm {scope : Scope} {wires : List (Endpoint × String)}
    {inputs : Table Value} {state : RunState}
    (reached : Reaches setup (pullingAlone scope wires inputs state) config) :
    config.Calm := by
  induction reached with
  | refl => exact ⟨rfl, rfl, List.forall_mem_nil _, List.forall_mem_nil _⟩
  | tail before stepped ih =>
      have placed :=
        Reaches.placed before (alone_placed setup scope wires inputs state)
      exact (step_moves stepped).calm placed ih

theorem Config.Calm.invokes_pure (calm : config.Calm)
    (placed : config.Placed setup root) {entry : Entry} {inv : Invocation}
    (invokes : config.invocation? setup = some (entry, inv)) :
    setup.catalogue.lookup inv.nodeKind = some entry ∧
      entry.kind.isPure = true := by
  obtain ⟨job, inputs, more, hgatherings, hhow, rfl⟩ :=
    invocation?_eq_some.mp invokes
  have opened : job ∈ openJobs config.gatherings := by simp [hgatherings]
  have hevaluator := (placed.jobs job opened).pulled (calm.jobs job opened)
  rw [hhow] at hevaluator
  rw [Job.invocation_nodeKind]
  exact evaluator?_entry hevaluator

end Calm

/-! ## Gathering and pulling -/

def effects (services : Services) :
    VariableStore × Option PointStore × Option EventBus × Array LogEntry :=
  (services.store, services.points, services.events, services.log)

/-- Bringing what wires carry leads from `before` to `after` without side
effects. -/
structure FreeOfEffects (setup : Setup) (scope : Scope)
    (wires : List (Endpoint × String)) (inputs : Table Value)
    (before : RunState) (result : Table Value × RunState) : Prop where
  ends : Reaches setup (pullingAlone scope wires inputs before)
    (pullingAlone scope [] result.1 result.2)
  halts : Halted setup (pullingAlone scope [] result.1 result.2)
  runsPure : ∀ config,
    Reaches setup (pullingAlone scope wires inputs before) config →
    ∀ entry inv, config.invocation? setup = some (entry, inv) →
      setup.catalogue.lookup inv.nodeKind = some entry ∧
      entry.kind.isPure = true
  walksNothing : ∀ config,
    Reaches setup (pullingAlone scope wires inputs before) config →
    config.stack = [] ∧ ∀ caller ∈ config.callers, caller.stack = []
  retains : Retains before result.2
  services : PureKindsKeep setup.catalogue effects →
    effects result.2.services = effects before.services

theorem bringAll_free (setup : Setup) (scope : Scope)
    (wires : List (Endpoint × String)) (inputs : Table Value)
    (state : RunState) :
    FreeOfEffects setup scope wires inputs state
      (bringAll (pull setup scope (call setup)) wires inputs state) where
  ends := wires_reach (calls_reach _) state rfl .results wires inputs []
    [] [] []
  halts := rfl
  runsPure config reached entry inv invokes :=
    (Reaches.calm reached).invokes_pure
      (Reaches.placed reached (alone_placed setup scope wires inputs state))
        invokes
  walksNothing config reached :=
    ⟨(Reaches.calm reached).stack,
      fun caller hcaller => ((Reaches.calm reached).callers caller hcaller).1⟩
  retains := by
    have keep : PureKindsKeep setup.catalogue fun _ => () :=
      fun _ _ _ _ _ _ => rfl
    exact (bringAll_adds (pull_adds keep (call_adds keep)) wires inputs
      state).toRetains
  services keep :=
    (bringAll_adds (pull_adds keep (call_adds keep)) wires inputs
      state).services

/-- Gathering the inputs of a node and pulling a pin are free of side effects
in any state of any graph: whatever calls of pure functions they make, they run
executors of pure kinds only and walk nothing, and they leave the counted
visits, the depth and all outputs as they were.  If the executors of pure kinds
leave variables, points, events and log alone, as those of the library do, then
so do they. -/
theorem pulling_free_of_effects (setup : Setup) (scope : Scope)
    (state : RunState) :
    (∀ id, FreeOfEffects setup scope (inputWires setup scope id)
      (inputDefaults setup scope id)
      state (gather setup scope (call setup) id state)) ∧
    (∀ source, FreeOfEffects setup scope [(source, source.pin)] .empty state
      (overlay .empty source.pin (pull setup scope (call setup) source state).1,
        (pull setup scope (call setup) source state).2)) ∧
    Naive.PureKindsRead Catalogue.standard := by
  refine ⟨fun id => ?_, fun source => ?_, Library.standard_reads⟩
  · rw [gather, gatherWith_eq]
    exact bringAll_free setup scope _ _ state
  · have free := bringAll_free setup scope [(source, source.pin)] .empty state
    rw [bringAll_cons] at free
    exact free

end Machine

end ScriptGraph.Engine
