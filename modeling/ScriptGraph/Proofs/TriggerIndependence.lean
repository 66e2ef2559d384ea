import ScriptGraph.Proofs.SideEffects

/-!
# What is pulled does not depend on the trigger

A run hands its trigger on into the bodies of the functions that it calls, and
there it is shown to the nodes that are visited.  Nodes that are evaluated on
demand are told nothing of it, and evaluating them visits nothing.  So two runs
with different triggers that are in the same state pull the same values and are
in the same state afterwards.

Both ways to say this are proved.  The functions that pull, given two callers
that agree on pure functions, are the same function.  And the machine that only
gathers takes the same steps under both triggers, so every executor that it
runs on the way is told the same, and that is nothing about a trigger.
-/

namespace ScriptGraph.Engine

open Json

def Setup.withTrigger (setup : Setup) (trigger : Trigger) : Setup :=
  { setup with trigger }

/-! ## Callers that agree on pure functions -/

section Pulls

variable {setup : Setup} {scope : Scope} {call other : Caller}

def AgreeOnPure (setup : Setup) (call other : Caller) : Prop :=
  ∀ node arguments state, callsPureFunction setup node = true →
    call node arguments state = other node arguments state

theorem AgreeOnPure.evaluate (agree : AgreeOnPure setup call other)
    {node : Node} {how : Evaluator} (hhow : evaluator? setup node = some how)
    (inputs : Table Value) (state : RunState) :
    evaluate call how node inputs state =
      evaluate other how node inputs state := by
  cases how with
  | entry entry => rfl
  | call =>
      simp only [Engine.evaluate]
      rw [agree node inputs state (evaluator?_call hhow)]

theorem AgreeOnPure.pullWith (agree : AgreeOnPure setup call other)
    (pull : Endpoint → RunState → Option Value × RunState) :
    pullWith setup scope call pull = pullWith setup scope other pull := by
  funext source state
  unfold Engine.pullWith
  cases state.outputs? source.node with
  | some values => rfl
  | none =>
      cases hfound : pullable? setup scope source.node with
      | none => rfl
      | some found =>
          obtain ⟨node, how⟩ := found
          have hhow := ((pullable?_eq_some setup scope).mp hfound).2
          simp only [agree.evaluate hhow]

theorem AgreeOnPure.pull (agree : AgreeOnPure setup call other) :
    pull setup scope call = pull setup scope other := by
  have within : ∀ levels,
      pullWithin setup scope call levels =
        pullWithin setup scope other levels := by
    intro levels
    induction levels with
    | zero => rfl
    | succ levels ih =>
        funext source state
        rw [pullWithin, pullWithin, ih, agree.pullWith]
  funext source state
  rw [Engine.pull, Engine.pull, within]

theorem AgreeOnPure.gather (agree : AgreeOnPure setup call other) :
    gather setup scope call = gather setup scope other := by
  funext id state
  rw [Engine.gather, Engine.gather, agree.pull]

end Pulls

section Triggers

variable (setup : Setup) (scope : Scope) (trigger : Trigger)

theorem pull_withTrigger (call : Caller) :
    pull (setup.withTrigger trigger) scope call = pull setup scope call := by
  have within : ∀ levels,
      pullWithin (setup.withTrigger trigger) scope call levels =
      pullWithin setup scope call levels := by
    intro levels
    induction levels with
    | zero => rfl
    | succ levels ih =>
        funext source state
        rw [pullWithin, pullWithin, ih]
        rfl
  funext source state
  rw [pull, pull, within]

theorem gather_withTrigger (call : Caller) :
    gather (setup.withTrigger trigger) scope call =
      gather setup scope call := by
  funext id state
  rw [gather, gather, pull_withTrigger]
  rfl

theorem callWith_withTrigger {call other : Caller}
    (agree : AgreeOnPure setup call other) :
    AgreeOnPure setup (callWith (setup.withTrigger trigger) call)
      (callWith setup other) := by
  intro node arguments state hpure
  unfold callWith
  have same : callee (setup.withTrigger trigger) node state.activation.depth =
      callee setup node state.activation.depth := rfl
  rw [same]
  cases hcallee : callee setup node state.activation.depth with
  | error cause => rfl
  | ok function =>
      have body : ∀ setup caller entered,
          walkBody setup ⟨function.graph, true⟩ caller function entered =
            entered := by
        intro setup caller entered
        rw [walkBody, if_pos (callee_pure hpure hcallee)]
      dsimp only
      rw [body, body, gather_withTrigger, agree.gather]

theorem call_withTrigger :
    AgreeOnPure setup (Engine.call (setup.withTrigger trigger))
      (Engine.call setup) := by
  have within : ∀ levels,
      AgreeOnPure setup (callWithin (setup.withTrigger trigger) levels)
      (callWithin setup levels) := by
    intro levels
    induction levels with
    | zero => exact fun _ _ _ _ => rfl
    | succ levels ih => exact callWith_withTrigger setup trigger ih
  exact within _

theorem pull_call_withTrigger :
    pull (setup.withTrigger trigger) scope
      (Engine.call (setup.withTrigger trigger)) =
      pull setup scope (Engine.call setup) := by
  rw [pull_withTrigger, (call_withTrigger setup trigger).pull]

theorem gather_call_withTrigger :
    gather (setup.withTrigger trigger) scope
      (Engine.call (setup.withTrigger trigger)) =
      gather setup scope (Engine.call setup) := by
  rw [gather_withTrigger, (call_withTrigger setup trigger).gather]

end Triggers

namespace Machine

/-! ## The machine that only gathers -/

section Calm

variable {setup : Setup} {config : Config} (trigger : Trigger)

theorem invocation_withTrigger {job : Job} (hdemand : job.demand = .pull)
    (inputs : Table Value) (state : RunState) :
    job.invocation (setup.withTrigger trigger) inputs state =
      job.invocation setup inputs state := by
  simp only [Job.invocation, hdemand]

theorem conclude_withTrigger {job : Job} (hdemand : job.demand = .pull)
    (answer : Except Failure Output) (config : Config) :
    conclude (setup.withTrigger trigger) job answer config =
      conclude setup job answer config := by
  simp only [conclude, hdemand]

theorem perform_withTrigger {job : Job} (hdemand : job.demand = .pull)
    (inputs : Table Value) (config : Config) :
    perform (setup.withTrigger trigger) job inputs config =
      perform setup job inputs config := by
  unfold perform
  rw [invocation_withTrigger trigger hdemand]
  cases job.how with
  | entry entry => exact conclude_withTrigger trigger hdemand _ _
  | call =>
      have same : callee
          (setup.withTrigger trigger) job.node config.state.activation.depth =
          callee setup job.node config.state.activation.depth := rfl
      rw [same]
      cases callee setup job.node config.state.activation.depth with
      | error cause => exact conclude_withTrigger trigger hdemand _ _
      | ok function => rfl

theorem Config.Calm.step_withTrigger (calm : config.Calm) :
    step (setup.withTrigger trigger) config = step setup config := by
  obtain ⟨scope, stack, gatherings, state, callers, pending⟩ := config
  obtain ⟨rfl, rfl, jobs, callersCalm⟩ := calm
  cases gatherings with
  | nil => rfl
  | cons gathering more =>
      obtain ⟨purpose, wires, inputs⟩ := gathering
      cases wires with
      | cons wire wires => rfl
      | nil =>
          cases purpose with
          | job job =>
              have hdemand := (List.forall_mem_cons.mp jobs).1
              simp only [step, perform_withTrigger trigger hdemand]
          | results =>
              cases callers with
              | nil => rfl
              | cons caller callers =>
                  have hdemand := (List.forall_mem_cons.mp
                    (List.forall_mem_cons.mp callersCalm).1.2).1
                  simp only [step, giveBack,
                    conclude_withTrigger trigger hdemand]

theorem Reaches.withTrigger {scope : Scope} {wires : List (Endpoint × String)}
    {inputs : Table Value} {state : RunState}
    (reached : Reaches setup (pullingAlone scope wires inputs state) config) :
    Reaches (setup.withTrigger trigger) (pullingAlone scope wires inputs state)
      config := by
  induction reached with
  | refl => exact .refl
  | tail before stepped ih =>
      have calm := Reaches.calm before
      refine ih.tail ?_
      rw [StepsTo, calm.step_withTrigger]
      exact stepped

theorem Config.Calm.untold (calm : config.Calm) {entry : Entry}
    {inv : Invocation}
    (invokes : config.invocation? setup = some (entry, inv)) :
    config.invocation? (setup.withTrigger trigger) = some (entry, inv) ∧
      inv.triggerData = none ∧ inv.event = none := by
  obtain ⟨job, inputs, more, hgatherings, hhow, rfl⟩ :=
    invocation?_eq_some.mp invokes
  have hdemand := calm.jobs job (by simp [hgatherings])
  refine ⟨?_, ?_⟩
  · refine invocation?_eq_some.mpr ⟨job, inputs, more, hgatherings, hhow, ?_⟩
    exact invocation_withTrigger trigger hdemand inputs config.state
  · simp [Job.invocation, hdemand, pureInvocation]

end Calm

/-- What is pulled does not depend on the trigger.  From the same state of the
same graph, gathering the inputs of a node and pulling a pin bring the same
values under another trigger and leave the same state, services included.  In
between, the machine passes the same configurations, in the bodies of pure
functions too, and runs the same executors, which are told the same: nothing
about the data of a trigger or its event. -/
theorem pulls_independent_of_trigger (setup : Setup) (other : Trigger)
    (scope : Scope) (state : RunState) :
    let retold := setup.withTrigger other
    (∀ id, gather retold scope (call retold) id state =
      gather setup scope (call setup) id state) ∧
    (∀ source, pull retold scope (call retold) source state =
      pull setup scope (call setup) source state) ∧
    ∀ wires inputs,
      let first := pullingAlone scope wires inputs state
      let brought := bringAll (pull setup scope (call setup)) wires inputs state
      Reaches setup first (pullingAlone scope [] brought.1 brought.2) ∧
      ∀ config, Reaches setup first config →
        Reaches retold first config ∧
        ∀ entry inv, config.invocation? setup = some (entry, inv) →
          config.invocation? retold = some (entry, inv) ∧
            inv.triggerData = none ∧ inv.event = none := by
  intro retold
  refine ⟨fun id => ?_, fun source => ?_,
    fun wires inputs => ⟨?_, fun config reached => ?_⟩⟩
  · exact congrFun
      (congrFun (gather_call_withTrigger setup scope other) id) state
  · exact congrFun
      (congrFun (pull_call_withTrigger setup scope other) source) state
  · exact wires_reach (calls_reach _) state rfl .results wires inputs []
      [] [] []
  · refine ⟨Reaches.withTrigger other reached, fun entry inv invokes => ?_⟩
    exact (Reaches.calm reached).untold other invokes

end Machine

end ScriptGraph.Engine
