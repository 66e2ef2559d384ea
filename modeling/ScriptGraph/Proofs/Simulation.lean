import ScriptGraph.Proofs.Machine
import ScriptGraph.Proofs.Saturation

/-!
# The machine does what the engine does

Every function of the engine is matched by a run of the machine, whatever
lies below in the configuration: gathering inputs, a job, a walk, a call and
at last a whole run.  The lemmas follow the nesting of the functions.  Pulls
go by the ids for which no pull is under way, walks by the pops that are
left, and calls by the depth that is left below the limit.
-/

namespace ScriptGraph.Engine.Machine

open Json

variable {setup : Setup} {scope : Scope} {stack : List Frame}
  {more : List Gathering} {callers : List Suspended} {pending : List String}

def CallsReachAt (setup : Setup) (depth : Nat) : Prop :=
  ∀ (job : Job) inputs scope stack more state callers pending, job.how = .call →
    state.activation.depth = depth →
    Reaches setup
      ⟨scope, stack, ⟨.job job, [], inputs⟩ :: more, state, callers, pending⟩
      (conclude setup job
        ((call setup job.node inputs state).1.map (Output.proceed "then"))
        ⟨scope, stack, more, (call setup job.node inputs state).2, callers,
          pending⟩)

/-! ## Pulls -/

theorem pulled_reaches {depth : Nat} (calls : CallsReachAt setup depth)
    (node : Node) (how : Evaluator) (inputs : Table Value) (state : RunState)
    (hdepth : state.activation.depth = depth) :
    Reaches setup
      ⟨scope, stack, ⟨.job ⟨.pull, node, how⟩, [], inputs⟩ :: more, state,
        callers, pending⟩
      ⟨scope, stack, more,
        (settlePull node.id (evaluate (call setup) how node inputs state).1
          (evaluate (call setup) how node inputs state).2).2, callers,
          pending⟩ := by
  cases how with
  | entry entry =>
      refine .single ?_
      simp only [StepsTo, step, perform, conclude, Job.invocation, evaluate,
        RunState.invoke]
      cases Reply.outcome _ <;> rfl
  | call =>
      have returned := calls ⟨.pull, node, .call⟩ inputs scope stack more state
        callers pending
        rfl hdepth
      simp only [conclude] at returned
      simp only [evaluate]
      rcases hcall : call setup node inputs state with ⟨outcome, after⟩
      rw [hcall] at returned
      cases outcome <;> exact returned

def WiresReach (setup : Setup) (scope : Scope) (state : RunState) : Prop :=
  ∀ purpose wires inputs stack more callers pending,
    Reaches setup
      ⟨scope, stack, ⟨purpose, wires, inputs⟩ :: more, state, callers, pending⟩
      ⟨scope, stack,
        ⟨purpose, [],
          (bringAll (pull setup scope (call setup)) wires inputs state).1⟩ ::
            more,
        (bringAll (pull setup scope (call setup)) wires inputs state).2,
        callers, pending⟩

theorem outputs?_settlePull (id : String)
    (outcome : Except String (Table Value)) (state : RunState) :
    (settlePull id outcome state).2.outputs? id =
      some (settlePull id outcome state).1 := by
  cases outcome with
  | ok values => exact Table.get?_insert_self ..
  | error message => exact Table.get?_insert_self ..

theorem opened_reaches {depth : Nat} (calls : CallsReachAt setup depth)
    {purpose : Purpose} {source : Endpoint} {pin : String}
    {wires : List (Endpoint × String)} {inputs : Table Value} {state : RunState}
    {node : Node} {how : Evaluator} (hdepth : state.activation.depth = depth)
    (uncached : state.outputs? source.node = none)
    (hpullable : pullable? setup scope source.node = some (node, how))
    (fresh : state.activation.pulling.contains source.node = false)
    (deeper : WiresReach setup scope (state.beginPull source.node)) :
    Reaches setup
      ⟨scope, stack, ⟨purpose, (source, pin) :: wires, inputs⟩ :: more, state,
        callers, pending⟩
      ⟨scope, stack,
        ⟨purpose, wires,
          overlay inputs pin (pull setup scope (call setup) source state).1⟩ ::
          more,
        (pull setup scope (call setup) source state).2, callers, pending⟩ := by
  have hid := node?_id ((pullable?_eq_some setup scope).mp hpullable).1
  have hpull := pull_eq setup scope (call_steady setup) source state
  simp only [pullWith, uncached, hpullable, fresh, Bool.false_eq_true, if_false,
    gatherWith_eq] at hpull
  have brought := bringAll_advances
    (pull_advances setup scope (call_steady setup))
    (inputWires setup scope source.node) (inputDefaults setup scope source.node)
    (state.beginPull source.node)
  have gathered := deeper (.job ⟨.pull, node, how⟩)
    (inputWires setup scope source.node)
    (inputDefaults setup scope source.node) stack
    (⟨purpose, (source, pin) :: wires, inputs⟩ :: more) callers pending
  rw [hpull]
  refine .head ?_ (gathered.trans
    (.trans (pulled_reaches calls node how _ _ (brought.depth.trans hdepth))
      (.single ?_)))
  · simp only [StepsTo, step, bringNext, uncached, hpullable, fresh,
      Bool.false_eq_true, if_false, beginGathering]
  · simp only [StepsTo, step, bringNext, hid, outputs?_settlePull]

theorem wire_reaches {depth : Nat} (calls : CallsReachAt setup depth)
    {purpose : Purpose} {source : Endpoint} {pin : String}
    {wires : List (Endpoint × String)} {inputs : Table Value} {state : RunState}
    (hdepth : state.activation.depth = depth)
    (deeper : ∀ node, scope.graph.node? source.node = some node →
      source.node ∉ state.activation.pulling →
      WiresReach setup scope (state.beginPull source.node)) :
    Reaches setup
      ⟨scope, stack, ⟨purpose, (source, pin) :: wires, inputs⟩ :: more, state,
        callers, pending⟩
      ⟨scope, stack,
        ⟨purpose, wires,
          overlay inputs pin (pull setup scope (call setup) source state).1⟩ ::
          more,
        (pull setup scope (call setup) source state).2, callers, pending⟩ := by
  -- Unless a pull is opened, the machine drops the wire in a single step.
  cases hcached : state.outputs? source.node with
  | some values =>
      rw [pull_eq setup scope (call_steady setup), pullWith]
      refine .single ?_
      simp only [StepsTo, step, bringNext, hcached]
  | none =>
      cases hpullable : pullable? setup scope source.node with
      | none =>
          rw [pull_eq setup scope (call_steady setup), pullWith]
          refine .single ?_
          simp only [StepsTo, step, bringNext, hcached, hpullable, overlay]
      | some found =>
          obtain ⟨node, how⟩ := found
          cases hopen : state.activation.pulling.contains source.node with
          | true =>
              rw [pull_eq setup scope (call_steady setup), pullWith]
              refine .single ?_
              simp only [StepsTo, step, bringNext, hcached, hpullable, hopen,
                if_true, overlay]
          | false =>
              have fresh : source.node ∉ state.activation.pulling := by
                simpa using hopen
              have hnode := ((pullable?_eq_some setup scope).mp hpullable).1
              exact opened_reaches calls hdepth hcached hpullable hopen
                (deeper node hnode fresh)

theorem wires_reach {depth : Nat} (calls : CallsReachAt setup depth)
    (state : RunState) (hdepth : state.activation.depth = depth) :
    WiresReach setup scope state := by
  -- On the ids that may still be opened, and for each state on the wires.
  induction hleft : (idsLeft scope state).card using Nat.strongRecOn
    generalizing state with
  | _ left ih =>
      subst hleft
      intro purpose wires inputs stack more callers pending
      induction wires generalizing inputs state with
      | nil => exact .refl
      | cons wire rest inner =>
          obtain ⟨source, pin⟩ := wire
          have pulled :=
            pull_advances setup scope (call_steady setup) source state
          have deeper : ∀ node, scope.graph.node? source.node = some node →
              source.node ∉ state.activation.pulling →
              WiresReach setup scope (state.beginPull source.node) := by
            intro node hnode fresh
            exact ih _ (card_idsLeft_beginPull_lt scope hnode fresh) _
              hdepth rfl
          rw [bringAll_cons]
          refine .trans (wire_reaches calls hdepth deeper)
            (inner _ (pulled.depth.trans hdepth) ?_ _)
          rw [idsLeft_congr scope state _ pulled.pulling]
          exact ih

theorem gather_reaches {depth : Nat} (calls : CallsReachAt setup depth)
    (purpose : Purpose) (id : String) (state : RunState)
    (hdepth : state.activation.depth = depth) :
    Reaches setup
      (beginGathering setup purpose id
        ⟨scope, stack, more, state, callers, pending⟩)
      ⟨scope, stack,
        ⟨purpose, [], (gather setup scope (call setup) id state).1⟩ :: more,
        (gather setup scope (call setup) id state).2, callers, pending⟩ := by
  rw [gather, gatherWith_eq]
  exact wires_reach calls state hdepth _ _ _ _ _ _ _

/-! ## Walks -/

theorem visitCall_reaches {depth : Nat} (calls : CallsReachAt setup depth)
    (node : Node) (state : RunState) (hdepth : state.activation.depth = depth) :
    Reaches setup
      (beginGathering setup (.job ⟨.visit, node, .call⟩) node.id
        ⟨scope, stack, [], state, callers, pending⟩)
      ⟨scope,
        (follow setup scope node.id
          (visitCall setup scope (call setup) node state).1 stack
          (visitCall setup scope (call setup) node state).2).1, [],
        (follow setup scope node.id
          (visitCall setup scope (call setup) node state).1 stack
          (visitCall setup scope (call setup) node state).2).2, callers,
          pending⟩ := by
  have gathered := gather_advances setup scope (call_steady setup) node.id state
  refine (gather_reaches calls _ node.id state hdepth).trans ?_
  exact calls ⟨.visit, node, .call⟩ _ scope stack [] _ callers pending rfl
    (gathered.depth.trans hdepth)

theorem visitEntry_reaches {depth : Nat} (calls : CallsReachAt setup depth)
    (entry : Entry) (node : Node) (state : RunState)
    (hdepth : state.activation.depth = depth) :
    Reaches setup
      (beginGathering setup (.job ⟨.visit, node, .entry entry⟩) node.id
        ⟨scope, stack, [], state, callers, pending⟩)
      ⟨scope,
        (follow setup scope node.id
          (visitEntry setup scope (call setup) entry node state).1 stack
          (visitEntry setup scope (call setup) entry node state).2).1, [],
        (follow setup scope node.id
          (visitEntry setup scope (call setup) entry node state).1 stack
          (visitEntry setup scope (call setup) entry node state).2).2, callers,
          pending⟩ := by
  refine (gather_reaches calls _ node.id state hdepth).trans (.single ?_)
  rfl

theorem visit_reaches {depth : Nat} (calls : CallsReachAt setup depth)
    (id : String) (state : RunState) (hdepth : state.activation.depth = depth) :
    Reaches setup
      (visitNode setup id ⟨scope, stack, [], state, callers, pending⟩)
      ⟨scope, (visit setup scope (call setup) id stack state).1, [],
        (visit setup scope (call setup) id stack state).2, callers,
        pending⟩ := by
  unfold visitNode visit
  cases hnode : scope.graph.node? id with
  | none => exact .refl
  | some node =>
      have hid := node?_id hnode
      subst hid
      dsimp only
      split
      · exact .refl
      · split
        · exact visitCall_reaches calls node state hdepth
        · cases setup.catalogue.lookup node.kind with
          | none => exact .refl
          | some entry => exact visitEntry_reaches calls entry node state hdepth

theorem pop_reaches {depth : Nat} (calls : CallsReachAt setup depth)
    (frame : Frame) (rest : List Frame) (state : RunState)
    (hdepth : state.activation.depth = depth) :
    Reaches setup ⟨scope, frame :: rest, [], state, callers, pending⟩
      ⟨scope, (pop setup scope (call setup) frame rest state).1.getD [], [],
        (pop setup scope (call setup) frame rest state).2, callers,
        pending⟩ := by
  cases frame with
  | loop node pin index stop => exact .single rfl
  | visit id =>
      have taken := (Advances.refl state).takeStep setup.limits id
      rcases hstep : state.takeStep setup.limits id with ⟨allowed, next⟩
      rw [hstep] at taken
      cases allowed with
      | false =>
          refine .single ?_
          simp only [StepsTo, step, walkOn, pop, hstep, Option.getD_none]
      | true =>
          simp only [pop, hstep, Option.getD_some]
          refine .head ?_
            (visit_reaches calls id next (taken.depth.trans hdepth))
          simp only [StepsTo, step, walkOn, hstep]

theorem walk_reaches {depth : Nat} (calls : CallsReachAt setup depth)
    (stack : List Frame) (state : RunState)
    (hdepth : state.activation.depth = depth) :
    Reaches setup ⟨scope, stack, [], state, callers, pending⟩
      ⟨scope, [], [], walkFrom setup scope (call setup) stack state, callers,
        pending⟩ := by
  induction hleft : popsLeft setup.limits stack state using Nat.strongRecOn
    generalizing stack state with
  | _ left ih =>
      cases stack with
      | nil =>
          rw [walkFrom_nil]
      | cons frame rest =>
          have popped :=
            pop_advances setup scope (call_steady setup) frame rest state
          refine (pop_reaches calls frame rest state hdepth).trans ?_
          rw [walkFrom_cons setup scope (call_steady setup)]
          rcases hpop : pop setup scope (call setup) frame rest state with
            ⟨_ | after, next⟩
          · exact .refl
          · have hless := popsLeft_pop_lt setup scope (call_steady setup) hpop
            rw [hpop] at popped
            exact ih _ (hleft ▸ hless) after next
              (popped.depth.trans hdepth) rfl

/-! ## Calls -/

theorem walkBody_eq_walkFrom (function : Function) (state : RunState) :
    walkBody setup ⟨function.graph, true⟩ (call setup) function state =
      walkFrom setup ⟨function.graph, true⟩ (call setup)
        (bodyStack function) state := by
  unfold walkBody bodyStack visitTarget
  split
  · rw [walkFrom_nil]
  · cases Graph.target? function.graph entryMarker "exec" with
    | none => exact (walkFrom_nil ..).symm
    | some first => exact walk_eq_walkFrom ..

def returned (setup : Setup) (function : Function) (inputs : Table Value)
    (state : RunState) : Table Value × RunState :=
  gather setup ⟨function.graph, true⟩ (call setup) exitMarker
    (walkFrom setup ⟨function.graph, true⟩ (call setup) (bodyStack function)
      (enterBody function inputs state))

theorem call_of_callee_ok {node : Node} {inputs : Table Value}
    {state : RunState} {function : Function}
    (h : callee setup node state.activation.depth = .ok function) :
    call setup node inputs state =
      (.ok (Parameter.values function.outputs
        (returned setup function inputs state).1), leaveBody node.id
          (returned setup function inputs state).2 state) := by
  rw [call_eq, callWith, h]
  simp only [walkBody_eq_walkFrom, returned]

theorem body_reaches {function : Function} {job : Job} {inputs : Table Value}
    {state : RunState}
    (calls : CallsReachAt setup (state.activation.depth + 1)) :
    Reaches setup
      (enter function job inputs ⟨scope, stack, more, state, callers, pending⟩)
      (giveBack setup (returned setup function inputs state).1
        (returned setup function inputs state).2
        ⟨scope, stack, job, more, state.activation, function⟩ callers
          pending) := by
  have walked := walkBody_advances setup ⟨function.graph, true⟩
    (call_steady setup) function (enterBody function inputs state)
  rw [walkBody_eq_walkFrom] at walked
  refine .trans (walk_reaches calls (bodyStack function) _ rfl) (.head rfl ?_)
  exact (gather_reaches calls .results exitMarker _ walked.depth).tail rfl

theorem calls_reach (depth : Nat) : CallsReachAt setup depth := by
  induction hleft : setup.limits.maxCallDepth.toNat - depth
    using Nat.strongRecOn generalizing depth with
  | _ left ih =>
      intro job inputs scope stack more state callers pending hhow hdepth
      cases hcallee : callee setup job.node state.activation.depth with
      | error cause =>
          rw [call_eq, callWith, hcallee]
          refine .single ?_
          simp only [StepsTo, step, perform, hhow, hcallee]
          rfl
      | ok function =>
          have hlt := (callee_ok hcallee).2.2
          have deeper : CallsReachAt setup (state.activation.depth + 1) :=
            ih _ (by omega) _ rfl
          rw [call_of_callee_ok hcallee]
          refine .head ?_ (body_reaches deeper)
          simp only [StepsTo, step, perform, hhow, hcallee]

/-! ## Runs -/

def setupOf (catalogue : Catalogue) (limits : Limits) (blueprint : Blueprint)
    (trigger : Trigger) : Setup :=
  { catalogue, limits, functions := blueprint.functions, trigger }

theorem walkEntries_cons (entry : Node) (rest : List Node) (state : RunState) :
    walkEntries setup scope (entry :: rest) state =
      walkEntries setup scope rest
        (walkFrom setup scope (call setup) [.visit entry.id] state) := by
  rw [walkEntries, List.foldl_cons, walk_eq_walkFrom, walkEntries]

theorem entries_reach (entries : List Node) (state : RunState) :
    Reaches setup ⟨scope, [], [], state, [], entries.map Node.id⟩
      ⟨scope, [], [], walkEntries setup scope entries state, [], []⟩ := by
  induction entries generalizing state with
  | nil => exact .refl
  | cons entry rest ih =>
      rw [walkEntries_cons, List.map_cons]
      refine .head ?_
        (.trans (walk_reaches (calls_reach _) [.visit entry.id] state rfl)
          (ih _))
      simp only [StepsTo, step, walkOn]

/-- The machine takes a run to its end, and there has what the run reports. -/
theorem run_reaches (catalogue : Catalogue) (limits : Limits)
    (blueprint : Blueprint) (trigger : Trigger) (services : Services) :
    ∃ final, Reaches (setupOf catalogue limits blueprint trigger)
        (start catalogue blueprint trigger services) final ∧
      Halted (setupOf catalogue limits blueprint trigger) final ∧
      runBlueprint catalogue limits blueprint trigger services =
        (finalReport final.state, final.state.services) := by
  refine ⟨_, entries_reach (selectEntries catalogue blueprint trigger) _, ?_,
    ?_⟩
  · simp only [Halted, step, walkOn]
  · simp only [runBlueprint, setupOf]

end ScriptGraph.Engine.Machine
