import Mathlib.Algebra.GroupWithZero.Nat
import Mathlib.Data.Finset.Card
import ScriptGraph.Proofs.Advance

/-!
# Bounds that are never reached

Pulls, walks and calls are written with bounds on how far they go.  None of
the bounds cuts anything short: a pull under way is for a node of the graph
that no enclosing pull is for, a walk pays for every pop with its steps or
with an iteration of a loop, and a call beyond the limit is refused before
its body starts.  So the three satisfy the recursive equations `pull_eq`,
`walkFrom_cons` and `call_eq`, in which no bound occurs.
-/

namespace ScriptGraph.Engine

open Json

/-! ## Pulls -/

section Pulls

variable (setup : Setup) (scope : Scope)

theorem node?_mem {graph : Graph} {id : String} {node : Node}
    (h : graph.node? id = some node) : node ∈ graph.nodes :=
  List.mem_of_find?_eq_some h

theorem node?_id {graph : Graph} {id : String} {node : Node}
    (h : graph.node? id = some node) : node.id = id := by
  simpa using List.find?_some h

theorem pullable?_eq_some {id : String} {node : Node} {how : Evaluator} :
    pullable? setup scope id = some (node, how) ↔
      scope.graph.node? id = some node ∧ evaluator? setup node = some how := by
  unfold pullable?
  constructor
  · intro h
    obtain ⟨found, hnode, hmap⟩ := Option.bind_eq_some_iff.mp h
    obtain ⟨used, hhow, hpair⟩ := Option.map_eq_some_iff.mp hmap
    cases hpair
    exact ⟨hnode, hhow⟩
  · rintro ⟨hnode, hhow⟩
    simp [hnode, hhow]

theorem evaluator?_entry {setup : Setup} {node : Node} {entry : Entry}
    (h : evaluator? setup node = some (.entry entry)) :
    setup.catalogue.lookup node.kind = some entry ∧
      entry.kind.isPure = true := by
  unfold evaluator? at h
  split at h
  · split at h <;> cases h
  · split at h
    · next found hfound =>
        split at h
        · next hpure =>
            cases h
            exact ⟨hfound, hpure⟩
        · cases h
    · cases h

theorem evaluator?_call {setup : Setup} {node : Node}
    (h : evaluator? setup node = some .call) :
    callsPureFunction setup node = true := by
  unfold evaluator? at h
  split at h
  · split at h
    · next hpure => exact hpure
    · cases h
  · split at h
    · split at h <;> cases h
    · cases h

def Graph.ids (graph : Graph) : Finset String :=
  (graph.nodes.map Node.id).toFinset

def idsLeft (state : RunState) : Finset String :=
  (Graph.ids scope.graph).filter (· ∉ state.activation.pulling)

theorem mem_ids {graph : Graph} {id : String} {node : Node}
    (h : graph.node? id = some node) : id ∈ Graph.ids graph := by
  simp only [Graph.ids, List.mem_toFinset, List.mem_map]
  exact ⟨node, node?_mem h, node?_id h⟩

theorem card_idsLeft_le (state : RunState) :
    (idsLeft scope state).card ≤ scope.graph.nodes.length := by
  calc (idsLeft scope state).card
      ≤ (Graph.ids scope.graph).card := Finset.card_filter_le _ _
    _ ≤ (scope.graph.nodes.map Node.id).length := List.toFinset_card_le _
    _ = scope.graph.nodes.length := List.length_map _

theorem idsLeft_congr (state after : RunState)
    (h : after.activation.pulling = state.activation.pulling) :
    idsLeft scope after = idsLeft scope state := by
  unfold idsLeft
  rw [h]

theorem card_idsLeft_beginPull_lt {state : RunState} {id : String} {node : Node}
    (hnode : scope.graph.node? id = some node)
    (fresh : id ∉ state.activation.pulling) :
    (idsLeft scope (state.beginPull id)).card < (idsLeft scope state).card := by
  apply Finset.card_lt_card
  rw [Finset.ssubset_iff_of_subset]
  · refine ⟨id, ?_, ?_⟩
    · simp [idsLeft, mem_ids hnode, fresh]
    · simp [idsLeft, RunState.beginPull]
  · intro other hother
    simp only [idsLeft, RunState.beginPull, Finset.mem_filter, List.mem_cons,
      not_or] at hother ⊢
    exact ⟨hother.1, hother.2.2⟩

variable {pull deeper : Endpoint → RunState → Option Value × RunState}

theorem bringAll_congr {state : RunState}
    (advances : ∀ source state, Advances state (pull source state).2)
    (same : ∀ source after, after.activation.depth = state.activation.depth →
      after.activation.pulling = state.activation.pulling →
      pull source after = deeper source after)
    (wires : List (Endpoint × String)) (inputs : Table Value) :
    bringAll pull wires inputs state = bringAll deeper wires inputs state := by
  induction wires generalizing inputs state with
  | nil => rfl
  | cons wire rest ih =>
      obtain ⟨source, pin⟩ := wire
      rw [bringAll_cons, bringAll_cons, ← same source state rfl rfl]
      have first := advances source state
      refine ih (fun source after hdepth hpulling => ?_) _
      exact same source after (hdepth.trans first.depth)
        (hpulling.trans first.pulling)

theorem gatherWith_congr {state : RunState}
    (advances : ∀ source state, Advances state (pull source state).2)
    (same : ∀ source after, after.activation.depth = state.activation.depth →
      after.activation.pulling = state.activation.pulling →
      pull source after = deeper source after) (id : String) :
    gatherWith setup scope pull id state =
      gatherWith setup scope deeper id state := by
  rw [gatherWith_eq, gatherWith_eq]
  exact bringAll_congr advances same _ _

def AgreeAt (depth : Nat) (first second : Caller) : Prop :=
  ∀ node arguments state, state.activation.depth = depth →
    first node arguments state = second node arguments state

variable {call other : Caller}

theorem evaluate_congr {state : RunState}
    (agree : AgreeAt state.activation.depth call other) (how : Evaluator)
    (node : Node) (inputs : Table Value) :
    evaluate call how node inputs state =
      evaluate other how node inputs state := by
  cases how with
  | entry entry => rfl
  | call =>
      simp only [evaluate]
      rw [agree node inputs state rfl]

theorem pullWith_congr {state : RunState} {source : Endpoint}
    (advances : ∀ source state, Advances state (pull source state).2)
    (agree : AgreeAt state.activation.depth call other)
    (same : ∀ node, scope.graph.node? source.node = some node →
      source.node ∉ state.activation.pulling →
      ∀ inner after, after.activation.depth = state.activation.depth →
        after.activation.pulling = source.node :: state.activation.pulling →
        pull inner after = deeper inner after) :
    pullWith setup scope call pull source state =
      pullWith setup scope other deeper source state := by
  unfold pullWith
  cases state.outputs? source.node with
  | some values => rfl
  | none =>
      cases hfound : pullable? setup scope source.node with
      | none => rfl
      | some found =>
          obtain ⟨node, how⟩ := found
          have hnode := ((pullable?_eq_some setup scope).mp hfound).1
          dsimp only
          by_cases hopen : state.activation.pulling.contains source.node = true
          · rw [if_pos hopen, if_pos hopen]
          · rw [if_neg hopen, if_neg hopen]
            have fresh : source.node ∉ state.activation.pulling := by
              simpa using hopen
            have hgather := gatherWith_advances setup scope advances source.node
              (state.beginPull source.node)
            have hsame :
                gatherWith setup scope pull source.node
                  (state.beginPull source.node) =
                gatherWith setup scope deeper source.node
                  (state.beginPull source.node) :=
              gatherWith_congr setup scope advances
                (same node hnode fresh) source.node
            -- Gathering comes back to the same depth, where the callers agree.
            have heval := evaluate_congr (hgather.depth ▸ agree) how node
              (gatherWith setup scope pull source.node
                (state.beginPull source.node)).1
            rw [← hsame, heval]

/-! ### Levels of pulls -/

theorem pullWithin_succ (steady : Steady call) (levels : Nat)
    (source : Endpoint) (state : RunState)
    (enough : (idsLeft scope state).card < levels) :
    pullWithin setup scope call (levels + 1) source state =
      pullWithin setup scope call levels source state := by
  induction levels generalizing source state with
  | zero => exact absurd enough (Nat.not_lt_zero _)
  | succ levels ih =>
      refine pullWith_congr setup scope
        (pullWithin_advances setup scope steady (levels + 1))
        (fun _ _ _ _ => rfl) ?_
      intro node hnode fresh inner after _ hpulling
      have hless := card_idsLeft_beginPull_lt scope hnode fresh
      rw [← idsLeft_congr scope (state.beginPull source.node) after hpulling]
        at hless
      exact ih inner after (by omega)

theorem pullWithin_eq_pull (steady : Steady call) (levels : Nat)
    (source : Endpoint) (state : RunState)
    (enough : (idsLeft scope state).card < levels) :
    pullWithin setup scope call levels source state =
      Engine.pull setup scope call source state := by
  have stable : ∀ extra,
      pullWithin setup scope call ((idsLeft scope state).card + 1 + extra)
      source state =
        pullWithin setup scope call
          ((idsLeft scope state).card + 1) source state := by
    intro extra
    induction extra with
    | zero => rfl
    | succ extra ih =>
        rw [← Nat.add_assoc,
          pullWithin_succ setup scope steady _ _ _ (by omega)]
        exact ih
  have hbound := card_idsLeft_le scope state
  have hleft := stable (levels - ((idsLeft scope state).card + 1))
  have hright := stable (pullDepth scope - ((idsLeft scope state).card + 1))
  rw [Nat.add_sub_cancel' enough] at hleft
  rw [Nat.add_sub_cancel' (by unfold pullDepth; omega)] at hright
  rw [hleft, Engine.pull, hright]

theorem pull_eq (steady : Steady call) (source : Endpoint) (state : RunState) :
    Engine.pull setup scope call source state =
      pullWith setup scope call
        (Engine.pull setup scope call) source state := by
  have hbound := card_idsLeft_le scope state
  rw [← pullWithin_eq_pull setup scope steady (pullDepth scope + 1) source state
    (by unfold pullDepth; omega)]
  rfl

end Pulls

/-! ## Walks -/

/-- How often a frame is popped, apart from the visits that it leads to. -/
def Frame.weight : Frame → Nat
  | .visit _ => 0
  | .loop _ _ index stop => (stop.toInt - index.toInt).toNat + 1

def weights (stack : List Frame) : Nat :=
  (stack.map Frame.weight).sum

/-- A bound on the pops of a walk: each step pays for its own pop and for all
pops of the one loop that it may start. -/
def popsLeft (limits : Limits) (stack : List Frame) (state : RunState) : Nat :=
  (limits.maxSteps.toNat - state.activation.steps) * (UInt64.size + 1) +
    weights stack + 1

theorem weights_cons (frame : Frame) (rest : List Frame) :
    weights (frame :: rest) = frame.weight + weights rest := by
  simp [weights]

theorem weights_append (first rest : List Frame) :
    weights (first ++ rest) = weights first + weights rest := by
  simp [weights]

theorem weights_visits (ids : List String) : weights (ids.map .visit) = 0 := by
  induction ids with
  | nil => rfl
  | cons id ids ih => simpa [weights_cons, Frame.weight] using ih

theorem toInt_succ_of_lt {index stop : Int64} (h : index < stop) :
    (index + 1).toInt = index.toInt + 1 := by
  have hlt := Int64.lt_iff_toInt_lt.mp h
  have hstop := Int64.toInt_lt stop
  have hindex := Int64.le_toInt index
  have hone : (1 : Int64).toInt = 1 := rfl
  rw [Int64.toInt_add, hone]
  exact Int.bmod_eq_of_le (by omega) (by omega)

theorem weight_loop_le (node pin : String) (index stop : Int64) :
    (Frame.loop node pin index stop).weight ≤ UInt64.size := by
  have hstop := Int64.toInt_lt stop
  have hindex := Int64.le_toInt index
  simp only [Frame.weight, UInt64.size]
  omega

section Walks

variable (setup : Setup) (scope : Scope)

theorem weights_visitTarget (node pin : String) :
    weights (visitTarget scope node pin) = 0 :=
  weights_visits _

theorem weights_flowFrames_le (node : String) (flow : Flow) :
    weights (flowFrames setup scope node flow) ≤ UInt64.size := by
  cases flow with
  | proceed pin => simp [flowFrames, weights_visitTarget]
  | sequence pins =>
      have none : weights (pins.flatMap (visitTarget scope node)) = 0 := by
        induction pins with
        | nil => rfl
        | cons pin pins ih =>
            rw [List.flatMap_cons, weights_append, weights_visitTarget, ih]
      simp [flowFrames, none]
  | loop pin start stop current =>
      simpa [flowFrames, weights] using weight_loop_le node pin start _
  | error message => simp [flowFrames, weights]
  | finish => simp [flowFrames, weights]

variable (call : Caller)

theorem weights_follow_le (node : String) (output : Output) (rest : List Frame)
    (state : RunState) :
    weights (follow setup scope node output rest state).1 ≤
      UInt64.size + weights rest := by
  simp only [follow, weights_append]
  exact Nat.add_le_add_right
    (weights_flowFrames_le setup scope node output.flow) _

theorem weights_visit_le (id : String) (rest : List Frame) (state : RunState) :
    weights (visit setup scope call id rest state).1 ≤
      UInt64.size + weights rest := by
  unfold visit
  cases scope.graph.node? id with
  | none => exact Nat.le_add_left _ _
  | some node =>
      dsimp only
      split
      · simp [weights]
      · split
        · exact weights_follow_le ..
        · cases setup.catalogue.lookup node.kind with
          | none => exact Nat.le_add_left _ _
          | some entry => exact weights_follow_le ..

theorem weights_iterate_lt (node pin : String) (index stop : Int64)
    (rest : List Frame) (state : RunState) :
    weights (iterate setup scope node pin index stop rest state).1 <
      weights (.loop node pin index stop :: rest) := by
  unfold iterate
  split
  · next h =>
      have hlt := Int64.lt_iff_toInt_lt.mp h
      simp only [weights_append, weights_cons, weights_visitTarget,
        Frame.weight, toInt_succ_of_lt h]
      omega
  · simp only [weights_append, weights_cons, weights_visitTarget, Frame.weight]
    omega

theorem takeStep_allowed {limits : Limits} {node : String}
    {state next : RunState} (h : state.takeStep limits node = (true, next)) :
    state.activation.steps < limits.maxSteps.toNat ∧
      next = { state with activation :=
        { state.activation with steps := state.activation.steps + 1 } } := by
  unfold RunState.takeStep at h
  split at h
  · next hlt => exact ⟨hlt, (Prod.mk.inj h).2.symm⟩
  · split at h
    · exact absurd (Prod.mk.inj h).1 (by simp)
    · exact absurd (Prod.mk.inj h).1 (by simp)

variable {call} (steady : Steady call)
include steady

theorem popsLeft_pop_lt {frame : Frame} {rest stack : List Frame}
    {state after : RunState}
    (h : pop setup scope call frame rest state = (some stack, after)) :
    popsLeft setup.limits stack after <
      popsLeft setup.limits (frame :: rest) state := by
  cases frame with
  | loop node pin index stop =>
      -- A round takes no step, but the loop weighs less after it.
      have hweights :=
        weights_iterate_lt setup scope node pin index stop rest state
      have hsteps :=
        (iterate_advances setup scope node pin index stop rest state).steps
      simp only [pop, Prod.mk.injEq, Option.some.injEq] at h
      rw [h.1] at hweights
      rw [h.2] at hsteps
      have hpaid := Nat.mul_le_mul_right (UInt64.size + 1)
        (Nat.sub_le_sub_left hsteps setup.limits.maxSteps.toNat)
      unfold popsLeft
      omega
  | visit id =>
      simp only [pop] at h
      rcases hstep : state.takeStep setup.limits id with ⟨allowed, next⟩
      rw [hstep] at h
      cases allowed with
      | false => simp at h
      | true =>
          obtain ⟨hlt, hnext⟩ := takeStep_allowed hstep
          have hweights := weights_visit_le setup scope call id rest next
          have hsteps := (visit_advances setup scope steady id rest next).steps
          simp only [Prod.mk.injEq, Option.some.injEq] at h
          rw [h.1] at hweights
          rw [h.2, hnext] at hsteps
          -- The step pays for the loop that the visit may leave.
          have hpaid :
              (setup.limits.maxSteps.toNat - after.activation.steps + 1) *
              (UInt64.size + 1) ≤
              (setup.limits.maxSteps.toNat - state.activation.steps) *
                (UInt64.size + 1) := by
            apply Nat.mul_le_mul_right
            dsimp only at hsteps
            omega
          rw [Nat.add_mul] at hpaid
          simp only [popsLeft, weights_cons, Frame.weight]
          omega

theorem walkWithin_succ (fuel : Nat) (stack : List Frame) (state : RunState)
    (enough : popsLeft setup.limits stack state ≤ fuel) :
    walkWithin setup scope call (fuel + 1) stack state =
      walkWithin setup scope call fuel stack state := by
  induction fuel generalizing stack state with
  | zero => exact absurd enough (by simp [popsLeft])
  | succ fuel ih =>
      cases stack with
      | nil => rfl
      | cons frame rest =>
          rw [walkWithin, walkWithin]
          rcases hpop : pop setup scope call frame rest state with
            ⟨_ | stack, after⟩
          · rfl
          · have hless := popsLeft_pop_lt setup scope steady hpop
            exact ih stack after (by omega)

def walkFrom (setup : Setup) (scope : Scope) (call : Caller)
    (stack : List Frame) (state : RunState) : RunState :=
  walkWithin setup scope call (popsLeft setup.limits stack state) stack state

theorem walkWithin_eq_walkFrom (fuel : Nat) (stack : List Frame)
    (state : RunState) (enough : popsLeft setup.limits stack state ≤ fuel) :
    walkWithin setup scope call fuel stack state =
      walkFrom setup scope call stack state := by
  obtain ⟨extra, rfl⟩ := Nat.exists_eq_add_of_le enough
  clear enough
  induction extra with
  | zero => rfl
  | succ extra ih =>
      rw [← Nat.add_assoc, walkWithin_succ setup scope steady _ _ _ (by omega)]
      exact ih

omit steady in
@[simp] theorem walkFrom_nil (state : RunState) :
    walkFrom setup scope call [] state = state := by
  rw [walkFrom, popsLeft, walkWithin]

theorem walkFrom_cons (frame : Frame) (rest : List Frame) (state : RunState) :
    walkFrom setup scope call (frame :: rest) state =
      match pop setup scope call frame rest state with
      | (none, after) => after
      | (some stack, after) => walkFrom setup scope call stack after := by
  rw [← walkWithin_eq_walkFrom setup scope steady _ _ _ (Nat.le_succ _),
    walkWithin]
  rcases hpop : pop setup scope call frame rest state with ⟨_ | stack, after⟩
  · rfl
  · have hless := popsLeft_pop_lt setup scope steady hpop
    exact walkWithin_eq_walkFrom setup scope steady _ _ _ (Nat.le_of_lt hless)

omit steady in
theorem walk_eq_walkFrom (start : String) (state : RunState) :
    walk setup scope call start state =
      walkFrom setup scope call [.visit start] state := by
  simp [walk, walkFrom, popBound, popsLeft, weights, Frame.weight]

end Walks

/-! ## Calls -/

section Calls

variable (setup : Setup) (scope : Scope) {call other : Caller}
  (steady : Steady call)
include steady

theorem pullWithin_congr {state : RunState}
    (agree : AgreeAt state.activation.depth call other) (levels : Nat)
    (source : Endpoint) :
    pullWithin setup scope call levels source state =
      pullWithin setup scope other levels source state := by
  induction levels generalizing source state with
  | zero => rfl
  | succ levels ih =>
      refine pullWith_congr setup scope
        (pullWithin_advances setup scope steady levels) agree ?_
      intro node _ _ inner after hdepth _
      exact ih (hdepth ▸ agree) inner

theorem gather_congr {state : RunState}
    (agree : AgreeAt state.activation.depth call other) (id : String) :
    gather setup scope call id state = gather setup scope other id state := by
  refine gatherWith_congr setup scope (pull_advances setup scope steady) ?_ id
  intro source after hdepth _
  exact pullWithin_congr setup scope steady (hdepth ▸ agree) _ source

theorem visitCall_congr {state : RunState}
    (agree : AgreeAt state.activation.depth call other) (node : Node) :
    visitCall setup scope call node state =
      visitCall setup scope other node state := by
  have hgather := gather_advances setup scope steady node.id state
  simp only [visitCall]
  rw [← gather_congr setup scope steady agree, agree node _ _ hgather.depth]

theorem visitEntry_congr {state : RunState}
    (agree : AgreeAt state.activation.depth call other) (entry : Entry)
    (node : Node) :
    visitEntry setup scope call entry node state =
      visitEntry setup scope other entry node state := by
  simp only [visitEntry]
  rw [← gather_congr setup scope steady agree]

theorem visit_congr {state : RunState}
    (agree : AgreeAt state.activation.depth call other) (id : String)
    (rest : List Frame) :
    visit setup scope call id rest state =
      visit setup scope other id rest state := by
  unfold visit
  cases scope.graph.node? id with
  | none => rfl
  | some node =>
      dsimp only
      rw [visitCall_congr setup scope steady agree]
      cases setup.catalogue.lookup node.kind with
      | none => rfl
      | some entry =>
          dsimp only
          rw [visitEntry_congr setup scope steady agree]

theorem pop_congr {state : RunState}
    (agree : AgreeAt state.activation.depth call other) (frame : Frame)
    (rest : List Frame) :
    pop setup scope call frame rest state =
      pop setup scope other frame rest state := by
  cases frame with
  | loop node pin index stop => rfl
  | visit id =>
      have taken := (Advances.refl state).takeStep setup.limits id
      simp only [pop]
      rcases hstep : state.takeStep setup.limits id with ⟨allowed, next⟩
      rw [hstep] at taken
      cases allowed with
      | false => rfl
      | true =>
          dsimp only
          rw [visit_congr setup scope steady (taken.depth ▸ agree)]

theorem walkWithin_congr {state : RunState}
    (agree : AgreeAt state.activation.depth call other) (fuel : Nat)
    (stack : List Frame) :
    walkWithin setup scope call fuel stack state =
      walkWithin setup scope other fuel stack state := by
  induction fuel generalizing stack state with
  | zero => rfl
  | succ fuel ih =>
      cases stack with
      | nil => rfl
      | cons frame rest =>
          have popped := pop_advances setup scope steady frame rest state
          rw [walkWithin, walkWithin, ← pop_congr setup scope steady agree]
          rcases hpop : pop setup scope call frame rest state with
            ⟨_ | stack, after⟩
          · rfl
          · rw [hpop] at popped
            exact ih (popped.depth ▸ agree) stack

theorem walkBody_congr {state : RunState}
    (agree : AgreeAt state.activation.depth call other) (function : Function) :
    walkBody setup scope call function state =
      walkBody setup scope other function state := by
  unfold walkBody
  cases scope.graph.target? entryMarker "exec" with
  | none => rfl
  | some first =>
      dsimp only
      rw [walk, walkWithin_congr setup scope steady agree, walk]

theorem callWith_congr {depth : Nat} (agree : AgreeAt (depth + 1) call other) :
    AgreeAt depth (callWith setup call) (callWith setup other) := by
  intro node arguments state hdepth
  unfold callWith
  cases callee setup node state.activation.depth with
  | error cause => rfl
  | ok function =>
      -- A body is walked one call deeper than its caller.
      have inside :
          AgreeAt (enterBody function arguments state).activation.depth call
            other := by
        change AgreeAt (state.activation.depth + 1) call other
        rw [hdepth]
        exact agree
      have walked := walkBody_advances setup
        ⟨function.graph, true⟩ steady function
        (enterBody function arguments state)
      dsimp only
      rw [← walkBody_congr setup _ steady inside,
        gather_congr setup _ steady (walked.depth ▸ inside)]

end Calls

theorem callee_ok {setup : Setup} {node : Node} {depth : Nat}
    {function : Function} (h : callee setup node depth = .ok function) :
    setup.functions.get? (functionName node) = some function ∧
      function.problems = [] ∧ depth < setup.limits.maxCallDepth.toNat := by
  unfold callee at h
  cases hfunction : setup.functions.get? (functionName node) with
  | none => simp [hfunction] at h
  | some found =>
      simp only [hfunction, Function.validate] at h
      by_cases hvalid : found.problems.isEmpty = true
      · by_cases hlt : depth < setup.limits.maxCallDepth.toNat
        · simp only [hvalid, hlt, if_true] at h
          cases h
          exact ⟨rfl, List.isEmpty_iff.mp hvalid, hlt⟩
        · simp [hvalid, hlt] at h
      · simp [hvalid] at h

theorem callee_pure {setup : Setup} {node : Node} {depth : Nat}
    {function : Function} (hpure : callsPureFunction setup node = true)
    (hcallee : callee setup node depth = .ok function) :
    function.isPure = true := by
  have hget := (callee_ok hcallee).1
  unfold callsPureFunction at hpure
  unfold functionName at hget
  cases hname : node.configText? "function" with
  | none => simp [hname] at hpure
  | some name =>
      rw [hname, Option.getD_some] at hget
      simpa [hname, hget] using hpure

theorem callWith_agreeAt_limit {setup : Setup} {call other : Caller}
    {depth : Nat} (beyond : setup.limits.maxCallDepth.toNat ≤ depth) :
    AgreeAt depth (callWith setup call) (callWith setup other) := by
  intro node arguments state hdepth
  unfold callWith
  cases hcallee : callee setup node state.activation.depth with
  | error cause => rfl
  | ok function =>
      have hlt := (callee_ok hcallee).2.2
      omega

theorem callWithin_succ (setup : Setup) (levels depth : Nat)
    (enough : setup.limits.maxCallDepth.toNat ≤ depth + levels) :
    AgreeAt depth (callWithin setup (levels + 1))
      (callWithin setup (levels + 2)) := by
  induction levels generalizing depth with
  | zero => exact callWith_agreeAt_limit enough
  | succ levels ih =>
      exact callWith_congr setup (callWithin_steady setup (levels + 1))
        (ih (depth + 1) (by omega))

theorem call_eq (setup : Setup) (node : Node) (arguments : Table Value)
    (state : RunState) :
    call setup node arguments state =
      callWith setup (call setup) node arguments state := by
  cases hlimit : setup.limits.maxCallDepth.toNat with
  | zero => exact callWith_agreeAt_limit (by omega) node arguments state rfl
  | succ levels =>
      have inside :
          AgreeAt (state.activation.depth + 1) (callWithin setup (levels + 1))
          (call setup) := by
        rw [call, hlimit]
        exact callWithin_succ setup levels _ (by omega)
      rw [call, hlimit]
      rw [call, hlimit] at inside
      exact callWith_congr setup
        (callWithin_steady setup _) inside node arguments state rfl

end ScriptGraph.Engine
