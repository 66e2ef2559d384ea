import ScriptGraph.Engine.Run

/-!
# What the operations of a run leave alone

An activation knows how many calls enclose it, which pulls are under way and
how many visits the run has made.  `Advances before after` says that depth
and open pulls are the same in both states and that no visit is forgotten.
Every operation of the engine advances its state, provided that the caller
it is given does; the calls of the engine themselves do, at every depth.
-/

namespace ScriptGraph.Engine

open Json

structure Advances (before after : RunState) : Prop where
  depth : after.activation.depth = before.activation.depth
  pulling : after.activation.pulling = before.activation.pulling
  steps : before.activation.steps ≤ after.activation.steps

/-- A caller that returns to the activation it was called from. -/
def Steady (call : Caller) : Prop :=
  ∀ node arguments state, Advances state (call node arguments state).2

namespace Advances

variable {state middle after : RunState}

@[simp] theorem refl (state : RunState) : Advances state state :=
  ⟨rfl, rfl, Nat.le_refl _⟩

theorem trans (first : Advances state middle) (second : Advances middle after) :
    Advances state after :=
  ⟨second.depth.trans first.depth, second.pulling.trans first.pulling,
    Nat.le_trans first.steps second.steps⟩

theorem report (h : Advances state after) (node : String)
    (condition : Condition) (message : String) :
    Advances state (after.report node condition message) :=
  h.trans ⟨rfl, rfl, Nat.le_refl _⟩

theorem setOutputs (h : Advances state after) (node : String)
    (values : Table Value) :
    Advances state (after.setOutputs node values) :=
  h.trans ⟨rfl, rfl, Nat.le_refl _⟩

theorem syncVariables (h : Advances state after) :
    Advances state after.syncVariables :=
  h.trans ⟨rfl, rfl, Nat.le_refl _⟩

theorem publish (h : Advances state after) (name : String) (value : Value) :
    Advances state (after.publish name value) :=
  h.trans ⟨rfl, rfl, Nat.le_refl _⟩

theorem invoke (h : Advances state after) (entry : Entry) (inv : Invocation) :
    Advances state (after.invoke entry inv).2 :=
  h.trans ⟨rfl, rfl, Nat.le_refl _⟩

theorem takeStep (h : Advances state after) (limits : Limits) (node : String) :
    Advances state (after.takeStep limits node).2 := by
  refine h.trans ?_
  unfold RunState.takeStep
  split
  · exact ⟨rfl, rfl, Nat.le_succ _⟩
  · split
    · exact .refl _
    · exact ⟨rfl, rfl, Nat.le_refl _⟩

theorem settlePull {node : String} (h : Advances (state.beginPull node) after)
    (outcome : Except String (Table Value)) :
    Advances state (settlePull node outcome after).2 := by
  have ended : Advances state (after.endPull node) := by
    refine ⟨h.depth, ?_, h.steps⟩
    change after.activation.pulling.erase node = state.activation.pulling
    rw [h.pulling]
    exact List.erase_cons_head ..
  cases outcome with
  | ok values => exact ended.setOutputs node values
  | error message =>
      exact (ended.report node .pullError message).setOutputs node .empty

end Advances

/-! ## Pulls -/

section Pulls

variable (setup : Setup) (scope : Scope) {call : Caller}
  {pull : Endpoint → RunState → Option Value × RunState}

def overlay (inputs : Table Value) (pin : String) : Option Value → Table Value
  | some value => inputs.insert pin value
  | none => inputs

theorem bringAll_cons (source : Endpoint) (pin : String)
    (rest : List (Endpoint × String)) (inputs : Table Value)
    (state : RunState) :
    bringAll pull ((source, pin) :: rest) inputs state =
      bringAll pull rest (overlay inputs pin (pull source state).1)
        (pull source state).2 := by
  rw [bringAll]
  rcases pull source state with ⟨value, next⟩
  cases value <;> rfl

theorem bringAll_advances
    (h : ∀ source state, Advances state (pull source state).2)
    (wires : List (Endpoint × String)) (inputs : Table Value)
    (state : RunState) :
    Advances state (bringAll pull wires inputs state).2 := by
  induction wires generalizing inputs state with
  | nil => exact .refl _
  | cons wire rest ih =>
      obtain ⟨source, pin⟩ := wire
      rw [bringAll_cons]
      exact (h source state).trans (ih _ _)

def inputWires (id : String) : List (Endpoint × String) :=
  match scope.graph.node? id with
  | none => []
  | some node => dataWires setup scope (setup.catalogue.kind? node.kind) id

def inputDefaults (id : String) : Table Value :=
  match scope.graph.node? id with
  | none => .empty
  | some node => nodeDefaults (setup.catalogue.kind? node.kind) node

theorem gatherWith_eq (id : String) (state : RunState) :
    gatherWith setup scope pull id state =
      bringAll pull (inputWires setup scope id)
        (inputDefaults setup scope id) state := by
  unfold gatherWith inputWires inputDefaults
  cases scope.graph.node? id <;> rfl

theorem gatherWith_advances
    (h : ∀ source state, Advances state (pull source state).2) (id : String)
    (state : RunState) :
    Advances state (gatherWith setup scope pull id state).2 := by
  rw [gatherWith_eq]
  exact bringAll_advances h _ _ _

theorem evaluate_advances (steady : Steady call) (how : Evaluator) (node : Node)
    (inputs : Table Value) (state : RunState) :
    Advances state (evaluate call how node inputs state).2 := by
  cases how with
  | entry entry =>
      have invoked :=
        (Advances.refl state).invoke entry (pureInvocation node inputs state)
      simp only [evaluate]
      rcases hinvoke : state.invoke entry
        (pureInvocation node inputs state) with ⟨outcome, next⟩
      rw [hinvoke] at invoked
      cases outcome <;> exact invoked
  | call =>
      have called := steady node inputs state
      simp only [evaluate]
      rcases hcall : call node inputs state with ⟨outcome, next⟩
      rw [hcall] at called
      cases outcome <;> exact called

theorem pullWith_advances (steady : Steady call)
    (h : ∀ source state, Advances state (pull source state).2)
    (source : Endpoint) (state : RunState) :
    Advances state (pullWith setup scope call pull source state).2 := by
  unfold pullWith
  cases state.outputs? source.node with
  | some values => exact .refl _
  | none =>
      cases pullable? setup scope source.node with
      | none => exact .refl _
      | some found =>
          obtain ⟨node, how⟩ := found
          dsimp only
          split
          · exact .refl _
          · exact ((gatherWith_advances setup scope h source.node
              (state.beginPull source.node)).trans
              (evaluate_advances steady how node _ _)).settlePull _

theorem pullWithin_advances (steady : Steady call) (levels : Nat)
    (source : Endpoint) (state : RunState) :
    Advances state (pullWithin setup scope call levels source state).2 := by
  induction levels generalizing source state with
  | zero => exact .refl _
  | succ levels ih => exact pullWith_advances setup scope steady ih source state

theorem pull_advances (steady : Steady call) (source : Endpoint)
    (state : RunState) :
    Advances state (Engine.pull setup scope call source state).2 :=
  pullWithin_advances setup scope steady _ source state

theorem gather_advances (steady : Steady call) (id : String)
    (state : RunState) :
    Advances state (gather setup scope call id state).2 :=
  gatherWith_advances setup scope (pull_advances setup scope steady) id state

end Pulls

/-! ## Walks -/

section Walks

variable (setup : Setup) (scope : Scope) {call : Caller}

theorem iterate_advances (node pin : String) (index stop : Int64)
    (rest : List Frame) (state : RunState) :
    Advances state (iterate setup scope node pin index stop rest state).2 := by
  unfold iterate
  split
  · exact ((Advances.refl state).setOutputs _ _).publish _ _
  · exact .refl _

theorem follow_advances (node : String) (output : Output) (rest : List Frame)
    (state : RunState) :
    Advances state (follow setup scope node output rest state).2 := by
  have kept :=
    ((Advances.refl state).setOutputs node output.values).syncVariables
  unfold follow
  cases output.flow with
  | error message => exact kept.report _ _ _
  | _ => exact kept

theorem visitCall_advances (steady : Steady call) (node : Node)
    (state : RunState) :
    Advances state (visitCall setup scope call node state).2 :=
  (gather_advances setup scope steady node.id state).trans (steady node _ _)

theorem visitEntry_advances (steady : Steady call) (entry : Entry) (node : Node)
    (state : RunState) :
    Advances state (visitEntry setup scope call entry node state).2 :=
  (gather_advances setup scope steady node.id state).invoke entry _

theorem visit_advances (steady : Steady call) (id : String) (rest : List Frame)
    (state : RunState) :
    Advances state (visit setup scope call id rest state).2 := by
  unfold visit
  cases scope.graph.node? id with
  | none => exact .refl _
  | some node =>
      dsimp only
      split
      · exact .refl _
      · split
        · exact (visitCall_advances setup scope steady node state).trans
            (follow_advances ..)
        · cases setup.catalogue.lookup node.kind with
          | none => exact (Advances.refl state).report _ _ _
          | some entry =>
              exact (visitEntry_advances setup scope steady entry node
                state).trans (follow_advances ..)

theorem pop_advances (steady : Steady call) (frame : Frame) (rest : List Frame)
    (state : RunState) :
    Advances state (pop setup scope call frame rest state).2 := by
  cases frame with
  | loop node pin index stop => exact iterate_advances ..
  | visit id =>
      have taken := (Advances.refl state).takeStep setup.limits id
      simp only [pop]
      rcases hstep : state.takeStep setup.limits id with ⟨allowed, next⟩
      rw [hstep] at taken
      cases allowed with
      | false => exact taken
      | true => exact taken.trans (visit_advances setup scope steady ..)

theorem walkWithin_advances (steady : Steady call) (fuel : Nat)
    (stack : List Frame) (state : RunState) :
    Advances state (walkWithin setup scope call fuel stack state) := by
  induction fuel generalizing stack state with
  | zero => exact .refl _
  | succ fuel ih =>
      cases stack with
      | nil => exact .refl _
      | cons frame rest =>
          have popped := pop_advances setup scope steady frame rest state
          simp only [walkWithin]
          rcases hpop : pop setup scope call frame rest state with ⟨stack, next⟩
          rw [hpop] at popped
          cases stack with
          | none => exact popped
          | some stack => exact popped.trans (ih stack next)

theorem walkBody_advances (steady : Steady call) (function : Function)
    (state : RunState) :
    Advances state (walkBody setup scope call function state) := by
  unfold walkBody
  split
  · exact .refl _
  · cases scope.graph.target? entryMarker "exec" with
    | none => exact .refl _
    | some first => exact walkWithin_advances setup scope steady _ _ _

end Walks

/-! ## Calls -/

theorem callWith_steady {setup : Setup} {deeper : Caller}
    (steady : Steady deeper) :
    Steady (callWith setup deeper) := by
  intro node arguments state
  unfold callWith
  cases callee setup node state.activation.depth with
  | error cause => exact .refl _
  | ok function =>
      have walked := walkBody_advances setup
        ⟨function.graph, true⟩ steady function
        (enterBody function arguments state)
      have returned := walked.trans
        (gather_advances setup ⟨function.graph, true⟩ steady exitMarker _)
      exact ⟨rfl, rfl, returned.steps⟩

theorem callWithin_steady (setup : Setup) (levels : Nat) :
    Steady (callWithin setup levels) := by
  induction levels with
  | zero => exact fun _ _ state => .refl state
  | succ levels ih => exact callWith_steady ih

theorem call_steady (setup : Setup) : Steady (call setup) :=
  callWithin_steady setup _

end ScriptGraph.Engine
