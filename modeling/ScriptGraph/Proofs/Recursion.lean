import ScriptGraph.Proofs.Saturation

/-!
# Walking by recursion

The walk of a graph keeps its unfinished business on a stack of frames.  The
interpreter of this file has no stack: visiting a node includes visiting all
that it leads to, a sequence visits its targets one after another, a loop visits
its body once for every index and then what follows it, and a call interprets
the body of the function in the same way.  It recurs without any bound, so it is
defined by its equations only, and `none` would stand for a visit without end.

A visit is `finished` when everything it leads to has been visited.  It is
`stopped` when the whole walk has ended inside it: at the step limit, or at the
exit of a body.  The main statement says that every visit comes to an end and
that the walk with the stack leaves the very state that the interpreter leaves.
-/

namespace ScriptGraph.Engine.Recursive

open Json

inductive Ending where
  | finished
  | stopped
  deriving DecidableEq, Repr

-- A recursive call is elaborated after its surroundings (`by exact`), which
-- keeps the place of the call in the text out of the fixed point.
mutual

def visit (setup : Setup) (scope : Scope) (id : String) (state : RunState) :
    Option (Ending × RunState) :=
  match state.takeStep setup.limits id with
  | (false, state) => some (.stopped, state)
  | (true, state) =>
    match scope.graph.node? id with
    | none => some (.finished, state)
    | some node =>
      if scope.isBody && id == exitMarker then some (.stopped, state)
      else if node.kind == callKind then do
        let (inputs, state) :=
          gather setup scope (Engine.call setup) node.id state
        let (outcome, state) ←
          (by exact callFunction : type_of% callFunction) setup node
            inputs state
        (by exact follow : type_of% follow) setup scope id
          (outputOf (outcome.map (Output.proceed "then"))) state
      else match setup.catalogue.lookup node.kind with
        | none =>
          some (.finished,
            state.report id .unknownNodeKind
              ("unknown node type '" ++ node.kind ++ "'"))
        | some entry =>
          let (inputs, state) :=
            gather setup scope (Engine.call setup) node.id state
          let (outcome, state) :=
            state.invoke entry (visitInvocation setup node inputs state)
          (by exact follow : type_of% follow) setup scope id
            (outputOf outcome) state
partial_fixpoint

def follow (setup : Setup) (scope : Scope) (id : String) (output : Output)
    (state : RunState) : Option (Ending × RunState) :=
  let state := (state.setOutputs id output.values).syncVariables
  match output.flow with
  | .proceed pin =>
      (by exact visitTarget : type_of% visitTarget) setup scope id pin state
  | .sequence pins =>
      (by exact visitEach : type_of% visitEach) setup scope id pins state
  | .loop pin start stop _ =>
    (by exact loopFrom : type_of% loopFrom) setup scope id pin start
      (loopStop setup.limits start stop) state
  | .error message => some (.finished, state.report id .nodeError message)
  | .finish => some (.finished, state)
partial_fixpoint

def visitTarget (setup : Setup) (scope : Scope) (id pin : String)
    (state : RunState) : Option (Ending × RunState) :=
  match scope.graph.target? id pin with
  | some next => (by exact visit : type_of% visit) setup scope next state
  | none => some (.finished, state)
partial_fixpoint

def visitEach (setup : Setup) (scope : Scope) (id : String) (pins : List String)
    (state : RunState) : Option (Ending × RunState) :=
  match pins with
  | [] => some (.finished, state)
  | pin :: pins => do
    match ← (by exact visitTarget : type_of% visitTarget) setup scope id pin
        state with
    | (.stopped, state) => some (.stopped, state)
    | (.finished, state) =>
        (by exact visitEach : type_of% visitEach) setup scope id pins state
partial_fixpoint

def loopFrom (setup : Setup) (scope : Scope) (id pin : String)
    (index stop : Int64) (state : RunState) : Option (Ending × RunState) :=
  if index < stop then do
    let state := state.setOutputs id (.single "index" (.ofInt index.toInt))
    let state := state.publish setup.limits.loopVariable (.ofInt index.toInt)
    match ← (by exact visitTarget : type_of% visitTarget) setup scope id pin
        state with
    | (.stopped, state) => some (.stopped, state)
    | (.finished, state) =>
      (by exact loopFrom : type_of% loopFrom) setup scope id pin
        (index + 1) stop state
  else (by exact visitTarget : type_of% visitTarget) setup scope id
    completedPin state
partial_fixpoint

def callFunction (setup : Setup) (node : Node) (arguments : Table Value)
    (state : RunState) : Option (Except Failure (Table Value) × RunState) :=
  match callee setup node state.activation.depth with
  | .error cause => some (.error cause, state)
  | .ok function => do
    let (_, body) ← (by exact visitBody : type_of% visitBody) setup function
      (enterBody function arguments state)
    let (returned, body) :=
      gather setup ⟨function.graph, true⟩ (Engine.call setup) exitMarker body
    some (.ok (Parameter.values function.outputs returned),
      leaveBody node.id body state)
partial_fixpoint

def visitBody (setup : Setup) (function : Function) (state : RunState) :
    Option (Ending × RunState) :=
  if function.isPure then some (.finished, state)
  else (by exact visitTarget : type_of% visitTarget) setup
    ⟨function.graph, true⟩ entryMarker "exec" state
partial_fixpoint

end

/-! ## Frames against visits -/

section Agreement

variable (setup : Setup) (scope : Scope)

/-- What a walk does with the rest of its stack once the frames before it
have come to an ending. -/
def resume (rest : List Frame) : Ending → RunState → RunState
  | .finished, state => walkFrom setup scope (call setup) rest state
  | .stopped, state => state

/-- Popping `frames` from a stack amounts to `result`, whatever lies below. -/
def Agrees (frames : List Frame) (state : RunState)
    (result : Option (Ending × RunState)) : Prop :=
  ∃ ending after, result = some (ending, after) ∧ Advances state after ∧
    ∀ rest, walkFrom setup scope (call setup) (frames ++ rest) state =
      resume setup scope rest ending after

def VisitsAgreeAfter (state : RunState) : Prop :=
  ∀ id after, Advances state after → Agrees setup scope [.visit id] after
    (visit setup scope id after)

variable {setup scope}

theorem agrees_nil (state : RunState) :
    Agrees setup scope [] state (some (.finished, state)) :=
  ⟨.finished, state, rfl, .refl state, fun _ => rfl⟩

theorem Agrees.append {frames more : List Frame} {state : RunState}
    {result : Option (Ending × RunState)}
    {next : RunState → Option (Ending × RunState)}
    (first : Agrees setup scope frames state result)
    (second : ∀ after, Advances state after →
      Agrees setup scope more after (next after)) :
    Agrees setup scope (frames ++ more) state (do
      match ← result with
      | (.stopped, after) => some (.stopped, after)
      | (.finished, after) => next after) := by
  obtain ⟨ending, middle, rfl, advanced, popped⟩ := first
  cases ending with
  | stopped =>
      refine ⟨.stopped, middle, rfl, advanced, fun rest => ?_⟩
      rw [List.append_assoc, popped]
      rfl
  | finished =>
      obtain ⟨ending, after, hnext, further, walked⟩ := second middle advanced
      refine ⟨ending, after, hnext, advanced.trans further, fun rest => ?_⟩
      rw [List.append_assoc, popped]
      exact walked rest

theorem Agrees.of_pop {frame : Frame} {frames : List Frame}
    {state next : RunState} {result : Option (Ending × RunState)}
    (hpop : ∀ rest, pop setup scope (call setup) frame rest state =
      (some (frames ++ rest), next))
    (agrees : Agrees setup scope frames next result) :
    Agrees setup scope [frame] state result := by
  obtain ⟨ending, after, hresult, advanced, walked⟩ := agrees
  have popped := pop_advances setup scope (call_steady setup) frame [] state
  rw [hpop] at popped
  refine ⟨ending, after, hresult, popped.trans advanced, fun rest => ?_⟩
  rw [List.singleton_append, walkFrom_cons setup scope (call_steady setup),
    hpop]
  exact walked rest

theorem agrees_target {state : RunState}
    (later : VisitsAgreeAfter setup scope state) (id pin : String)
    {after : RunState} (advanced : Advances state after) :
    Agrees setup scope (Engine.visitTarget scope id pin) after
      (visitTarget setup scope id pin after) := by
  rw [visitTarget, Engine.visitTarget]
  cases scope.graph.target? id pin with
  | none => exact agrees_nil after
  | some next => exact later next after advanced

theorem agrees_each {state : RunState}
    (later : VisitsAgreeAfter setup scope state) (id : String)
    (pins : List String) {after : RunState} (advanced : Advances state after) :
    Agrees setup scope (pins.flatMap (Engine.visitTarget scope id)) after
      (visitEach setup scope id pins after) := by
  induction pins generalizing after with
  | nil =>
      rw [visitEach]
      exact agrees_nil after
  | cons pin pins ih =>
      rw [visitEach, List.flatMap_cons]
      exact (agrees_target later id pin advanced).append fun further hfurther =>
        ih (advanced.trans hfurther)

theorem agrees_loop {state : RunState}
    (later : VisitsAgreeAfter setup scope state) (id pin : String)
    (index stop : Int64) {after : RunState} (advanced : Advances state after) :
    Agrees setup scope [.loop id pin index stop] after
      (loopFrom setup scope id pin index stop after) := by
  induction hleft : (stop.toInt - index.toInt).toNat
    generalizing index after with
  | zero =>
      have ended : ¬ index < stop := by
        intro h
        have hlt := Int64.lt_iff_toInt_lt.mp h
        omega
      rw [loopFrom, if_neg ended]
      refine Agrees.of_pop (fun rest => ?_)
        (agrees_target later id completedPin advanced)
      simp only [pop, iterate, if_neg ended]
  | succ left ih =>
      have running : index < stop := by
        rw [Int64.lt_iff_toInt_lt]
        omega
      have hnext := toInt_succ_of_lt running
      rw [loopFrom, if_pos running]
      have started :=
        (advanced.setOutputs id (.single "index" (.ofInt index.toInt))).publish
        setup.limits.loopVariable (.ofInt index.toInt)
      refine Agrees.of_pop (fun rest => ?_)
        ((agrees_target later id pin started).append fun further hfurther =>
          ih (index + 1) (started.trans hfurther) (by omega))
      simp only [pop, iterate, if_pos running, List.append_assoc,
        List.singleton_append]

theorem agrees_follow {state : RunState}
    (later : VisitsAgreeAfter setup scope state) (id : String) (output : Output)
    {after : RunState} (advanced : Advances state after) :
    Agrees setup scope (flowFrames setup scope id output.flow)
      (Engine.follow setup scope id output [] after).2
      (follow setup scope id output after) := by
  have kept := (advanced.setOutputs id output.values).syncVariables
  rw [follow, Engine.follow]
  cases output.flow with
  | proceed pin => exact agrees_target later id pin kept
  | sequence pins => exact agrees_each later id pins kept
  | loop pin start stop current => exact agrees_loop later id pin start _ kept
  | error message => exact agrees_nil _
  | finish => exact agrees_nil _

def CallsAgreeAt (setup : Setup) (depth : Nat) : Prop :=
  ∀ node arguments state, state.activation.depth = depth →
    callFunction setup node arguments state =
      some (call setup node arguments state)

theorem agrees_output {state after : RunState} {id : String} {output : Output}
    (later : VisitsAgreeAfter setup scope state)
    (advanced : Advances state after) {start : RunState}
    (hpop : ∀ rest, pop setup scope (call setup) (.visit id) rest start =
      (some (Engine.follow setup scope id output rest after).1,
        (Engine.follow setup scope id output rest after).2)) :
    Agrees setup scope [.visit id] start (follow setup scope id output after) :=
  Agrees.of_pop (fun rest => hpop rest) (agrees_follow later id output advanced)

theorem agrees_taken {id : String} {state next : RunState}
    (hstep : state.takeStep setup.limits id = (true, next))
    (calls : CallsAgreeAt setup next.activation.depth)
    (later : VisitsAgreeAfter setup scope next) :
    Agrees setup scope [.visit id] state (visit setup scope id state) := by
  rw [visit, hstep]
  dsimp only
  cases hnode : scope.graph.node? id with
  | none =>
      refine Agrees.of_pop (fun rest => ?_) (agrees_nil next)
      simp only [pop, hstep, Engine.visit, hnode, List.nil_append]
  | some node =>
      dsimp only
      by_cases hexit : (scope.isBody && id == exitMarker) = true
      · rw [if_pos hexit]
        have taken := (Advances.refl state).takeStep setup.limits id
        rw [hstep] at taken
        -- The exit ends the whole walk, whatever the stack still holds.
        refine ⟨.stopped, next, rfl, taken, fun rest => ?_⟩
        rw [List.singleton_append,
          walkFrom_cons setup scope (call_steady setup)]
        simp only [pop, hstep, Engine.visit, hnode, if_pos hexit]
        exact walkFrom_nil setup scope next
      · rw [if_neg hexit]
        have gathered :=
          gather_advances setup scope (call_steady setup) node.id next
        by_cases hcall : (node.kind == callKind) = true
        · rw [if_pos hcall, calls node _ _ gathered.depth]
          refine agrees_output later
            (gathered.trans (call_steady setup node _ _)) fun rest => ?_
          simp only [pop, hstep, Engine.visit, hnode, if_neg hexit,
            if_pos hcall, visitCall]
        · rw [if_neg hcall]
          cases hentry : setup.catalogue.lookup node.kind with
          | none =>
              refine Agrees.of_pop (fun rest => ?_) (agrees_nil _)
              simp only [pop, hstep, Engine.visit, hnode, if_neg hexit,
                if_neg hcall, hentry, List.nil_append]
          | some entry =>
              refine agrees_output later (gathered.invoke entry _) fun rest =>
                ?_
              simp only [pop, hstep, Engine.visit, hnode, if_neg hexit,
                if_neg hcall, hentry, visitEntry]

theorem agrees_visit {depth : Nat} (calls : CallsAgreeAt setup depth)
    (id : String) (state : RunState) (hdepth : state.activation.depth = depth) :
    Agrees setup scope [.visit id] state (visit setup scope id state) := by
  -- On the steps that are left, since every visit takes one.
  induction hleft : setup.limits.maxSteps.toNat - state.activation.steps
    using Nat.strongRecOn generalizing id state with
  | _ left ih =>
      have taken := (Advances.refl state).takeStep setup.limits id
      rcases hstep : state.takeStep setup.limits id with ⟨allowed, next⟩
      rw [hstep] at taken
      cases allowed with
      | false =>
          rw [visit, hstep]
          refine ⟨.stopped, next, rfl, taken, fun rest => ?_⟩
          rw [List.singleton_append,
            walkFrom_cons setup scope (call_steady setup)]
          simp only [pop, hstep]
          rfl
      | true =>
          obtain ⟨hlt, hnext⟩ := takeStep_allowed hstep
          have hsame : next.activation.depth = depth := taken.depth.trans hdepth
          refine agrees_taken hstep (hsame ▸ calls) fun target after advanced =>
            ?_
          have hsteps := advanced.steps
          rw [hnext] at hsteps
          dsimp only at hsteps
          exact ih _ (by omega) target after (advanced.depth.trans hsame) rfl

theorem visit_eq_walk_of_calls {depth : Nat} (calls : CallsAgreeAt setup depth)
    (start : String) (state : RunState)
    (hdepth : state.activation.depth = depth) :
    ∃ ending, visit setup scope start state =
      some (ending, walk setup scope (call setup) start state) := by
  obtain ⟨ending, after, hvisit, -, walked⟩ :=
    agrees_visit calls start state hdepth
  refine ⟨ending, hvisit.trans ?_⟩
  have hwalk := walked []
  rw [List.append_nil, ← walk_eq_walkFrom] at hwalk
  rw [hwalk]
  cases ending with
  | finished => rw [resume, walkFrom_nil]
  | stopped => rfl

end Agreement

/-! ## Calls -/

theorem visitBody_eq_walkBody {setup : Setup} {depth : Nat}
    (calls : CallsAgreeAt setup depth) (function : Function) (body : RunState)
    (hdepth : body.activation.depth = depth) :
    ∃ ending, visitBody setup function body =
      some (ending,
        walkBody setup ⟨function.graph, true⟩ (call setup) function body) := by
  rw [visitBody, walkBody]
  by_cases hpure : function.isPure = true
  · rw [if_pos hpure, if_pos hpure]
    exact ⟨.finished, rfl⟩
  · rw [if_neg hpure, if_neg hpure, visitTarget]
    cases Graph.target? function.graph entryMarker "exec" with
    | none => exact ⟨.finished, rfl⟩
    | some first => exact visit_eq_walk_of_calls calls first body hdepth

theorem calls_agree (setup : Setup) (depth : Nat) :
    CallsAgreeAt setup depth := by
  induction hleft : setup.limits.maxCallDepth.toNat - depth
    using Nat.strongRecOn generalizing depth with
  | _ left ih =>
      intro node arguments state hdepth
      rw [callFunction, call_eq, callWith]
      cases hcallee : callee setup node state.activation.depth with
      | error cause => rfl
      | ok function =>
          have hlt := (callee_ok hcallee).2.2
          have deeper := ih _ (by omega) (depth + 1) rfl
          obtain ⟨ending, hbody⟩ := visitBody_eq_walkBody deeper function
            (enterBody function arguments state) (congrArg (· + 1) hdepth)
          dsimp only
          rw [hbody]
          rfl

/-- Walking with a stack of frames is the same as walking by recursion: from
every state the interpreter comes to an ending, with the state in which the
walk ends. -/
theorem visit_eq_walk (setup : Setup) (scope : Scope) (start : String)
    (state : RunState) :
    ∃ ending, visit setup scope start state =
      some (ending, walk setup scope (call setup) start state) :=
  visit_eq_walk_of_calls (calls_agree setup _) start state rfl

end ScriptGraph.Engine.Recursive
