import ScriptGraph.Library
import ScriptGraph.Proofs.Recursion
import ScriptGraph.Proofs.WiderLimits
import ScriptGraph.Scripted

/-!
# The rounds of a loop

A loop that a walk follows goes round once for every index from its start to
below its stop: it gives the index to its node and to the loop variable, and
what its pin is wired to is visited to the end.  `Rounds` counts such rounds.
The main statement says how many there are, unless the step limit or the exit
of a body ends the walk inside of one: as many as the range has indices, but no
more than the limit on iterations.

The length of the range is found by a subtraction that stops at the largest
integer of 64 bits.  For limits from that integer on, a longer range is not
recognized as too long, so these are left out.  So are the flows of nodes that
are only pulled, which no walk follows.
-/

namespace ScriptGraph.Engine

open Json

/-! ## Where a loop stops -/

theorem toInt_loopStop (limits : Limits) (start stop : Int64) :
    (loopStop limits start stop).toInt =
      if limits.maxIterations.toNat <
        min (stop.toInt - start.toInt) Int64.maxValue.toInt then
        start.toInt + limits.maxIterations.toNat
      else stop.toInt := by
  have hlow : Int64.minValue.toInt = -2 ^ 63 := rfl
  have hhigh : Int64.maxValue.toInt = 2 ^ 63 - 1 := rfl
  have hzero : (0 : Int64).toInt = 0 := rfl
  have hrange := toInt_nearestInt64 (stop.toInt - start.toInt)
  have hstart := Int64.le_toInt start
  have hstop := Int64.toInt_lt stop
  unfold loopStop
  dsimp only
  split
  · next hlong =>
    rw [Int64.lt_iff_toInt_lt] at hlong
    rw [if_pos (by omega), toInt_nearestInt64]
    omega
  · next hshort =>
    rw [Int64.lt_iff_toInt_lt] at hshort
    rw [if_neg (by omega)]

/-- The limit is kept unless both the limit and the range are too large for
the subtraction. -/
theorem loopStop_sub_eq_min_iff (limits : Limits) (start stop : Int64) :
    ((loopStop limits start stop).toInt - start.toInt).toNat =
        min (stop.toInt - start.toInt).toNat limits.maxIterations.toNat ↔
      limits.maxIterations.toNat < Int64.maxValue.toInt ∨
        stop.toInt - start.toInt ≤ limits.maxIterations.toNat := by
  have hhigh : Int64.maxValue.toInt = 2 ^ 63 - 1 := rfl
  rw [toInt_loopStop, hhigh]
  split
  · omega
  · omega

namespace Recursive

/-! ## Rounds -/

def enterRound (setup : Setup) (id : String) (index : Int) (state : RunState) :
    RunState :=
  (state.setOutputs id (.single "index" (.ofInt index))).publish
    setup.limits.loopVariable (.ofInt index)

inductive Rounds (setup : Setup) (scope : Scope) (id pin : String) :
    Int → Nat → RunState → RunState → Prop
  | none (index : Int) (state : RunState) :
    Rounds setup scope id pin index 0 state state
  | next {index : Int} {count : Nat} {state middle after : RunState} :
      visitTarget setup scope id pin (enterRound setup id index state) =
        some (.finished, middle) →
      Rounds setup scope id pin (index + 1) count middle after →
      Rounds setup scope id pin index (count + 1) state after

/-- A walk comes from a loop in `state` to its end in `final`.  Either the
loop has gone round `count` times and the walk has gone on with what follows
it; or the walk has ended inside of an earlier round, at the step limit or in
the body of a function. -/
def LoopsTo (setup : Setup) (scope : Scope) (id pin : String)
    (rest : List Frame) (start : Int) (count : Nat) (state final : RunState) :
    Prop :=
  (∃ after, Rounds setup scope id pin start count state after ∧
    final = walkFrom setup scope (call setup)
      (Engine.visitTarget scope id completedPin ++ rest) after) ∨
  ∃ done < count, ∃ before, Rounds setup scope id pin start done state before ∧
    visitTarget setup scope id pin (enterRound setup id (start + done) before) =
      some (.stopped, final) ∧
    (final.activation.limitReported = true ∨ scope.isBody = true)

section Walks

variable {setup : Setup} {scope : Scope} {id pin : String} {rest : List Frame}

theorem LoopsTo.next {index : Int} {count : Nat} {state middle final : RunState}
    (hround : visitTarget setup scope id pin (enterRound setup id index state) =
      some (.finished, middle))
    (loops : LoopsTo setup scope id pin rest (index + 1) count middle final) :
    LoopsTo setup scope id pin rest index (count + 1) state final := by
  rcases loops with
    ⟨after, rounds, hfinal⟩ | ⟨done, hdone, before, rounds, hcut, hwhy⟩
  · exact .inl ⟨after, .next hround rounds, hfinal⟩
  · refine .inr ⟨done + 1, by omega, before, .next hround rounds, ?_, hwhy⟩
    rw [← hcut]
    congr 2
    push_cast
    omega

/-! ## What ends a walk -/

def Accounted (scope : Scope) (result : Ending × RunState) : Prop :=
  result.1 = .stopped → result.2.activation.limitReported = true ∨
    scope.isBody = true

theorem accounted_finished (state : RunState) :
    Accounted scope (.finished, state) :=
  fun h => nomatch h

theorem accounted_bind {first : Option (Ending × RunState)}
    {next : RunState → Option (Ending × RunState)} {result : Ending × RunState}
    (hfirst : ∀ result, first = some result → Accounted scope result)
    (hnext : ∀ state result, next state = some result → Accounted scope result)
    (h : (do
      match ← first with
      | (.stopped, state) => some (.stopped, state)
      | (.finished, state) =>
        next state) = some result) : Accounted scope result := by
  obtain ⟨⟨ending, middle⟩, hmiddle, h⟩ := Option.bind_eq_some_iff.mp h
  cases ending with
  | finished => exact hnext middle result h
  | stopped =>
      cases h
      exact hfirst _ hmiddle

theorem visit_accounted {state : RunState} {result : Ending × RunState}
    (h : visit setup scope id state = some result) :
    Accounted scope result := by
  -- Inside a body the exit may end any of its walks, so nothing is asked of
  -- calls and bodies.
  refine visit.partial_correctness setup (fun scope _ _ => Accounted scope)
    (fun scope _ _ _ => Accounted scope)
      (fun scope _ _ _ _ _ => Accounted scope)
    (fun scope _ _ _ => Accounted scope) (fun scope _ _ _ => Accounted scope)
    (fun _ _ _ _ => True) (fun _ _ _ => True) ?visit ?follow ?loopFrom
      ?visitTarget ?visitEach
    (fun _ _ _ _ _ _ _ => trivial) (fun _ _ _ _ _ _ => trivial) scope id state
      result h
  case visit =>
    intro follow callFunction hfollow _ scope id state result h
    split at h
    · next state hstep =>
      cases h
      have refused := (Machine.takeStep_refused hstep).2 scope [] []
      exact fun _ => .inl (congrArg Machine.Level.limitReported refused)
    · split at h
      · cases h
        exact accounted_finished _
      · split at h
        · next hexit =>
          cases h
          exact fun _ => .inr (Bool.and_eq_true_iff.mp hexit).1
        · split at h
          · obtain ⟨_, _, h⟩ := Option.bind_eq_some_iff.mp h
            exact hfollow _ _ _ _ _ h
          · split at h
            · cases h
              exact accounted_finished _
            · exact hfollow _ _ _ _ _ h
  case follow =>
    intro loopFrom visitTarget visitEach hloop htarget heach scope id
      output state result h
    dsimp only at h
    split at h
    · exact htarget _ _ _ _ _ h
    · exact heach _ _ _ _ _ h
    · exact hloop _ _ _ _ _ _ _ h
    · cases h
      exact accounted_finished _
    · cases h
      exact accounted_finished _
  case loopFrom =>
    intro loopFrom visitTarget hloop htarget scope id pin index stop state
      result h
    split at h
    · exact accounted_bind (htarget _ _ _ _) (hloop _ _ _ _ _) h
    · exact htarget _ _ _ _ _ h
  case visitTarget =>
    intro visit hvisit scope id pin state result h
    split at h
    · exact hvisit _ _ _ _ h
    · cases h
      exact accounted_finished _
  case visitEach =>
    intro visitTarget visitEach htarget heach scope id pins state result h
    split at h
    · cases h
      exact accounted_finished _
    · exact accounted_bind (htarget _ _ _ _) (heach _ _ _) h

theorem visitTarget_accounted {state : RunState} {result : Ending × RunState}
    (h : visitTarget setup scope id pin state = some result) :
    Accounted scope result := by
  rw [visitTarget] at h
  split at h
  · exact visit_accounted h
  · cases h
    exact accounted_finished _

/-! ## Walks through a loop -/

theorem walkFrom_target (setup : Setup) (scope : Scope) (id pin : String)
    (rest : List Frame) (state : RunState) :
    ∃ ending after,
      visitTarget setup scope id pin state = some (ending, after) ∧
      walkFrom setup scope (call setup)
        (Engine.visitTarget scope id pin ++ rest) state =
        resume setup scope rest ending after := by
  have later : VisitsAgreeAfter setup scope state := fun next after _ =>
    agrees_visit (calls_agree setup _) next after rfl
  obtain ⟨ending, after, hvisit, -, walked⟩ :=
    agrees_target later id pin (.refl state)
  exact ⟨ending, after, hvisit, walked rest⟩

theorem loopsTo_walkFrom (setup : Setup) (scope : Scope) (id pin : String)
    (rest : List Frame) (index stop : Int64) (state : RunState) :
    LoopsTo setup scope id pin rest index.toInt
      (stop.toInt - index.toInt).toNat state
      (walkFrom setup scope (call setup)
        (.loop id pin index stop :: rest) state) := by
  -- By induction on the rounds to go, where the index does not wrap around
  -- below `stop`.
  induction hleft : (stop.toInt - index.toInt).toNat
    generalizing index state with
  | zero =>
      have ended : ¬ index < stop := by
        intro h
        have hlt := Int64.lt_iff_toInt_lt.mp h
        omega
      refine .inl ⟨state, .none _ _, ?_⟩
      rw [walkFrom_cons setup scope (call_steady setup)]
      simp only [pop, iterate, if_neg ended]
  | succ left ih =>
      have running : index < stop := by
        rw [Int64.lt_iff_toInt_lt]
        omega
      have hnext := toInt_succ_of_lt running
      obtain ⟨ending, after, hvisit, walked⟩ :=
        walkFrom_target setup scope id pin
        (.loop id pin (index + 1) stop :: rest)
          (enterRound setup id index.toInt state)
      have popped :
          walkFrom setup scope (call setup)
            (.loop id pin index stop :: rest) state =
          resume setup scope
            (.loop id pin (index + 1) stop :: rest) ending after := by
        rw [walkFrom_cons setup scope (call_steady setup), ← walked]
        simp only [pop, iterate, if_pos running, enterRound]
      rw [popped]
      cases ending with
      | finished =>
          have loops := ih (index + 1) after (by omega)
          rw [hnext] at loops
          exact loops.next hvisit
      | stopped =>
          refine .inr ⟨0, Nat.succ_pos left, state, .none _ _, ?_,
            visitTarget_accounted hvisit rfl⟩
          rw [Int.natCast_zero, Int.add_zero]
          exact hvisit

theorem follow_loop {output : Output} {start stop current : Int64}
    (hflow : output.flow = .loop pin start stop current) (id : String)
    (rest : List Frame) (state : RunState) :
    Engine.follow setup scope id output rest state =
      (.loop id pin start (loopStop setup.limits start stop) :: rest,
        (state.setOutputs id output.values).syncVariables) := by
  simp only [Engine.follow, hflow, flowFrames, List.singleton_append]

end Walks

/-- How often a loop that is followed goes round, in any graph and any state:
as often as its range has indices, but no more often than the limit on
iterations allows, from its start on and each time to the end of its body.
Only the step limit and the exit of a body can end the walk before that. -/
theorem followed_loop_rounds (setup : Setup) (scope : Scope) (id : String)
    (output : Output) (rest : List Frame) (state : RunState) {pin : String}
    {start stop current : Int64}
    (hflow : output.flow = .loop pin start stop current)
    (hlimit : setup.limits.maxIterations.toNat < Int64.maxValue.toInt ∨
      stop.toInt - start.toInt ≤ setup.limits.maxIterations.toNat) :
    let (stack, followed) := Engine.follow setup scope id output rest state
    LoopsTo setup scope id pin rest start.toInt
      (min (stop.toInt - start.toInt).toNat setup.limits.maxIterations.toNat)
        followed
      (walkFrom setup scope (call setup) stack followed) := by
  rw [follow_loop hflow]
  rw [← (loopStop_sub_eq_min_iff setup.limits start stop).mpr hlimit]
  exact loopsTo_walkFrom setup scope id pin rest start _ _

/-! ### A loop that is stopped by its limit -/

namespace Capped

def setup : Setup where
  catalogue :=
    Catalogue.empty.registerAll
      (Library.FlowControl.kinds ++ Library.Utility.kinds)
  limits := { maxIterations := 2 }
  functions := .empty
  trigger := ⟨"start", none, none⟩

def scope : Scope where
  graph := .ofConnections
    [⟨"loop", "flow/ForLoop", .origin, .null⟩,
      ⟨"show", "utility/Print", .origin, .null⟩]
    [⟨"loop.body", "show.exec"⟩, ⟨"loop.index", "show.message"⟩]
  isBody := false

def state : RunState where
  activation := { view := ⟨.empty⟩ }
  services := {}

def output : Output := .loop "body" 5 9

theorem two_rounds :
    let (stack, followed) := Engine.follow setup scope "loop" output [] state
    let final := walkFrom setup scope (call setup) stack followed
    LoopsTo setup scope "loop" "body" [] 5 2 followed final ∧
      final.outputs? "loop" = some (.single "index" (.ofInt 6)) ∧
      final.activation.limitReported = false :=
  ⟨followed_loop_rounds setup scope "loop" output [] state rfl
    (.inl (by decide)), by decide +kernel, by decide +kernel⟩

end Capped

/-! ### A loop that is not followed, and one that its limit does not stop -/

namespace Uncapped

def looping : NodeKind where
  id := "test/Loop"
  name := "Loop"
  category := "Test"
  isPure := true
  pins := [.dataOut "x" .number, .execOut "body"]

def answer : Value :=
  .object [("result",
      .object [("end", .ofInt 3), ("pin", .text "body"), ("start", .ofInt 0),
      ("type", .text "loop")]),
    ("values", .object [("x", .ofInt 1)])]

def catalogue : Catalogue :=
  Catalogue.standard.register looping
    (Behavior.executor (.raw (some answer)) "loop")

def blueprint : Blueprint where
  id := "pulled"
  name := "Pulled"
  nodes := [⟨"start", "event/OnStart", .origin, .null⟩,
    ⟨"show", "utility/Print", .origin, .null⟩,
    ⟨"loop", "test/Loop", .origin, .null⟩,
    ⟨"body", "utility/Print", .origin, .null⟩]
  connections := [⟨"start.exec", "show.exec"⟩, ⟨"loop.x", "show.message"⟩,
    ⟨"loop.body", "body.exec"⟩, ⟨"loop.index", "body.message"⟩]

def setup : Setup :=
  { Capped.setup with limits := { maxIterations := 9223372036854775807 } }

def output : Output := .loop "body" (-1) Int64.maxValue

def scope : Scope := ⟨.ofConnections [] [], false⟩

/-- The three rounds that the kind asks for are not gone when it is pulled, and
another loop goes round once more than its limit allows. -/
theorem limit_not_kept :
    (Output.ofRaw (some answer) = ⟨.single "x" (.ofInt 1), .loop "body" 0 3 0⟩ ∧
      (runBlueprint catalogue {} blueprint ⟨"start", none, none⟩ {}).1 =
        { status := .completed
          outputs := .ofList
            [("loop", .single "x" (.ofInt 1)), ("show", .empty),
            ("start", .empty)] }) ∧
    setup.limits.maxIterations.toNat = 2 ^ 63 - 1 ∧
      let (stack, followed) :=
  Engine.follow setup scope "loop" output [] Capped.state
      Rounds setup scope "loop" "body" (-1) (2 ^ 63) followed
        (walkFrom setup scope (call setup) stack followed) := by
  refine ⟨⟨by decide +kernel, by decide +kernel⟩, by decide, ?_⟩
  have uncut : loopStop setup.limits (-1) Int64.maxValue = Int64.maxValue := by
    decide
  rw [follow_loop rfl, uncut]
  have loops := loopsTo_walkFrom setup scope "loop" "body" []
    (-1) Int64.maxValue
    (Capped.state.setOutputs "loop" output.values).syncVariables
  rcases loops with ⟨after, rounds, hfinal⟩ | ⟨_, _, _, _, hcut, -⟩
  · have unwired : Engine.visitTarget scope "loop" completedPin ++ [] =
        [] := rfl
    rw [unwired, walkFrom_nil] at hfinal
    rw [← hfinal] at rounds
    exact rounds
  · rw [visitTarget] at hcut
    cases hcut

end Uncapped

end Recursive

end ScriptGraph.Engine
