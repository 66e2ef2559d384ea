import Mathlib.Data.List.Infix
import ScriptGraph.Proofs.Ledgers
import ScriptGraph.Proofs.LoopRounds

/-!
# The frames of a loop

From the step that follows a node into its loop to the one that ends it, the
loop has one frame on the stack of its activation.  The frame lies below all
that the body does: the nodes it visits, other loops, also of the same node,
and functions that it calls.  It is told from the frames of other loops by the
frames that lie below it, which stay the same.

`Restacks` lists what a step of the machine does to the stack of an activation.
The frame of a loop comes to the next index when the loop goes round, and in no
other step, so the indices that the loop records follow one another, and the
sum of an index below a stop and one is never too large for 64 bits.
-/

namespace ScriptGraph.Engine

open Json

/-! ## Where a loop stops -/

def Overlong (limits : Limits) (start stop : Int64) : Prop :=
  let range := Binary64.nearestInt64 (stop.toInt - start.toInt)
  0 < range ∧ limits.maxIterations.toNat < range.toInt.toNat

theorem overlong_iff {limits : Limits} {start stop : Int64} :
    Overlong limits start stop ↔
    limits.maxIterations.toNat <
      min (stop.toInt - start.toInt) Int64.maxValue.toInt := by
  have hlow : Int64.minValue.toInt = -2 ^ 63 := rfl
  have hhigh : Int64.maxValue.toInt = 2 ^ 63 - 1 := rfl
  have hzero : (0 : Int64).toInt = 0 := rfl
  have hrange := toInt_nearestInt64 (stop.toInt - start.toInt)
  unfold Overlong
  dsimp only
  rw [Int64.lt_iff_toInt_lt]
  omega

theorem toInt_loopStop_of_overlong {limits : Limits} {start stop : Int64}
    (h : Overlong limits start stop) :
    (loopStop limits start stop).toInt =
      start.toInt + limits.maxIterations.toNat := by
  rw [toInt_loopStop, if_pos (overlong_iff.mp h)]

theorem loopStop_le (limits : Limits) (start stop : Int64) :
    loopStop limits start stop ≤ stop := by
  rw [Int64.le_iff_toInt_le, toInt_loopStop]
  split
  · omega
  · omega

theorem le_loopStop {limits : Limits} {start stop : Int64} (h : start < stop) :
    start ≤ loopStop limits start stop := by
  rw [Int64.lt_iff_toInt_lt] at h
  rw [Int64.le_iff_toInt_le, toInt_loopStop]
  split
  · omega
  · omega

namespace Machine

/-! ## The stack of a loop -/

/-- A loop under way, by what does not change until it is over. -/
structure Loop where
  node : String
  pin : String
  stop : Int64
  rest : List Frame
  deriving DecidableEq

def Loop.stack (loop : Loop) (index : Int64) : List Frame :=
  .loop loop.node loop.pin index loop.stop :: loop.rest

section Stacks

variable {loop other : Loop} {index after : Int64} {stack next : List Frame}

theorem Loop.stack_inj (h : loop.stack index = other.stack after) :
    loop = other ∧ index = after := by
  obtain ⟨node, pin, stop, rest⟩ := loop
  simp only [Loop.stack, List.cons.injEq, Frame.loop.injEq] at h
  obtain ⟨⟨rfl, rfl, rfl, rfl⟩, rfl⟩ := h
  exact ⟨rfl, rfl⟩

theorem Loop.index_unique (h : loop.stack index <:+ stack)
    (h' : loop.stack after <:+ stack) :
    after = index := by
  have hsame := List.suffix_of_suffix_length_le h' h (Nat.le_refl _)
  exact (Loop.stack_inj (hsame.eq_of_length rfl)).2

theorem Loop.not_suffix_rest : ¬loop.stack index <:+ loop.rest := by
  intro h
  have hlength := h.length_le
  simp only [Loop.stack, List.length_cons] at hlength
  omega

theorem Loop.suffix_of_visits {targets : List String}
    (h : loop.stack index <:+ targets.map .visit ++ stack) :
    loop.stack index <:+ stack := by
  induction targets with
  | nil => exact h
  | cons target targets ih =>
      rcases List.suffix_cons_iff.mp h with heq | h
      · cases heq
      · exact ih h

/-- What a step does to the stack of an activation, and the loop that goes
round in it with its index. -/
inductive Restacks (stack : List Frame) :
    Option (Loop × Int64) → List Frame → Prop where
  | push (frames : List Frame) : Restacks stack none (frames ++ stack)
  | clear : Restacks stack none []
  | pop {frame : Frame} {rest : List Frame} (targets : List String) :
      stack = frame :: rest → Restacks stack none (targets.map .visit ++ rest)
  | round (loop : Loop) {index : Int64} (targets : List String) :
      stack = loop.stack index → index < loop.stop →
      Restacks stack (some (loop, index))
        (targets.map .visit ++ loop.stack (index + 1))

def Loop.indexIn? (loop : Loop) (round : Loop × Int64) : Option Int64 :=
  if round.1 = loop then some round.2 else none

theorem Restacks.moves_index {round? : Option (Loop × Int64)}
    (h : Restacks stack round? next) (before : loop.stack index <:+ stack)
    (later : loop.stack after <:+ next) :
    round?.bind loop.indexIn? = some index ∧ index < loop.stop ∧
      after = index + 1 ∨ round?.bind loop.indexIn? = none ∧ after = index := by
  cases h with
  | push frames =>
      have below : loop.stack index <:+ frames ++ stack :=
        before.trans (List.suffix_append _ _)
      exact .inr ⟨rfl, Loop.index_unique below later⟩
  | clear =>
      have hnil := List.suffix_nil.mp later
      cases hnil
  | pop targets hstack =>
      subst hstack
      have later := Loop.suffix_of_visits later
      rcases List.suffix_cons_iff.mp before with heq | before
      · -- The frame of the loop itself is gone, and what is left is too short
        -- for another.
        obtain ⟨-, hrest⟩ := List.cons.inj heq
        rw [← hrest] at later
        exact absurd later Loop.not_suffix_rest
      · exact .inr ⟨rfl, Loop.index_unique before later⟩
  | @round other current targets hstack running =>
      subst hstack
      have later := Loop.suffix_of_visits later
      rcases List.suffix_cons_iff.mp before with heq | before
      · have heq : loop.stack index = other.stack current := heq
        obtain ⟨rfl, rfl⟩ := Loop.stack_inj heq
        exact .inl ⟨if_pos rfl, running,
          Loop.index_unique (List.suffix_refl _) later⟩
      · have hother : other ≠ loop := by
          rintro rfl
          exact Loop.not_suffix_rest before
        have below : loop.stack index <:+ other.stack (current + 1) :=
          before.trans (List.suffix_cons _ _)
        exact .inr ⟨if_neg hother, Loop.index_unique below later⟩

end Stacks

/-! ## What a step does to the stacks -/

/-- The stack of the activation below `depth` of the callers, where `hand` is
that of the activation above all of them; empty where there is no such
activation. -/
def stackBelow (depth : Nat) (hand : List Frame) : List Suspended → List Frame
  | [] => if depth = 0 then hand else []
  | caller :: callers =>
      if depth = callers.length + 1 then hand
      else stackBelow depth caller.stack callers

def Config.stackAt (depth : Nat) (config : Config) : List Frame :=
  stackBelow depth config.stack config.callers

def Config.goesRound? (config : Config) : Option (Loop × Int64) :=
  match config.gatherings, config.stack with
  | [], .loop node pin index stop :: rest =>
    if index < stop then some (⟨node, pin, stop, rest⟩, index) else none
  | _, _ => none

def Config.round? (depth : Nat) (config : Config) : Option (Loop × Int64) :=
  if config.callers.length = depth then config.goesRound? else none

section Steps

variable {setup : Setup} {config next : Config} {depth : Nat} {loop : Loop}
  {index : Int64}

theorem stackBelow_length (hand : List Frame) (callers : List Suspended) :
    stackBelow callers.length hand callers = hand := by
  cases callers with
  | nil => exact if_pos rfl
  | cons caller callers => exact if_pos rfl

theorem stackBelow_of_ne {callers : List Suspended} (h : callers.length ≠ depth)
    (hand other : List Frame) :
    stackBelow depth hand callers = stackBelow depth other callers := by
  have hdepth := Ne.symm h
  cases callers with
  | nil => exact (if_neg hdepth).trans (if_neg hdepth).symm
  | cons caller callers => exact (if_neg hdepth).trans (if_neg hdepth).symm

theorem stackBelow_of_lt {callers : List Suspended} (h : callers.length < depth)
    (hand : List Frame) : stackBelow depth hand callers = [] := by
  induction callers generalizing hand with
  | nil => exact if_neg (Nat.ne_of_gt h)
  | cons caller callers ih =>
      have hdepth : depth ≠ callers.length + 1 := Nat.ne_of_gt h
      rw [stackBelow, if_neg hdepth]
      exact ih (Nat.lt_of_succ_lt h) caller.stack

theorem round?_eq_some (h : config.round? depth = some (loop, index)) :
    config.callers.length = depth ∧ config.gatherings = [] ∧
      config.stack = loop.stack index ∧ index < loop.stop := by
  unfold Config.round? at h
  split at h
  · next hdepth =>
      unfold Config.goesRound? at h
      split at h
      · next hgatherings hstack =>
          split at h
          · next running =>
              cases h
              exact ⟨hdepth, hgatherings, hstack, running⟩
          · cases h
      · cases h
  · cases h

theorem goesRound?_gathering {gathering : Gathering} {more : List Gathering}
    (h : config.gatherings = gathering :: more) : config.goesRound? = none := by
  simp [Config.goesRound?, h]

theorem goesRound?_visit {id : String} {rest : List Frame}
    (h : config.stack = .visit id :: rest) : config.goesRound? = none := by
  simp [Config.goesRound?, h]

theorem goesRound?_nil (h : config.stack = []) : config.goesRound? = none := by
  simp [Config.goesRound?, h]

theorem Restacks.below {hand other : List Frame} {callers : List Suspended}
    {round? : Option (Loop × Int64)} (h : Restacks hand round? other) :
    Restacks (stackBelow depth hand callers)
      (if callers.length = depth then round? else none)
      (stackBelow depth other callers) := by
  split
  · next hdepth =>
      subst hdepth
      rw [stackBelow_length, stackBelow_length]
      exact h
  · next hdepth =>
      rw [stackBelow_of_ne hdepth other hand]
      exact .push []

theorem Restacks.at_hand (hcallers : next.callers = config.callers)
    (h : Restacks config.stack config.goesRound? next.stack) :
    Restacks (config.stackAt depth) (config.round? depth)
      (next.stackAt depth) := by
  rw [Config.stackAt, Config.stackAt, hcallers]
  exact h.below

theorem conclude_stack (setup : Setup) (job : Job)
    (answer : Except Failure Output) (config : Config) :
    ∃ frames, (conclude setup job answer config).stack =
      frames ++ config.stack := by
  unfold conclude
  cases job.demand with
  | visit => exact ⟨_, rfl⟩
  | pull => exact ⟨[], rfl⟩

theorem conclude_restacks {job : Job} {answer : Except Failure Output}
    {after : Config} {hand : List Frame} {callers : List Suspended}
    (hstack : after.stack = hand) (hcallers : after.callers = callers) :
    Restacks (stackBelow depth hand callers) none
      ((conclude setup job answer after).stackAt depth) := by
  obtain ⟨frames, hframes⟩ := conclude_stack setup job answer after
  rw [Config.stackAt, conclude_callers, hcallers, hframes, hstack,
    ← ite_self none]
  exact (Restacks.push frames).below

theorem Restacks.called (caller : Suspended) {hand : List Frame}
    {callers : List Suspended} (hcaller : caller.stack = hand)
    (body : List Frame) :
    Restacks (stackBelow depth hand callers) none
      (stackBelow depth body (caller :: callers)) := by
  subst hcaller
  rw [stackBelow]
  split
  · next hdepth =>
      rw [stackBelow_of_lt (by omega) caller.stack, ← List.append_nil body]
      exact .push body
  · exact .push []

theorem giveBack_restacks {caller : Suspended} {callers : List Suspended}
    (hcallers : config.callers = caller :: callers) (results : Table Value) :
    Restacks (config.stackAt depth) none
      ((giveBack setup results config.state caller callers
        config.pending).stackAt depth) := by
  unfold giveBack
  -- The body that returns is the activation in question, and gone, or lies
  -- above that.
  by_cases hdepth : depth = callers.length + 1
  · have hempty : ∀ job answer after, after.callers = callers →
        (conclude setup job answer after).stackAt depth = [] := by
      intro job answer after hafter
      rw [Config.stackAt, conclude_callers, hafter]
      exact stackBelow_of_lt (by omega) _
    rw [hempty _ _ _ rfl]
    exact .clear
  · have hbefore : config.stackAt depth =
        stackBelow depth caller.stack callers := by
      rw [Config.stackAt, hcallers, stackBelow, if_neg hdepth]
    rw [hbefore]
    exact conclude_restacks rfl rfl

theorem round?_gathering {gathering : Gathering} {more : List Gathering}
    (h : config.gatherings = gathering :: more) :
    config.round? depth = none := by
  rw [Config.round?, goesRound?_gathering h, ite_self]

theorem iterate_restacks {node pin : String} {index stop : Int64}
    {rest : List Frame} (hgatherings : config.gatherings = [])
    (hstack : config.stack = .loop node pin index stop :: rest) :
    Restacks config.stack config.goesRound?
      (iterate setup config.scope node pin index stop rest config.state).1 := by
  unfold iterate
  simp only [Config.goesRound?, hgatherings, hstack]
  split
  · next running => exact .round ⟨node, pin, stop, rest⟩ _ rfl running
  · next ended => exact .pop _ rfl

theorem Move.restacks (h : Move setup config next) :
    Restacks (config.stackAt depth) (config.round? depth)
      (next.stackAt depth) := by
  cases h with
  | bring hgatherings =>
      rw [round?_gathering hgatherings]
      exact .push []
  | openPull hgatherings hsource hunset hnode hhow hfresh =>
      rw [round?_gathering hgatherings]
      exact .push []
  | invoke hgatherings hhow =>
      rw [round?_gathering hgatherings]
      exact conclude_restacks rfl rfl
  | refuseCall hgatherings hhow hcallee =>
      rw [round?_gathering hgatherings]
      exact conclude_restacks rfl rfl
  | enter hgatherings hhow hcallee =>
      rw [round?_gathering hgatherings]
      -- The stack of the caller waits as it is, under that of the body.
      exact .called ⟨config.scope, config.stack, _, _, _, _⟩ rfl _
  | giveBack hgatherings hcallers =>
      rw [round?_gathering hgatherings]
      exact giveBack_restacks hcallers _
  | refuse hgatherings hstack htaken =>
      refine .at_hand rfl ?_
      rw [goesRound?_visit hstack]
      exact .clear
  | pass hgatherings hstack htaken hframes =>
      refine .at_hand rfl ?_
      rw [goesRound?_visit hstack]
      rcases hframes with ⟨-, rfl⟩ | ⟨-, rfl⟩
      · exact .pop [] hstack
      · exact .clear
  | unknown hgatherings hstack htaken hnode hexit hrunner =>
      refine .at_hand rfl ?_
      rw [goesRound?_visit hstack]
      exact .pop [] hstack
  | visit hgatherings hstack htaken hnode hexit hrunner =>
      refine .at_hand rfl ?_
      rw [goesRound?_visit hstack]
      exact .pop [] hstack
  | iterate hgatherings hstack =>
      exact .at_hand rfl (iterate_restacks hgatherings hstack)
  | collect hgatherings hstack hcallers =>
      refine .at_hand rfl ?_
      rw [goesRound?_nil hstack]
      exact .push []
  | nextEntry hgatherings hstack hcallers hpending =>
      refine .at_hand rfl ?_
      rw [goesRound?_nil hstack, hstack]
      exact .push [_]

/-! ## The rounds of a loop along an execution -/

/-- The loop is under way in the activation below `depth` callers, and `index`
is the next that it comes to. -/
def Config.LoopAt (depth : Nat) (loop : Loop) (index : Int64)
    (config : Config) : Prop :=
  loop.stack index <:+ config.stackAt depth

instance (depth : Nat) (loop : Loop) (index : Int64) (config : Config) :
    Decidable (config.LoopAt depth loop index) :=
  inferInstanceAs (Decidable (loop.stack index <:+ config.stackAt depth))

def Loop.indices (depth : Nat) (loop : Loop) (history : List Config) :
    List Int64 :=
  history.filterMap fun config => (config.round? depth).bind loop.indexIn?

structure Config.ShowsIndex (setup : Setup) (node : String) (index : Int64)
    (config : Config) :
    Prop where
  outputs : config.state.outputs? node =
    some (.single "index" (.ofInt index.toInt))
  view : config.state.activation.view.snapshot.get? setup.limits.loopVariable =
    some (.ofInt index.toInt)
  store : config.state.services.store.get? setup.limits.loopVariable =
    some (.ofInt index.toInt)

theorem round_shows (h : config.round? depth = some (loop, index)) :
    ∃ next, StepsTo setup config next ∧
      next.ShowsIndex setup loop.node index := by
  obtain ⟨-, hgatherings, hstack, running⟩ := round?_eq_some h
  let round :=
    iterate setup config.scope loop.node loop.pin index loop.stop loop.rest
      config.state
  have hround : round.2 =
      Recursive.enterRound setup loop.node index.toInt config.state := by
    simp only [round, iterate, if_pos running, Recursive.enterRound]
  refine ⟨{ config with stack := round.1, state := round.2 }, ?_, ?_⟩
  · simp only [StepsTo, step, hgatherings, walkOn, hstack, Loop.stack, round]
  · rw [hround]
    constructor
    · exact Table.get?_insert_self ..
    · exact Table.get?_insert_self ..
    · exact Table.get?_insert_self ..

variable {first last : Config} {history : List Config} {start : Int64}

theorem Passes.indices (h : Passes setup first history last)
    (begun : first.LoopAt depth loop start)
    (underWay : ∀ config ∈ history, ∃ index, config.LoopAt depth loop index)
    (reached : last.LoopAt depth loop index) :
    index.toInt = start.toInt + (loop.indices depth history).length ∧
      (loop.indices depth history).map Int64.toInt =
        (List.range (loop.indices depth history).length).map
          (fun k : Nat => start.toInt + k) ∧
      (loop.indices depth history ≠ [] → index ≤ loop.stop) := by
  -- The index is ahead of the start by as many as there have been rounds; only
  -- a round moves it.
  induction h generalizing index with
  | refl =>
      have hindex : index = start := Loop.index_unique begun reached
      simp [Loop.indices, hindex]
  | @tail history config next passed stepped ih =>
      rw [List.forall_mem_append, List.forall_mem_singleton] at underWay
      obtain ⟨earlier, current, here⟩ := underWay
      obtain ⟨hcurrent, hindices, hstop⟩ := ih earlier here
      rw [Loop.indices, List.filterMap_append, ← Loop.indices]
      rcases (step_moves stepped).restacks.moves_index here reached with
        ⟨hround, running, rfl⟩ | ⟨hround, rfl⟩
      · have hnext := toInt_succ_of_lt running
        rw [Int64.lt_iff_toInt_lt] at running
        simp only [List.filterMap_cons, hround, List.filterMap_nil,
          List.length_append, List.length_singleton, List.map_append, hindices,
          List.range_succ, List.map_singleton]
        refine ⟨by omega, by rw [hcurrent], fun _ => ?_⟩
        rw [Int64.le_iff_toInt_le]
        omega
      · simp only [List.filterMap_cons, hround, List.filterMap_nil,
          List.append_nil]
        exact ⟨hcurrent, hindices, hstop⟩

theorem Passes.index_bounds {stop : Int64} (h : Passes setup first history last)
    (hstop : loop.stop = loopStop setup.limits start stop)
    (begun : first.LoopAt depth loop start)
    (underWay : ∀ config ∈ history, ∃ index, config.LoopAt depth loop index)
    (reached : last.LoopAt depth loop index) :
    start ≤ index ∧
      (start < stop ∨ loop.indices depth history ≠ [] → index ≤ loop.stop) ∧
      ∀ taken ∈ loop.indices depth history, taken < stop := by
  obtain ⟨hindex, hindices, hbound⟩ := h.indices begun underWay reached
  refine ⟨?_, ?_, ?_⟩
  · rw [Int64.le_iff_toInt_le]
    omega
  · rintro (hrange | hsome)
    · by_cases hnone : loop.indices depth history = []
      · have hstart : index = start := by
          apply Int64.toInt_inj.mp
          simpa [hnone] using hindex
        rw [hstart, hstop]
        exact le_loopStop hrange
      · exact hbound hnone
    · exact hbound hsome
  · intro taken htaken
    have hend := Int64.le_iff_toInt_le.mp (loopStop_le setup.limits start stop)
    have hlast := Int64.le_iff_toInt_le.mp (hbound (List.ne_nil_of_mem htaken))
    rw [hstop] at hlast
    have hmem := List.mem_map_of_mem (f := Int64.toInt) htaken
    rw [hindices] at hmem
    obtain ⟨k, hk, htoInt⟩ := List.mem_map.mp hmem
    rw [List.mem_range] at hk
    rw [Int64.lt_iff_toInt_lt]
    omega

theorem StepsTo.begins_loop {stop : Int64} (stepped : StepsTo setup config next)
    (bounds : config.loopBounds? setup = some (start, stop)) :
    ∃ job pin, config.performs? = some job ∧ next.callers = config.callers ∧
      next.stack =
        Loop.stack ⟨job.node.id, pin, loopStop setup.limits start stop,
          config.stack⟩ start := by
  unfold Config.loopBounds? at bounds
  split at bounds
  · next node entry inputs more hgatherings =>
      split at bounds
      · next pin _ _ current hflow =>
          cases bounds
          simp only [StepsTo, step, hgatherings, perform,
            Option.some.injEq] at stepped
          subst stepped
          refine ⟨⟨.visit, node, .entry entry⟩, pin, ?_,
            conclude_callers _ _ _, ?_⟩
          · simp only [Config.performs?, hgatherings]
          · simp only [conclude, Job.invocation]
            rw [Recursive.follow_loop hflow]
            rfl
      · cases bounds
  · cases bounds

end Steps

/-! ## Runs -/

/-- The arithmetic of loops is exact.  Where a loop is to stop is never after
its end, and the sum that cuts a loop short is never too large.  From the step
that follows a node into a loop on, for as long as the loop is under way,
whatever its body does, its index lies between its start and its stop; the
indices that it has gone round for are its start and those that follow, one
after another, below its end; each has been shown by its node and the loop
variable, and the next has been found without going past the largest integer. -/
theorem loop_indices_exact (catalogue : Catalogue) (limits : Limits)
    (blueprint : Blueprint) (trigger : Trigger) (services : Services) :
    let setup := setupOf catalogue limits blueprint trigger
    let first := start catalogue blueprint trigger services
    (∃ final, Reaches setup first final ∧ Halted setup final ∧
      runBlueprint catalogue limits blueprint trigger services =
        (finalReport final.state, final.state.services)) ∧
    (∀ start stop : Int64, loopStop limits start stop ≤ stop ∧
      (¬Overlong limits start stop → loopStop limits start stop = stop) ∧
      (Overlong limits start stop →
        start.toInt + limits.maxIterations.toNat ≤ Int64.maxValue.toInt ∧
        (loopStop limits start stop).toInt =
          start.toInt + limits.maxIterations.toNat)) ∧
    ∀ begun followed start stop, Reaches setup first begun →
      begun.loopBounds? setup = some (start, stop) →
      StepsTo setup begun followed →
      ∃ job pin, begun.performs? = some job ∧
        let depth := begun.callers.length
        let loop : Loop :=
          ⟨job.node.id, pin, loopStop limits start stop, begun.stack⟩
        followed.stackAt depth = loop.stack start ∧
        ∀ history last index, Passes setup followed history last →
          (∀ config ∈ history, ∃ index, config.LoopAt depth loop index) →
          last.LoopAt depth loop index →
          let indices := loop.indices depth history
          (start ≤ index ∧ (start < stop ∨ indices ≠ [] → index ≤ loop.stop)) ∧
          indices.map Int64.toInt =
            (List.range indices.length).map (fun k : Nat => start.toInt + k) ∧
          (∀ taken ∈ indices, taken < stop) ∧
          ∀ config ∈ history, ∀ taken,
            config.round? depth = some (loop, taken) →
            (taken + 1).toInt = taken.toInt + 1 ∧
            ∃ next, StepsTo setup config next ∧
            next.ShowsIndex setup loop.node taken := by
  intro setup first
  refine ⟨run_reaches catalogue limits blueprint trigger services, ?_, ?_⟩
  · intro start stop
    refine ⟨loopStop_le limits start stop,
      (loopStop_eq_self_iff limits start stop).mpr, fun overlong => ?_⟩
    have hstop := toInt_loopStop_of_overlong overlong
    have hmax := Int64.toInt_lt (loopStop limits start stop)
    have hhigh : Int64.maxValue.toInt = 2 ^ 63 - 1 := rfl
    exact ⟨by omega, hstop⟩
  · intro begun followed start stop _ bounds stepped
    obtain ⟨job, pin, hjob, hcallers, hstack⟩ := stepped.begins_loop bounds
    refine ⟨job, pin, hjob, ?_⟩
    intro depth loop
    have hfollowed : followed.stackAt depth = loop.stack start := by
      rw [Config.stackAt, hcallers, stackBelow_length]
      exact hstack
    -- The walk that follows the node puts the loop on top of its stack.
    have entered : followed.LoopAt depth loop start := by
      rw [Config.LoopAt, hfollowed]
    refine ⟨hfollowed, fun history last index passed underWay reached => ?_⟩
    obtain ⟨-, hindices, -⟩ := passed.indices entered underWay reached
    obtain ⟨hstart, hstop, hbelow⟩ :=
      passed.index_bounds rfl entered underWay reached
    refine ⟨⟨hstart, hstop⟩, hindices, hbelow, fun config _ taken hround => ?_⟩
    exact ⟨toInt_succ_of_lt (round?_eq_some hround).2.2.2, round_shows hround⟩

/-! ### A loop with a function in its body -/

theorem stepsTo_runFor {setup : Setup} {count : Nat} {config : Config}
    (h : (step setup (runFor setup count config)).isSome) :
    StepsTo setup (runFor setup count config)
      (runFor setup (count + 1) config) := by
  induction count generalizing config with
  | zero =>
      obtain ⟨next, hnext⟩ := Option.isSome_iff_exists.mp h
      simp only [runFor] at hnext ⊢
      rw [StepsTo, hnext]
  | succ count ih =>
      unfold runFor at h ⊢
      cases hstep : step setup config with
      | none => simp [hstep] at h
      | some next =>
          rw [hstep] at h
          exact ih h

theorem passes_runFor {setup : Setup} {count : Nat} {config : Config}
    (h : ∀ k < count, (step setup (runFor setup k config)).isSome) :
    Passes setup config ((List.range count).map fun k => runFor setup k config)
      (runFor setup count config) := by
  induction count with
  | zero => exact .refl
  | succ count ih =>
      rw [List.range_succ, List.map_append]
      exact (ih fun k hk => h k (by omega)).tail
        (stepsTo_runFor (h count (by omega)))

namespace Counted

def blueprint : Blueprint where
  id := "counted"
  name := "Counted"
  nodes := [⟨"start", "event/OnStart", .origin, .null⟩,
    ⟨"loop", "flow/ForLoop", .origin,
      .object [("defaults", .object [("end", .ofInt 9), ("start", .ofInt 5)])]⟩,
    ⟨"call", "function/Call", .origin, .object [("function", .text "mark")]⟩]
  connections := [⟨"start.exec", "loop.exec"⟩, ⟨"loop.body", "call.exec"⟩]
  functions := .single "mark" Exact.mark

def catalogue : Catalogue :=
  Catalogue.empty.registerAll
    (Library.FlowControl.kinds ++ Library.Events.kinds ++ Library.Utility.kinds)

def limits : Limits := { maxIterations := 2 }

def trigger : Trigger := ⟨"start", none, none⟩

def setup : Setup := setupOf catalogue limits blueprint trigger

def first : Config := start catalogue blueprint trigger {}

def followed : Config := runFor setup 5 first

def history : List Config :=
  (List.range 16).map fun k => runFor setup k followed

def loop : Loop := ⟨"loop", "body", 7, []⟩

theorem two_indices :
    Overlong limits 5 9 ∧ loop.indices 0 history = [5, 6] ∧
      (∀ taken ∈ loop.indices 0 history, taken < 9) ∧
      ∀ config ∈ history, ∀ taken, config.round? 0 = some (loop, taken) →
        ∃ next, StepsTo setup config next ∧
        next.ShowsIndex setup "loop" taken := by
  have bounds : (runFor setup 4 first).loopBounds? setup = some (5, 9) := by
    decide +kernel
  have stepped : StepsTo setup (runFor setup 4 first) followed :=
    stepsTo_runFor (by decide +kernel)
  have underWay : ∀ config ∈ history, ∃ index ∈ [5, 6, 7],
      config.LoopAt 0 loop index := by
    decide +kernel
  obtain ⟨job, pin, -, hstack, known⟩ :=
    (loop_indices_exact catalogue limits blueprint
    trigger {}).2.2 _ followed 5 9 (reaches_runFor setup 4 first) bounds stepped
  have hcallers : (runFor setup 4 first).callers.length = 0 := by decide +kernel
  have hfollowed : followed.stackAt 0 = loop.stack 5 := by decide +kernel
  rw [hcallers] at hstack known
  rw [(Loop.stack_inj (hstack.symm.trans hfollowed)).1] at known
  obtain ⟨-, -, hbelow, hshown⟩ := known history (runFor setup 16 followed) 7
    (passes_runFor (by decide +kernel))
    (fun config hconfig => (underWay config hconfig).imp fun _ h => h.2)
      (by decide +kernel)
  refine ⟨overlong_iff.mpr (by decide), by decide +kernel, hbelow, ?_⟩
  exact fun config hconfig taken hround =>
    (hshown config hconfig taken hround).2

end Counted

end Machine

end ScriptGraph.Engine
