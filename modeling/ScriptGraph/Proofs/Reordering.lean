import Mathlib.Data.List.FinRange
import Mathlib.Data.List.Sort
import ScriptGraph.Proofs.Endpoints
import ScriptGraph.Proofs.Gathered

/-!
# The order of connections

The order of connections decides which of the wires from a pin control takes,
which of the wires into a pin counts, and in which order sources are pulled.
The first two only depend on how connections with a common end follow each
other.  If nothing but the third is changed, then gathering the inputs of a
node evaluates the same nodes to the same values.

So two runs whose connections are listed in such different orders go through
states that differ in the order of their diagnostics.  Every operation of a walk
preserves this, and calls, which see no diagnostics but their own, do too.
-/

namespace ScriptGraph

/-! ## Lists in another order -/

/-- One list holds the elements of the other in an order that leaves those that
are related as they are. -/
def Reorders {α : Type} (related : α → α → Prop) (one other : List α) : Prop :=
  ∃ order : Fin other.length ≃ Fin one.length,
    (∀ i, other.get i = one.get (order i)) ∧
      ∀ i j, i < j → related (other.get i) (other.get j) → order i < order j

theorem Reorders.filter_eq {α : Type} {related : α → α → Prop}
    {one other : List α} (h : Reorders related one other) (p : α → Bool)
    (hp : ∀ x y, p x = true → p y = true → related x y) :
    other.filter p = one.filter p := by
  obtain ⟨order, hget, hkeeps⟩ := h
  have hother : other.filter p =
      (((List.finRange other.length).filter fun i => p (other.get i)).map
        order).map one.get := by
    conv_lhs => rw [← List.map_get_finRange other]
    rw [List.filter_map, List.map_map]
    exact List.map_congr_left fun i _ => hget i
  have hone : one.filter p =
      ((List.finRange one.length).filter fun i => p (one.get i)).map
        one.get := by
    conv_lhs => rw [← List.map_get_finRange one]
    rw [List.filter_map]
    rfl
  rw [hother, hone]
  congr 1
  -- Both lists of positions ascend and have the same members.
  refine List.Pairwise.eq_of_mem_iff ?_
    ((List.sortedLT_finRange _).pairwise.filter _) ?_
  · rw [List.pairwise_map]
    refine ((List.sortedLT_finRange _).pairwise.filter _).imp_of_mem
      fun {i j} hi hj hlt => ?_
    exact hkeeps i j hlt
      (hp _ _ (List.mem_filter.mp hi).2 (List.mem_filter.mp hj).2)
  · intro k
    simp only [List.mem_map, List.mem_filter, List.mem_finRange, true_and, hget]
    constructor
    · rintro ⟨i, hi, rfl⟩
      exact hi
    · intro hk
      exact ⟨order.symm k, by simpa using hk, order.apply_symm_apply k⟩

/-! ## Connections -/

def Connection.SharesEnd (one other : Connection) : Prop :=
  one.source = other.source ∨ one.target = other.target

instance (one other : Connection) :
    Decidable (Connection.SharesEnd one other) :=
  inferInstanceAs (Decidable (_ ∨ _))

namespace Engine

open Json

open Machine

open Naive (Acyclic Feeds PureKindsRead)

/-! ## Graphs that are wired alike -/

/-- Two graphs with the same nodes, in which control takes the same ways and
the wires into a pin come in the same order. -/
structure WiredAlike (setup : Setup) (one other : Scope) : Prop where
  nodes : other.graph.nodes = one.graph.nodes
  isBody : other.isBody = one.isBody
  targets : ∀ node pin,
    other.graph.target? node pin = one.graph.target? node pin
  inputs : ∀ id pin,
    (inputWires setup other id).filter (fun wire => wire.2 == pin) =
    (inputWires setup one id).filter fun wire => wire.2 == pin

section Wiring

variable {setup : Setup}

theorem filter_ends_eq {one other : List Connection}
    (reorders : Reorders Connection.SharesEnd one other)
    (part : Wire → Option Endpoint) (text : Connection → String)
    (endpoint : Endpoint)
    (hpart : ∀ connection,
      part connection.wire = Endpoint.parse? (text connection))
    (hshares : ∀ x y, text x = text y → Connection.SharesEnd x y) :
    (other.map Connection.wire).filter
      (fun wire => part wire == some endpoint) =
      (one.map Connection.wire).filter fun wire =>
        part wire == some endpoint := by
  rw [List.filter_map, List.filter_map]
  refine congrArg _ (reorders.filter_eq _ fun x y hx hy => hshares x y ?_)
  have hends : ∀ connection, part connection.wire = some endpoint →
      text connection = endpoint.render := by
    intro connection h
    rw [hpart] at h
    exact (Endpoint.render_of_parse? h).symm
  rw [hends x (by simpa using hx), hends y (by simpa using hy)]

theorem filter_dataWires (scope : Scope) (kind? : Option NodeKind)
    (id pin : String) :
    (dataWires setup scope kind? id).filter (fun wire => wire.2 == pin) =
      (scope.graph.wires.filter fun wire =>
        wire.target == some ⟨id, pin⟩).filterMap
        (dataWire? setup scope kind?) := by
  unfold dataWires Graph.wiresInto
  rw [List.filterMap_filter, List.filterMap_filter, List.filter_filterMap]
  refine congrArg (fun f => scope.graph.wires.filterMap f)
    (funext fun wire => ?_)
  rcases wire with ⟨_ | source, _ | target⟩
  · rfl
  · simp [dataWire?]
  · rfl
  · obtain ⟨node, targetPin⟩ := target
    cases hcontrol : carriesControl setup scope kind? source
      ⟨node, targetPin⟩ with
    | true => simp [dataWire?, hcontrol]
    | false =>
        by_cases hnode : node = id
        · subst hnode
          by_cases hpin : targetPin = pin
          · subst hpin
            simp [dataWire?, hcontrol]
          · simp [dataWire?, hcontrol, hpin]
        · simp [hnode]

theorem wiredAlike_of_reorders (setup : Setup) (nodes : List Node)
    (isBody : Bool) {one other : List Connection}
    (reorders : Reorders Connection.SharesEnd one other) :
    WiredAlike setup ⟨.ofConnections nodes one, isBody⟩
      ⟨.ofConnections nodes other, isBody⟩ := by
  refine ⟨rfl, rfl, fun node pin => ?_, fun id pin => ?_⟩
  · exact congrArg _
      (filter_ends_eq reorders Wire.source Connection.source ⟨node, pin⟩
      (fun _ => rfl) fun _ _ => .inl)
  · have hnode : (Graph.ofConnections nodes other).node? id =
        (Graph.ofConnections nodes one).node? id := rfl
    unfold inputWires
    rw [hnode]
    cases (Graph.ofConnections nodes one).node? id with
    | none => rfl
    | some node =>
        dsimp only
        rw [filter_dataWires, filter_dataWires]
        exact congrArg _
          (filter_ends_eq reorders Wire.target Connection.target ⟨id, pin⟩
          (fun _ => rfl) fun _ _ => .inr)

theorem get?_overlayAll (value : Endpoint → Option Value)
    (wires : List (Endpoint × String)) (pin : String)
    {inputs others : Table Value} (h : inputs.get? pin = others.get? pin) :
    (overlayAll value wires inputs).get? pin =
      (overlayAll value (wires.filter fun wire => wire.2 == pin) others).get?
        pin := by
  induction wires generalizing inputs others with
  | nil => exact h
  | cons wire rest ih =>
      by_cases hpin : wire.2 = pin
      · rw [List.filter_cons_of_pos (by simpa using hpin)]
        refine ih ?_
        rw [Naive.get?_overlay, Naive.get?_overlay, h]
      · rw [List.filter_cons_of_neg (by simpa using hpin)]
        refine ih ?_
        rw [Naive.get?_overlay, if_neg hpin]
        exact h

namespace WiredAlike

variable {one other : Scope} (wired : WiredAlike setup one other)
include wired

theorem node?_eq (id : String) : other.graph.node? id = one.graph.node? id := by
  unfold Graph.node?
  rw [wired.nodes]

theorem pullable?_eq (id : String) :
    pullable? setup other id = pullable? setup one id := by
  unfold pullable?
  rw [wired.node?_eq]

theorem mem_inputWires (id : String) (wire : Endpoint × String) :
    wire ∈ inputWires setup one id ↔ wire ∈ inputWires setup other id := by
  have mem_filter : ∀ wires : List (Endpoint × String),
      wire ∈ wires ↔ wire ∈ wires.filter fun found => found.2 == wire.2 := by
    simp [List.mem_filter]
  rw [mem_filter, ← wired.inputs, ← mem_filter]

theorem mem_sourcesOf (id source : String) :
    source ∈ sourcesOf setup one id ↔ source ∈ sourcesOf setup other id := by
  simp only [sourcesOf, List.mem_map, wired.mem_inputWires]

theorem acyclic (h : Acyclic setup one) : Acyclic setup other := by
  have hfeeds : Feeds setup other = Feeds setup one := by
    funext source target
    simp only [Feeds, wired.pullable?_eq, wired.mem_inputWires]
  unfold Acyclic
  rw [hfeeds]
  exact h

theorem inputsFrom_eq (value : Endpoint → Option Value) (id : String) :
    inputsFrom setup other value id = inputsFrom setup one value id := by
  have hdefaults : inputDefaults setup other id =
      inputDefaults setup one id := by
    unfold inputDefaults
    rw [wired.node?_eq]
  refine Table.ext_get? fun pin => ?_
  unfold inputsFrom
  rw [get?_overlayAll value _ pin rfl, wired.inputs, hdefaults,
    ← get?_overlayAll value _ pin rfl]

theorem brought_eq (state : RunState) (found : String → Yield) :
    brought setup other state found = brought setup one state found := by
  unfold brought
  simp only [wired.pullable?_eq]

theorem visitTarget_eq (node pin : String) :
    visitTarget other node pin = visitTarget one node pin := by
  unfold visitTarget
  rw [wired.targets]

theorem flowFrames_eq (node : String) (flow : Flow) :
    flowFrames setup other node flow = flowFrames setup one node flow := by
  have htargets : visitTarget other node = visitTarget one node :=
    funext (wired.visitTarget_eq node)
  cases flow <;> simp [flowFrames, htargets]

end WiredAlike

end Wiring

/-! ## States that differ in the order of their diagnostics -/

def RunState.withReports (state : RunState) (diagnostics : Array Diagnostic) :
    RunState :=
  { state with activation := { state.activation with diagnostics } }

def Alike (one other : RunState) : Prop :=
  ∃ diagnostics : Array Diagnostic,
    diagnostics.toList.Perm one.activation.diagnostics.toList ∧
      other = one.withReports diagnostics

def AlikeAfter {α : Type} (one other : α × RunState) : Prop :=
  other.1 = one.1 ∧ Alike one.2 other.2

section Operations

variable {setup : Setup} {one other : Scope} {state after : RunState}

theorem report_alike (alike : Alike state after) (node : String)
    (condition : Condition) (message : String) :
    Alike (state.report node condition message)
      (after.report node condition message) := by
  obtain ⟨diagnostics, hperm, rfl⟩ := alike
  refine ⟨diagnostics.push ⟨node, condition, message⟩, ?_, rfl⟩
  simpa [RunState.report] using hperm.append_right [⟨node, condition, message⟩]

theorem takeStep_alike (alike : Alike state after) (limits : Limits)
    (node : String) :
    AlikeAfter (state.takeStep limits node) (after.takeStep limits node) := by
  obtain ⟨diagnostics, hperm, rfl⟩ := alike
  by_cases hsteps : state.activation.steps < limits.maxSteps.toNat
  · simp only [RunState.takeStep, RunState.withReports, hsteps, if_true]
    exact ⟨rfl, diagnostics, hperm, rfl⟩
  · by_cases hlimit : state.activation.limitReported = true
    · simp only [RunState.takeStep, RunState.withReports, hsteps, hlimit,
        if_true, if_false]
      exact ⟨rfl, diagnostics, hperm, by simp [RunState.withReports, hlimit]⟩
    · simp only [RunState.takeStep, RunState.withReports, hsteps, hlimit,
        if_false]
      refine ⟨rfl, diagnostics.push ⟨node, .stepLimit, _⟩, ?_, rfl⟩
      simpa [RunState.report] using hperm.append_right [_]

theorem invoke_alike (alike : Alike state after) (entry : Entry)
    (inv : Invocation) :
    AlikeAfter (state.invoke entry inv) (after.invoke entry inv) := by
  obtain ⟨diagnostics, hperm, rfl⟩ := alike
  exact ⟨rfl, diagnostics, hperm, rfl⟩

theorem call_alike (setup : Setup) (alike : Alike state after) (node : Node)
    (inputs : Table Value) :
    AlikeAfter (call setup node inputs state)
      (call setup node inputs after) := by
  obtain ⟨diagnostics, hperm, rfl⟩ := alike
  cases hcallee : callee setup node state.activation.depth with
  | error cause =>
      have hother :
          callee setup node (state.withReports diagnostics).activation.depth =
            .error cause := hcallee
      rw [call_of_callee_error inputs hcallee,
        call_of_callee_error inputs hother]
      exact ⟨rfl, diagnostics, hperm, rfl⟩
  | ok function =>
      have hother :
          callee setup node (state.withReports diagnostics).activation.depth =
            .ok function := hcallee
      rw [call_of_callee_ok hcallee, call_of_callee_ok hother]
      refine ⟨rfl, (leaveBody node.id (returned setup function inputs state).2
        (state.withReports diagnostics)).activation.diagnostics, ?_, rfl⟩
      rw [leaveBody_diagnostics, leaveBody_diagnostics]
      exact hperm.append_right _

theorem keep_alike (alike : Alike state after) (found : String → Yield)
    {ids others : List String} (hperm : others.Perm ids) :
    Alike (state.keep found ids) (after.keep found others) := by
  obtain ⟨diagnostics, hsame, rfl⟩ := alike
  have houtputs : (state.keep found others).activation.outputs =
      (state.keep found ids).activation.outputs := by
    refine Table.ext_get? fun id => ?_
    change (state.keep found others).outputs? id =
      (state.keep found ids).outputs? id
    simp only [outputs?_keep, hperm.mem_iff]
  refine ⟨diagnostics ++ (others.flatMap fun id => (found id).reports).toArray,
    ?_, ?_⟩
  · simpa [RunState.keep] using hsame.append (hperm.flatMap_right _)
  · simp only [RunState.keep, RunState.withReports] at houtputs ⊢
    rw [houtputs]

theorem iterate_alike (wired : WiredAlike setup one other)
    (alike : Alike state after) (node pin : String) (index stop : Int64)
    (rest : List Frame) :
    AlikeAfter (iterate setup one node pin index stop rest state)
      (iterate setup other node pin index stop rest after) := by
  obtain ⟨diagnostics, hperm, rfl⟩ := alike
  simp only [iterate, wired.visitTarget_eq]
  split
  · exact ⟨rfl, diagnostics, hperm, rfl⟩
  · exact ⟨rfl, diagnostics, hperm, rfl⟩

theorem follow_alike (wired : WiredAlike setup one other)
    (alike : Alike state after) (node : String) (output : Output)
    (rest : List Frame) :
    AlikeAfter (follow setup one node output rest state)
      (follow setup other node output rest after) := by
  have kept : Alike (state.setOutputs node output.values).syncVariables
      (after.setOutputs node output.values).syncVariables := by
    obtain ⟨diagnostics, hperm, rfl⟩ := alike
    exact ⟨diagnostics, hperm, rfl⟩
  simp only [follow, wired.flowFrames_eq]
  refine ⟨rfl, ?_⟩
  cases output.flow with
  | error message => exact report_alike kept node .nodeError message
  | _ => exact kept

theorem WiredAlike.ready (wired : WiredAlike setup one other)
    (alike : Alike state after) {found : String → Yield}
    (ready : Ready setup one found state) :
    Ready setup other found after := by
  obtain ⟨diagnostics, -, rfl⟩ := alike
  refine ⟨ready.synced, fun id node how hpullable huncached => ?_⟩
  rw [wired.pullable?_eq] at hpullable
  have hfound := ready.solves id node how hpullable huncached
  rw [← wired.inputsFrom_eq, ← wired.brought_eq] at hfound
  exact hfound

theorem WiredAlike.brought_alike (wired : WiredAlike setup one other)
    (alike : Alike state after) (found : String → Yield) :
    brought setup other after found = brought setup one state found := by
  obtain ⟨diagnostics, -, rfl⟩ := alike
  exact wired.brought_eq state found

theorem WiredAlike.isOpen_iff (wired : WiredAlike setup one other)
    (alike : Alike state after) (id : String) :
    IsOpen setup one state id ↔ IsOpen setup other after id := by
  obtain ⟨diagnostics, -, rfl⟩ := alike
  unfold IsOpen
  rw [wired.pullable?_eq]
  rfl

end Operations

/-! ## Walks -/

structure Rests (state : RunState) : Prop where
  synced : Synced state
  idle : state.activation.pulling = []

section Walks

variable {setup : Setup} {one other : Scope} {state after : RunState}

theorem Rests.takeStep (rests : Rests state) {id : String} {allowed : Bool}
    (h : state.takeStep setup.limits id = (allowed, after)) : Rests after := by
  refine ⟨takeStep_synced rests.synced h, ?_⟩
  have advances := (Advances.refl state).takeStep setup.limits id
  rw [h] at advances
  exact advances.pulling.trans rests.idle

theorem visit_synced (setup : Setup) (scope : Scope) (synced : Synced state)
    (id : String) (rest : List Frame) :
    Synced (visit setup scope (call setup) id rest state).2 := by
  unfold visit
  cases scope.graph.node? id with
  | none => exact synced
  | some node =>
      dsimp only
      split
      · exact synced
      · split
        · exact follow_synced ..
        · cases setup.catalogue.lookup node.kind with
          | none => exact synced
          | some entry => exact follow_synced ..

theorem Rests.pop (setup : Setup) (scope : Scope) (rests : Rests state)
    (frame : Frame) (rest : List Frame) :
    Rests (pop setup scope (call setup) frame rest state).2 := by
  have advances := pop_advances setup scope (call_steady setup) frame rest state
  refine ⟨?_, advances.pulling.trans rests.idle⟩
  cases frame with
  | loop node pin index stop =>
      exact iterate_synced rests.synced node pin index stop rest
  | visit id =>
      simp only [Engine.pop]
      rcases htaken : state.takeStep setup.limits id with ⟨allowed, middle⟩
      have synced := takeStep_synced rests.synced htaken
      cases allowed with
      | false => exact synced
      | true => exact visit_synced setup scope synced id rest

structure Comparable (setup : Setup) (one other : Scope) : Prop
    extends WiredAlike setup one other where
  reading : PureKindsRead setup.catalogue
  acyclic : Acyclic setup one

theorem gather_alike (comparable : Comparable setup one other)
    (rests : Rests state) (alike : Alike state after) (id : String) :
    AlikeAfter (gather setup one (call setup) id state)
      (gather setup other (call setup) id after) := by
  have wired := comparable.toWiredAlike
  obtain ⟨found, solves⟩ := exists_solution comparable.acyclic state
  have ready : Ready setup one found state := ⟨rests.synced, solves⟩
  have idle : after.activation.pulling = [] := by
    obtain ⟨diagnostics, -, rfl⟩ := alike
    exact rests.idle
  obtain ⟨ids, collects, hone⟩ :=
    gather_keeps comparable.reading comparable.acyclic ready rests.idle id
  obtain ⟨others, collected, hother⟩ := gather_keeps comparable.reading
    (wired.acyclic comparable.acyclic) (wired.ready alike ready) idle id
  -- Both have evaluated the same nodes.
  have hperm : others.Perm ids := collected.perm
    (collects.congr (wired.mem_sourcesOf id)
      (wired.isOpen_iff alike) wired.mem_inputWires)
  rw [hone, hother]
  refine ⟨?_, keep_alike alike found hperm⟩
  dsimp only
  rw [wired.inputsFrom_eq, wired.brought_alike alike]

theorem visitCall_alike (comparable : Comparable setup one other)
    (rests : Rests state) (alike : Alike state after) (node : Node) :
    AlikeAfter (visitCall setup one (call setup) node state)
      (visitCall setup other (call setup) node after) := by
  obtain ⟨hinputs, gathered⟩ := gather_alike comparable rests alike node.id
  obtain ⟨houtcome, called⟩ := call_alike setup gathered node
    (gather setup one (call setup) node.id state).1
  simp only [visitCall]
  rw [hinputs, houtcome]
  exact ⟨rfl, called⟩

theorem visitEntry_alike (comparable : Comparable setup one other)
    (rests : Rests state) (alike : Alike state after) (entry : Entry)
    (node : Node) :
    AlikeAfter (visitEntry setup one (call setup) entry node state)
      (visitEntry setup other (call setup) entry node after) := by
  obtain ⟨hinputs, gathered⟩ := gather_alike comparable rests alike node.id
  have hinv : visitInvocation setup node
      (gather setup one (call setup) node.id state).1
      (gather setup other (call setup) node.id after).2 =
        visitInvocation setup node
          (gather setup one (call setup) node.id state).1
          (gather setup one (call setup) node.id state).2 := by
    obtain ⟨diagnostics, -, heq⟩ := gathered
    rw [heq]
    rfl
  simp only [visitEntry]
  rw [hinputs, hinv]
  obtain ⟨houtcome, invoked⟩ := invoke_alike gathered entry
    (visitInvocation setup node (gather setup one (call setup) node.id state).1
      (gather setup one (call setup) node.id state).2)
  exact ⟨congrArg outputOf houtcome, invoked⟩

theorem visit_alike (comparable : Comparable setup one other)
    (rests : Rests state) (alike : Alike state after) (id : String)
    (rest : List Frame) :
    AlikeAfter (visit setup one (call setup) id rest state)
      (visit setup other (call setup) id rest after) := by
  have wired := comparable.toWiredAlike
  unfold visit
  rw [wired.node?_eq, wired.isBody]
  cases one.graph.node? id with
  | none => exact ⟨rfl, alike⟩
  | some node =>
      dsimp only
      split
      · exact ⟨rfl, alike⟩
      · split
        · obtain ⟨houtput, called⟩ :=
            visitCall_alike comparable rests alike node
          rw [houtput]
          exact follow_alike wired called id _ rest
        · cases setup.catalogue.lookup node.kind with
          | none => exact ⟨rfl, report_alike alike _ _ _⟩
          | some entry =>
              obtain ⟨houtput, invoked⟩ :=
                visitEntry_alike comparable rests alike entry node
              dsimp only
              rw [houtput]
              exact follow_alike wired invoked id _ rest

theorem pop_alike (comparable : Comparable setup one other)
    (rests : Rests state) (alike : Alike state after) (frame : Frame)
    (rest : List Frame) :
    AlikeAfter (pop setup one (call setup) frame rest state)
      (pop setup other (call setup) frame rest after) := by
  cases frame with
  | loop node pin index stop =>
      obtain ⟨hstack, iterated⟩ :=
        iterate_alike comparable.toWiredAlike alike node pin index stop rest
      exact ⟨congrArg some hstack, iterated⟩
  | visit id =>
      obtain ⟨hallowed, taken⟩ := takeStep_alike alike setup.limits id
      simp only [pop]
      rcases htaken : state.takeStep setup.limits id with ⟨allowed, middle⟩
      rcases hother : after.takeStep setup.limits id with ⟨same, next⟩
      rw [htaken, hother] at hallowed taken
      obtain rfl : same = allowed := hallowed
      cases same with
      | false => exact ⟨rfl, taken⟩
      | true =>
          obtain ⟨hstack, visited⟩ :=
            visit_alike comparable (rests.takeStep htaken) taken id rest
          exact ⟨congrArg some hstack, visited⟩

theorem walkWithin_alike (comparable : Comparable setup one other) (fuel : Nat)
    (stack : List Frame) (rests : Rests state) (alike : Alike state after) :
    Rests (walkWithin setup one (call setup) fuel stack state) ∧
      Alike (walkWithin setup one (call setup) fuel stack state)
        (walkWithin setup other (call setup) fuel stack after) := by
  induction fuel generalizing stack state after with
  | zero => exact ⟨rests, alike⟩
  | succ fuel ih =>
      cases stack with
      | nil => exact ⟨rests, alike⟩
      | cons frame rest =>
          have popped := rests.pop setup one frame rest
          obtain ⟨hstack, alike⟩ := pop_alike comparable rests alike frame rest
          simp only [walkWithin]
          rcases hone : pop setup one (call setup) frame rest state with
            ⟨stack, middle⟩
          rcases hother : pop setup other (call setup) frame rest after with
            ⟨same, next⟩
          rw [hone] at popped
          rw [hone, hother] at hstack alike
          obtain rfl : same = stack := hstack
          cases same with
          | none => exact ⟨popped, alike⟩
          | some stack => exact ih stack popped alike

theorem walk_alike (comparable : Comparable setup one other) (id : String)
    (rests : Rests state) (alike : Alike state after) :
    Rests (walk setup one (call setup) id state) ∧
      Alike (walk setup one (call setup) id state)
        (walk setup other (call setup) id after) := by
  have hfuel : popBound setup.limits after = popBound setup.limits state := by
    obtain ⟨diagnostics, -, rfl⟩ := alike
    rfl
  rw [walk, walk, hfuel]
  exact walkWithin_alike comparable _ [.visit id] rests alike

theorem walkEntries_alike (comparable : Comparable setup one other)
    (entries : List Node) (rests : Rests state) (alike : Alike state after) :
    Alike (walkEntries setup one entries state)
      (walkEntries setup other entries after) := by
  induction entries generalizing state after with
  | nil => exact alike
  | cons entry rest ih =>
      obtain ⟨walked, alike⟩ := walk_alike comparable entry.id rests alike
      rw [walkEntries_cons, walkEntries_cons, ← walk_eq_walkFrom,
        ← walk_eq_walkFrom]
      exact ih walked alike

end Walks

/-! ## Runs -/

/-- The order of connections that have no end in common does not matter: if the
connections of a blueprint are listed in another order, in which those from the
same pin and those to the same pin still follow each other as before, then a
run has the same outputs and variables, leaves the same services and reports
the same diagnostics, if perhaps in another order.  The data wires between
nodes that can be pulled may not form a cycle in the graph of the blueprint, and
executors of pure kinds may not write to the services. -/
theorem reordered_run (catalogue : Catalogue) (limits : Limits)
    (blueprint : Blueprint) (trigger : Trigger) (services : Services)
    (connections : List Connection) (reading : PureKindsRead catalogue)
    (acyclic : Acyclic (setupOf catalogue limits blueprint trigger)
      ⟨blueprint.graph, false⟩)
    (reorders : Reorders Connection.SharesEnd blueprint.connections
      connections) :
    let run := runBlueprint catalogue limits blueprint trigger services
    let reordered :=
      runBlueprint catalogue limits
        { blueprint with connections } trigger services
    reordered.1.outputs = run.1.outputs ∧
      reordered.1.finalVariables = run.1.finalVariables ∧
      reordered.2 = run.2 ∧
      reordered.1.diagnostics.Perm run.1.diagnostics := by
  intro run reordered
  have comparable : Comparable (setupOf catalogue limits blueprint trigger)
      ⟨blueprint.graph, false⟩
        ⟨.ofConnections blueprint.nodes connections, false⟩ :=
    ⟨wiredAlike_of_reorders _ blueprint.nodes false reorders, reading, acyclic⟩
  have rests : Rests (startState blueprint services) := ⟨rfl, rfl⟩
  have alike :
      Alike (startState blueprint services) (startState blueprint services) :=
    ⟨#[], .refl _, rfl⟩
  obtain ⟨diagnostics, hperm, hfinal⟩ := walkEntries_alike comparable
    (selectEntries catalogue blueprint trigger) rests alike
  have hreordered : reordered = (finalReport _, RunState.services _) :=
    congrArg (fun state => (finalReport state, RunState.services state)) hfinal
  rw [hreordered]
  exact ⟨rfl, rfl, rfl, hperm⟩

/-! ### Two sources that fail, asked in either order -/

namespace Swapped

def negate : Function where
  inputs := [⟨"value", .boolean, none, none⟩]
  outputs := [⟨"result", .boolean, none, none⟩]
  isPure := true
  nodes := [⟨"__entry__", "", .origin, .null⟩, ⟨"__exit__", "", .origin, .null⟩,
    ⟨"not", "logic/Not", .origin, .null⟩]
  connections :=
    [⟨"__entry__.value", "not.value"⟩, ⟨"not.result", "__exit__.result"⟩]

def blueprint : Blueprint where
  id := "swapped"
  name := "Swapped"
  nodes := [⟨"start", "event/OnStart", .origin, .null⟩,
    ⟨"show", "utility/Print", .origin, .null⟩,
    ⟨"both", "logic/And", .origin, .null⟩,
    ⟨"left", "function/Call", .origin, .object [("function", .text "negate")]⟩,
    ⟨"right", "function/Call", .origin, .object [("function", .text "negate")]⟩]
  connections := [⟨"start.exec", "show.exec"⟩, ⟨"both.result", "show.message"⟩,
    ⟨"left.result", "both.a"⟩, ⟨"right.result", "both.b"⟩]
  functions := .single "negate" negate

def connections : List Connection :=
  [⟨"start.exec", "show.exec"⟩, ⟨"both.result", "show.message"⟩,
    ⟨"right.result", "both.b"⟩, ⟨"left.result", "both.a"⟩]

def limits : Limits := { maxCallDepth := 0 }

def trigger : Trigger := ⟨"start", none, none⟩

theorem acyclic : Acyclic (setupOf Catalogue.standard limits blueprint trigger)
    ⟨blueprint.graph, false⟩ :=
  Naive.acyclic_of_rank (["start", "left", "right", "both", "show"].idxOf ·)
    (by decide +kernel)

theorem reorders :
    Reorders Connection.SharesEnd blueprint.connections connections := by
  refine ⟨(Equiv.swap 2 3 : Equiv.Perm (Fin 4)), ?_, ?_⟩
  · decide
  · decide

theorem same_but_for_reports :
    let run := runBlueprint Catalogue.standard limits blueprint trigger {}
    let reordered :=
      runBlueprint Catalogue.standard limits
        { blueprint with connections } trigger {}
    (reordered.1.outputs = run.1.outputs ∧
      reordered.1.finalVariables = run.1.finalVariables ∧ reordered.2 = run.2 ∧
      reordered.1.diagnostics.Perm run.1.diagnostics) ∧
    reordered.1.diagnostics ≠ run.1.diagnostics := by
  refine ⟨reordered_run Catalogue.standard limits blueprint trigger
    {} connections Library.standard_reads acyclic reorders, ?_⟩
  decide +kernel

end Swapped

end Engine

end ScriptGraph
