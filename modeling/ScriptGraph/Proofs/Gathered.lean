import Mathlib.Order.WellFoundedSet
import ScriptGraph.Proofs.CallContract
import ScriptGraph.Proofs.Freshness
import ScriptGraph.Proofs.SideEffects

/-!
# What a gathering adds

The inputs of a node are gathered by evaluating whatever they need and does
not have values yet, in the order in which wires ask for it.  On a graph
without cycles that order has no influence on what a node yields, its values
and what is reported while it is evaluated.  All of it is fixed by the state in
which the gathering starts: it is the solution of one equation for each node.

So a list of ids says everything about a gathering: the state afterwards holds
what the nodes in the list yield and is otherwise the state before.  The list
has no repetitions, and its members are the nodes that are needed and open.
-/

namespace ScriptGraph.Engine

open Json

open Machine

open Naive (Acyclic Feeds FeedsOpenPulls PureKindsRead)

/-! ## Evaluating a node -/

namespace RunState

/-- The state without what its nodes have left in it. -/
def bare (state : RunState) : RunState :=
  { state with activation :=
    { state.activation with
      outputs := .empty, diagnostics := #[], pulling := [] } }

def addReports (state : RunState) (reports : List Diagnostic) : RunState :=
  { state with activation :=
    { state.activation with
      diagnostics := state.activation.diagnostics ++ reports.toArray } }

@[simp] theorem addReports_nil (state : RunState) :
    state.addReports [] = state := by
  simp [addReports]

theorem addReports_bare (state : RunState) (reports : List Diagnostic) :
    (state.bare.addReports reports).activation.diagnostics.toList =
      reports := by
  simp [addReports, bare]

end RunState

section Evaluation

variable {setup : Setup} {state : RunState}

theorem leaveBody_eq {body : RunState} (synced : Synced state) (caller : String)
    (hservices : body.services = state.services)
    (hsteps : body.activation.steps = state.activation.steps)
    (hreported : body.activation.limitReported =
      state.activation.limitReported) :
    leaveBody caller body state = state.addReports
      (body.activation.diagnostics.toList.map fun diagnostic =>
        diagnostic.within caller) := by
  have hview : state.activation.view.sync state.services.store =
      state.activation.view :=
    congrArg VariableView.mk synced.symm
  simp only [leaveBody, RunState.syncVariables, RunState.addReports, hview,
    hsteps, hreported, hservices, ← List.map_toArray, Array.toArray_toList]

theorem call_bare (reading : PureKindsRead setup.catalogue)
    (synced : Synced state) {node : Node}
    (hpure : callsPureFunction setup node = true) (inputs : Table Value) :
    call setup node inputs state =
      ((call setup node inputs state.bare).1, state.addReports
        (call setup node inputs
          state.bare).2.activation.diagnostics.toList) := by
  cases hcallee : callee setup node state.activation.depth with
  | error cause =>
      have hbare : callee setup node state.bare.activation.depth =
          .error cause := hcallee
      rw [call_of_callee_error inputs hcallee,
        call_of_callee_error inputs hbare]
      exact congrArg _ (RunState.addReports_nil state).symm
  | ok function =>
      have hbare : callee setup node state.bare.activation.depth =
          .ok function := hcallee
      have adds : OnlyAdds id state (call setup node inputs state).2 :=
        call_adds (reading.keep id) node inputs state hpure
      rw [call_of_callee_ok hcallee] at adds ⊢
      rw [call_of_callee_ok hbare]
      have left : leaveBody node.id
          (returned setup function inputs state).2 state = _ :=
        leaveBody_eq synced node.id adds.services adds.steps adds.limitReported
      -- The body starts in the same state from the bare one.
      have syncedBare : Synced state.bare := synced
      have leftBare :
          leaveBody node.id (returned setup function inputs state.bare).2
          state.bare = _ :=
        leaveBody_eq syncedBare node.id adds.services adds.steps
          adds.limitReported
      rw [left, leftBare, RunState.addReports_bare]
      rfl

theorem evaluate_bare (reading : PureKindsRead setup.catalogue)
    (synced : Synced state) {node : Node} {how : Evaluator}
    (hhow : evaluator? setup node = some how) (inputs : Table Value) :
    evaluate (call setup) how node inputs state =
      ((evaluate (call setup) how node inputs state.bare).1, state.addReports
        (evaluate (call setup) how node inputs
          state.bare).2.activation.diagnostics.toList) := by
  cases how with
  | entry entry =>
      obtain ⟨hlookup, hpure⟩ := evaluator?_entry hhow
      have hread := reading _ entry hlookup hpure
        (pureInvocation node inputs state) state.services
      have hinvoke : state.invoke entry (pureInvocation node inputs state) =
          ((state.bare.invoke entry (pureInvocation node inputs state.bare)).1,
            state) :=
        Prod.ext rfl (congrArg (RunState.mk state.activation) hread)
      simp only [evaluate]
      rw [hinvoke]
      rcases hbare : state.bare.invoke entry
        (pureInvocation node inputs state.bare) with
        ⟨outcome, after⟩
      have hafter : after.activation.diagnostics = #[] :=
        congrArg (fun result => result.2.activation.diagnostics) hbare.symm
      cases outcome with
      | ok output => simp [hafter]
      | error cause => simp [hafter]
  | call =>
      have hcall := call_bare reading synced (evaluator?_call hhow) inputs
      simp only [evaluate]
      rcases hbare : call setup node inputs state.bare with ⟨outcome, after⟩
      rw [hbare] at hcall
      rw [hcall]
      cases outcome <;> rfl

/-! ## What nodes yield -/

structure Yield where
  values : Table Value
  reports : List Diagnostic

def yieldOf (setup : Setup) (state : RunState) (id : String) (node : Node)
    (how : Evaluator) (inputs : Table Value) : Yield :=
  let (outcome, evaluated) := evaluate (call setup) how node inputs state.bare
  let (values, settled) := settlePull id outcome evaluated
  ⟨values, settled.activation.diagnostics.toList⟩

def RunState.keep (state : RunState) (found : String → Yield)
    (ids : List String) : RunState :=
  { state with activation :=
    { state.activation with
      outputs := state.activation.outputs.insertAll
        (ids.map fun id => (id, (found id).values))
      diagnostics := state.activation.diagnostics ++
        (ids.flatMap fun id => (found id).reports).toArray } }

variable {found : String → Yield}

@[simp] theorem keep_nil (state : RunState) : state.keep found [] = state := by
  simp [RunState.keep, Table.insertAll]

theorem keep_append (state : RunState) (ids more : List String) :
    (state.keep found ids).keep found more =
      state.keep found (ids ++ more) := by
  simp [RunState.keep, Table.insertAll]

theorem outputs?_keep (state : RunState) (ids : List String) (id : String) :
    (state.keep found ids).outputs? id =
      if id ∈ ids then some (found id).values else state.outputs? id := by
  unfold RunState.outputs? RunState.keep
  generalize state.activation.outputs = table
  induction ids generalizing table with
  | nil => rfl
  | cons first rest ih =>
      simp only [List.map_cons, Table.insertAll, List.foldl_cons] at ih ⊢
      rw [ih, Table.get?_insert]
      by_cases hrest : id ∈ rest
      · simp [hrest]
      · by_cases hfirst : id = first <;> simp [hrest, hfirst]

theorem settlePull_evaluate (reading : PureKindsRead setup.catalogue)
    (synced : Synced state) {id : String} {node : Node} {how : Evaluator}
    {inputs : Table Value} (hhow : evaluator? setup node = some how)
    (hfound : found id = yieldOf setup state id node how inputs) :
    settlePull id (evaluate (call setup) how node inputs state).1
        (evaluate (call setup) how node inputs state).2 =
      ((found id).values, (state.endPull id).keep found [id]) := by
  rw [evaluate_bare reading synced hhow]
  unfold yieldOf at hfound
  generalize evaluate (call setup) how node inputs state.bare =
    result at hfound ⊢
  obtain ⟨outcome, evaluated⟩ := result
  cases outcome with
  | ok values =>
      simp [RunState.keep, hfound, settlePull, RunState.addReports,
        RunState.endPull, RunState.setOutputs, Table.insertAll]
  | error message =>
      simp [RunState.keep, hfound, settlePull, RunState.addReports,
        RunState.endPull, RunState.report, RunState.setOutputs, Table.insertAll,
        -Array.toList_push]

end Evaluation

/-! ## Solutions -/

def overlayAll (value : Endpoint → Option Value)
    (wires : List (Endpoint × String)) (inputs : Table Value) : Table Value :=
  wires.foldl (fun inputs wire => overlay inputs wire.2 (value wire.1)) inputs

def inputsFrom (setup : Setup) (scope : Scope) (value : Endpoint → Option Value)
    (id : String) : Table Value :=
  overlayAll value (inputWires setup scope id) (inputDefaults setup scope id)

def valueAt (state : RunState) (values : String → Option (Table Value))
    (source : Endpoint) : Option Value :=
  ((state.outputs? source.node).or (values source.node)).bind fun found =>
    found.get? source.pin

def brought (setup : Setup) (scope : Scope) (state : RunState)
    (found : String → Yield) : Endpoint → Option Value :=
  valueAt state fun id => (pullable? setup scope id).map fun _ =>
    (found id).values

/-- Every node that a pull would evaluate yields what is found, if it is
evaluated on the inputs that are found. -/
def Solves (setup : Setup) (scope : Scope) (state : RunState)
    (found : String → Yield) : Prop :=
  ∀ id node how, pullable? setup scope id = some (node, how) →
    state.outputs? id = none → found id = yieldOf setup state id node how
      (inputsFrom setup scope (brought setup scope state found) id)

section Solutions

variable {setup : Setup} {scope : Scope}

theorem overlayAll_congr {value other : Endpoint → Option Value}
    {wires : List (Endpoint × String)}
    (h : ∀ wire ∈ wires, value wire.1 = other wire.1) (inputs : Table Value) :
    overlayAll value wires inputs = overlayAll other wires inputs := by
  refine List.foldl_ext _ _ _ fun inputs wire hwire => ?_
  rw [h wire hwire]

theorem feeds_wellFounded (acyclic : Acyclic setup scope) :
    WellFounded (Feeds setup scope) := by
  have strict : IsStrictOrder String (Relation.TransGen (Feeds setup scope)) :=
    { irrefl := acyclic, trans := fun _ _ _ => Relation.TransGen.trans }
  have hids : Set.WellFoundedOn (Graph.ids scope.graph : Set String)
      (Relation.TransGen (Feeds setup scope)) :=
    (Finset.finite_toSet _).wellFoundedOn
  refine Subrelation.wf ?_ (Set.wellFoundedOn_iff.mp hids)
  intro source target feeds
  have inside : ∀ id, (pullable? setup scope id).isSome →
      id ∈ Graph.ids scope.graph := by
    intro id hid
    obtain ⟨⟨node, how⟩, hpullable⟩ := Option.isSome_iff_exists.mp hid
    exact mem_ids ((pullable?_eq_some setup scope).mp hpullable).1
  exact ⟨.single feeds, inside source feeds.1, inside target feeds.2.1⟩

instance (source target : String) :
    Decidable (Feeds setup scope source target) :=
  inferInstanceAs
    (Decidable (_ ∧ _ ∧ ∃ wire ∈ inputWires setup scope target, _))

def yieldFed (setup : Setup) (scope : Scope) (state : RunState) (id : String)
    (fed : (source : String) → Feeds setup scope source id → Yield) : Yield :=
  match pullable? setup scope id with
  | none => ⟨.empty, []⟩
  | some (node, how) =>
    yieldOf setup state id node how
      (inputsFrom setup scope (valueAt state fun source =>
        if h : Feeds setup scope source id then some (fed source h).values
        else none) id)

theorem exists_solution (acyclic : Acyclic setup scope) (state : RunState) :
    ∃ found, Solves setup scope state found := by
  have wellFounded := feeds_wellFounded acyclic
  refine ⟨wellFounded.fix (yieldFed setup scope state),
    fun id node how hpullable _ => ?_⟩
  rw [wellFounded.fix_eq, yieldFed, hpullable]
  dsimp only
  refine congrArg _ (overlayAll_congr (fun wire hwire => ?_) _)
  unfold brought valueAt
  dsimp only
  by_cases hsource : (pullable? setup scope wire.1.node).isSome
  · have feeds : Feeds setup scope wire.1.node id :=
      ⟨hsource, by simp [hpullable], wire, hwire, rfl⟩
    obtain ⟨how, hhow⟩ := Option.isSome_iff_exists.mp hsource
    rw [dif_pos feeds, hhow]
    rfl
  · have hnone : pullable? setup scope wire.1.node = none := by
      simpa using hsource
    rw [dif_neg fun feeds => hsource feeds.1, hnone]
    rfl

def IsOpen (setup : Setup) (scope : Scope) (state : RunState) (id : String) :
    Prop :=
  state.outputs? id = none ∧ (pullable? setup scope id).isSome

variable {state : RunState} {found : String → Yield} {ids : List String}

theorem isOpen_keep_iff {id : String} :
    IsOpen setup scope (state.keep found ids) id ↔
      IsOpen setup scope state id ∧ id ∉ ids := by
  unfold IsOpen
  rw [outputs?_keep]
  by_cases hid : id ∈ ids <;> simp [hid]

theorem brought_keep (opened : ∀ id ∈ ids, IsOpen setup scope state id) :
    brought setup scope (state.keep found ids) found =
      brought setup scope state found := by
  funext source
  unfold brought valueAt
  rw [outputs?_keep]
  by_cases hid : source.node ∈ ids
  · obtain ⟨huncached, hpullable⟩ := opened _ hid
    obtain ⟨how, hhow⟩ := Option.isSome_iff_exists.mp hpullable
    simp [hid, huncached, hhow]
  · simp [hid]

theorem Solves.keep (solves : Solves setup scope state found)
    (opened : ∀ id ∈ ids, IsOpen setup scope state id) :
    Solves setup scope (state.keep found ids) found := by
  intro id node how hpullable huncached
  have hopen : IsOpen setup scope (state.keep found ids) id :=
    ⟨huncached, by simp [hpullable]⟩
  rw [brought_keep opened]
  exact solves id node how hpullable (isOpen_keep_iff.mp hopen).1.1

end Solutions

/-! ## What is needed -/

inductive Needed (setup : Setup) (scope : Scope) (state : RunState)
    (roots : List String) :
    String → Prop where
  | root {id : String} (h : id ∈ roots) : Needed setup scope state roots id
  | source {target : String} {wire : Endpoint × String}
      (needed : Needed setup scope state roots target)
        (opened : IsOpen setup scope state target)
      (wired : wire ∈ inputWires setup scope target) :
      Needed setup scope state roots wire.1.node

/-- The nodes that are evaluated if the roots are pulled, in some order. -/
structure Collects (setup : Setup) (scope : Scope) (state : RunState)
    (roots ids : List String) :
    Prop where
  nodup : ids.Nodup
  mem_iff : ∀ id, id ∈ ids ↔
    IsOpen setup scope state id ∧ Needed setup scope state roots id

def sourcesOf (setup : Setup) (scope : Scope) (id : String) : List String :=
  (inputWires setup scope id).map fun wire => wire.1.node

section Collecting

variable {setup : Setup} {scope : Scope} {state : RunState}
  {found : String → Yield} {roots others ids more : List String}
  {id target : String}

theorem Needed.imp {other : Scope} {after : RunState}
    (h : Needed setup scope state roots id) (hroots : ∀ id ∈ roots, id ∈ others)
    (hopen : ∀ id, IsOpen setup scope state id → IsOpen setup other after id)
    (hwires : ∀ id, ∀ wire ∈ inputWires setup scope id,
      wire ∈ inputWires setup other id) :
    Needed setup other after others id := by
  induction h with
  | root h => exact .root (hroots _ h)
  | source _ opened wired ih =>
      exact ih.source (hopen _ opened) (hwires _ _ wired)

theorem Collects.congr {other : Scope} {after : RunState}
    (collects : Collects setup scope state roots ids)
    (hroots : ∀ id, id ∈ roots ↔ id ∈ others)
    (hopen : ∀ id, IsOpen setup scope state id ↔ IsOpen setup other after id)
    (hwires : ∀ id wire, wire ∈ inputWires setup scope id ↔
      wire ∈ inputWires setup other id) :
    Collects setup other after others ids := by
  refine ⟨collects.nodup, fun id => ?_⟩
  rw [collects.mem_iff, hopen]
  refine and_congr_right fun _ => ⟨fun needed => ?_, fun needed => ?_⟩
  · exact needed.imp (fun id => (hroots id).mp) (fun id => (hopen id).mp)
      (fun id wire => (hwires id wire).mp)
  · exact needed.imp (fun id => (hroots id).mpr) (fun id => (hopen id).mpr)
      (fun id wire => (hwires id wire).mpr)

theorem Collects.perm (first : Collects setup scope state roots ids)
    (second : Collects setup scope state roots more) : ids.Perm more := by
  rw [List.perm_ext_iff_of_nodup first.nodup second.nodup]
  intro id
  rw [first.mem_iff, second.mem_iff]

theorem collects_nil (closed : ∀ id ∈ roots, ¬IsOpen setup scope state id) :
    Collects setup scope state roots [] := by
  refine ⟨.nil, fun id => ⟨fun h => (nomatch h), ?_⟩⟩
  rintro ⟨opened, needed⟩
  have root : id ∈ roots := by
    induction needed with
    | root h => exact h
    | source _ halfway _ ih => exact absurd halfway (closed _ (ih halfway))
  exact absurd opened (closed id root)

theorem Collects.append (first : Collects setup scope state roots ids)
    (second : Collects setup scope (state.keep found ids) others more) :
    Collects setup scope state (roots ++ others) (ids ++ more) := by
  constructor
  · refine List.nodup_append.mpr ⟨first.nodup, second.nodup, ?_⟩
    rintro id hid _ hmore rfl
    exact (isOpen_keep_iff.mp ((second.mem_iff id).mp hmore).1).2 hid
  · intro id
    rw [List.mem_append, first.mem_iff, second.mem_iff, isOpen_keep_iff]
    constructor
    · rintro (⟨opened, needed⟩ | ⟨⟨opened, -⟩, needed⟩)
      · exact ⟨opened, needed.imp (fun _ h => List.mem_append_left _ h)
          (fun _ h => h) fun _ _ h => h⟩
      · exact ⟨opened, needed.imp (fun _ h => List.mem_append_right _ h)
          (fun _ h => (isOpen_keep_iff.mp h).1) fun _ _ h => h⟩
    · rintro ⟨opened, needed⟩
      -- Whatever is needed is needed for the first roots or still needed
      -- afterwards.
      have either : Needed setup scope state roots id ∨
          Needed setup scope (state.keep found ids) others id := by
        clear opened
        induction needed with
        | root h => exact (List.mem_append.mp h).imp .root .root
        | @source target wire _ opened wired ih =>
            by_cases hfirst : Needed setup scope state roots target
            · exact .inl (hfirst.source opened wired)
            · have hkept : IsOpen setup scope (state.keep found ids) target :=
                isOpen_keep_iff.mpr ⟨opened, fun hids =>
                  hfirst ((first.mem_iff target).mp hids).2⟩
              exact .inr ((ih.resolve_left hfirst).source hkept wired)
      by_cases hid : id ∈ ids
      · exact .inl ((first.mem_iff id).mp hid)
      · have hother : ¬Needed setup scope state roots id := fun h =>
          hid ((first.mem_iff id).mpr ⟨opened, h⟩)
        exact .inr ⟨⟨opened, hid⟩, either.resolve_left hother⟩

theorem Needed.feeds
    (h : Needed setup scope state (sourcesOf setup scope target) id)
    (htarget : (pullable? setup scope target).isSome)
    (hid : (pullable? setup scope id).isSome) :
    Relation.TransGen (Feeds setup scope) id target := by
  induction h with
  | root h =>
      obtain ⟨wire, hwire, rfl⟩ := List.mem_map.mp h
      exact .single ⟨hid, htarget, wire, hwire, rfl⟩
  | @source halfway wire _ opened wired ih =>
      exact .head ⟨hid, opened.2, wire, wired, rfl⟩ (ih opened.2)

theorem Collects.concat (acyclic : Acyclic setup scope)
    (opened : IsOpen setup scope state target)
    (sources : Collects setup scope state (sourcesOf setup scope target) ids) :
    Collects setup scope state [target] (ids ++ [target]) := by
  constructor
  · refine List.nodup_append.mpr
      ⟨sources.nodup, List.nodup_singleton target, ?_⟩
    rintro id hid _ hlast rfl
    obtain rfl := List.mem_singleton.mp hlast
    obtain ⟨-, needed⟩ := (sources.mem_iff id).mp hid
    exact acyclic id (needed.feeds opened.2 opened.2)
  · intro id
    rw [List.mem_append, List.mem_singleton, sources.mem_iff]
    constructor
    · rintro (⟨hopen, needed⟩ | rfl)
      · refine ⟨hopen, ?_⟩
        clear hopen
        induction needed with
        | root h =>
            obtain ⟨wire, hwire, rfl⟩ := List.mem_map.mp h
            exact (Needed.root (List.mem_singleton_self target)).source
              opened hwire
        | source _ halfway wired ih => exact ih.source halfway wired
      · exact ⟨opened, .root (List.mem_singleton_self id)⟩
    · rintro ⟨hopen, needed⟩
      have either : id = target ∨
          Needed setup scope state (sourcesOf setup scope target) id := by
        clear hopen
        induction needed with
        | root h => exact .inl (List.mem_singleton.mp h)
        | @source halfway wire _ opened wired ih =>
            rcases ih with rfl | needed
            · exact .inr (.root (List.mem_map_of_mem wired))
            · exact .inr (needed.source opened wired)
      rcases either with rfl | needed
      · exact .inr rfl
      · exact .inl ⟨hopen, needed⟩

end Collecting

/-! ## Pulls -/

structure Ready (setup : Setup) (scope : Scope) (found : String → Yield)
    (state : RunState) :
    Prop where
  synced : Synced state
  solves : Solves setup scope state found

def PullKeeps (setup : Setup) (scope : Scope) (found : String → Yield)
    (source : Endpoint) (state : RunState) : Prop :=
  ∃ ids, Collects setup scope state [source.node] ids ∧
    pull setup scope (call setup) source state =
      (brought setup scope state found source, state.keep found ids)

section Pulls

variable {setup : Setup} {scope : Scope} {state : RunState}
  {found : String → Yield}

theorem Ready.keep {roots ids : List String}
    (ready : Ready setup scope found state)
    (collects : Collects setup scope state roots ids) :
    Ready setup scope found (state.keep found ids) :=
  ⟨ready.synced,
    ready.solves.keep fun id hid => ((collects.mem_iff id).mp hid).1⟩

theorem bringAll_keeps (ready : Ready setup scope found state)
    (wires : List (Endpoint × String))
    (pulls : ∀ wire ∈ wires, ∀ after, Ready setup scope found after →
      after.activation.pulling = state.activation.pulling →
      PullKeeps setup scope found wire.1 after) (inputs : Table Value) :
    ∃ ids, Collects setup scope state (wires.map fun wire => wire.1.node) ids ∧
      bringAll (pull setup scope (call setup)) wires inputs state =
        (overlayAll (brought setup scope state found) wires inputs,
          state.keep found ids) := by
  induction wires generalizing inputs state with
  | nil =>
      exact ⟨[], collects_nil (fun _ h => (nomatch h)), by rw [keep_nil]; rfl⟩
  | cons wire rest ih =>
      obtain ⟨source, pin⟩ := wire
      obtain ⟨ids, first, hpull⟩ :=
        pulls (source, pin) (List.mem_cons_self ..) state ready rfl
      obtain ⟨more, second, hrest⟩ := ih (ready.keep first)
        (fun wire hwire => pulls wire (List.mem_cons_of_mem _ hwire))
        (overlay inputs pin (brought setup scope state found source))
      refine ⟨ids ++ more, first.append second, ?_⟩
      have opened : ∀ id ∈ ids, IsOpen setup scope state id := fun id hid =>
        ((first.mem_iff id).mp hid).1
      rw [bringAll_cons, hpull, hrest, brought_keep opened, keep_append]
      rfl

theorem gather_keeps_of_pulls (ready : Ready setup scope found state)
    (id : String)
    (pulls : ∀ wire ∈ inputWires setup scope id, ∀ after,
      Ready setup scope found after →
      after.activation.pulling = state.activation.pulling →
      PullKeeps setup scope found wire.1 after) :
    ∃ ids, Collects setup scope state (sourcesOf setup scope id) ids ∧
      gather setup scope (call setup) id state =
        (inputsFrom setup scope (brought setup scope state found) id,
          state.keep found ids) := by
  rw [gather, gatherWith_eq]
  exact bringAll_keeps ready _ pulls _

theorem pullKeeps_of_gathered (reading : PureKindsRead setup.catalogue)
    (acyclic : Acyclic setup scope) (ready : Ready setup scope found state)
    {source : Endpoint} {node : Node} {how : Evaluator} {ids : List String}
    (huncached : state.outputs? source.node = none)
    (hpullable : pullable? setup scope source.node = some (node, how))
    (fresh : source.node ∉ state.activation.pulling)
    (collects : Collects setup scope state
      (sourcesOf setup scope source.node) ids)
    (hgather : gather setup scope (call setup) source.node
      (state.beginPull source.node) =
      (inputsFrom setup scope (brought setup scope state found) source.node,
        (state.beginPull source.node).keep found ids)) :
    PullKeeps setup scope found source state := by
  have opened : IsOpen setup scope state source.node :=
    ⟨huncached, by simp [hpullable]⟩
  have hclosed : ¬ state.activation.pulling.contains source.node = true := by
    simpa using fresh
  have hhow := ((pullable?_eq_some setup scope).mp hpullable).2
  have synced : Synced ((state.beginPull source.node).keep found ids) :=
    ready.synced
  have settled := settlePull_evaluate reading synced hhow
    (ready.solves source.node node how hpullable huncached)
  have hended :
      ((state.beginPull source.node).keep found ids).endPull source.node =
      state.keep found ids := by
    simp [RunState.endPull, RunState.keep, RunState.beginPull]
  refine ⟨ids ++ [source.node], collects.concat acyclic opened, ?_⟩
  rw [gather] at hgather
  rw [pull_eq setup scope (call_steady setup), pullWith, huncached, hpullable]
  dsimp only
  rw [if_neg hclosed, hgather]
  dsimp only
  rw [settled, hended, keep_append]
  simp [brought, valueAt, huncached, hpullable]

theorem Naive.FeedsOpenPulls.wire {id : String} {wire : Endpoint × String}
    {after : RunState} (below : FeedsOpenPulls setup scope id state)
    (hid : (pullable? setup scope id).isSome)
    (hwire : wire ∈ inputWires setup scope id)
    (hpulling : after.activation.pulling = id :: state.activation.pulling) :
    FeedsOpenPulls setup scope wire.1.node after := by
  intro hwired target htarget
  have feeds : Feeds setup scope wire.1.node id :=
    ⟨hwired, hid, wire, hwire, rfl⟩
  rw [hpulling] at htarget
  rcases List.mem_cons.mp htarget with rfl | htarget
  · exact .single feeds
  · exact .head feeds (below hid target htarget)

theorem pull_keeps (reading : PureKindsRead setup.catalogue)
    (acyclic : Acyclic setup scope) (source : Endpoint) (state : RunState)
    (ready : Ready setup scope found state)
    (below : FeedsOpenPulls setup scope source.node state) :
    PullKeeps setup scope found source state := by
  -- A pull inside is for a node that feeds all nodes being pulled, and so is
  -- none of them.
  induction hleft : (idsLeft scope state).card using Nat.strongRecOn
    generalizing source state with
  | _ left ih =>
      cases huncached : state.outputs? source.node with
      | some values =>
          refine ⟨[], collects_nil ?_, ?_⟩
          · simp [IsOpen, huncached]
          · rw [pull_eq setup scope (call_steady setup), pullWith, huncached]
            simp [brought, valueAt, huncached]
      | none =>
          cases hpullable : pullable? setup scope source.node with
          | none =>
              refine ⟨[], collects_nil ?_, ?_⟩
              · simp [IsOpen, hpullable]
              · rw [pull_eq setup scope (call_steady setup), pullWith,
                  huncached, hpullable]
                simp [brought, valueAt, huncached, hpullable]
          | some pulled =>
              obtain ⟨node, how⟩ := pulled
              have hnode := ((pullable?_eq_some setup scope).mp hpullable).1
              have hsome : (pullable? setup scope source.node).isSome := by
                simp [hpullable]
              have fresh : source.node ∉ state.activation.pulling := fun hmem =>
                acyclic source.node (below hsome source.node hmem)
              have started :
                  Ready setup scope found (state.beginPull source.node) :=
                ⟨ready.synced, ready.solves⟩
              obtain ⟨ids, collects, hgather⟩ :=
                gather_keeps_of_pulls started
                  source.node fun wire hwire after hafter hpulling => by
                  refine ih _ ?_ wire.1 after hafter
                    (below.wire hsome hwire hpulling) rfl
                  rw [idsLeft_congr scope _ after hpulling, ← hleft]
                  exact card_idsLeft_beginPull_lt scope hnode fresh
              have same : Collects setup scope state
                  (sourcesOf setup scope source.node) ids :=
                collects.congr (fun _ => .rfl) (fun _ => .rfl) fun _ _ => .rfl
              exact pullKeeps_of_gathered reading acyclic ready huncached
                hpullable fresh same hgather

/-- Where no pull is under way, a gathering brings what is found and keeps what
the nodes yield that it needs. -/
theorem gather_keeps (reading : PureKindsRead setup.catalogue)
    (acyclic : Acyclic setup scope) (ready : Ready setup scope found state)
    (idle : state.activation.pulling = []) (id : String) :
    ∃ ids, Collects setup scope state (sourcesOf setup scope id) ids ∧
      gather setup scope (call setup) id state =
        (inputsFrom setup scope (brought setup scope state found) id,
          state.keep found ids) := by
  refine gather_keeps_of_pulls ready id fun wire _ after hafter hpulling => ?_
  refine pull_keeps reading acyclic wire.1 after hafter fun _ target htarget =>
    ?_
  rw [hpulling, idle] at htarget
  cases htarget

end Pulls

end ScriptGraph.Engine
