import Mathlib.Logic.Relation
import ScriptGraph.Library.Logic
import ScriptGraph.Proofs.Saturation

/-!
# Pulling without a memory

A pull keeps what it has evaluated and refuses to enter a node twice.  The
evaluator of this file does neither: the values of a node are those that the
activation already holds, and otherwise the node is evaluated afresh, with
its inputs found in the same way, as often as somebody asks.  On a cycle it
would not end, so like every function here it is partial: the outer `none`
stands for that, the inner one for a node that yields nothing.

On graphs without cycles among the nodes that can be pulled, and with pure
kinds that only read the services, both find the same inputs.  The proof
carries an invariant through all nested pulls: every value that has been
added to the activation is the one that the memoryless evaluator finds.
-/

namespace ScriptGraph.Engine.Naive

open Json

-- A recursive call is elaborated after its surroundings (`by exact`), which
-- keeps the place of the call in the text out of the fixed point.
mutual

def values (setup : Setup) (services : Services) (scope : Scope) (depth : Nat)
    (cache : Table (Table Value)) (id : String) :
    Option (Option (Table Value)) :=
  match cache.get? id with
  | some found => some (some found)
  | none =>
    match pullable? setup scope id with
    | none => some none
    | some (node, how) => do
      (by exact evaluate : type_of% evaluate) setup services depth how node
        (← (by exact bring : type_of% bring) setup services scope depth cache
          (inputWires setup scope id) (inputDefaults setup scope id))
partial_fixpoint

def bring (setup : Setup) (services : Services) (scope : Scope) (depth : Nat)
    (cache : Table (Table Value)) (wires : List (Endpoint × String))
    (inputs : Table Value) :
    Option (Table Value) :=
  match wires with
  | [] => some inputs
  | (source, pin) :: rest => do
    let found ← (by exact values : type_of% values) setup
      services scope depth cache source.node
    (by exact bring : type_of% bring) setup services scope depth cache rest
      (overlay inputs pin (found.bind fun values => values.get? source.pin))
partial_fixpoint

def evaluate (setup : Setup) (services : Services) (depth : Nat)
    (how : Evaluator) (node : Node) (inputs : Table Value) :
    Option (Option (Table Value)) :=
  match how with
  | .entry entry =>
    let inv : Invocation :=
      { nodeId := node.id
        nodeKind := node.kind
        config := node.config
        inputs := inputs
        snapshot := services.store }
    match (entry.run inv services).1.outcome with
    | .ok output => some (pulledValues output).toOption
    | .error _ => some none
  | .call =>
    match callee setup node depth with
    | .error _ => some none
    | .ok function => do
      let body : Scope := ⟨function.graph, true⟩
      let arguments := Parameter.values function.inputs inputs
      let returned ← (by exact bring : type_of% bring) setup services body
        (depth + 1)
        (.single entryMarker arguments) (inputWires setup body exitMarker)
        (inputDefaults setup body exitMarker)
      some (some (Parameter.values function.outputs returned))
partial_fixpoint

end

def gather (setup : Setup) (services : Services) (scope : Scope) (depth : Nat)
    (cache : Table (Table Value)) (id : String) : Option (Table Value) :=
  bring setup services scope depth cache (inputWires setup scope id)
    (inputDefaults setup scope id)

/-! ## Graphs and catalogues for which memory makes no difference -/

def PureKindsRead (catalogue : Catalogue) : Prop :=
  ∀ kind entry, catalogue.lookup kind = some entry → entry.kind.isPure = true →
    ∀ inv services, (entry.run inv services).2 = services

/-- A data wire leads from one node that can be pulled to another. -/
def Feeds (setup : Setup) (scope : Scope) (source target : String) : Prop :=
  (pullable? setup scope source).isSome ∧
    (pullable? setup scope target).isSome ∧
    ∃ wire ∈ inputWires setup scope target, wire.1.node = source

def Acyclic (setup : Setup) (scope : Scope) : Prop :=
  ∀ id, ¬ Relation.TransGen (Feeds setup scope) id id

theorem acyclic_of_rank {setup : Setup} {scope : Scope} (rank : String → Nat)
    (upwards : ∀ node ∈ scope.graph.nodes,
      ∀ wire ∈ inputWires setup scope node.id, rank wire.1.node <
        rank node.id) : Acyclic setup scope := by
  have step : ∀ source target, Feeds setup scope source target →
      rank source < rank target := by
    rintro source target ⟨-, htarget, wire, hwire, rfl⟩
    obtain ⟨⟨node, how⟩, hpullable⟩ := Option.isSome_iff_exists.mp htarget
    have hnode := ((pullable?_eq_some setup scope).mp hpullable).1
    have hless := upwards node (node?_mem hnode)
    rw [node?_id hnode] at hless
    exact hless wire hwire
  intro id cycle
  have hless : ∀ target, Relation.TransGen (Feeds setup scope) id target →
      rank id < rank target := by
    intro target path
    induction path with
    | single feeds => exact step _ _ feeds
    | tail _ feeds ih => exact Nat.lt_trans ih (step _ _ feeds)
  exact Nat.lt_irrefl _ (hless id cycle)

theorem pureKindsRead_register {catalogue : Catalogue}
    (reading : PureKindsRead catalogue) {kind : NodeKind} {run : Executor}
    (h : kind.isPure = true → ∀ inv services, (run inv services).2 = services) :
    PureKindsRead (catalogue.register kind run) := by
  intro id entry hlookup
  unfold Catalogue.lookup Catalogue.register at hlookup
  cases hplugin : catalogue.plugin.get? id with
  | some found =>
      rw [hplugin] at hlookup
      exact reading id entry (by rw [Catalogue.lookup, hplugin]; exact hlookup)
  | none =>
      rw [hplugin] at hlookup
      simp only [Table.get?_insert] at hlookup
      by_cases hid : id = kind.id
      · rw [if_pos hid] at hlookup
        cases hlookup
        exact h
      · rw [if_neg hid] at hlookup
        exact reading id entry
          (by rw [Catalogue.lookup, hplugin]; exact hlookup)

theorem pureKindsRead_registerAll {catalogue : Catalogue}
    (reading : PureKindsRead catalogue) {kinds : List (NodeKind × Executor)}
    (h : ∀ item ∈ kinds, item.1.isPure = true →
      ∀ inv services, (item.2 inv services).2 = services) :
    PureKindsRead (catalogue.registerAll kinds) := by
  induction kinds generalizing catalogue with
  | nil => exact reading
  | cons item kinds ih =>
      exact ih (pureKindsRead_register reading (h item (List.mem_cons_self ..)))
        fun other hother => h other (List.mem_cons_of_mem _ hother)

/-! ## The invariant of the values kept -/

/-- The state of an activation that started with the values `cache` and has
since only added what the memoryless evaluator finds. -/
structure Sound (setup : Setup) (services : Services) (scope : Scope)
    (depth : Nat) (cache : Table (Table Value)) (state : RunState) : Prop where
  services_eq : state.services = services
  snapshot_eq : state.activation.view.snapshot = services.store
  depth_eq : state.activation.depth = depth
  kept : ∀ id found, cache.get? id = some found → state.outputs? id = some found
  added : ∀ id found, state.outputs? id = some found → cache.get? id = none →
    ∃ result, values setup services scope depth cache id = some result ∧
      found = result.getD .empty

section Soundness

variable {setup : Setup} {services : Services} {scope : Scope} {depth : Nat}
  {cache : Table (Table Value)}

theorem Sound.values_of_outputs? {state : RunState}
    (sound : Sound setup services scope depth cache state) {id : String}
    {found : Table Value} (h : state.outputs? id = some found) :
    ∃ result, values setup services scope depth cache id = some result ∧
      ∀ pin, found.get? pin = result.bind fun values => values.get? pin := by
  cases hcache : cache.get? id with
  | some old =>
      have hsame : old = found :=
        Option.some.inj ((sound.kept id old hcache).symm.trans h)
      refine ⟨some old, ?_, fun pin => by rw [hsame]; rfl⟩
      rw [values, hcache]
  | none =>
      obtain ⟨result, hresult, hfound⟩ := sound.added id found h hcache
      refine ⟨result, hresult, fun pin => ?_⟩
      rw [hfound]
      cases result <;> rfl

structure Undisturbed (before after : RunState) : Prop where
  services_eq : after.services = before.services
  snapshot_eq : after.activation.view.snapshot = before.activation.view.snapshot
  outputs_eq : after.activation.outputs = before.activation.outputs
  depth_eq : after.activation.depth = before.activation.depth

theorem Sound.of_undisturbed {state after : RunState}
    (sound : Sound setup services scope depth cache state)
    (same : Undisturbed state after) :
    Sound setup services scope depth cache after where
  services_eq := same.services_eq.trans sound.services_eq
  snapshot_eq := same.snapshot_eq.trans sound.snapshot_eq
  depth_eq := same.depth_eq.trans sound.depth_eq
  kept id found h := by
    rw [RunState.outputs?, same.outputs_eq]
    exact sound.kept id found h
  added id found h := by
    rw [RunState.outputs?, same.outputs_eq] at h
    exact sound.added id found h

theorem Sound.settlePull {state : RunState} {id : String}
    {outcome : Except String (Table Value)}
    (sound : Sound setup services scope depth cache state)
    (fresh : cache.get? id = none)
    (hvalues : values setup services scope depth cache id =
      some outcome.toOption) :
    Sound setup services scope depth cache
      (Engine.settlePull id outcome state).2 := by
  have houtputs : (Engine.settlePull id outcome state).2.activation.outputs =
      state.activation.outputs.insert id (outcome.toOption.getD .empty) := by
    cases outcome <;> rfl
  refine ⟨?_, ?_, ?_, fun other found h => ?_, fun other found h hother => ?_⟩
  · cases outcome <;> exact sound.services_eq
  · cases outcome <;> exact sound.snapshot_eq
  · cases outcome <;> exact sound.depth_eq
  · rw [RunState.outputs?, houtputs, Table.get?_insert_of_ne]
    · exact sound.kept other found h
    · rintro rfl
      rw [fresh] at h
      cases h
  · rw [RunState.outputs?, houtputs, Table.get?_insert] at h
    by_cases hsame : other = id
    · subst hsame
      rw [if_pos rfl] at h
      exact ⟨_, hvalues, (Option.some.inj h).symm⟩
    · rw [if_neg hsame] at h
      exact sound.added other found h hother

/-! ## Evaluating a node -/

/-- Calls of pure functions from a given depth return what is found naively,
and disturb nothing. -/
def CallsSoundAt (setup : Setup) (services : Services) (depth : Nat) : Prop :=
  ∀ node inputs state, callsPureFunction setup node = true →
    state.services = services →
    state.activation.view.snapshot = services.store →
    state.activation.depth = depth →
    evaluate setup services depth .call node inputs =
        some (call setup node inputs state).1.toOption ∧
      Undisturbed state (call setup node inputs state).2

theorem evaluate_sound (reading : PureKindsRead setup.catalogue)
    (calls : CallsSoundAt setup services depth) {node : Node} {how : Evaluator}
    (hhow : evaluator? setup node = some how) (inputs : Table Value)
    {state : RunState} (sound : Sound setup services scope depth cache state) :
    evaluate setup services depth how node inputs =
        some (Engine.evaluate (call setup) how node inputs state).1.toOption ∧
      Undisturbed state
        (Engine.evaluate (call setup) how node inputs state).2 := by
  cases how with
  | entry entry =>
      obtain ⟨hlookup, hpure⟩ := evaluator?_entry hhow
      have hsame : ∀ inv, (entry.run inv services).2 = state.services :=
        fun inv =>
        (reading _ entry hlookup hpure inv services).trans
          sound.services_eq.symm
      rw [evaluate]
      simp only [Engine.evaluate, RunState.invoke, pureInvocation,
        sound.services_eq, sound.snapshot_eq]
      cases Reply.outcome _ with
      | ok output => exact ⟨rfl, hsame _, rfl, rfl, rfl⟩
      | error cause => exact ⟨rfl, hsame _, rfl, rfl, rfl⟩
  | call =>
      obtain ⟨hfound, same⟩ := calls node inputs state
        (evaluator?_call hhow) sound.services_eq
        sound.snapshot_eq sound.depth_eq
      simp only [Engine.evaluate]
      rcases hcall : call setup node inputs state with ⟨outcome, after⟩
      rw [hcall] at hfound same
      cases outcome with
      | ok found => exact ⟨hfound, same⟩
      | error cause => exact ⟨hfound, same⟩

/-! ## Pulls -/

def PullSound (setup : Setup) (services : Services) (scope : Scope)
    (depth : Nat) (cache : Table (Table Value)) (source : Endpoint)
    (state : RunState) : Prop :=
  (∃ result, values setup services scope depth cache source.node = some result ∧
      (pull setup scope (call setup) source state).1 =
        result.bind fun values => values.get? source.pin) ∧
    Sound setup services scope depth cache
      (pull setup scope (call setup) source state).2

theorem bringAll_sound {state : RunState}
    (sound : Sound setup services scope depth cache state)
    (wires : List (Endpoint × String))
    (pulls : ∀ wire ∈ wires, ∀ after,
      Sound setup services scope depth cache after →
      after.activation.pulling = state.activation.pulling →
      PullSound setup services scope depth cache wire.1 after)
        (inputs : Table Value) :
    bring setup services scope depth cache wires inputs =
        some (bringAll (pull setup scope (call setup)) wires inputs state).1 ∧
      Sound setup services scope depth cache
        (bringAll (pull setup scope (call setup)) wires inputs state).2 := by
  induction wires generalizing inputs state with
  | nil =>
      rw [bring]
      exact ⟨rfl, sound⟩
  | cons wire rest ih =>
      obtain ⟨source, pin⟩ := wire
      obtain ⟨⟨result, hresult, hpulled⟩, next⟩ :=
        pulls (source, pin) (List.mem_cons_self ..) state sound rfl
      rw [bring, bringAll_cons, hresult, hpulled]
      have advanced :=
        pull_advances setup scope (call_steady setup) source state
      refine ih next (fun wire hwire after hafter hpulling => ?_) _
      exact pulls wire (List.mem_cons_of_mem _ hwire) after hafter
        (hpulling.trans advanced.pulling)

theorem gather_sound_of_pulls {state : RunState}
    (sound : Sound setup services scope depth cache state) (id : String)
    (pulls : ∀ wire ∈ inputWires setup scope id, ∀ after,
      Sound setup services scope depth cache after →
      after.activation.pulling = state.activation.pulling →
      PullSound setup services scope depth cache wire.1 after) :
    gather setup services scope depth cache id =
        some (Engine.gather setup scope (call setup) id state).1 ∧
      Sound setup services scope depth cache
        (Engine.gather setup scope (call setup) id state).2 := by
  rw [gather, Engine.gather, gatherWith_eq]
  exact bringAll_sound sound _ pulls _

/-- A node can be pulled from below those that are being pulled: it feeds
them all, so on a graph without cycles it is none of them. -/
def FeedsOpenPulls (setup : Setup) (scope : Scope) (id : String)
    (state : RunState) : Prop :=
  (pullable? setup scope id).isSome →
    ∀ target ∈ state.activation.pulling,
    Relation.TransGen (Feeds setup scope) id target

theorem Sound.cache_none {state : RunState}
    (sound : Sound setup services scope depth cache state) {id : String}
    (h : state.outputs? id = none) : cache.get? id = none := by
  cases hcache : cache.get? id with
  | none => rfl
  | some found => exact absurd (sound.kept id found hcache) (by simp [h])

theorem pullSound_of_gathered (reading : PureKindsRead setup.catalogue)
    (calls : CallsSoundAt setup services depth) {source : Endpoint}
    {state middle : RunState} {node : Node} {how : Evaluator}
    {inputs : Table Value}
    (sound : Sound setup services scope depth cache state)
    (houtputs : state.outputs? source.node = none)
    (hpullable : pullable? setup scope source.node = some (node, how))
    (fresh : source.node ∉ state.activation.pulling)
    (hgather : Engine.gather setup scope (call setup) source.node
      (state.beginPull source.node) = (inputs, middle))
    (hnaive : gather setup services scope depth cache source.node = some inputs)
    (gathered : Sound setup services scope depth cache middle) :
    PullSound setup services scope depth cache source state := by
  have hhow := ((pullable?_eq_some setup scope).mp hpullable).2
  obtain ⟨hevaluate, same⟩ := evaluate_sound reading calls hhow inputs gathered
  rcases houtcome : Engine.evaluate (call setup) how node inputs middle with
    ⟨outcome, after⟩
  rw [houtcome] at hevaluate same
  have hvalues : values setup services scope depth cache source.node =
      some outcome.toOption := by
    rw [gather] at hnaive
    rw [values, sound.cache_none houtputs, hpullable]
    dsimp only
    rw [hnaive]
    exact hevaluate
  have hclosed : ¬ state.activation.pulling.contains source.node = true := by
    simpa using fresh
  have settled :=
    (gathered.of_undisturbed same).settlePull
      (sound.cache_none houtputs) hvalues
  rw [Engine.gather] at hgather
  unfold PullSound
  rw [pull_eq setup scope (call_steady setup), pullWith, houtputs, hpullable]
  dsimp only
  rw [if_neg hclosed, hgather, houtcome]
  refine ⟨⟨outcome.toOption, hvalues, ?_⟩, settled⟩
  cases outcome <;> rfl

theorem pull_sound (reading : PureKindsRead setup.catalogue)
    (acyclic : Acyclic setup scope) (calls : CallsSoundAt setup services depth)
    (source : Endpoint) (state : RunState)
    (sound : Sound setup services scope depth cache state)
    (below : FeedsOpenPulls setup scope source.node state) :
    PullSound setup services scope depth cache source state := by
  induction hleft : (idsLeft scope state).card using Nat.strongRecOn
    generalizing source state with
  | _ left ih =>
      cases houtputs : state.outputs? source.node with
      | some found =>
          obtain ⟨result, hresult, hpins⟩ := sound.values_of_outputs? houtputs
          unfold PullSound
          rw [pull_eq setup scope (call_steady setup), pullWith, houtputs]
          exact ⟨⟨result, hresult, hpins source.pin⟩, sound⟩
      | none =>
          cases hpullable : pullable? setup scope source.node with
          | none =>
              unfold PullSound
              rw [pull_eq setup scope (call_steady setup), pullWith, houtputs,
                hpullable, values, sound.cache_none houtputs, hpullable]
              exact ⟨⟨none, rfl, rfl⟩, sound⟩
          | some found =>
              obtain ⟨node, how⟩ := found
              have hnode := ((pullable?_eq_some setup scope).mp hpullable).1
              have hsome : (pullable? setup scope source.node).isSome := by
                simp [hpullable]
              have fresh : source.node ∉ state.activation.pulling := fun hmem =>
                acyclic source.node (below hsome source.node hmem)
              -- The node itself is now open, so each pull on its behalf has
              -- fewer ids left.
              have started : Sound setup services scope depth cache
                  (state.beginPull source.node) :=
                sound.of_undisturbed ⟨rfl, rfl, rfl, rfl⟩
              have hgather := gather_sound_of_pulls started source.node ?_
              · exact pullSound_of_gathered reading calls sound houtputs
                  hpullable fresh rfl hgather.1 hgather.2
              intro wire hwire after hafter hpulling
              refine ih _ ?_ wire.1 after hafter ?_ rfl
              · rw [idsLeft_congr scope _ after hpulling, ← hleft]
                exact card_idsLeft_beginPull_lt scope hnode fresh
              · intro hwired target htarget
                have feeds : Feeds setup scope wire.1.node source.node :=
                  ⟨hwired, hsome, wire, hwire, rfl⟩
                rw [hpulling] at htarget
                rcases List.mem_cons.mp htarget with rfl | htarget
                · exact .single feeds
                · exact .head feeds (below hsome target htarget)

theorem gather_sound (reading : PureKindsRead setup.catalogue)
    (acyclic : Acyclic setup scope) (calls : CallsSoundAt setup services depth)
    (id : String) {state : RunState}
    (sound : Sound setup services scope depth cache state)
    (idle : state.activation.pulling = []) :
    gather setup services scope depth cache id =
        some (Engine.gather setup scope (call setup) id state).1 ∧
      Sound setup services scope depth cache
        (Engine.gather setup scope (call setup) id state).2 := by
  refine gather_sound_of_pulls sound id fun wire _ after hafter hpulling => ?_
  refine pull_sound reading acyclic calls wire.1 after
    hafter fun _ target htarget => ?_
  rw [hpulling, idle] at htarget
  cases htarget

end Soundness

/-! ## Calls -/

theorem sound_start (setup : Setup) (scope : Scope) (state : RunState)
    (snapshot_eq : state.activation.view.snapshot = state.services.store) :
    Sound setup state.services scope state.activation.depth
      state.activation.outputs state where
  services_eq := rfl
  snapshot_eq := snapshot_eq
  depth_eq := rfl
  kept _ _ h := h
  added _ _ h hnone := by
    rw [RunState.outputs?, hnone] at h
    cases h

def BodiesAcyclic (setup : Setup) : Prop :=
  ∀ name function, setup.functions.get? name = some function →
    Acyclic setup ⟨function.graph, true⟩

theorem calls_sound {setup : Setup} (reading : PureKindsRead setup.catalogue)
    (bodies : BodiesAcyclic setup) (services : Services) (depth : Nat) :
    CallsSoundAt setup services depth := by
  induction hleft : setup.limits.maxCallDepth.toNat - depth
    using Nat.strongRecOn generalizing depth with
  | _ left ih =>
      intro node inputs state hpure hservices hsnapshot hdepth
      rw [evaluate, call_eq, callWith, hdepth]
      cases hcallee : callee setup node depth with
      | error cause => exact ⟨rfl, rfl, rfl, rfl, rfl⟩
      | ok function =>
          obtain ⟨hget, -, hlt⟩ := callee_ok hcallee
          have deeper := ih _ (by omega) (depth + 1) rfl
          have started : Sound setup services ⟨function.graph, true⟩ (depth + 1)
              (.single entryMarker (Parameter.values function.inputs inputs))
              (enterBody function inputs state) := by
            rw [← hservices, ← hdepth]
            exact sound_start setup ⟨function.graph, true⟩
              (enterBody function inputs state)
              (by rw [← hservices] at hsnapshot; exact hsnapshot)
          have returned := gather_sound reading
            (bodies _ function hget) deeper exitMarker started rfl
          have hwalk :
              walkBody setup ⟨function.graph, true⟩ (call setup) function
              (enterBody function inputs state) =
                enterBody function inputs state := by
            rw [walkBody, if_pos (callee_pure hpure hcallee)]
          dsimp only
          rw [gather] at returned
          rw [hwalk, returned.1]
          refine ⟨rfl, ?_, ?_, rfl, rfl⟩
          · exact returned.2.services_eq.trans hservices.symm
          · rw [hsnapshot, ← returned.2.services_eq]
            rfl

/-! ## Gathering -/

def yields (setup : Setup) (services : Services) (scope : Scope) (depth : Nat)
    (cache : Table (Table Value)) (source : Endpoint) : Option Value :=
  (values setup services scope depth cache source.node).join.bind fun found =>
    found.get? source.pin

theorem get?_overlay (inputs : Table Value) (target pin : String)
    (value : Option Value) :
    (overlay inputs target value).get? pin =
      (if target = pin then value else none).or (inputs.get? pin) := by
  cases value with
  | none => simp [overlay]
  | some value =>
      rw [overlay, Table.get?_insert]
      by_cases h : target = pin
      · simp [h]
      · rw [if_neg (Ne.symm h), if_neg h]
        rfl

theorem get?_bring {setup : Setup} {services : Services} {scope : Scope}
    {depth : Nat} {cache : Table (Table Value)}
    {wires : List (Endpoint × String)} {inputs result : Table Value}
    (h : bring setup services scope depth cache wires inputs = some result)
    (pin : String) :
    result.get? pin =
      (wires.reverse.findSome? fun wire =>
        if wire.2 = pin then yields setup services scope depth cache wire.1
        else none).or
        (inputs.get? pin) := by
  induction wires generalizing inputs with
  | nil =>
      rw [bring] at h
      cases h
      rfl
  | cons wire rest ih =>
      obtain ⟨source, target⟩ := wire
      rw [bring] at h
      obtain ⟨found, hfound, hrest⟩ := Option.bind_eq_some_iff.mp h
      have hyields : yields setup services scope depth cache source =
          found.bind fun values => values.get? source.pin := by
        rw [yields, hfound]
        rfl
      rw [ih hrest, List.reverse_cons, List.findSome?_append, Option.or_assoc,
        get?_overlay, ← hyields]
      congr 2
      simp only [List.findSome?_cons, List.findSome?_nil]
      cases (if target = pin then
        yields setup services scope depth cache source else none) <;>
        rfl

/-- Gathering with memory gives the inputs that are found without, whatever
values the activation holds: each pin has the value of the last data wire
into it whose source yields one, and otherwise its default. -/
theorem gather_eq_naive (setup : Setup) (scope : Scope)
    (reading : PureKindsRead setup.catalogue) (acyclic : Acyclic setup scope)
    (bodies : BodiesAcyclic setup) (id : String) (state : RunState)
    (synced : state.activation.view.snapshot = state.services.store)
    (idle : state.activation.pulling = []) :
    gather setup state.services scope state.activation.depth
      state.activation.outputs id =
        some (Engine.gather setup scope (call setup) id state).1 ∧
      ∀ pin, (Engine.gather setup scope (call setup) id state).1.get? pin =
        ((inputWires setup scope id).reverse.findSome? fun wire =>
          if wire.2 = pin then
            yields setup state.services scope state.activation.depth
              state.activation.outputs wire.1
          else none).or
          ((inputDefaults setup scope id).get? pin) := by
  have found :=
    (gather_sound reading acyclic (calls_sound reading bodies _ _) id
    (sound_start setup scope state synced) idle).1
  exact ⟨found, fun pin => get?_bring found pin⟩

/-! ### A source with two consumers, one of them a call -/

namespace Shared

def negate : Function where
  inputs := [⟨"value", .boolean, none, none⟩]
  outputs := [⟨"result", .boolean, none, none⟩]
  isPure := true
  nodes := [⟨"__entry__", "", .origin, .null⟩, ⟨"__exit__", "", .origin, .null⟩,
    ⟨"not", "logic/Not", .origin, .null⟩]
  connections :=
    [⟨"__entry__.value", "not.value"⟩, ⟨"not.result", "__exit__.result"⟩]

def setup : Setup where
  catalogue := Catalogue.empty.registerAll Library.Logic.kinds
  limits := {}
  functions := .single "negate" negate
  trigger := ⟨"start", none, none⟩

def scope : Scope where
  graph := .ofConnections
    [⟨"source", "logic/Not", .origin, .null⟩,
      ⟨"call", "function/Call", .origin,
        .object [("function", .text "negate")]⟩,
      ⟨"both", "logic/And", .origin, .null⟩]
    [⟨"source.result", "call.value"⟩, ⟨"source.result", "both.a"⟩,
      ⟨"call.result", "both.b"⟩, ⟨"gone.result", "both.b"⟩]
  isBody := false

def state : RunState where
  activation := { view := ⟨.empty⟩ }
  services := {}

theorem reading : PureKindsRead setup.catalogue := by
  refine pureKindsRead_registerAll (fun id entry h => ?_) ?_
  · cases h
  · intro item hitem _ inv services
    simp only [Library.Logic.kinds, List.mem_cons, List.not_mem_nil,
      or_false] at hitem
    rcases hitem with rfl | rfl | rfl | rfl <;> rfl

theorem acyclic : Acyclic setup scope :=
  acyclic_of_rank (["gone", "source", "call", "both"].idxOf ·)
    (by decide +kernel)

theorem bodies : BodiesAcyclic setup := by
  intro name function h
  simp only [setup, Table.get?_single] at h
  split at h
  · cases h
    exact acyclic_of_rank (["__entry__", "not", "__exit__"].idxOf ·)
      (by decide +kernel)
  · cases h

theorem gather_both :
    gather setup state.services scope 0 .empty "both" =
      some (.ofList [("a", .bool true), ("b", .bool false)]) := by
  have inputs : (Engine.gather setup scope (call setup) "both" state).1 =
      .ofList [("a", .bool true), ("b", .bool false)] := by
    decide +kernel
  rw [← inputs]
  exact (gather_eq_naive setup scope reading acyclic bodies
    "both" state rfl rfl).1

end Shared

end ScriptGraph.Engine.Naive
