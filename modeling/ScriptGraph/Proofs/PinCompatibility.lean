import Mathlib.Logic.Function.Iterate
import ScriptGraph.Library
import ScriptGraph.Proofs.Advance

/-!
# Which pins may be wired

Whether pins of two types may be wired is decided below the array layers that
the types have in common.  There control only goes with control, and data goes
with data that is equal, of every kind, or held by a point.

An editor asks the catalogue before it wires two pins, and the engine decides
for itself what a wire carries.  The two agree: a wire that the catalogue
allows carries control exactly if the pin at its source does, and exactly if
the pin at its target does.
-/

namespace ScriptGraph

namespace PinType

def isArray : PinType → Bool
  | array _ => true
  | _ => false

/-- Two types, of which one is not an array, go together. -/
def Matches (a b : PinType) : Prop :=
  (a = exec ∧ b = exec) ∨
    (a ≠ exec ∧ b ≠ exec ∧
      (a = b ∨ a = any ∨ b = any ∨ (a = point ∧ (b = number ∨ b = boolean)) ∨
        (b = point ∧ (a = number ∨ a = boolean))))

/-- Below the array layers that they have in common, `a` is `x` and `b` is
`y`. -/
structure Peels (a b x y : PinType) : Prop where
  layers : ∃ count, a = array^[count] x ∧ b = array^[count] y
  apart : (x.isArray && y.isArray) = false

theorem compatible_refl (a : PinType) : compatible a a = true := by
  induction a with
  | array element ih => simpa [compatible] using ih
  | _ => rfl

theorem compatible_comm (a b : PinType) : compatible a b = compatible b a := by
  induction a generalizing b with
  | array element ih =>
      cases b with
      | array other => simpa [compatible] using ih other
      | _ => rfl
  | _ => cases b <;> rfl

theorem compatible_array (a b : PinType) :
    compatible (array a) (array b) = compatible a b := by
  rw [compatible]

theorem compatible_iterate (count : Nat) (x y : PinType) :
    compatible (array^[count] x) (array^[count] y) = compatible x y := by
  induction count with
  | zero => rfl
  | succ count ih =>
      rw [Function.iterate_succ_apply', Function.iterate_succ_apply',
        compatible_array, ih]

theorem compatible_iff_matches {x y : PinType}
    (apart : (x.isArray && y.isArray) = false) :
    compatible x y = true ↔ Matches x y := by
  cases x with
  | array element =>
      cases y with
      | array other => simp [isArray] at apart
      | _ => simp [compatible, Matches]
  | _ => cases y <;> simp [compatible, Matches]

theorem exists_peels (a b : PinType) : ∃ x y, Peels a b x y := by
  induction a generalizing b with
  | array element ih =>
      cases b with
      | array other =>
          obtain ⟨x, y, ⟨count, hx, hy⟩, apart⟩ := ih other
          refine ⟨x, y, ⟨count + 1, ?_, ?_⟩, apart⟩
          · rw [Function.iterate_succ_apply', ← hx]
          · rw [Function.iterate_succ_apply', ← hy]
      | _ => exact ⟨_, _, ⟨0, rfl, rfl⟩, rfl⟩
  | _ => exact ⟨_, _, ⟨0, rfl, rfl⟩, rfl⟩

theorem Peels.compatible_iff {a b x y : PinType} (h : Peels a b x y) :
    compatible a b = true ↔ Matches x y := by
  obtain ⟨⟨count, rfl, rfl⟩, apart⟩ := h
  rw [compatible_iterate]
  exact compatible_iff_matches apart

theorem isExec_iff {a : PinType} : a.isExec = true ↔ a = exec := by
  cases a <;> simp [isExec]

theorem isExec_eq_of_compatible {a b : PinType} (h : compatible a b = true) :
    a.isExec = b.isExec := by
  cases a <;> cases b <;> simp_all [compatible, isExec]

end PinType

/-! ## Wires -/

namespace Catalogue

def pin? (catalogue : Catalogue) (kind name : String) (direction : Direction) :
    Option Pin :=
  (catalogue.kind? kind).bind fun found => found.pin? name direction

theorem canConnect_iff (catalogue : Catalogue)
    (fromKind fromPin toKind toPin : String) :
    catalogue.canConnect fromKind fromPin toKind toPin = true ↔
      ∃ source target, catalogue.pin? fromKind fromPin .output = some source ∧
        catalogue.pin? toKind toPin .input = some target ∧
        source.type.compatible target.type = true := by
  unfold canConnect pin?
  cases (catalogue.kind? fromKind).bind fun kind =>
    kind.pin? fromPin .output with
  | none => simp
  | some source =>
      cases (catalogue.kind? toKind).bind fun kind =>
        kind.pin? toPin .input with
      | none => simp
      | some target => simp

end Catalogue

namespace Engine

def isControlWire (setup : Setup) (scope : Scope) (source target : Endpoint) :
    Bool :=
  carriesControl setup scope
    ((scope.graph.node? target.node).bind fun node =>
      setup.catalogue.kind? node.kind) source target

section Wires

variable {setup : Setup} {scope : Scope} {source target : Endpoint}
  {sourceNode targetNode : Node} {sourcePin targetPin : Pin}

theorem isControlWire_eq
    (hsource : scope.graph.node? source.node = some sourceNode)
    (htarget : scope.graph.node? target.node = some targetNode)
    (hfrom : setup.catalogue.pin? sourceNode.kind source.pin .output =
      some sourcePin)
    (hto : setup.catalogue.pin? targetNode.kind target.pin .input =
      some targetPin) :
    isControlWire setup scope source target =
      (targetPin.type.isExec || sourcePin.type.isExec) := by
  unfold Catalogue.pin? at hfrom hto
  simp only [isControlWire, carriesControl, hsource, htarget, Option.bind_some,
    hfrom, hto]

theorem dataWire?_eq_some_iff {kind? : Option NodeKind} {wire : Wire}
    {pin : String} :
    dataWire? setup scope kind? wire = some (source, pin) ↔
      ∃ target, wire = ⟨some source, some target⟩ ∧ target.pin = pin ∧
        carriesControl setup scope kind? source target = false := by
  obtain ⟨from?, to?⟩ := wire
  cases from? with
  | none => simp [dataWire?]
  | some found =>
      cases to? with
      | none => simp [dataWire?]
      | some reached =>
          cases hcontrol : carriesControl setup scope kind? found reached with
          | true =>
              simp only [dataWire?, hcontrol, if_true, reduceCtorEq,
                Wire.mk.injEq, Option.some.injEq, false_iff]
              rintro ⟨target, ⟨rfl, rfl⟩, -, hdata⟩
              simp [hcontrol] at hdata
          | false =>
              simp only [dataWire?, hcontrol, Bool.false_eq_true, if_false,
                Option.some.injEq, Prod.mk.injEq, Wire.mk.injEq]
              constructor
              · rintro ⟨rfl, rfl⟩
                exact ⟨reached, ⟨rfl, rfl⟩, rfl, hcontrol⟩
              · rintro ⟨target, ⟨rfl, rfl⟩, rfl, -⟩
                exact ⟨rfl, rfl⟩

theorem mem_inputWires_iff
    (hwire : ⟨some source, some target⟩ ∈ scope.graph.wires)
    (htarget : scope.graph.node? target.node = some targetNode) :
    (source, target.pin) ∈ inputWires setup scope target.node ↔
      isControlWire setup scope source target = false := by
  have hcontrol : isControlWire setup scope source target =
      carriesControl setup scope (setup.catalogue.kind? targetNode.kind) source
        target := by
    rw [isControlWire, htarget, Option.bind_some]
  have hinputs : inputWires setup scope target.node =
      dataWires setup scope
        (setup.catalogue.kind? targetNode.kind) target.node := by
    rw [inputWires, htarget]
  rw [hcontrol, hinputs, dataWires, List.mem_filterMap]
  constructor
  · rintro ⟨wire, hinto, hdata⟩
    obtain ⟨reached, rfl, hpin, hdata⟩ := dataWire?_eq_some_iff.mp hdata
    have hnode : reached.node = target.node := by
      simpa using (List.mem_filter.mp hinto).2
    have hsame : reached = target := by
      cases reached
      cases target
      cases hpin
      cases hnode
      rfl
    rw [← hsame]
    exact hdata
  · intro hdata
    refine ⟨⟨some source, some target⟩, ?_,
      dataWire?_eq_some_iff.mpr ⟨target, rfl, rfl, hdata⟩⟩
    simpa [Graph.wiresInto] using hwire

theorem isControlWire_of_canConnect
    (hsource : scope.graph.node? source.node = some sourceNode)
    (htarget : scope.graph.node? target.node = some targetNode)
    (allowed : setup.catalogue.canConnect sourceNode.kind source.pin
      targetNode.kind target.pin =
      true) :
    ∃ sourcePin targetPin,
      setup.catalogue.pin? sourceNode.kind source.pin .output = some sourcePin ∧
      setup.catalogue.pin? targetNode.kind target.pin .input = some targetPin ∧
      isControlWire setup scope source target = sourcePin.type.isExec ∧
      isControlWire setup scope source target = targetPin.type.isExec := by
  obtain ⟨sourcePin, targetPin, hfrom, hto, compatible⟩ :=
    (setup.catalogue.canConnect_iff _ _ _ _).mp allowed
  have same := PinType.isExec_eq_of_compatible compatible
  have hcontrol := isControlWire_eq hsource htarget hfrom hto
  refine ⟨sourcePin, targetPin, hfrom, hto, ?_, ?_⟩
  · rw [hcontrol, ← same, Bool.or_self]
  · rw [hcontrol, same, Bool.or_self]

end Wires

/-- Compatibility is reflexive and symmetric, arrays are compatible exactly if
their elements are, and below their common array layers two types are
compatible exactly if they match.  A wire between nodes whose pins the catalogue
allows to be connected is taken to carry control exactly if its source pin is
declared to, and exactly if its target pin is; otherwise it brings data. -/
theorem compatibility_decides_wires :
    (∀ a, PinType.compatible a a = true) ∧
    (∀ a b, PinType.compatible a b = PinType.compatible b a) ∧
    (∀ a b, PinType.compatible (.array a) (.array b) = PinType.compatible a b) ∧
    (∀ a b, ∃ x y, PinType.Peels a b x y) ∧
    (∀ a b x y, PinType.Peels a b x y →
      (PinType.compatible a b = true ↔ PinType.Matches x y)) ∧
    ∀ (setup : Setup) (scope : Scope) (source target : Endpoint)
      (sourceNode targetNode : Node),
      scope.graph.node? source.node = some sourceNode →
      scope.graph.node? target.node = some targetNode →
      setup.catalogue.canConnect sourceNode.kind source.pin targetNode.kind
        target.pin = true →
      ∃ sourcePin targetPin,
        setup.catalogue.pin? sourceNode.kind source.pin .output =
          some sourcePin ∧
        setup.catalogue.pin? targetNode.kind target.pin .input =
          some targetPin ∧
        (isControlWire setup scope source target = true ↔
          sourcePin.type = .exec) ∧
        (isControlWire setup scope source target = true ↔
          targetPin.type = .exec) ∧
        (⟨some source, some target⟩ ∈ scope.graph.wires →
          ((source, target.pin) ∈ inputWires setup scope target.node ↔
            targetPin.type ≠ .exec)) := by
  refine ⟨PinType.compatible_refl, PinType.compatible_comm,
    PinType.compatible_array, PinType.exists_peels, fun a b x y h =>
      h.compatible_iff, ?_⟩
  intro setup scope source target sourceNode targetNode hsource htarget allowed
  obtain ⟨sourcePin, targetPin, hfrom, hto, hsourceExec, htargetExec⟩ :=
    isControlWire_of_canConnect hsource htarget allowed
  refine ⟨sourcePin, targetPin, hfrom, hto, ?_, ?_, ?_⟩
  · rw [hsourceExec, PinType.isExec_iff]
  · rw [htargetExec, PinType.isExec_iff]
  · intro hwire
    rw [mem_inputWires_iff hwire htarget, htargetExec, ne_eq,
      ← PinType.isExec_iff, Bool.not_eq_true]

/-! ### A wire of each sort -/

namespace Greeting

def setup : Setup where
  catalogue := Catalogue.empty.registerAll Library.Utility.kinds
  limits := {}
  functions := .empty
  trigger := ⟨"start", none, none⟩

def hello : Node :=
  ⟨"hello", "utility/Constant", .origin, .object [("value", .text "hello")]⟩

def first : Node := ⟨"first", "utility/Print", .origin, .null⟩

def second : Node := ⟨"second", "utility/Print", .origin, .null⟩

def scope : Scope where
  graph := .ofConnections [hello, first, second]
    [⟨"first.then", "second.exec"⟩, ⟨"hello.value", "second.message"⟩]
  isBody := false

theorem wires_told_apart :
    isControlWire setup scope ⟨"first", "then"⟩ ⟨"second", "exec"⟩ = true ∧
      isControlWire setup scope ⟨"hello", "value"⟩ ⟨"second", "message"⟩ =
        false := by
  have decided := compatibility_decides_wires.2.2.2.2.2 setup scope
  constructor
  · obtain ⟨sourcePin, targetPin, hfrom, -, hcontrol, -⟩ :=
      decided ⟨"first", "then"⟩ ⟨"second", "exec"⟩ first second
        (by decide +kernel) (by decide +kernel) (by decide +kernel)
    have declared : sourcePin = .execOut "then" := by
      have hpin : setup.catalogue.pin? first.kind "then" .output =
          some (.execOut "then") := by
        decide +kernel
      exact Option.some.inj (hfrom.symm.trans hpin)
    exact hcontrol.mpr (congrArg Pin.type declared)
  · obtain ⟨sourcePin, targetPin, -, hto, -, hcontrol, -⟩ :=
      decided ⟨"hello", "value"⟩ ⟨"second", "message"⟩ hello second
        (by decide +kernel) (by decide +kernel) (by decide +kernel)
    have declared : targetPin = .dataIn "message" .any := by
      have hpin : setup.catalogue.pin? second.kind "message" .input =
          some (.dataIn "message" .any) := by
        decide +kernel
      exact Option.some.inj (hto.symm.trans hpin)
    rw [Bool.eq_false_iff, ne_eq, hcontrol, declared]
    decide

end Greeting

end Engine

end ScriptGraph
