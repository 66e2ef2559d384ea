import ScriptGraph.Proofs.RoundTrip
import ScriptGraph.Proofs.SinglePrecision

/-!
# Saved blueprints

A blueprint that was read from a document is written as a document again.  That
one is read back as the same blueprint as long as every node stands on the
canvas: the coordinates are single precision numbers, so a number beyond their
range is read as an infinity, and an infinity is written as null, which no
coordinate is read from.
-/

namespace ScriptGraph

open Json Binary64

/-! ## Positions -/

namespace Position

def onCanvas (position : Position) : Bool :=
  position.x.isFinite && position.y.isFinite

def Single (position : Position) : Prop :=
  toSingle position.x = position.x ∧ toSingle position.y = position.y

theorem single_origin : origin.Single :=
  ⟨by decide +kernel, by decide +kernel⟩

theorem coordinate?_ofFloat {x : Float} (h : toSingle x = x) :
    coordinate? (.ofFloat x) = if x.isFinite then some x else none := by
  unfold Value.ofFloat
  split
  · rw [coordinate?, h]
  · rfl

theorem yields_coordinate :
    Decoder.Yields coordinate? fun x => toSingle x = x := by
  intro v x h
  unfold coordinate? at h
  split at h
  · cases h
    exact toSingle_singleOfParts ..
  · cases h
    exact toSingle_toSingle _
  · cases h

theorem ofJson?_toJson {position : Position} (single : position.Single) :
    ofJson? position.toJson =
      if position.onCanvas then some position else none := by
  have x := coordinate?_ofFloat single.1
  have y := coordinate?_ofFloat single.2
  cases hx : position.x.isFinite <;> cases hy : position.y.isFinite <;>
    simp [ofJson?, toJson, onCanvas, x, y, hx, hy]

theorem yields_single : Decoder.Yields ofJson? Single := by
  intro v position h
  unfold ofJson? at h
  split at h
  · simp only [Option.bind_eq_bind, Option.bind_eq_some_iff, Option.pure_def,
      Option.some.injEq] at h
    obtain ⟨x, hx, y, hy, rfl⟩ := h
    exact ⟨yields_coordinate.required hx, yields_coordinate.required hy⟩
  · cases h

end Position

/-! ## Nodes -/

namespace Node

theorem ofJson?_toJson {node : Node} (single : node.position.Single) :
    ofJson? node.toJson =
      if node.position.onCanvas then some node else none := by
  cases h : node.position.onCanvas <;>
    simp [ofJson?, toJson, Position.ofJson?_toJson single, h]

theorem yields_single :
    Decoder.Yields ofJson? fun node => node.position.Single := by
  intro v node h
  unfold ofJson? at h
  split at h
  · simp only [Option.bind_eq_bind, Option.bind_eq_some_iff, Option.pure_def,
      Option.some.injEq] at h
    obtain ⟨_, -, _, -, position, hposition, _, -, rfl⟩ := h
    exact Position.yields_single.orElse Position.single_origin hposition
  · cases h

end Node

def allOnCanvas (nodes : List Node) : Bool :=
  nodes.all fun node => node.position.onCanvas

theorem list_nodes {nodes : List Node}
    (single : ∀ node ∈ nodes, node.position.Single) :
    Decoder.list Node.ofJson? (.ofListWith Node.toJson nodes) =
      if allOnCanvas nodes then some nodes else none :=
  Decoder.list_ofListWith_if fun node hnode =>
    Node.ofJson?_toJson (single node hnode)

theorem list_connections (connections : List Connection) :
    Decoder.list Connection.ofJson?
      (.ofListWith Connection.toJson connections) =
      some connections :=
  Decoder.list_ofListWith fun connection _ => connection.ofJson?_toJson

/-! ## Functions -/

namespace Function

structure Proper (function : Function) : Prop where
  inputs : ∀ parameter ∈ function.inputs, parameter.default ≠ some .null
  outputs : ∀ parameter ∈ function.outputs, parameter.default ≠ some .null
  nodes : ∀ node ∈ function.nodes, node.position.Single

theorem ofJson?_toJson {function : Function} (proper : function.Proper) :
    ofJson? function.toJson =
      if allOnCanvas function.nodes then some function else none := by
  have inputs := Decoder.list_ofListWith fun parameter h =>
    Parameter.ofJson?_toJson (proper.inputs parameter h)
  have outputs := Decoder.list_ofListWith fun parameter h =>
    Parameter.ofJson?_toJson (proper.outputs parameter h)
  cases h : allOnCanvas function.nodes <;>
    simp [ofJson?, toJson, inputs, outputs, list_nodes proper.nodes,
      list_connections, h]

theorem yields_proper : Decoder.Yields ofJson? Proper := by
  intro v function h
  unfold ofJson? at h
  split at h
  · simp only [Option.bind_eq_bind, Option.bind_eq_some_iff, Option.pure_def,
      Option.some.injEq] at h
    obtain ⟨_, -, _, -, inputs, hinputs, outputs, houtputs, _, -, nodes, hnodes,
        _, -, rfl⟩ := h
    exact {
      inputs := Parameter.yields_default.list.orElse
        (List.forall_mem_nil _) hinputs
      outputs := Parameter.yields_default.list.orElse
        (List.forall_mem_nil _) houtputs
      nodes := Node.yields_single.list.orElse (List.forall_mem_nil _) hnodes }
  · cases h

end Function

/-! ## Blueprints -/

namespace Blueprint

def functionsOnCanvas (functions : Table Function) : Bool :=
  functions.entries.all fun entry => allOnCanvas entry.2.nodes

def onCanvas (blueprint : Blueprint) : Bool :=
  allOnCanvas blueprint.nodes && functionsOnCanvas blueprint.functions

structure Proper (blueprint : Blueprint) : Prop where
  variableDefs : ∀ entry ∈ blueprint.variableDefs.entries, entry.2.default ≠
    some .null
  nodes : ∀ node ∈ blueprint.nodes, node.position.Single
  functions : ∀ entry ∈ blueprint.functions.entries, entry.2.Proper

theorem orElse_functions {functions : Table Function}
    (proper : ∀ entry ∈ functions.entries, entry.2.Proper) :
    Decoder.orElse (.table Function.ofJson?) .empty
        (if functions.isEmpty then none else
          some (.ofTableWith Function.toJson functions)) =
      if functionsOnCanvas functions then some functions else none := by
  split
  case isTrue hempty =>
      obtain ⟨entries, ascending⟩ := functions
      cases List.isEmpty_iff.mp hempty
      rfl
  case isFalse =>
      rw [Decoder.orElse_some]
      exact @Decoder.table_ofTableWith_if _ _ _ _
        (fun function => allOnCanvas function.nodes)
        fun entry hentry => Function.ofJson?_toJson (proper entry hentry)

theorem ofJson?_toJson {blueprint : Blueprint} (proper : blueprint.Proper) :
    ofJson? blueprint.toJson =
      if blueprint.onCanvas then some blueprint else none := by
  have variableDefs := Decoder.table_ofTableWith fun entry h =>
    Variable.ofJson?_toJson (proper.variableDefs entry h)
  rw [onCanvas]
  cases hnodes : allOnCanvas blueprint.nodes <;>
    cases hfunctions : functionsOnCanvas blueprint.functions <;>
      simp [ofJson?, toJson, variableDefs, orElse_functions proper.functions,
        list_nodes proper.nodes, list_connections, hnodes, hfunctions]

theorem yields_proper : Decoder.Yields ofJson? Proper := by
  intro v blueprint h
  unfold ofJson? at h
  split at h
  · simp only [Option.bind_eq_bind, Option.bind_eq_some_iff, Option.pure_def,
      Option.some.injEq] at h
    obtain ⟨_, -, _, -, _, -, _, -, variableDefs, hvariables, nodes, hnodes, _,
      -, functions, hfunctions, rfl⟩ := h
    exact {
      variableDefs :=
        Variable.yields_default.table.orElse (List.forall_mem_nil _) hvariables
      nodes := Node.yields_single.list.orElse (List.forall_mem_nil _) hnodes
      functions :=
        Function.yields_proper.table.orElse (List.forall_mem_nil _) hfunctions }
  · cases h

/-- A blueprint that was read is read back if it stands on the canvas, and not
at all if it does not. -/
theorem saved_reads_back (v : Value) (blueprint : Blueprint)
    (loaded : ofJson? v = some blueprint) :
    ofJson? blueprint.toJson =
      if blueprint.onCanvas then some blueprint else none :=
  ofJson?_toJson (yields_proper v blueprint loaded)

def oneNode (x : Value) : Value :=
  .object [
    ("id", .text "b"),
    ("name", .text "b"),
    ("nodes", .array [.object [
      ("id", .text "n"),
      ("position", .object [("x", x), ("y", .number (.integer 0))]),
      ("type", .text "t")]])]

theorem near_node_saved :
    ∃ blueprint, ofJson? (oneNode (.number (.real 1e38))) = some blueprint ∧
      ofJson? blueprint.toJson = some blueprint := by
  refine ⟨_, rfl, ?_⟩
  refine (saved_reads_back (oneNode (.number (.real 1e38))) _ rfl).trans
    (if_pos ?_)
  decide +kernel

theorem far_node_lost :
    ∃ blueprint, ofJson? (oneNode (.number (.real 1e39))) = some blueprint ∧
      ofJson? blueprint.toJson = none := by
  refine ⟨_, rfl, ?_⟩
  decide +kernel

end Blueprint

end ScriptGraph
