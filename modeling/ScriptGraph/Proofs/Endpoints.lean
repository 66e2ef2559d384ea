import Mathlib.Data.List.TakeDrop
import Mathlib.Data.List.TakeWhile
import ScriptGraph.Endpoint

/-!
# Endpoints and their texts

A text is divided at its last dot, so an endpoint whose pin holds no dot is the
only one with its text.  A text is read exactly if its last dot has something
on both sides, and an endpoint is read back from its text exactly if it is
plain: both names are there, and the name of the pin holds no dot.
-/

namespace ScriptGraph

namespace Endpoint

/-- Both names are there, and the pin's holds no dot. -/
structure Plain (endpoint : Endpoint) : Prop where
  node : endpoint.node ≠ ""
  pin : endpoint.pin ≠ ""
  undotted : '.' ∉ endpoint.pin.toList

theorem toList_render (endpoint : Endpoint) :
    endpoint.render.toList =
      endpoint.node.toList ++ '.' :: endpoint.pin.toList := by
  simp [render]

theorem render_of_parse? {text : String} {endpoint : Endpoint}
    (h : parse? text = some endpoint) : endpoint.render = text := by
  unfold parse? at h
  rw [List.span_eq_takeWhile_dropWhile] at h
  split at h
  · next pin last node hspan =>
      split at h
      · cases h
      · cases h
        obtain ⟨hpin, hrest⟩ := Prod.mk.inj hspan
        have hlast : last = '.' := by
          have hhead := List.head?_dropWhile_not (· != '.') text.toList.reverse
          rw [hrest] at hhead
          simpa using hhead
        have htext : text.toList.reverse = pin ++ '.' :: node := by
          rw [← List.takeWhile_append_dropWhile (p := (· != '.'))
            (l := text.toList.reverse), hpin, hrest, hlast]
        have hreverse := congrArg List.reverse htext
        rw [List.reverse_reverse] at hreverse
        refine String.toList_inj.mp ?_
        rw [hreverse]
        simp [toList_render]
  · cases h

theorem parse?_render {endpoint : Endpoint} (hnode : endpoint.node ≠ "")
    (hpin : endpoint.pin ≠ "") (hdot : '.' ∉ endpoint.pin.toList) :
    parse? endpoint.render = some endpoint := by
  obtain ⟨node, pin⟩ := endpoint
  have hreverse : (render ⟨node, pin⟩).toList.reverse =
      pin.toList.reverse ++ '.' :: node.toList.reverse := by
    simp [toList_render]
  have undotted : ∀ c ∈ pin.toList.reverse, (c != '.') = true := by
    intro c hc
    simp only [bne_iff_ne]
    rintro rfl
    exact hdot (List.mem_reverse.mp hc)
  have hspan : (render ⟨node, pin⟩).toList.reverse.span (· != '.') =
      (pin.toList.reverse, '.' :: node.toList.reverse) := by
    rw [List.span_eq_takeWhile_dropWhile, hreverse,
      List.takeWhile_append_of_pos undotted,
      List.dropWhile_append_of_pos undotted]
    simp
  have hends : (pin.toList.reverse.isEmpty || node.toList.reverse.isEmpty) =
      false := by
    simpa using ⟨hpin, hnode⟩
  simp only [parse?, hspan, hends, List.reverse_reverse, String.ofList_toList]
  rfl

theorem plain_of_parse? {text : String} {endpoint : Endpoint}
    (h : parse? text = some endpoint) : endpoint.Plain := by
  unfold parse? at h
  rw [List.span_eq_takeWhile_dropWhile] at h
  split at h
  · next pin last node hspan =>
      split at h
      · cases h
      · next hends =>
          cases h
          have hpin := (Prod.mk.inj hspan).1
          simp only [Bool.or_eq_true, List.isEmpty_iff, not_or] at hends
          refine ⟨by simpa using hends.2, by simpa using hends.1, ?_⟩
          rw [String.toList_ofList, List.mem_reverse, ← hpin]
          intro dotted
          simpa using List.mem_takeWhile_imp dotted
  · cases h

theorem parse?_eq_some_iff {text : String} {endpoint : Endpoint} :
    parse? text = some endpoint ↔ endpoint.render = text ∧ endpoint.Plain := by
  constructor
  · intro h
    exact ⟨render_of_parse? h, plain_of_parse? h⟩
  · rintro ⟨rfl, plain⟩
    exact parse?_render plain.node plain.pin plain.undotted

theorem split?_eq (text : String) :
    split? text = (parse? text).map fun endpoint =>
      (endpoint.node, endpoint.pin) := by
  unfold split? aroundLastDot? parse?
  rcases text.toList.reverse.span (· != '.') with ⟨pin, _ | ⟨dot, node⟩⟩
  · rfl
  · have hends :
        (!(String.ofList node.reverse).isEmpty &&
          !(String.ofList pin.reverse).isEmpty) =
        !(pin.isEmpty || node.isEmpty) := by
      cases pin <;> cases node <;> simp
    simp only [Option.filter_some, hends]
    cases pin.isEmpty || node.isEmpty <;> rfl

theorem split?_eq_some_iff {text node pin : String} :
    split? text = some (node, pin) ↔ parse? text = some ⟨node, pin⟩ := by
  rw [split?_eq, Option.map_eq_some_iff]
  constructor
  · rintro ⟨⟨_, _⟩, hparse, rfl, rfl⟩
    exact hparse
  · intro hparse
    exact ⟨_, hparse, rfl⟩

/-! ## Where a text is divided -/

def LastDotAt (text : String) (place : Nat) : Prop :=
  text.toList[place]? = some '.' ∧
    ∀ later, place < later → text.toList[later]? ≠ some '.'

theorem Plain.lastDotAt {endpoint : Endpoint} (plain : endpoint.Plain) :
    LastDotAt endpoint.render endpoint.node.toList.length := by
  constructor
  · rw [toList_render, List.getElem?_append_right (Nat.le_refl _), Nat.sub_self]
    rfl
  · intro later hlater hdot
    obtain ⟨rest, rfl⟩ := Nat.exists_eq_add_of_lt hlater
    rw [toList_render, List.getElem?_append_right (by omega)] at hdot
    have hplace :
        endpoint.node.toList.length + rest + 1 - endpoint.node.toList.length =
        rest + 1 := by omega
    rw [hplace, List.getElem?_cons_succ] at hdot
    exact plain.undotted (List.mem_of_getElem? hdot)

theorem exists_plain_of_lastDotAt {text : String} {place : Nat}
    (last : LastDotAt text place) (hnode : 0 < place)
    (hpin : place + 1 < text.toList.length) :
    ∃ endpoint : Endpoint, endpoint.render = text ∧ endpoint.Plain := by
  obtain ⟨hdot, hlater⟩ := last
  obtain ⟨hplace, hget⟩ := List.getElem?_eq_some_iff.mp hdot
  refine ⟨⟨String.ofList (text.toList.take place),
    String.ofList (text.toList.drop (place + 1))⟩, String.toList_inj.mp ?_,
    ?_, ?_, ?_⟩
  · calc (render _).toList
        = text.toList.take place ++ '.' :: text.toList.drop (place + 1) := by
          simp only [toList_render, String.toList_ofList]
      _ = text.toList.take place ++ text.toList.drop place := by
          rw [List.drop_eq_getElem_cons hplace, hget]
      _ = text.toList := List.take_append_drop _ _
  · intro hempty
    have hlength := congrArg List.length (congrArg String.toList hempty)
    simp only [String.toList_ofList, List.length_take, String.toList_empty,
      List.length_nil] at hlength
    omega
  · intro hempty
    have hlength := congrArg List.length (congrArg String.toList hempty)
    simp only [String.toList_ofList, List.length_drop, String.toList_empty,
      List.length_nil] at hlength
    omega
  · rw [String.toList_ofList]
    intro hmem
    obtain ⟨later, hfound⟩ := List.getElem?_of_mem hmem
    rw [List.getElem?_drop] at hfound
    exact hlater _ (by omega) hfound

theorem parse?_isSome_iff (text : String) :
    (parse? text).isSome ↔
      ∃ place, LastDotAt text place ∧ 0 < place ∧
      place + 1 < text.toList.length := by
  simp only [Option.isSome_iff_exists, parse?_eq_some_iff]
  constructor
  · rintro ⟨endpoint, rfl, plain⟩
    have hnode : 0 < endpoint.node.toList.length := by
      simpa [List.length_pos_iff] using plain.node
    have hpin : 0 < endpoint.pin.toList.length := by
      simpa [List.length_pos_iff] using plain.pin
    refine ⟨_, plain.lastDotAt, hnode, ?_⟩
    rw [toList_render, List.length_append, List.length_cons]
    omega
  · rintro ⟨place, last, hnode, hpin⟩
    exact exists_plain_of_lastDotAt last hnode hpin

end Endpoint

/-! ## Connections -/

namespace Connection

theorem sourceParts?_between_iff (source target : Endpoint) :
    (between source target).sourceParts? = some (source.node, source.pin) ↔
      source.Plain := by
  rw [sourceParts?, Endpoint.split?_eq_some_iff, Endpoint.parse?_eq_some_iff]
  exact and_iff_right rfl

theorem targetParts?_between_iff (source target : Endpoint) :
    (between source target).targetParts? = some (target.node, target.pin) ↔
      target.Plain := by
  rw [targetParts?, Endpoint.split?_eq_some_iff, Endpoint.parse?_eq_some_iff]
  exact and_iff_right rfl

end Connection

namespace Endpoint

/-- Reading a text and writing an endpoint undo each other.  What is read is
written as the text it was read from, and both ways to divide a text find the
same names.  An endpoint is read back exactly if it is plain.  So no two texts
are read alike, a text is read exactly if its last dot is neither its first nor
its last character, and a connection has the names it was made of exactly if
they are those of plain endpoints, on either side. -/
theorem render_parse_inverse :
    (∀ text endpoint, parse? text = some endpoint → endpoint.render = text) ∧
    (∀ text, split? text = (parse? text).map fun endpoint =>
      (endpoint.node, endpoint.pin)) ∧
    (∀ node pin, parse? (render ⟨node, pin⟩) = some ⟨node, pin⟩ ↔
      Plain ⟨node, pin⟩) ∧
    (∀ text other endpoint, parse? text = some endpoint →
      parse? other = some endpoint → text = other) ∧
    (∀ text, (parse? text).isSome ↔
      ∃ place, LastDotAt text place ∧ 0 < place ∧ place + 1 < text.length) ∧
    ∀ fromNode fromPin toNode toPin,
      let connection := Connection.between ⟨fromNode, fromPin⟩ ⟨toNode, toPin⟩
      (connection.sourceParts? = some (fromNode, fromPin) ↔
        Plain ⟨fromNode, fromPin⟩) ∧
      (connection.targetParts? = some (toNode, toPin) ↔
        Plain ⟨toNode, toPin⟩) := by
  refine ⟨fun text endpoint => render_of_parse?, split?_eq, ?_, ?_, ?_, ?_⟩
  · intro node pin
    rw [parse?_eq_some_iff]
    exact and_iff_right rfl
  · intro text other endpoint htext hother
    rw [← render_of_parse? htext, render_of_parse? hother]
  · intro text
    rw [← String.length_toList]
    exact parse?_isSome_iff text
  · intro fromNode fromPin toNode toPin
    exact ⟨Connection.sourceParts?_between_iff _ _,
      Connection.targetParts?_between_iff _ _⟩

theorem dotted_node_read :
    parse? "ahu..1.value" = some ⟨"ahu..1", "value"⟩ ∧
      render ⟨"ahu..1", "value"⟩ = "ahu..1.value" :=
  have read : parse? "ahu..1.value" = some ⟨"ahu..1", "value"⟩ := by
    decide +kernel
  ⟨read, render_parse_inverse.1 _ _ read⟩

end Endpoint

end ScriptGraph
