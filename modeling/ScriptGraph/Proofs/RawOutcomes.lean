import ScriptGraph.Proofs.RoundTrip

/-!
# Raw outcomes

Dynamic nodes answer with whatever JSON they like, and `Output.ofRaw` makes an
output of it.  An outcome that is written out in full is read as it was, with
every flow there is.  An object without `values` and without `result` is the
values themselves.  Of all else only these two members count, each on its own:
one of them may be missing or of no use without harm to the other, and it does
not matter what else the object holds.
-/

namespace ScriptGraph

open Json

namespace Output

def rawMember? (raw : Option Value) (key : String) : Option Value :=
  (raw.bind Value.asTable?).bind fun members => members.get? key

def IsBare (members : Table Value) : Prop :=
  members.get? "values" = none ∧ members.get? "result" = none

theorem not_contains_iff_isBare (members : Table Value) :
    (!members.contains "values" && !members.contains "result") = true ↔
      IsBare members := by
  simp [Table.contains, IsBare]

def toRaw (output : Output) : Value :=
  .record [("result", some output.flow.toJson),
    ("values", some (.ofTable output.values))]

section Objects

variable {members : List (String × Value)}

theorem ofRaw_of_isBare (bare : IsBare (Table.ofList members)) :
    ofRaw (some (.object members)) = finish (Table.ofList members) :=
  if_pos ((not_contains_iff_isBare _).mpr bare)

theorem ofRaw_of_not_isBare (full : ¬IsBare (Table.ofList members)) :
    ofRaw (some (.object members)) =
      { values := (((Table.ofList members).get? "values").bind
        Value.asTable?).getD .empty
        flow :=
          match ((Table.ofList members).get? "result").map Flow.ofJson with
          | some (.ok flow) => flow
          | _ => .finish } :=
  if_neg fun bare => full ((not_contains_iff_isBare _).mp bare)

end Objects

/-- The values of an output are those of the member `values` of a raw outcome,
and its flow is the one in the member `result`; each is missing where the member
is of no use. -/
structure FromMembers (raw : Option Value) (output : Output) : Prop where
  values : ∀ members, rawMember? raw "values" = some (.object members) →
    output.values = Table.ofList members
  noValues : (∀ members, rawMember? raw "values" ≠ some (.object members)) →
    output.values = .empty
  flow : ∀ result flow, rawMember? raw "result" = some result →
    Flow.ofJson result = .ok flow → output.flow = flow
  noFlow : (∀ result flow, rawMember? raw "result" = some result →
    Flow.ofJson result ≠ .ok flow) → output.flow = .finish

theorem ofRaw_eq (raw : Option Value)
    (full : ∀ members, raw = some (.object members) →
      ¬IsBare (Table.ofList members)) :
    ofRaw raw =
      { values := ((rawMember? raw "values").bind Value.asTable?).getD .empty
        flow :=
          match (rawMember? raw "result").map Flow.ofJson with
          | some (.ok flow) => flow
          | _ => .finish } := by
  cases raw with
  | none => rfl
  | some value =>
      cases value with
      | object members => exact ofRaw_of_not_isBare (full members rfl)
      | _ => rfl

theorem ofRaw_fromMembers (raw : Option Value)
    (full : ∀ members, raw = some (.object members) →
      ¬IsBare (Table.ofList members)) :
    FromMembers raw (ofRaw raw) := by
  rw [ofRaw_eq raw full]
  constructor
  case values =>
    intro members hvalues
    rw [hvalues]
    rfl
  case noValues =>
    intro unusable
    cases hvalues : rawMember? raw "values" with
    | none => rfl
    | some value =>
        cases value with
        | object members => exact absurd hvalues (unusable members)
        | _ => rfl
  case flow =>
    intro result flow hresult hflow
    simp [hresult, hflow]
  case noFlow =>
    intro unread
    cases hresult : rawMember? raw "result" with
    | none => rfl
    | some result =>
        cases hflow : Flow.ofJson result with
        | ok flow => exact absurd hflow (unread result flow hresult)
        | error cause => simp [hflow]

theorem ofRaw_toRaw (output : Output) : ofRaw (some output.toRaw) = output := by
  have written :
      Table.ofList
        [("result", output.flow.toJson), ("values", .ofTable output.values)] =
      (Table.single "result" output.flow.toJson).insert "values"
        (.ofTable output.values) := rfl
  have full : ¬IsBare (Table.ofList
      [("result", output.flow.toJson),
        ("values", .ofTable output.values)]) := by
    rw [written]
    simp [IsBare]
  refine (ofRaw_of_not_isBare full).trans ?_
  rw [written]
  simp [Table.get?_insert, Value.ofTable, Value.asTable?, Flow.ofJson_toJson]

theorem ofRaw_insert {members : Table Value} (full : ¬IsBare members)
    {key : String} (hvalues : key ≠ "values") (hresult : key ≠ "result")
    (extra : Value) :
    ofRaw (some (.ofTable (members.insert key extra))) =
      ofRaw (some (.ofTable members)) := by
  have values : (members.insert key extra).get? "values" =
      members.get? "values" :=
    members.get?_insert_of_ne extra hvalues.symm
  have result : (members.insert key extra).get? "result" =
      members.get? "result" :=
    members.get?_insert_of_ne extra hresult.symm
  have still : ¬IsBare (members.insert key extra) := by
    rwa [IsBare, values, result]
  simp only [Value.ofTable]
  rw [ofRaw_of_not_isBare (by rwa [Table.ofList_entries]),
    ofRaw_of_not_isBare (by rwa [Table.ofList_entries]), Table.ofList_entries,
    Table.ofList_entries, values, result]

/-- Raw outcomes are brought into shape.  An outcome written out in full is read
as it was, and an object with neither `values` nor `result` is the values of an
end.  From every other outcome the values are the members of `values` if that is
an object, and none if not; the flow is the one that `result` is read as, and
the end where it cannot be read.  Further members are ignored. -/
theorem raw_outcomes_normalized :
    (∀ values flow, ofRaw (some (toRaw ⟨values, flow⟩)) = ⟨values, flow⟩) ∧
    (∀ members, IsBare (Table.ofList members) →
      ofRaw (some (.object members)) = ⟨Table.ofList members, .finish⟩) ∧
    (∀ raw, (∀ members, raw = some (.object members) →
      ¬IsBare (Table.ofList members)) → FromMembers raw (ofRaw raw)) ∧
    (∀ (members : Table Value) (key : String) (extra : Value), ¬IsBare members →
      key ≠ "values" → key ≠ "result" →
      ofRaw (some (.ofTable (members.insert key extra))) =
        ofRaw (some (.ofTable members))) := by
  refine ⟨fun values flow => ofRaw_toRaw ⟨values, flow⟩,
    fun members bare => ofRaw_of_isBare bare,
    fun raw full => ofRaw_fromMembers raw full, ?_⟩
  intro members key extra full hvalues hresult
  exact ofRaw_insert full hvalues hresult extra

example :
    ofRaw (some (.object [("result", .object [("type", .text "teleport")]),
      ("values", .object [("x", .ofInt 1)])])) =
        finish (.single "x" (.ofInt 1)) := by
  decide

end Output

end ScriptGraph
