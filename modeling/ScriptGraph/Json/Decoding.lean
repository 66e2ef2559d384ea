import ScriptGraph.Json.Value

/-!
# Reading records from JSON values

A record is written as an object with named fields, or as an array of its fields
in declaration order in which trailing fields may be left out.  `fields?` brings
both forms to one list, with `none` for an absent field; the combinators below
say what an absent field means.  Fields that nobody asks for are ignored, and no
kind of value is converted into another.
-/

namespace ScriptGraph.Json

abbrev Decoder (α : Type) := Value → Option α

namespace Value

def fields? (names : List String) : Value → Option (List (Option Value))
  | .object members => some (names.map fun name => Table.findEntry name members)
  | .array items =>
    if items.length ≤ names.length then
      some (items.map some ++ List.replicate (names.length - items.length) none)
    else none
  | _ => none

end Value

namespace Decoder

/-! ## Fields -/

def required {α : Type} (decode : Decoder α) : Option Value → Option α
  | some v => decode v
  | none => none

def orElse {α : Type} (decode : Decoder α) (default : α) :
    Option Value → Option α
  | some v => decode v
  | none => some default

/-- A field for something that may be missing; null stands for nothing. -/
def optional {α : Type} (decode : Decoder α) : Option Value → Option (Option α)
  | none => some none
  | some .null => some none
  | some v => (decode v).map some

/-! ## Values -/

def any : Decoder Value := some

def text : Decoder String := Value.asText?

def bool : Decoder Bool
  | .bool b => some b
  | _ => none

def natural : Decoder UInt64
  | .number n => n.toUInt64?
  | _ => none

def list {α : Type} (decode : Decoder α) : Decoder (List α)
  | .array items => items.mapM decode
  | _ => none

def members {α : Type} (decode : Decoder α) (entries : List (String × Value)) :
    Option (List (String × α)) :=
  entries.mapM fun entry => (decode entry.2).map fun a => (entry.1, a)

def table {α : Type} (decode : Decoder α) : Decoder (Table α)
  | .object entries => (members decode entries).map Table.ofList
  | _ => none

/-- One of a list of words: the text itself, or an object with that single key
and nothing under it. -/
def word {α : Type} (words : List (String × α)) : Decoder α
  | .text s => words.lookup s
  | .object [(s, .null)] => words.lookup s
  | _ => none

end Decoder

/-! ## Writing tables -/

def Value.ofTableWith {α : Type} (encode : α → Value) (entries : Table α) :
    Value :=
  .ofTable (entries.map encode)

def Value.ofListWith {α : Type} (encode : α → Value) (items : List α) : Value :=
  .array (items.map encode)

end ScriptGraph.Json
