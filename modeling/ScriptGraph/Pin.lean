import ScriptGraph.Json.Decoding

/-!
# Pins

A pin is where a wire meets a node.  Execution pins carry control, all others
carry data of a `PinType`.
-/

namespace ScriptGraph

open Json

/-! ## Direction -/

inductive Direction where
  | input
  | output
  deriving DecidableEq, Repr

namespace Direction

def name : Direction → String
  | input => "input"
  | output => "output"

def toJson (direction : Direction) : Value :=
  .text direction.name

def ofJson? : Decoder Direction :=
  .word [("input", input), ("output", output)]

end Direction

/-! ## Types -/

inductive PinType where
  | exec
  | boolean
  | number
  | text
  | point
  | any
  | array (element : PinType)
  deriving DecidableEq, Repr

namespace PinType

def isExec : PinType → Bool
  | exec => true
  | _ => false

def isData (type : PinType) : Bool :=
  !type.isExec

/-- Whether pins of two types may be wired: control only to control, data to
data of the same type, of every kind, between points and what they hold, and
between arrays of elements that may be wired. -/
def compatible : PinType → PinType → Bool
  | exec, exec => true
  | exec, _ => false
  | _, exec => false
  | any, _ => true
  | _, any => true
  | point, number => true
  | point, boolean => true
  | number, point => true
  | boolean, point => true
  | array a, array b => compatible a b
  | a, b => a == b

/-! ### JSON form -/

def tags : List String :=
  ["Exec", "Boolean", "Number", "String", "PointValue", "Any", "Array"]

def toJson : PinType → Value
  | exec => .object [("type", .text "Exec")]
  | boolean => .object [("type", .text "Boolean")]
  | number => .object [("type", .text "Number")]
  | text => .object [("type", .text "String")]
  | point => .object [("type", .text "PointValue")]
  | any => .object [("type", .text "Any")]
  | array element =>
    .object [("element", element.toJson), ("type", .text "Array")]

def simple? (tag : String) : Option PinType :=
  [("Exec", exec), ("Boolean", boolean), ("Number", number), ("String", text),
    ("PointValue", point), ("Any", any)].lookup tag

/-- A tag as a text; inside another type it may also be the position of the
tag. -/
def tag? (nested : Bool) : Value → Option String
  | .text s => some s
  | .number n =>
    if nested then n.toUInt64?.bind fun i => tags[i.toNat]? else none
  | _ => none

theorem sizeOf_findEntry {key : String} {members : List (String × Value)}
    {v : Value} (h : Table.findEntry key members = some v) :
    sizeOf v < sizeOf members := by
  induction members with
  | nil => simp [Table.findEntry] at h
  | cons head rest ih =>
    obtain ⟨k, w⟩ := head
    by_cases hk : key = k
    · simp only [Table.findEntry, hk, if_true, Option.some.injEq] at h
      subst h
      simp
      omega
    · simp only [Table.findEntry, hk, if_false] at h
      have := ih h
      simp
      omega

def read (nested : Bool) : Value → Option PinType
  | .object members =>
    match (Table.findEntry "type" members).bind (tag? nested) with
    | none => none
    | some tag =>
      if tag = "Array" then
        match _h : Table.findEntry "element" members with
        | some element => (read true element).map array
        | none => none
      else simple? tag
  | .array (first :: rest) =>
    match tag? nested first with
    | none => none
    | some tag =>
      if tag = "Array" then
        match rest with
        | [element] => (read true element).map array
        | _ => none
      else if rest.isEmpty then simple? tag
      else none
  | _ => none
termination_by v => sizeOf v
decreasing_by
  · have := sizeOf_findEntry _h
    simp
    omega
  · simp
    omega

def ofJson? : Decoder PinType :=
  read false

end PinType

/-! ## Pins -/

structure Pin where
  name : String
  direction : Direction
  type : PinType
  default : Option Value := none
  label : Option String := none
  description : Option String := none
  deriving DecidableEq, Repr

namespace Pin

def execIn : Pin :=
  ⟨"exec", .input, .exec, none, none, none⟩

def execOut (name : String) : Pin :=
  ⟨name, .output, .exec, none, none, none⟩

def dataIn (name : String) (type : PinType) : Pin :=
  ⟨name, .input, type, none, none, none⟩

def dataOut (name : String) (type : PinType) : Pin :=
  ⟨name, .output, type, none, none, none⟩

def withDefault (pin : Pin) (value : Value) : Pin :=
  { pin with default := some value }

def withLabel (pin : Pin) (label : String) : Pin :=
  { pin with label := some label }

def toJson (pin : Pin) : Value :=
  .record [
    ("default", pin.default),
    ("description", pin.description.map .text),
    ("direction", some pin.direction.toJson),
    ("label", pin.label.map .text),
    ("name", some (.text pin.name)),
    ("type", some pin.type.toJson)]

def ofJson? : Decoder Pin := fun v =>
  match v.fields?
      ["name", "direction", "type", "default", "label", "description"] with
  | some [name, direction, type, default, label, description] => do
    return {
      name := ← Decoder.required .text name
      direction := ← Decoder.required Direction.ofJson? direction
      type := ← Decoder.required PinType.ofJson? type
      default := ← Decoder.optional .any default
      label := ← Decoder.optional .text label
      description := ← Decoder.optional .text description }
  | _ => none

end Pin

end ScriptGraph
