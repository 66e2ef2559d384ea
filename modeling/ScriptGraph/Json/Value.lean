import ScriptGraph.Binary64
import ScriptGraph.Table

/-!
# JSON values

Numbers keep the kind in which they were written: `5` is an integer and `5.0` is
a double.  The members of an object are a list; in a canonical value their keys
strictly ascend, as in a `Table`.
-/

namespace ScriptGraph.Json

/-- A number: an integer of at most 64 bits, or a finite double. -/
inductive Number where
  | integer (n : Int)
  | real (x : Float)
  deriving DecidableEq, Repr

inductive Value where
  | null
  | bool (b : Bool)
  | number (n : Number)
  | text (s : String)
  | array (items : List Value)
  | object (members : List (String × Value))
  deriving Repr

instance : Inhabited Value := ⟨.null⟩

namespace Number

def toFloat : Number → Float
  | .integer n => Float.ofInt n
  | .real x => x

def toInt64? : Number → Option Int64
  | .integer n =>
    if Int64.minValue.toInt ≤ n ∧ n ≤ Int64.maxValue.toInt then
      some (Int64.ofInt n)
    else none
  | .real _ => none

def toUInt64? : Number → Option UInt64
  | .integer n =>
    if 0 ≤ n ∧ n < UInt64.size then some (UInt64.ofNat n.toNat) else none
  | .real _ => none

/-- Equality of numbers of one kind; an integer never equals a double, and the
two zeros of a double are equal. -/
def same : Number → Number → Bool
  | .integer m, .integer n => m == n
  | .real x, .real y => x == y
  | _, _ => false

end Number

namespace Value

/-! ## Building -/

def ofFloat (x : Float) : Value :=
  if x.isFinite then .number (.real x) else .null

def ofInt (n : Int) : Value :=
  .number (.integer n)

def ofNat (n : Nat) : Value :=
  .number (.integer n)

def ofTable (table : Table Value) : Value :=
  .object table.entries

def ofOption : Option Value → Value
  | some v => v
  | none => .null

def ofTexts (texts : List String) : Value :=
  .array (texts.map .text)

/-- An object from fields that may be absent, given in ascending order of their
names. -/
def record (fields : List (String × Option Value)) : Value :=
  .object (fields.filterMap fun field => field.2.map fun v => (field.1, v))

def emptyObject : Value :=
  .object []

/-! ## Reading -/

def get? : Value → String → Option Value
  | .object members, key => Table.findEntry key members
  | _, _ => none

def asText? : Value → Option String
  | .text s => some s
  | _ => none

def asNumber? : Value → Option Number
  | .number n => some n
  | _ => none

def asFloat? (v : Value) : Option Float :=
  v.asNumber?.map Number.toFloat

def asInt64? (v : Value) : Option Int64 :=
  v.asNumber?.bind Number.toInt64?

def asTable? : Value → Option (Table Value)
  | .object members => some (Table.ofList members)
  | _ => none

/-! ## Identity -/

mutual

def identical : Value → Value → Bool
  | .null, .null => true
  | .bool a, .bool b => a == b
  | .number m, .number n => decide (m = n)
  | .text s, .text t => s == t
  | .array xs, .array ys => identicalItems xs ys
  | .object xs, .object ys => identicalMembers xs ys
  | _, _ => false

def identicalItems : List Value → List Value → Bool
  | [], [] => true
  | x :: xs, y :: ys => x.identical y && identicalItems xs ys
  | _, _ => false

def identicalMembers : List (String × Value) → List (String × Value) → Bool
  | [], [] => true
  | (j, x) :: xs, (k, y) :: ys =>
    j == k && x.identical y && identicalMembers xs ys
  | _, _ => false

end

mutual

theorem identical_iff : ∀ v w : Value, v.identical w = true ↔ v = w
  | .null, w => by cases w <;> simp [identical]
  | .bool _, w => by cases w <;> simp [identical]
  | .number _, w => by cases w <;> simp [identical]
  | .text _, w => by cases w <;> simp [identical]
  | .array xs, w => by cases w <;> simp [identical, identicalItems_iff xs]
  | .object xs, w => by cases w <;> simp [identical, identicalMembers_iff xs]

theorem identicalItems_iff :
    ∀ xs ys : List Value, identicalItems xs ys = true ↔ xs = ys
  | [], ys => by cases ys <;> simp [identicalItems]
  | x :: xs, ys => by
    cases ys <;> simp [identicalItems, identical_iff x, identicalItems_iff xs]

theorem identicalMembers_iff :
    ∀ xs ys : List (String × Value), identicalMembers xs ys = true ↔ xs = ys
  | [], ys => by cases ys <;> simp [identicalMembers]
  | (j, x) :: xs, ys => by
    cases ys <;> simp [identicalMembers, identical_iff x,
      identicalMembers_iff xs, Prod.ext_iff]

end

instance : DecidableEq Value := fun v w =>
  decidable_of_iff (v.identical w = true) (identical_iff v w)

/-! ## Equality and canonical form -/

mutual

/-- Equality of canonical values, with `Number.same` on numbers. -/
def same : Value → Value → Bool
  | .null, .null => true
  | .bool a, .bool b => a == b
  | .number m, .number n => m.same n
  | .text s, .text t => s == t
  | .array xs, .array ys => sameItems xs ys
  | .object xs, .object ys => sameMembers xs ys
  | _, _ => false

def sameItems : List Value → List Value → Bool
  | [], [] => true
  | x :: xs, y :: ys => x.same y && sameItems xs ys
  | _, _ => false

def sameMembers : List (String × Value) → List (String × Value) → Bool
  | [], [] => true
  | (j, x) :: xs, (k, y) :: ys => j == k && x.same y && sameMembers xs ys
  | _, _ => false

end

mutual

/-- Sorts the members of every object; the last value of a repeated key
stays. -/
def canonical : Value → Value
  | .array items => .array (canonicalItems items)
  | .object members => .object (Table.ofList (canonicalMembers members)).entries
  | .null => .null
  | .bool b => .bool b
  | .number n => .number n
  | .text s => .text s

def canonicalItems : List Value → List Value
  | [] => []
  | item :: items => item.canonical :: canonicalItems items

def canonicalMembers : List (String × Value) → List (String × Value)
  | [] => []
  | (key, v) :: members => (key, v.canonical) :: canonicalMembers members

end

end Value

end ScriptGraph.Json
