import ScriptGraph.Decimal.Reading
import ScriptGraph.Json.Value

/-!
# Tokens of JSON text

Texts and numbers, each with a reader that gives its value and one that only
passes over it.  What is passed over has to be well formed but need not have a
value: a unit without its partner and a number beyond every double are no fault
there.
-/

namespace ScriptGraph.Json

def skipBlanks : List Char → List Char
  | c :: rest =>
    if c = ' ' || c = '\n' || c = '\t' || c = '\r' then skipBlanks rest
    else c :: rest
  | [] => []

/-! ## Texts -/

def hexDigit? (c : Char) : Option Nat :=
  if c.isDigit then some (c.toNat - '0'.toNat)
  else if 'a' ≤ c ∧ c ≤ 'f' then some (c.toNat - 'a'.toNat + 10)
  else if 'A' ≤ c ∧ c ≤ 'F' then some (c.toNat - 'A'.toNat + 10)
  else none

def hexUnit? (a b c d : Char) : Option Nat := do
  let a ← hexDigit? a
  let b ← hexDigit? b
  let c ← hexDigit? c
  let d ← hexDigit? d
  return ((a * 16 + b) * 16 + c) * 16 + d

def unescape? (c : Char) : Option Char :=
  if c = '"' || c = '\\' || c = '/' then some c
  else if c = 'n' then some '\n'
  else if c = 't' then some '\t'
  else if c = 'r' then some '\r'
  else if c = 'b' then some (Char.ofNat 8)
  else if c = 'f' then some (Char.ofNat 12)
  else none

/-- Reads up to the closing quote; `acc` holds the characters so far, the last
one first.  Characters outside the basic plane are escaped as two units, and a
unit without its partner is refused. -/
def scanText (acc : List Char) : List Char → Option (String × List Char)
  | [] => none
  | '"' :: rest => some (String.ofList acc.reverse, rest)
  | '\\' :: 'u' :: a :: b :: c :: d :: rest =>
    match hexUnit? a b c d with
    | none => none
    | some unit =>
      if 0xD800 ≤ unit && unit < 0xDC00 then
        match rest with
        | '\\' :: 'u' :: e :: f :: g :: h :: more =>
          match hexUnit? e f g h with
          | none => none
          | some low =>
            if 0xDC00 ≤ low && low < 0xE000 then
              scanText (Char.ofNat
                (0x10000 + (unit - 0xD800) * 0x400 + (low - 0xDC00)) ::
                  acc) more
            else none
        | _ => none
      else if 0xDC00 ≤ unit && unit < 0xE000 then none
      else scanText (Char.ofNat unit :: acc) rest
  | '\\' :: c :: rest =>
    match unescape? c with
    | some d => scanText (d :: acc) rest
    | none => none
  | c :: rest => if c.toNat < 32 then none else scanText (c :: acc) rest

def skipText : List Char → Option (List Char)
  | [] => none
  | '"' :: rest => some rest
  | '\\' :: 'u' :: a :: b :: c :: d :: rest =>
    if (hexUnit? a b c d).isSome then skipText rest else none
  | '\\' :: c :: rest => if (unescape? c).isSome then skipText rest else none
  | c :: rest => if c.toNat < 32 then none else skipText rest

/-! ## Numbers -/

structure Numeral where
  negative : Bool
  isWhole : Bool
  literal : Decimal.Literal
  deriving DecidableEq, Repr

namespace Numeral

def scan (text : List Char) : Option (Numeral × List Char) :=
  let (negative, rest) := match text with
    | '-' :: rest => (true, rest)
    | _ => (false, text)
  let (whole, rest) := Decimal.spanDigits rest
  if whole.isEmpty || (whole.length > 1 && whole.head? == some '0') then none
  else
    let (pointed, fraction, rest) := match rest with
      | '.' :: after => (true, Decimal.spanDigits after)
      | _ => (false, [], rest)
    if pointed && fraction.isEmpty then none
    else match rest with
      | c :: _ =>
        if c = 'e' || c = 'E' then
          (Decimal.scanExponent? rest).map fun (exponent, rest) =>
            (⟨negative, false, ⟨whole, fraction, exponent⟩⟩, rest)
        else some (⟨negative, !pointed, ⟨whole, fraction, 0⟩⟩, rest)
      | [] => some (⟨negative, !pointed, ⟨whole, fraction, 0⟩⟩, rest)

/-- The number of a numeral: an integer if it is written as one and has at most
64 bits, else a double.  A negative zero is a double, since no integer keeps its
sign. -/
def number? (numeral : Numeral) : Option Number :=
  let n := Decimal.natOfDigits numeral.literal.whole
  if numeral.isWhole && !numeral.negative && n < UInt64.size then
    some (.integer n)
  else if numeral.isWhole && numeral.negative && n ≠ 0 &&
      n ≤ Int64.minValue.toInt.natAbs then
    some (.integer (-(n : Int)))
  else
    let x := numeral.literal.toFloat numeral.negative
    if x.isFinite then some (.real x) else none

end Numeral

def scanNumber (text : List Char) : Option (Number × List Char) :=
  match Numeral.scan text with
  | some (numeral, rest) => numeral.number?.map fun n => (n, rest)
  | none => none

def skipNumber (text : List Char) : Option (List Char) :=
  (Numeral.scan text).map Prod.snd

end ScriptGraph.Json
