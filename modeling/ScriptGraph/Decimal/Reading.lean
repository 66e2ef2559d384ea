import ScriptGraph.Binary64

/-!
# Reading decimal text

`Literal.scan` splits the longest decimal literal off a text; `Literal.toFloat`
is the double nearest to its value.  `readFloat?` reads a whole text as a
double: the words for infinity and for what is no number are taken in any case,
and a literal may start or end with its point.
-/

namespace ScriptGraph.Decimal

structure Literal where
  whole : List Char
  fraction : List Char
  exponent : Int
  deriving DecidableEq, Repr

def natOfDigits (digits : List Char) : Nat :=
  digits.foldl (fun n c => 10 * n + (c.toNat - '0'.toNat)) 0

namespace Literal

/-- The double nearest to a literal's value.  Exponents beyond every double are
cut off first, so a literal such as `1e999999999` costs nothing. -/
def toFloat (negative : Bool) (literal : Literal) : Float :=
  let coefficient := natOfDigits (literal.whole ++ literal.fraction)
  let power := literal.exponent - literal.fraction.length
  let size : Int := power + (literal.whole.length + literal.fraction.length)
  let magnitude : Float :=
    if coefficient = 0 || size < -400 then 0.0
    else if power > 400 then Binary64.infinity false
    else Float.ofScientific coefficient (power < 0) power.natAbs
  if negative then -magnitude else magnitude

end Literal

def spanDigits (text : List Char) : List Char × List Char :=
  text.span Char.isDigit

def spanSign : List Char → Bool × List Char
  | '-' :: rest => (true, rest)
  | '+' :: rest => (false, rest)
  | text => (false, text)

def scanExponent? : List Char → Option (Int × List Char)
  | c :: text =>
    if c = 'e' || c = 'E' then
      let (negative, rest) := spanSign text
      let (digits, rest) := spanDigits rest
      if digits.isEmpty then none
      else
        let size : Int := natOfDigits digits
        some (if negative then -size else size, rest)
    else none
  | [] => none

def Literal.ofText? (text : List Char) : Option Literal :=
  let (whole, rest) := spanDigits text
  let (fraction, rest) := match rest with
    | '.' :: after => spanDigits after
    | _ => ([], rest)
  if whole.isEmpty && fraction.isEmpty then none
  else match rest with
    | [] => some ⟨whole, fraction, 0⟩
    | _ => match scanExponent? rest with
      | some (exponent, []) => some ⟨whole, fraction, exponent⟩
      | _ => none

def isBlank (c : Char) : Bool :=
  (9 ≤ c.toNat && c.toNat ≤ 13) || c.toNat = 0x20 || c.toNat = 0x85 ||
    c.toNat = 0xA0 || c.toNat = 0x1680 ||
      (0x2000 ≤ c.toNat && c.toNat ≤ 0x200A) || c.toNat = 0x2028 ||
    c.toNat = 0x2029 || c.toNat = 0x202F || c.toNat = 0x205F || c.toNat = 0x3000

def trimBlanks (text : List Char) : List Char :=
  ((text.dropWhile isBlank).reverse.dropWhile isBlank).reverse

def readFloat? (text : List Char) : Option Float :=
  let (negative, rest) := spanSign text
  let word := String.ofList (rest.map Char.toLower)
  if word = "inf" || word = "infinity" then some (Binary64.infinity negative)
  else if word = "nan" then some Binary64.notANumber
  else (Literal.ofText? rest).map (Literal.toFloat negative)

end ScriptGraph.Decimal
