import ScriptGraph.Decimal.Shortest

/-!
# Writing doubles

How the digits of a number are laid out is a `Style`: which decimal exponents
are written positionally, and how the exponent of the others is marked.
`Style.write` lays out the shortest digits.
-/

namespace ScriptGraph.Decimal

/-- Layout of a number `d.ddd · 10 ^ e`. -/
structure Style where
  positionalFrom : Int
  positionalBelow : Int
  emptyFraction : String
  exponentMark : String
  negativeExponentMark : String
  deriving DecidableEq, Repr

def digitsOf (n : Nat) : List Char :=
  Nat.toDigits 10 n

namespace Style

def layOut (style : Style) (digits : List Char) (e : Int) : String :=
  if style.positionalFrom ≤ e && e < style.positionalBelow then
    if e < 0 then
      "0." ++ String.ofList (List.replicate (-e - 1).toNat '0' ++ digits)
    else
      let whole :=
        (digits ++ List.replicate (e.toNat + 1 - digits.length) '0').take
          (e.toNat + 1)
      let fraction := digits.drop (e.toNat + 1)
      String.ofList whole ++ "." ++
        (if fraction.isEmpty then style.emptyFraction
         else String.ofList fraction)
  else
    let rest := digits.drop 1
    let mantissa :=
      String.ofList (digits.take 1) ++
        (if rest.isEmpty then "" else "." ++ String.ofList rest)
    if e < 0 then
      mantissa ++ style.negativeExponentMark ++
        String.ofList (digitsOf e.natAbs)
    else mantissa ++ style.exponentMark ++ String.ofList (digitsOf e.natAbs)

/-- Writes a finite double with its shortest digits; a negative zero keeps its
sign. -/
def write (style : Style) (x : Float) : String :=
  let sign := if Binary64.isNegative x then "-" else ""
  if Binary64.mantissa x = 0 then sign ++ style.layOut ['0'] 0
  else
    let numeral := shortest (Float.abs x)
    let digits := digitsOf numeral.coefficient
    sign ++ style.layOut digits (numeral.power + digits.length - 1)

end Style

end ScriptGraph.Decimal
