import ScriptGraph.Binary64

/-!
# Shortest decimals

`shortest x` is the decimal with the fewest digits among those that read back as
the positive finite double `x`; of several with that many digits it is the one
nearest to `x`.

All comparisons are between naturals: with `x = m · 2 ^ q`, the reals that round
to `x` lie between `(4m - 1 or 2) · 2 ^ (q - 2)` and `(4m + 2) · 2 ^ (q - 2)`,
ends included exactly when `m` is even.
-/

namespace ScriptGraph.Decimal

structure Numeral where
  coefficient : Nat
  power : Int
  deriving DecidableEq, Repr

/-- The reals that round to one double, as naturals in units of a quarter of its
last place. -/
structure RoundingRange where
  low : Nat
  value : Nat
  high : Nat
  closed : Bool
  unit : Int
  deriving DecidableEq, Repr

def RoundingRange.ofFloat (x : Float) : RoundingRange :=
  let m := Binary64.mantissa x
  let atBinade := Binary64.fractionField x = 0 ∧ Binary64.exponentField x > 1
  { low := 4 * m - (if atBinade then 1 else 2)
    value := 4 * m
    high := 4 * m + 2
    closed := m % 2 == 0
    unit := Binary64.exponent x - 2 }

namespace RoundingRange

/-- The factors that bring the range and the grid `10 ^ power` to one natural
scale. -/
def scales (range : RoundingRange) (power : Int) : Nat × Nat :=
  (Nat.pow 10 (-power).toNat <<< range.unit.toNat,
    Nat.pow 10 power.toNat <<< (-range.unit).toNat)

def reaches (range : RoundingRange) (power : Int) : Bool :=
  let (own, grid) := range.scales power
  grid ≤ range.value * own

def admits (range : RoundingRange) (coefficient : Nat) (power : Int) : Bool :=
  let (own, grid) := range.scales power
  let point := coefficient * grid
  if range.closed then range.low * own ≤ point && point ≤ range.high * own
  else range.low * own < point && point < range.high * own

/-- The largest `k` with `10 ^ k` at most the value, found next to an estimate
from the binary logarithm. -/
def decade (range : RoundingRange) : Int :=
  let estimate := Int.fdiv ((range.unit + Nat.log2 range.value) * 30103) 100000
  if range.reaches (estimate + 1) then estimate + 1
  else if range.reaches estimate then estimate
  else estimate - 1

/-- Of the two neighbours of the value on the grid `10 ^ power`, one that rounds
to the value: the nearer if both do, and the even one if they are equally
near. -/
def neighbour? (range : RoundingRange) (power : Int) : Option Nat :=
  let (own, grid) := range.scales power
  let below := range.value * own / grid
  let rest := range.value * own - below * grid
  match range.admits below power && below != 0,
      range.admits (below + 1) power with
  | true, true =>
    if 2 * rest < grid || (2 * rest == grid && below % 2 == 0) then
      some below
    else some (below + 1)
  | true, false => some below
  | false, true => some (below + 1)
  | false, false => none

end RoundingRange

def Numeral.trim (numeral : Numeral) : Nat → Numeral
  | 0 => numeral
  | fuel + 1 =>
    if numeral.coefficient % 10 = 0 && numeral.coefficient != 0 then
      Numeral.trim ⟨numeral.coefficient / 10, numeral.power + 1⟩ fuel
    else numeral

/-- The fewest digits that read back as the positive finite double `x`. -/
def shortest (x : Float) : Numeral :=
  let range := RoundingRange.ofFloat x
  let top := range.decade
  let grids := (List.range 17).map fun (n : Nat) => top - n
  match grids.findSome? fun power => (range.neighbour? power).map fun c =>
      Numeral.mk c power with
  | some numeral => numeral.trim 18
  | none => ⟨range.value, 0⟩

end ScriptGraph.Decimal
