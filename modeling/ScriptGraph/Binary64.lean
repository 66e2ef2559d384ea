/-!
# Double precision numbers, exactly

A finite double is `± mantissa · 2 ^ exponent` with natural `mantissa` and
integer `exponent`.  This module reads these parts off the bits, writes an
exactly representable value back, and states in integer arithmetic the
operations that depend on the parts: truncation, remainder and rounding to
single precision.
-/

namespace ScriptGraph.Binary64

theorem toBits_injective {x y : Float} (h : x.toBits = y.toBits) : x = y := by
  obtain ⟨⟨bx, hx⟩⟩ := x
  obtain ⟨⟨bys, hy⟩⟩ := y
  have hb : bx = bys := h
  subst hb
  rfl

/-- Two doubles are the same when their bits are; `0.0` and `-0.0` differ. -/
instance decidableEq : DecidableEq Float := fun x y =>
  if h : x.toBits = y.toBits then isTrue (toBits_injective h)
  else isFalse fun heq => h (heq ▸ rfl)

/-! ## Parts of a double -/

def leadingBit : Nat := 0x10000000000000

def signBit : Nat := 0x8000000000000000

def isNegative (x : Float) : Bool :=
  x.toBits >>> 63 == 1

def exponentField (x : Float) : Nat :=
  ((x.toBits >>> 52) &&& 0x7ff).toNat

def fractionField (x : Float) : Nat :=
  (x.toBits &&& 0xfffffffffffff).toNat

def mantissa (x : Float) : Nat :=
  if exponentField x = 0 then fractionField x else fractionField x + leadingBit

def exponent (x : Float) : Int :=
  if exponentField x = 0 then -1074 else (exponentField x : Int) - 1075

def ofFields (negative : Bool) (exponentBits fractionBits : Nat) : Float :=
  Float.ofBits (UInt64.ofNat
    ((if negative then signBit else 0) + exponentBits * leadingBit +
      fractionBits))

def infinity (negative : Bool) : Float :=
  ofFields negative 2047 0

def notANumber : Float :=
  ofFields false 2047 (leadingBit / 2)

/-- The double `± m · 2 ^ q`, for a product that a double can hold; one that is
too large becomes infinite. -/
def ofParts (negative : Bool) (m : Nat) (q : Int) : Float :=
  if m = 0 then ofFields negative 0 0
  else
    let top : Int := q + Nat.log2 m
    if top > 1023 then infinity negative
    else if top ≥ -1022 then
      let scaled :=
        if Nat.log2 m ≤ 52 then m <<< (52 - Nat.log2 m)
        else m >>> (Nat.log2 m - 52)
      ofFields negative (top + 1023).toNat (scaled - leadingBit)
    else ofFields negative 0
      (if q ≥ -1074 then m <<< (q + 1074).toNat else m >>> (-1074 - q).toNat)

/-! ## Integers -/

def truncate (x : Float) : Int :=
  let q := exponent x
  let size : Nat :=
    if q ≥ 0 then mantissa x <<< q.toNat else mantissa x >>> (-q).toNat
  if isNegative x then -(size : Int) else size

def isIntegral (x : Float) : Bool :=
  x.isFinite &&
    (exponent x ≥ 0 || mantissa x % (1 <<< (-exponent x).toNat) == 0)

def clampInt (low high n : Int) : Int :=
  max low (min high n)

def nearestInt64 (n : Int) : Int64 :=
  Int64.ofInt (clampInt Int64.minValue.toInt Int64.maxValue.toInt n)

/-- Drops the fraction and stays within the signed 64 bit integers; what is no
number gives zero. -/
def toInt64 (x : Float) : Int64 :=
  if x.isNaN then 0
  else if x.isInf then (if isNegative x then Int64.minValue else Int64.maxValue)
  else nearestInt64 (truncate x)

/-! ## Remainder and extremes -/

/-- The remainder of the division that truncates; it has the sign of the
dividend and is exact. -/
def remainder (x y : Float) : Float :=
  if x.isNaN || y.isNaN || x.isInf || mantissa y = 0 then notANumber
  else if y.isInf then x
  else
    let q := min (exponent x) (exponent y)
    let dividend := mantissa x <<< (exponent x - q).toNat
    let divisor := mantissa y <<< (exponent y - q).toNat
    ofParts (isNegative x) (dividend % divisor) q

/-- The smaller of two doubles; an operand that is no number is passed over, and
of equal ones the first stays. -/
def least (x y : Float) : Float :=
  if x.isNaN then y else if y < x then y else x

def greatest (x y : Float) : Float :=
  if x.isNaN then y else if x < y then y else x

/-! ## Single precision -/

/-- `m / 2 ^ s` rounded to the nearest integer, a half to the even one. -/
def shiftRounded (m s : Nat) : Nat :=
  let below := m >>> s
  let rest := m - below <<< s
  let half := (1 <<< s) / 2
  if rest > half || (rest == half && s > 0 && below % 2 == 1) then
    below + 1 else below

/-- The double equal to the single precision number nearest to `± m · 2 ^ q`. -/
def singleOfParts (negative : Bool) (m : Nat) (q : Int) : Float :=
  if m = 0 then ofFields negative 0 0
  else
    let unit : Int := max (q + Nat.log2 m - 23) (-149)
    if unit ≤ q then
      if q + Nat.log2 m > 127 then infinity negative else ofParts negative m q
    else
      let rounded := shiftRounded m (unit - q).toNat
      if unit + Nat.log2 rounded > 127 then infinity negative
      else ofParts negative rounded unit

def toSingle (x : Float) : Float :=
  if x.isFinite then singleOfParts (isNegative x) (mantissa x) (exponent x)
  else x

def singleOfInt (n : Int) : Float :=
  singleOfParts (n < 0) n.natAbs 0

end ScriptGraph.Binary64
