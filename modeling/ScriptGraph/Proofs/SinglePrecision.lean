import Mathlib
import ScriptGraph.Binary64

/-!
# Rounding to single precision once

A double that has been rounded to single precision is a single precision number,
so rounding it again leaves it alone.
-/

namespace ScriptGraph.Binary64

open Float.Model Float.Model.UnpackedFloat

/-! ## The fields of a double -/

theorem exponentField_eq (x : Float) :
    exponentField x = x.toBits.toNat / leadingBit % 2048 := by
  have masked : ∀ n : Nat, n &&& 2047 = n % 2048 :=
    Nat.and_two_pow_sub_one_eq_mod (n := 11)
  simp [exponentField, masked, leadingBit, Nat.shiftRight_eq_div_pow]

theorem fractionField_eq (x : Float) :
    fractionField x = x.toBits.toNat % leadingBit := by
  have masked : ∀ n : Nat, n &&& 4503599627370495 = n % 4503599627370496 :=
    fun n => Nat.and_two_pow_sub_one_eq_mod n 52
  simp [fractionField, masked, leadingBit]

theorem isNegative_eq (x : Float) :
    isNegative x = decide (signBit ≤ x.toBits.toNat) := by
  have bounded : x.toBits.toNat < 18446744073709551616 := x.toBits.toNat_lt
  rw [isNegative, Bool.eq_iff_iff, beq_iff_eq, ← UInt64.toNat_inj,
    decide_eq_true_iff]
  simp only [UInt64.toNat_shiftRight, signBit, Nat.shiftRight_eq_div_pow,
    UInt64.reduceToNat, Nat.reduceMod, Nat.reducePow]
  omega

theorem unpackExponent_toNat (b : UInt64) :
    (@unpackExponent .binary64 b.toBitVec).toNat =
      b.toNat / leadingBit % 2048 := by
  simp [unpackExponent_def, BitVec.extractLsb'_toNat, leadingBit,
    Nat.shiftRight_eq_div_pow]

theorem unpackExponent_eq_iff (b : UInt64) :
    @unpackExponent .binary64 b.toBitVec = -1#11 ↔
      b.toNat / leadingBit % 2048 = 2047 := by
  rw [← BitVec.toNat_inj, unpackExponent_toNat]
  simp

theorem isFinite_iff (x : Float) :
    x.isFinite = true ↔ exponentField x ≠ 2047 := by
  rw [exponentField_eq, Ne, ← unpackExponent_eq_iff]
  change (UnpackedFloat.unpack .binary64 x.toBits.toBitVec).isFinite = true ↔ _
  fun_cases UnpackedFloat.unpack .binary64 x.toBits.toBitVec with
  | case1 _ _ _ _ h => exact iff_of_false Bool.false_ne_true (not_not_intro h)
  | case2 _ _ h => exact iff_of_false Bool.false_ne_true (not_not_intro h)
  | case3 _ _ _ _ h => exact iff_of_true rfl h
  | case4 _ _ _ _ _ h => exact iff_of_true rfl h
  | case5 _ _ _ _ _ h => exact iff_of_true rfl h

theorem toBits_ofBits {b : UInt64} (h : b.toNat / leadingBit % 2048 ≠ 2047) :
    (Float.ofBits b).toBits = b := by
  have regular : ¬ @isNaNBits .binary64 b.toBitVec := by
    have := mt (unpackExponent_eq_iff b).mp h
    rw [isNaNBits, decide_eq_true_iff]
    exact fun nan => this nan.1
  apply UInt64.toBitVec_inj.mp
  exact (@pack_unpack .binary64 b.toBitVec (by decide)).trans (if_neg regular)

section Fields

variable {negative : Bool} {e f : Nat}

theorem toBits_ofFields (he : e < 2047) (hf : f < leadingBit) :
    (ofFields negative e f).toBits.toNat =
      (if negative then signBit else 0) + e * leadingBit + f := by
  have bits : (UInt64.ofNat
      ((if negative then signBit else 0) + e * leadingBit + f)).toNat =
      (if negative then signBit else 0) + e * leadingBit + f := by
    apply UInt64.toNat_ofNat_of_lt
    simp only [leadingBit, signBit, UInt64.size] at *
    split <;> omega
  rw [ofFields, toBits_ofBits, bits]
  rw [bits]
  simp only [leadingBit, signBit] at *
  split <;> omega

theorem exponentField_ofFields (he : e < 2047) (hf : f < leadingBit) :
    exponentField (ofFields negative e f) = e := by
  rw [exponentField_eq, toBits_ofFields he hf]
  simp only [leadingBit, signBit] at *
  split <;> omega

theorem fractionField_ofFields (he : e < 2047) (hf : f < leadingBit) :
    fractionField (ofFields negative e f) = f := by
  rw [fractionField_eq, toBits_ofFields he hf]
  simp only [leadingBit, signBit] at *
  split <;> omega

theorem isNegative_ofFields (he : e < 2047) (hf : f < leadingBit) :
    isNegative (ofFields negative e f) = negative := by
  rw [isNegative_eq, toBits_ofFields he hf]
  simp only [leadingBit, signBit] at *
  cases negative <;> simp <;> omega

theorem isFinite_ofFields (he : e < 2047) (hf : f < leadingBit) :
    (ofFields negative e f).isFinite = true := by
  rw [isFinite_iff, exponentField_ofFields he hf]
  omega

end Fields

theorem isFinite_infinity (negative : Bool) :
    (infinity negative).isFinite = false := by
  cases negative <;> decide +kernel

/-! ## Parts that make up a double -/

theorem log2_mul_two_pow {m : Nat} (hm : 0 < m) (s : Nat) :
    Nat.log2 (m * 2 ^ s) = Nat.log2 m + s := by
  obtain ⟨least, most⟩ := (Nat.log2_eq_iff hm.ne').mp rfl
  rw [Nat.log2_eq_iff (by positivity)]
  constructor
  · calc 2 ^ (Nat.log2 m + s) = 2 ^ Nat.log2 m * 2 ^ s := Nat.pow_add ..
      _ ≤ m * 2 ^ s := Nat.mul_le_mul_right _ least
  · calc m * 2 ^ s < 2 ^ (Nat.log2 m + 1) * 2 ^ s :=
          Nat.mul_lt_mul_of_pos_right most (by positivity)
      _ = 2 ^ (Nat.log2 m + s + 1) := by rw [← Nat.pow_add, Nat.add_right_comm]

theorem ofParts_mul {m : Nat} {q : Int} (negative : Bool) (hm : 0 < m) {s : Nat}
    (hs : Nat.log2 m + s ≤ 52) (htop : -1022 ≤ q + Nat.log2 m) :
    ofParts negative (m * 2 ^ s) (q - s) = ofParts negative m q := by
  have top : q - s + (Nat.log2 m + s : Nat) = q + Nat.log2 m := by omega
  have scaled : m * 2 ^ s * 2 ^ (52 - (Nat.log2 m + s)) =
      m * 2 ^ (52 - Nat.log2 m) := by
    rw [Nat.mul_assoc, ← Nat.pow_add]
    congr 2
    omega
  have hlog : Nat.log2 m ≤ 52 := by omega
  have hne : m * 2 ^ s ≠ 0 := by positivity
  simp only [ofParts, log2_mul_two_pow hm, top, hs, hlog, if_true, hne, hm.ne',
    if_false, ge_iff_le, htop, Nat.shiftLeft_eq, scaled]

section Normal

/-! The parts of a normal double are read off it as they were put in. -/

variable {negative : Bool} {m : Nat} {q : Int}

theorem ofParts_normal (hlog : Nat.log2 m = 52) (hmost : q ≤ 971)
    (hleast : -1074 ≤ q) :
    ofParts negative m q =
      ofFields negative (q + 1075).toNat (m - leadingBit) := by
  have hne : m ≠ 0 := by rintro rfl; simp at hlog
  have top : q + 52 + 1023 = q + 1075 := by omega
  have hmost' : ¬ 1023 < q + 52 := by omega
  have hleast' : -1022 ≤ q + 52 := by omega
  simp [ofParts, hne, hlog, hmost', hleast', top]

theorem toSingle_ofParts (hlog : Nat.log2 m = 52) (hmost : q ≤ 971)
    (hleast : -1074 ≤ q) :
    toSingle (ofParts negative m q) = singleOfParts negative m q := by
  have hne : m ≠ 0 := by rintro rfl; simp at hlog
  obtain ⟨hlow, hhigh⟩ := (Nat.log2_eq_iff hne).mp hlog
  have he : (q + 1075).toNat < 2047 := by omega
  have hf : m - leadingBit < leadingBit := by simp only [leadingBit]; omega
  have mantissa_eq :
      mantissa (ofFields negative (q + 1075).toNat (m - leadingBit)) = m := by
    rw [mantissa, exponentField_ofFields he hf, fractionField_ofFields he hf,
      if_neg (by omega)]
    exact Nat.sub_add_cancel hlow
  have exponent_eq :
      exponent (ofFields negative (q + 1075).toNat (m - leadingBit)) = q := by
    rw [exponent, exponentField_ofFields he hf, if_neg (by omega)]
    omega
  rw [ofParts_normal hlog hmost hleast, toSingle,
    if_pos (isFinite_ofFields he hf), mantissa_eq, exponent_eq,
    isNegative_ofFields he hf]

end Normal

theorem toSingle_zero (negative : Bool) :
    toSingle (ofFields negative 0 0) = ofFields negative 0 0 := by
  have he : 0 < 2047 := by decide
  have hf : 0 < leadingBit := by decide
  have hmantissa : mantissa (ofFields negative 0 0) = 0 := by
    rw [mantissa, exponentField_ofFields he hf, fractionField_ofFields he hf,
      if_pos rfl]
  rw [toSingle, if_pos (isFinite_ofFields he hf), hmantissa,
    isNegative_ofFields he hf, singleOfParts, if_pos rfl]

/-! ## Single precision numbers -/

structure FitsSingle (m : Nat) (q : Int) : Prop where
  digits : m < 2 ^ 24
  least : -149 ≤ q
  most : q + Nat.log2 m ≤ 127

theorem shiftRounded_mul (n s : Nat) : shiftRounded (n * 2 ^ s) s = n := by
  have below : (n * 2 ^ s) >>> s = n := by
    rw [Nat.shiftRight_eq_div_pow, Nat.mul_div_cancel _ (by positivity)]
  cases s with
  | zero => simp [shiftRounded]
  | succ s =>
      have half : 2 ^ (s + 1) / 2 = 2 ^ s := by omega
      have positive : 0 ≠ 2 ^ s := by positivity
      simp [shiftRounded, below, Nat.shiftLeft_eq, half, positive]

theorem shiftRounded_le (m s : Nat) : shiftRounded m s ≤ m / 2 ^ s + 1 := by
  unfold shiftRounded
  simp only [Nat.shiftRight_eq_div_pow]
  split <;> omega

theorem FitsSingle.toSingle_eq {m : Nat} {q : Int} (fits : FitsSingle m q)
    (negative : Bool) :
    toSingle (ofParts negative m q) = ofParts negative m q := by
  obtain rfl | hm := Nat.eq_zero_or_pos m
  · exact toSingle_zero negative
  obtain ⟨digits, least, most⟩ := fits
  have hlog : Nat.log2 m < 24 := (Nat.log2_lt hm.ne').mpr digits
  -- As a double the number has 53 digits, of which those below its last place
  -- are zero.
  obtain ⟨s, hs⟩ : ∃ s, Nat.log2 m + s = 52 := ⟨52 - Nat.log2 m, by omega⟩
  obtain ⟨t, ht⟩ : ∃ t : Nat, q - s + t = max (q - s + 52 - 23) (-149) :=
    ⟨(max (q - s + 52 - 23) (-149) - (q - s)).toNat, by omega⟩
  obtain ⟨r, rfl⟩ : ∃ r, s = r + t := Nat.exists_eq_add_of_le' (by omega)
  have hn : 0 < m * 2 ^ r := by positivity
  have hnlog := log2_mul_two_pow hm r
  have moved : ofParts negative (m * 2 ^ r * 2 ^ t) (q - r - t) =
      ofParts negative m q := by
    rw [ofParts_mul negative hn (by omega) (by omega),
      ofParts_mul negative hm (by omega) (by omega)]
  have hlog52 : Nat.log2 (m * 2 ^ r * 2 ^ t) = 52 := by
    rw [log2_mul_two_pow hn]; omega
  rw [← moved, toSingle_ofParts hlog52 (by omega) (by omega), singleOfParts,
    if_neg (by positivity)]
  have unit : max (q - r - t + 52 - 23) (-149) = q - r := by omega
  have shift : (q - r - (q - r - t)).toNat = t := by omega
  simp only [hlog52]
  rw [Nat.cast_ofNat, unit, if_neg (by omega), shift, shiftRounded_mul,
    if_neg (by omega), ofParts_mul negative hn (by omega) (by omega)]

theorem singleOfParts_cases (negative : Bool) (m : Nat) (q : Int) :
    singleOfParts negative m q = infinity negative ∨
      ∃ n p, FitsSingle n p ∧
      singleOfParts negative m q = ofParts negative n p := by
  unfold singleOfParts
  split
  case isTrue => exact .inr ⟨0, 0, ⟨by decide, by decide, by decide⟩, rfl⟩
  case isFalse hm =>
  generalize hunit : max (q + Nat.log2 m - 23) (-149) = unit
  simp only
  split
  case isTrue hexact =>
      split
      case isTrue => exact .inl rfl
      case isFalse hmost =>
          exact .inr ⟨m, q,
            ⟨(Nat.log2_lt hm).mp (by omega), by omega, by omega⟩, rfl⟩
  case isFalse hrounds =>
      generalize hs : (unit - q).toNat = s
      have hlt : m < 2 ^ 24 * 2 ^ s := by
        rw [← Nat.pow_add, ← Nat.log2_lt hm]
        omega
      have hle : shiftRounded m s ≤ 2 ^ 24 := by
        have := shiftRounded_le m s
        have := Nat.div_lt_of_lt_mul (by rwa [Nat.mul_comm] at hlt)
        omega
      split
      case isTrue => exact .inl rfl
      case isFalse hmost =>
          rcases hle.lt_or_eq with hdigits | htop
          · exact .inr ⟨_, unit, ⟨hdigits, by omega, by omega⟩, rfl⟩
          · -- All digits were ones and are rounded up to the next power of two.
            have hlog : Nat.log2 (2 ^ 23) = 23 := Nat.log2_two_pow
            have hlog' : Nat.log2 (2 ^ 24) = 24 := Nat.log2_two_pow
            have halved := @ofParts_mul (2 ^ 23) (unit + 1) negative
              (by decide) 1 (by omega) (by omega)
            rw [htop, hlog'] at hmost
            refine .inr ⟨2 ^ 23, unit + 1, ⟨by decide, by omega, by omega⟩, ?_⟩
            rw [htop, ← halved]
            congr 1
            omega

/-- Rounding gives what needs no more rounding. -/
theorem toSingle_singleOfParts (negative : Bool) (m : Nat) (q : Int) :
    toSingle (singleOfParts negative m q) = singleOfParts negative m q := by
  rcases singleOfParts_cases negative m q with hinf | ⟨n, p, fits, heq⟩
  · rw [hinf, toSingle, isFinite_infinity]
    rfl
  · rw [heq, fits.toSingle_eq]

theorem toSingle_toSingle (x : Float) : toSingle (toSingle x) = toSingle x := by
  by_cases hfinite : x.isFinite
  · rw [toSingle.eq_def x, if_pos hfinite, toSingle_singleOfParts]
  · rw [toSingle.eq_def x, if_neg hfinite, toSingle, if_neg hfinite]

end ScriptGraph.Binary64
