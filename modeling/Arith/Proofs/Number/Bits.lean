/-
# Doubles and their encodings

A double is determined by its encoding, and every encoding that is not one
of the many of an undefined number is that of a double.  So a double that is
not undefined may be handled as its sign and the natural number that encodes
its magnitude (`isNegative_floatOfBits`, `magnitude_floatOfBits`), and a
double of either kind as the natural number that encodes it
(`floatOfBits_toBits`).

That packing undoes unpacking, that an encoding determines its double, and
which double differs from itself are theorems of the library, where no part
of Mathlib leads to them; so the whole of it is imported here, and only
here.  What is left is to tell which encodings are valid: all of those whose
magnitude is at most that of infinity (`valid_of_mod_le`).
-/
import Mathlib
import Arith.Number.Binary64

namespace Arith

open Float.Model (Format UnpackedFloat)

variable {bits : Nat}

/-! ## Encodings -/

theorem valid_of_mod_le {b : BitVec Format.binary64.numBits}
    (le : b.toNat % signBit ≤ infinityBits) : Format.binary64.Valid b := by
  refine ⟨fun exponent mantissa => absurd ?_ mantissa⟩
  have exponent : (b.extractLsb 62 52).toNat = 2047 := congrArg BitVec.toNat exponent
  apply BitVec.eq_of_toNat_eq
  show (b.extractLsb 51 0).toNat = 0
  rw [BitVec.extractLsb_toNat, Nat.shiftRight_eq_div_pow] at exponent ⊢
  rw [infinityBits, signBit] at le
  omega

theorem toBits_ofBits {bits : UInt64} (le : bits.toNat % signBit ≤ infinityBits) :
    (Float.ofBits bits).toBits = bits := by
  simp only [Float.ofBits, Float.toBits, Float.Model.ofBits, Float.Model.pack]
  rw [UnpackedFloat.pack_unpack_of_valid (valid_of_mod_le le)]

theorem toNat_toBits_floatOfBits (negative : Bool) (le : bits ≤ infinityBits) :
    (floatOfBits negative bits).toBits.toNat = if negative then signBit + bits else bits := by
  have bound : (if negative then signBit + bits else bits) < 2 ^ 64 := by
    rw [infinityBits] at le
    rw [signBit]
    split <;> omega
  have cleared : (if negative then signBit + bits else bits) % signBit = bits := by
    rw [infinityBits] at le
    rw [signBit]
    split <;> omega
  rw [floatOfBits]
  generalize (if negative then signBit + bits else bits) = encoding at bound cleared ⊢
  have same : (UInt64.ofNat encoding).toNat = encoding := by
    rw [UInt64.toNat_ofNat', Nat.mod_eq_of_lt bound]
  rw [toBits_ofBits (by rwa [same, cleared]), same]

theorem floatOfBits_toBits (x : Float) : floatOfBits false x.toBits.toNat = x := by
  show Float.ofBits (UInt64.ofNat x.toBits.toNat) = x
  rw [UInt64.ofNat_toNat, Float.ofBits_toBits]

/-! ## Signs and magnitudes -/

theorem isNegative_floatOfBits (negative : Bool) (le : bits ≤ infinityBits) :
    isNegative (floatOfBits negative bits) = negative := by
  rw [isNegative, toNat_toBits_floatOfBits negative le]
  cases negative with
  | false =>
    refine decide_eq_false (Nat.not_le.mpr ?_)
    exact Nat.lt_of_le_of_lt le (by decide)
  | true => exact decide_eq_true (Nat.le_add_right _ _)

theorem toBits_floatOfBits_mod (negative : Bool) (le : bits ≤ infinityBits) :
    (floatOfBits negative bits).toBits.toNat % signBit = bits := by
  have small : bits % signBit = bits := Nat.mod_eq_of_lt (Nat.lt_of_le_of_lt le (by decide))
  rw [toNat_toBits_floatOfBits negative le]
  cases negative with
  | false => exact small
  | true => exact (Nat.add_mod_left _ _).trans small

theorem magnitude_floatOfBits (negative : Bool) (lt : bits < infinityBits) :
    magnitude (floatOfBits negative bits) = .finite bits := by
  simp only [magnitude, toBits_floatOfBits_mod negative (Nat.le_of_lt lt)]
  rw [if_neg (Nat.not_lt.mpr (Nat.le_of_lt lt)), if_neg]
  exact fun e => Nat.ne_of_lt lt (eq_of_beq e)

theorem magnitude_infinity : magnitude (floatOfBits false infinityBits) = .infinite := by
  rw [magnitude, toBits_floatOfBits_mod false (Nat.le_refl _)]
  rfl

/-! ## Undefined numbers -/

/-- Only an undefined number differs from itself. -/
theorem beq_self_iff (x : Float) : x == x ↔ ¬ x.isNaN := by
  rw [Float.isNaN_eq_decide_eq_nan, decide_eq_true_eq]
  exact Float.beq_self_iff

theorem not_isNaN_floatOfBits (le : bits ≤ infinityBits) : ¬ (floatOfBits false bits).isNaN := by
  intro undefined
  have valid := (floatOfBits false bits).toModel.valid
  have packed := (UnpackedFloat.isNaN_unpack_iff_of_valid valid).mp undefined
  have high : (floatOfBits false bits).toBits.toNat = undefinedBits := congrArg BitVec.toNat packed
  have low : (floatOfBits false bits).toBits.toNat = bits := toNat_toBits_floatOfBits false le
  rw [← low, high] at le
  exact absurd le (by decide)

end Arith
