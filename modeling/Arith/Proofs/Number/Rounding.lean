/-
# Rounding depends on the value alone

The double nearest to a decimal fraction is found by different ways,
according to how large its exponent is.  All of them round the quotient that
the fraction stands for (`Decimal.roundedBits_eq`), and a quotient is
rounded the same however it is written (`roundQuotient_congr`).  So
fractions of the same value are rounded to the same double
(`Decimal.Same.roundedBits_eq`), and the exact value of a double is rounded
to that double (`roundQuotient_unitsOf`).

From these it follows that the shortest decimal of a double is rounded to
the double (`roundedBits_shortest`), without a word about how many digits
that takes: each of the decimals that are tried is rounded before it is
taken, and the one that is left if none will do is the exact value.
Stripping zeros does not change the value.

The two ends of the scale need a comparison of powers of two with powers of
ten, which is a computation with numbers of a thousand bits; the kernel does
it.
-/
import Mathlib.Tactic.Ring
import Arith.Number.Layout

namespace Arith

/-! ## Quotients

Multiplying both parts of a quotient by a number changes neither the quantum
nor what is rounded, and any two ways of writing a quotient have such a
multiple in common. -/

theorem divNearest_mul {num den k : Nat} (pos : 0 < k) :
    divNearest (k * num) (k * den) = divNearest num den := by
  have scaled : ∀ a b : Nat, 2 * (k * a) < k * b ↔ 2 * a < b := fun a b => by
    rw [Nat.mul_left_comm]
    exact Nat.mul_lt_mul_left pos
  have scaled' : ∀ a b : Nat, k * b < 2 * (k * a) ↔ b < 2 * a := fun a b => by
    rw [Nat.mul_left_comm]
    exact Nat.mul_lt_mul_left pos
  simp only [divNearest, Nat.mul_div_mul_left _ _ pos, Nat.mul_mod_mul_left, scaled, scaled']

theorem divNearest_exact {q den : Nat} (pos : 0 < den) : divNearest (q * den) den = q := by
  simp only [divNearest, Nat.mul_div_cancel _ pos, Nat.mul_mod_left]
  rw [if_pos (by omega)]

theorem le_divNearest (num den : Nat) : num / den ≤ divNearest num den := by
  simp only [divNearest]
  split
  · exact Nat.le_refl _
  · split
    · exact Nat.le_succ _
    · split
      · exact Nat.le_refl _
      · exact Nat.le_succ _

theorem divNearest_eq_zero {num den : Nat} (small : 2 * num < den) : divNearest num den = 0 := by
  have less : num < den := by omega
  simp only [divNearest, Nat.div_eq_of_lt less, Nat.mod_eq_of_lt less]
  rw [if_pos small]

theorem twoPow_eq (n : Nat) : twoPow n = 2 ^ n := rfl

theorem twoPow_add (m n : Nat) : twoPow (m + n) = twoPow m * twoPow n := Nat.pow_add 2 m n

theorem tenPow_add (m n : Nat) : tenPow (m + n) = tenPow m * tenPow n := Nat.pow_add 10 m n

theorem tenPow_le {m n : Nat} (le : m ≤ n) :
    tenPow m ≤ tenPow n := Nat.pow_le_pow_right (by decide) le

theorem twoPow_pos (n : Nat) : 0 < twoPow n := Nat.pow_pos (by decide)

theorem tenPow_pos (n : Nat) : 0 < tenPow n := Nat.pow_pos (by decide)

theorem roundQuotient_mul {num den k : Nat} (pos : 0 < k) :
    roundQuotient (k * num) (k * den) = roundQuotient num den := by
  simp only [roundQuotient, Nat.mul_assoc, Nat.mul_div_mul_left _ _ pos, divNearest_mul pos]

theorem roundQuotient_congr {num den num' den' : Nat} (pos : 0 < den) (pos' : 0 < den')
    (same : num * den' = num' * den) : roundQuotient num den = roundQuotient num' den' := by
  calc
    roundQuotient num den = roundQuotient (den' * num) (den' * den) :=
      (roundQuotient_mul pos').symm
    _ = roundQuotient (den * num') (den * den') := by
      rw [Nat.mul_comm den' num, same, Nat.mul_comm num', Nat.mul_comm den']
    _ = roundQuotient num' den' := roundQuotient_mul pos

theorem roundQuotient_le (num den : Nat) :
    roundQuotient num den ≤ infinityBits := Nat.min_le_right _ _

/-! ## The exact value of a double

The significand of a normal double has its leading bit in front, so the
length of the value says what the quantum is. -/

theorem log2_significand_mul {significand : Nat} (quantum : Nat) (low : 2 ^ 52 ≤ significand)
    (high : significand < 2 ^ 53) : (significand * 2 ^ quantum).log2 = 52 + quantum := by
  have pos : 0 < 2 ^ quantum := Nat.pow_pos (by decide)
  rw [Nat.log2_eq_iff (Nat.ne_of_gt (Nat.mul_pos (by omega) pos)), Nat.add_right_comm, Nat.pow_add,
    Nat.pow_add]
  exact ⟨Nat.mul_le_mul_right _ low, Nat.mul_lt_mul_of_pos_right high pos⟩

/-- The quantum that rounding chooses for the value of an encoding is that of the encoding. -/
theorem log2_unitsOf (bits : Nat) : (unitsOf bits).log2 - 52 = quantumOf bits := by
  rw [unitsOf, significandOf, quantumOf, leadingBit, twoPow_eq]
  split
  next small =>
    have zero : bits / 0x10000000000000 - 1 = 0 := by omega
    rw [zero, Nat.pow_zero, Nat.mul_one]
    by_cases none : bits = 0
    · rw [none]
      decide
    · have := (Nat.log2_lt none).mpr (show bits < 2 ^ 52 from small)
      omega
  next large =>
    rw [log2_significand_mul _ (by omega) (by omega)]
    omega

theorem quantumOf_mul_add (bits : Nat) :
    quantumOf bits * leadingBit + significandOf bits = bits := by
  rw [quantumOf, significandOf, leadingBit]
  split <;> omega

/-- The exact value of a double is rounded to it. -/
theorem roundQuotient_unitsOf {bits : Nat} (le : bits ≤ infinityBits) :
    roundQuotient (unitsOf bits) unitsPerOne = bits := by
  have pos : 0 < unitsPerOne := twoPow_pos 1074
  have exact : unitsOf bits * unitsPerOne =
      significandOf bits * (unitsPerOne * twoPow (quantumOf bits)) := by
    rw [unitsOf]
    ring
  rw [roundQuotient, Nat.mul_div_cancel _ pos, log2_unitsOf, exact,
    divNearest_exact (Nat.mul_pos pos (twoPow_pos _)), quantumOf_mul_add]
  exact Nat.min_eq_left le

/-! ## Beyond all doubles, and below them -/

theorem twoPow_le_tenPow : twoPow 1024 ≤ tenPow 310 := by decide +kernel

theorem twoPow_le_tenPow' : twoPow 1076 ≤ tenPow 331 := by decide +kernel

theorem le_log2 {n k : Nat} (h : twoPow k ≤ n) : k ≤ n.log2 :=
  (Nat.le_log2 (Nat.ne_of_gt (Nat.lt_of_lt_of_le (twoPow_pos k) h))).mpr h

theorem leadingBit_le_divNearest {n : Nat} (large : 52 ≤ n.log2) :
    leadingBit ≤ divNearest n (1 * twoPow (n.log2 - 52)) := by
  refine Nat.le_trans ?_ (le_divNearest _ _)
  have ne : n ≠ 0 := by
    rintro rfl
    exact absurd large (by decide)
  rw [Nat.one_mul, Nat.le_div_iff_mul_le (twoPow_pos _)]
  calc leadingBit * twoPow (n.log2 - 52) = twoPow 52 * twoPow (n.log2 - 52) := rfl
    _ = twoPow n.log2 := by rw [← twoPow_add, Nat.add_sub_cancel' large]
    _ ≤ n := Nat.log2_self_le ne

theorem roundQuotient_eq_infinity {num : Nat} (large : tenPow 310 ≤ num) :
    roundQuotient num 1 = infinityBits := by
  have units : twoPow (1024 + 1074) ≤ num * unitsPerOne := by
    rw [twoPow_add]
    exact Nat.mul_le_mul_right _ (Nat.le_trans twoPow_le_tenPow large)
  have log := le_log2 units
  simp only [roundQuotient, Nat.div_one]
  generalize num * unitsPerOne = n at *
  have leading := leadingBit_le_divNearest (n := n) (by omega)
  have quanta := Nat.mul_le_mul_right leadingBit (show 2046 ≤ n.log2 - 52 by omega)
  refine Nat.min_eq_right (Nat.le_trans ?_ (Nat.add_le_add quanta leading))
  decide

theorem roundQuotient_eq_zero {num den : Nat} (small : 2 * (num * unitsPerOne) < den) :
    roundQuotient num den = 0 := by
  have less : num * unitsPerOne < den := by omega
  have one : den * twoPow 0 = den := Nat.mul_one den
  simp only [roundQuotient, Nat.div_eq_of_lt less, Nat.log2_zero, Nat.zero_sub, Nat.zero_mul, one,
    divNearest_eq_zero small]
  rfl

/-! ## Decimal fractions -/

namespace Decimal

/-- The quotient that a fraction stands for. -/
def num (d : Decimal) : Nat := d.digits * tenPow d.exponent.toNat

def den (d : Decimal) : Nat := tenPow (-d.exponent).toNat

theorem den_pos (d : Decimal) : 0 < d.den := tenPow_pos _

/-- Two fractions stand for the same value. -/
def Same (d d' : Decimal) : Prop := d.num * d'.den = d'.num * d.den

theorem twice_units (log places : Nat) :
    2 * (twoPow (log + 1) * twoPow places) = twoPow (places + 2) * twoPow log := by
  rw [twoPow_add log 1, twoPow_add places 2]
  show 2 * (twoPow log * 2 * twoPow places) = twoPow places * 4 * twoPow log
  ring

theorem roundQuotient_small {digits places : Nat} (small : 331 + digits.log2 ≤ places) :
    roundQuotient digits (tenPow places) = 0 := by
  apply roundQuotient_eq_zero
  have short : digits < twoPow (digits.log2 + 1) := Nat.lt_log2_self
  have units : digits * unitsPerOne < twoPow (digits.log2 + 1) * unitsPerOne :=
    Nat.mul_lt_mul_of_pos_right short (twoPow_pos 1074)
  calc 2 * (digits * unitsPerOne) < 2 * (twoPow (digits.log2 + 1) * twoPow 1074) :=
        Nat.mul_lt_mul_of_pos_left units (by decide)
    _ = twoPow 1076 * twoPow digits.log2 := twice_units _ 1074
    _ ≤ tenPow 331 * tenPow digits.log2 :=
        Nat.mul_le_mul twoPow_le_tenPow' (Nat.pow_le_pow_left (by decide) _)
    _ = tenPow (331 + digits.log2) := (tenPow_add _ _).symm
    _ ≤ tenPow places := tenPow_le small

theorem den_of_nonneg {d : Decimal} (nonneg : 0 ≤ d.exponent) : d.den = 1 := by
  rw [den, Int.toNat_of_nonpos (by omega)]
  rfl

theorem num_of_neg {d : Decimal} (neg : d.exponent < 0) : d.num = d.digits := by
  rw [num, Int.toNat_of_nonpos (by omega)]
  exact Nat.mul_one _

/-- However a fraction is rounded, its quotient is. -/
theorem roundedBits_eq (d : Decimal) : d.roundedBits = roundQuotient d.num d.den := by
  rw [roundedBits]
  split
  next none =>
    rw [num, eq_of_beq none, Nat.zero_mul, roundQuotient_eq_zero]
    rw [Nat.zero_mul]
    exact d.den_pos
  next some =>
    have pos : 0 < d.digits := Nat.pos_of_ne_zero fun e => some (beq_iff_eq.mpr e)
    split
    next huge =>
      have large : tenPow 310 ≤ d.num := by
        calc tenPow 310 ≤ tenPow d.exponent.toNat := tenPow_le (by omega)
          _ ≤ d.num := Nat.le_mul_of_pos_left _ pos
      rw [den_of_nonneg (by omega), roundQuotient_eq_infinity large]
    next =>
      split
      next whole => rw [den_of_nonneg whole, num]
      next fraction =>
        rw [num_of_neg (by omega), den]
        split
        next tiny => exact (roundQuotient_small (by omega)).symm
        next => rfl

theorem Same.roundedBits_eq {d d' : Decimal} (h : d.Same d') : d.roundedBits = d'.roundedBits := by
  rw [Decimal.roundedBits_eq, Decimal.roundedBits_eq]
  exact roundQuotient_congr d.den_pos d'.den_pos h

theorem roundedBits_le (d : Decimal) : d.roundedBits ≤ infinityBits := by
  rw [roundedBits_eq]
  exact roundQuotient_le _ _

/-- Zeros behind the digits may be counted by the exponent. -/
theorem same_shift (digits places : Nat) (exponent : Int) :
    Same ⟨digits * tenPow places, exponent⟩ ⟨digits, exponent + places⟩ := by
  have balance : places + exponent.toNat + (-(exponent + places)).toNat =
      (exponent + places).toNat + (-exponent).toNat := by omega
  simp only [Same, num, den]
  calc digits * tenPow places * tenPow exponent.toNat * tenPow (-(exponent + places)).toNat =
        digits * tenPow (places + exponent.toNat + (-(exponent + places)).toNat) := by
        rw [tenPow_add, tenPow_add]
        ring
    _ = digits * tenPow (exponent + places).toNat * tenPow (-exponent).toNat := by
        rw [balance, tenPow_add]
        ring

end Decimal

/-! ## The shortest decimal -/

theorem fivePow_mul_twoPow (n : Nat) : fivePow n * twoPow n = tenPow n := (Nat.mul_pow 5 2 n).symm

theorem roundedBits_fivePow (units places : Nat) :
    Decimal.roundedBits ⟨units * fivePow places, -(places : Int)⟩ =
      roundQuotient units (twoPow places) := by
  have num : Decimal.num ⟨units * fivePow places, -(places : Int)⟩ = units * fivePow places := by
    rw [Decimal.num, Int.toNat_of_nonpos (show -(places : Int) ≤ 0 by omega)]
    exact Nat.mul_one _
  have den : Decimal.den ⟨units * fivePow places, -(places : Int)⟩ = tenPow places := by
    rw [Decimal.den, Int.neg_neg, Int.toNat_natCast]
  rw [Decimal.roundedBits_eq, num, den]
  refine roundQuotient_congr (tenPow_pos places) (twoPow_pos places) ?_
  rw [Nat.mul_assoc, fivePow_mul_twoPow]

theorem roundedBits_exactDecimal {bits : Nat} (le : bits ≤ infinityBits) :
    (exactDecimal (unitsOf bits)).roundedBits = bits := by
  have exponent : (-1074 : Int) = -((1074 : Nat) : Int) := rfl
  rw [exactDecimal, exponent, roundedBits_fivePow]
  exact roundQuotient_unitsOf le

theorem roundedBits_stripZeros (fuel : Nat) (d : Decimal) :
    (d.stripZeros fuel).roundedBits = d.roundedBits := by
  induction fuel generalizing d with
  | zero => rfl
  | succ fuel ih =>
    rw [Decimal.stripZeros]
    split
    next zeros =>
      have whole : d.digits / 10 * tenPow 1 = d.digits := by
        rw [Bool.and_eq_true, beq_iff_eq] at zeros
        show d.digits / 10 * 10 = d.digits
        omega
      rw [ih]
      have shifted := (Decimal.same_shift (d.digits / 10) 1 d.exponent).roundedBits_eq
      rw [whole] at shifted
      exact shifted.symm
    next => rfl

theorem roundedBits_shortest (tie : Tie) {bits : Nat} (le : bits ≤ infinityBits) :
    (shortest tie bits).roundedBits = bits := by
  rw [shortest]
  split
  next zero =>
    rw [eq_of_beq zero]
    rfl
  next =>
    dsimp only
    rw [roundedBits_stripZeros]
    cases found : (List.range 17).findSome? fun n => withDigits? tie bits (n + 1) with
    | none =>
      rw [Option.getD_none]
      exact roundedBits_exactDecimal le
    | some d =>
      obtain ⟨n, -, hit⟩ := List.exists_of_findSome?_eq_some found
      rw [withDigits?] at hit
      have reads := List.find?_some hit
      exact eq_of_beq reads

end Arith
