/-
# A remainder of doubles is exact

A remainder of 64-bit integers can need 63 bits, and a double has 53 for its
significand.  Still the remainder of two doubles is never rounded.  Their
integer parts are `m * 2 ^ k` with `m` below `2 ^ 53` (`Short`), and of two
such numbers the one with the smaller power of two says how the remainder is
written: that power divides both, hence the remainder, and what is left
after the division is smaller than the significand of the divisor or no
larger than that of the dividend (`short_tmod`).

Both numbers are compared with the double by its exact value in units of the
smallest double, so that nothing here rounds: `Truncates` reads the integer
part off, and `IsWhole` says that a double is an integer.

The main result is `Operator.apply_rem_exact`: the remainder of two doubles
within the range of 64-bit integers is the double that is the remainder of
their integer parts, and nothing is warned of.  The quotient may leave the
range, as that of the least integer and `-1` does, and the remainder does
not notice.
-/
import Arith.Expr.Eval
import Arith.Proofs.Number.Bits
import Arith.Proofs.Number.Rounding

namespace Arith

/-! ## Short integers -/

/-- An integer that needs no more than 53 bits in front of its last zeros. -/
def Short (n : Int) : Prop := ∃ (m : Int) (k : Nat), n = m * twoPow k ∧ m.natAbs < twoPow 53

/-- `n` is what is left of `l` when it is divided by `r` and the quotient is cut off. -/
structure IsRemainder (l r n : Int) : Prop where
  natAbs_lt : n.natAbs < r.natAbs
  sign_eq : n = 0 ∨ n.sign = l.sign
  dvd : r ∣ l - n

theorem isRemainder_tmod (l : Int) {r : Int} (nonzero : r ≠ 0) : IsRemainder l r (l.tmod r) where
  natAbs_lt := by
    rw [Int.natAbs_tmod]
    exact Nat.mod_lt _ (Int.natAbs_pos.mpr nonzero)
  sign_eq := by
    by_cases divides : r ∣ l
    · exact .inl (Int.tmod_eq_zero_of_dvd divides)
    · exact .inr (by rw [Int.sign_tmod, if_neg divides])
  dvd := ⟨l.tdiv r, by rw [Int.tmod_def]; omega⟩

theorem short_iff_natAbs {n : Int} :
    Short n ↔ ∃ m k : Nat, n.natAbs = m * twoPow k ∧ m < twoPow 53 := by
  constructor
  · rintro ⟨m, k, rfl, lt⟩
    exact ⟨m.natAbs, k, by rw [Int.natAbs_mul, Int.natAbs_natCast], lt⟩
  · rintro ⟨m, k, e, lt⟩
    rcases Int.natAbs_eq n with pos | neg
    · exact ⟨m, k, by rw [pos, e, Int.natCast_mul], by rwa [Int.natAbs_natCast]⟩
    · exact ⟨-m, k, by rw [neg, e, Int.natCast_mul, Int.neg_mul], by rwa [Int.natAbs_neg]⟩

/-- The smaller of the two powers of two can be taken out of a remainder. -/
theorem exists_mod_eq {m p : Nat} (i j : Nat) (pos : 0 < p) (left : m < twoPow 53)
    (right : p < twoPow 53) :
    ∃ q k, (m * twoPow i) % (p * twoPow j) = q * twoPow k ∧ q < twoPow 53 := by
  rcases Nat.le_total j i with le | le
  · refine ⟨m * twoPow (i - j) % p, j, ?_, Nat.lt_trans (Nat.mod_lt _ pos) right⟩
    have split : m * twoPow i = m * twoPow (i - j) * twoPow j := by
      rw [Nat.mul_assoc, ← twoPow_add, Nat.sub_add_cancel le]
    rw [split, Nat.mul_mod_mul_right]
  · refine ⟨m % (p * twoPow (j - i)), i, ?_, Nat.lt_of_le_of_lt (Nat.mod_le _ _) left⟩
    have split : p * twoPow j = p * twoPow (j - i) * twoPow i := by
      rw [Nat.mul_assoc, ← twoPow_add, Nat.sub_add_cancel le]
    rw [split, Nat.mul_mod_mul_right]

theorem short_tmod {l r : Int} (left : Short l) (right : Short r) (nonzero : r ≠ 0) :
    Short (l.tmod r) := by
  rw [short_iff_natAbs] at left right ⊢
  obtain ⟨m, i, left_eq, left_lt⟩ := left
  obtain ⟨p, j, right_eq, right_lt⟩ := right
  have pos : 0 < p := by
    refine Nat.pos_of_ne_zero ?_
    rintro rfl
    rw [Nat.zero_mul] at right_eq
    exact nonzero (Int.natAbs_eq_zero.mp right_eq)
  rw [Int.natAbs_tmod, left_eq, right_eq]
  exact exists_mod_eq i j pos left_lt right_lt

/-! ## The integer part of a double -/

def signed (negative : Bool) (n : Nat) : Int := if negative then -n else n

theorem natAbs_signed (negative : Bool) (n : Nat) : (signed negative n).natAbs = n := by
  cases negative with
  | false => exact Int.natAbs_natCast n
  | true => exact (Int.natAbs_neg _).trans (Int.natAbs_natCast n)

/-- `n` is the integer part of a finite double: the whole units in its magnitude, with its sign. -/
def Truncates (x : Float) (n : Int) : Prop :=
  ∃ bits, magnitude x = .finite bits ∧ n = signed (isNegative x) (unitsOf bits / unitsPerOne)

/-- A double is the integer `n`; zero is written without a sign. -/
def IsWhole (x : Float) (n : Int) : Prop :=
  ∃ bits, magnitude x = .finite bits ∧ unitsOf bits = n.natAbs * unitsPerOne ∧
    isNegative x = decide (n < 0)

/-- An integer that 64 bits have room for. -/
def InRange (n : Int) : Prop := leastWhole ≤ n ∧ n ≤ greatestWhole

instance (n : Int) : Decidable (InRange n) := inferInstanceAs (Decidable (_ ∧ _))

/-- Within the range of 64-bit integers truncation cuts nothing off but the fraction. -/
theorem Truncates.truncate_eq {x : Float} {n : Int} (h : Truncates x n) (range : InRange n) :
    truncate x = n := by
  obtain ⟨bits, finite, rfl⟩ := h
  have inside := range
  rw [InRange] at inside
  simp only [truncate, finite, clampWhole]
  rw [← signed, Int.min_eq_right inside.2, Int.max_eq_right inside.1]

theorem significandOf_lt (bits : Nat) : significandOf bits < twoPow 53 := by
  rw [significandOf, leadingBit, twoPow_eq]
  split <;> omega

/-- The integer part of a double is as short as its significand. -/
theorem Truncates.short {x : Float} {n : Int} (h : Truncates x n) : Short n := by
  obtain ⟨bits, -, rfl⟩ := h
  rw [short_iff_natAbs, natAbs_signed, unitsOf, unitsPerOne]
  have bound := significandOf_lt bits
  rcases Nat.le_total 1074 (quantumOf bits) with le | le
  · refine ⟨significandOf bits, quantumOf bits - 1074, ?_, bound⟩
    have split : twoPow (quantumOf bits) = twoPow (quantumOf bits - 1074) * twoPow 1074 := by
      rw [← twoPow_add, Nat.sub_add_cancel le]
    rw [split, ← Nat.mul_assoc, Nat.mul_div_cancel _ (twoPow_pos _)]
  · refine ⟨significandOf bits / twoPow (1074 - quantumOf bits), 0, ?_,
      Nat.lt_of_le_of_lt (Nat.div_le_self _ _) bound⟩
    have split : twoPow 1074 = twoPow (1074 - quantumOf bits) * twoPow (quantumOf bits) := by
      rw [← twoPow_add, Nat.sub_add_cancel le]
    rw [split, Nat.mul_div_mul_right _ _ (twoPow_pos _)]
    exact (Nat.mul_one _).symm

/-! ## The double nearest to a short integer -/

/-- What is at most 53 bits long and not beyond the largest double is the magnitude of a double. -/
theorem exists_unitsOf_eq :
    ∀ (quantum significand : Nat), significand < twoPow 53 → quantum ≤ 2045 →
      ∃ bits, bits < infinityBits ∧ unitsOf bits = significand * twoPow quantum
  | 0, significand, short, _ => by
    refine ⟨significand, ?_, ?_⟩
    · rw [twoPow_eq] at short
      rw [infinityBits]
      omega
    · rw [twoPow_eq] at short
      rw [unitsOf, significandOf, quantumOf, leadingBit, twoPow_eq]
      have zero : significand / 0x10000000000000 - 1 = 0 := by omega
      rw [zero]
      split <;> congr 1
      omega
  | quantum + 1, significand, short, le => by
    by_cases normal : significand < leadingBit
    · -- a zero is moved from the power into the significand
      obtain ⟨bits, lt, e⟩ := exists_unitsOf_eq quantum (2 * significand)
        (by rw [leadingBit] at normal; rw [twoPow_eq]; omega) (by omega)
      refine ⟨bits, lt, e.trans ?_⟩
      rw [twoPow_add quantum 1, Nat.mul_comm 2, Nat.mul_assoc, Nat.mul_comm (twoPow quantum)]
      rfl
    · refine ⟨(quantum + 1) * leadingBit + significand, ?_, ?_⟩
      · rw [twoPow_eq] at short
        rw [infinityBits, leadingBit]
        omega
      · rw [twoPow_eq] at short
        rw [leadingBit] at normal
        have quanta : quantumOf ((quantum + 1) * leadingBit + significand) = quantum + 1 := by
          rw [quantumOf, leadingBit]
          omega
        have digits : significandOf ((quantum + 1) * leadingBit + significand) = significand := by
          rw [significandOf, leadingBit, if_neg (by omega)]
          omega
        rw [unitsOf, quanta, digits]

/-- A short integer in the range of 64-bit integers is a double, so that rounding to the nearest
double does not change it. -/
theorem isWhole_floatOfInt {n : Int} (short : Short n) (range : InRange n) :
    IsWhole (floatOfInt n) n := by
  obtain ⟨m, k, natAbs, lt⟩ := short_iff_natAbs.mp short
  obtain ⟨bits, below, units⟩ :
      ∃ bits, bits < infinityBits ∧ unitsOf bits = n.natAbs * unitsPerOne := by
    by_cases zero : m = 0
    · refine ⟨0, by decide, ?_⟩
      rw [natAbs, zero, Nat.zero_mul, Nat.zero_mul]
      rfl
    · have power : twoPow k ≤ twoPow 63 := by
        calc twoPow k ≤ m * twoPow k := Nat.le_mul_of_pos_left _ (Nat.pos_of_ne_zero zero)
          _ = n.natAbs := natAbs.symm
          _ ≤ twoPow 63 := by
            have inside := range
            rw [InRange, leastWhole, greatestWhole] at inside
            rw [twoPow_eq]
            omega
      have le : k ≤ 63 := (Nat.pow_le_pow_iff_right (by decide)).mp power
      obtain ⟨bits, below, units⟩ := exists_unitsOf_eq (k + 1074) m lt (by omega)
      exact ⟨bits, below, by rw [units, natAbs, unitsPerOne, Nat.mul_assoc, ← twoPow_add]⟩
  have rounded : roundQuotient n.natAbs 1 = bits := by
    rw [← roundQuotient_unitsOf (Nat.le_of_lt below)]
    refine roundQuotient_congr (by decide) (twoPow_pos _) ?_
    rw [units, Nat.mul_one]
  rw [floatOfInt, rounded]
  exact ⟨bits, magnitude_floatOfBits _ below, units, isNegative_floatOfBits _ (Nat.le_of_lt below)⟩

/-! ## Remainders -/

theorem InRange.tmod {l : Int} (range : InRange l) (r : Int) : InRange (l.tmod r) := by
  have le : (l.tmod r).natAbs ≤ l.natAbs := by
    rw [Int.natAbs_tmod]
    exact Nat.mod_le _ _
  have sign := Int.sign_tmod l r
  rw [InRange, leastWhole, greatestWhole] at range ⊢
  rcases Int.lt_trichotomy l 0 with neg | rfl | pos
  · have nonpos : l.tmod r ≤ 0 := by
      have := Int.tmod_nonneg r (a := -l) (by omega)
      rw [Int.neg_tmod] at this
      omega
    omega
  · rw [Int.zero_tmod]
    decide
  · have := Int.tmod_nonneg r (Int.le_of_lt pos)
    omega

/-- On 64-bit integers nothing wraps, not even where the quotient does. -/
theorem toInt_mod_ofInt {l r : Int} (left : InRange l) (right : InRange r) :
    (Int64.ofInt l % Int64.ofInt r).toInt = l.tmod r := by
  have back : ∀ {n : Int}, InRange n → (Int64.ofInt n).toInt = n := by
    intro n range
    rw [InRange, leastWhole, greatestWhole] at range
    exact Int64.toInt_ofInt_of_le (by omega) (by omega)
  rw [Int64.toInt_mod, back left, back right]

/-- The remainder of two doubles whose integer parts lie in the range of 64-bit integers is exact:
no operation on 64-bit integers wraps, and no rounding changes the remainder, since what is short
leaves a short remainder. -/
theorem Operator.apply_rem_exact {x y : Float} {l r : Int} (left : Truncates x l)
    (right : Truncates y r) (left_range : InRange l) (right_range : InRange r) (nonzero : r ≠ 0) :
    (∃ z, (∀ w, Operator.rem.apply x y w = (z, w)) ∧ IsWhole z (l.tmod r)) ∧
      IsRemainder l r (l.tmod r) ∧ (Int64.ofInt l % Int64.ofInt r).toInt = l.tmod r ∧
      ∀ a b : Int, Short a → Short b → b ≠ 0 → Short (a.tmod b) ∧ IsRemainder a b (a.tmod b) := by
  refine ⟨⟨floatOfInt (l.tmod r), ?_, ?_⟩, isRemainder_tmod l nonzero,
    toInt_mod_ofInt left_range right_range, ?_⟩
  · intro w
    have some : truncatedRemainder? x y = some (floatOfInt (l.tmod r)) := by
      rw [truncatedRemainder?, left.truncate_eq left_range, right.truncate_eq right_range, if_neg]
      exact fun zero => nonzero (eq_of_beq zero)
    rw [Operator.apply, some]
    rfl
  · exact isWhole_floatOfInt (short_tmod left.short right.short nonzero) (left_range.tmod r)
  · intro a b left right nonzero
    exact ⟨short_tmod left right nonzero, isRemainder_tmod a nonzero⟩

/-- The least 64-bit integer leaves nothing when it is divided by `-1`, though the quotient is no
64-bit integer. -/
theorem Operator.apply_rem_exact_least :
    let x := floatOfBits true 0x43e0000000000000
    let y := floatOfBits true 0x3ff0000000000000
    Truncates x leastWhole ∧ Truncates y (-1) ∧ InRange leastWhole ∧ InRange (-1) ∧ (-1 : Int) ≠ 0 ∧
      ∃ z, (∀ w, Operator.rem.apply x y w = (z, w)) ∧ IsWhole z 0 := by
  intro x y
  have left : Truncates x leastWhole := by
    have finite : magnitude x = .finite 0x43e0000000000000 :=
      magnitude_floatOfBits true (by decide)
    have negative : isNegative x = true := isNegative_floatOfBits true (by decide)
    exact ⟨_, finite, by rw [negative]; decide +kernel⟩
  have right : Truncates y (-1) := by
    have finite : magnitude y = .finite 0x3ff0000000000000 :=
      magnitude_floatOfBits true (by decide)
    have negative : isNegative y = true := isNegative_floatOfBits true (by decide)
    exact ⟨_, finite, by rw [negative]; decide +kernel⟩
  have least : InRange leastWhole := by decide
  have one : InRange (-1) := by decide
  have nonzero : (-1 : Int) ≠ 0 := by decide
  exact ⟨left, right, least, one, nonzero, (apply_rem_exact left right least one nonzero).1⟩

end Arith
