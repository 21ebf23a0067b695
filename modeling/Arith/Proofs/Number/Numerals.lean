/-
# Which numerals stand for a number

The tokens that are numbers are digits and points with a digit in front, and
that is less than what may be read as a number: there are no signs, no
exponents and no words among them.  It is more as well, as the points are
not counted.  Where both meet is said by the points alone: a numeral has
none, or one, or a second one behind which nothing is read
(`Lexeme.numeral_cases`).

Proved here:

* a numeral is read exactly if it has at most one point
  (`Lexeme.readFloat_ok_iff`);
* what is read of it is not negative and not undefined, since its sign bit
  is not set and its encoding is no larger than that of infinity
  (`Lexeme.readFloat_of_count_le`, `zero_le_floatOfBits`);
* a numeral of many digits is read as infinity (`readFloat_power`), so
  "finite" cannot be added to the list.
-/
import Arith.Proofs.Number.Reading

namespace Arith

/-! ## Points -/

variable {cs whole fraction : List Char}

theorem count_point_of_digits (digits : ∀ c ∈ cs, isDecimalDigit c) : cs.count '.' = 0 := by
  rw [List.count_eq_zero]
  intro point
  exact absurd (digits '.' point) (by decide)

theorem count_point_of_point (digits : ∀ c ∈ whole, isDecimalDigit c) :
    (whole ++ '.' :: cs).count '.' = cs.count '.' + 1 := by
  rw [List.count_append, count_point_of_digits digits, List.count_cons_self, Nat.zero_add]

/-- Parts of a number are digits up to the first point. -/
theorem digits_or_point (parts : ∀ c ∈ cs, isNumberPart c) :
    (∀ c ∈ cs, isDecimalDigit c) ∨
      ∃ digits rest, cs = digits ++ '.' :: rest ∧ ∀ c ∈ digits, isDecimalDigit c := by
  induction cs with
  | nil => exact .inl (List.forall_mem_nil _)
  | cons c cs ih =>
    rw [List.forall_mem_cons] at parts
    by_cases point : c = '.'
    · exact .inr ⟨[], cs, by rw [point]; rfl, List.forall_mem_nil _⟩
    · have digit : isDecimalDigit c := by
        have part : isDecimalDigit c ∨ c = '.' := by simpa [isNumberPart] using parts.1
        exact part.resolve_right point
      rcases ih parts.2 with all | ⟨digits, rest, rfl, all⟩
      · exact .inl (List.forall_mem_cons.mpr ⟨digit, all⟩)
      · exact .inr ⟨c :: digits, rest, rfl, List.forall_mem_cons.mpr ⟨digit, all⟩⟩

/-- A numeral is digits, or digits with one point among them, or goes on behind a second point. -/
theorem Lexeme.numeral_cases (h : Lexeme .number cs) :
    (cs ≠ [] ∧ ∀ c ∈ cs, isDecimalDigit c) ∨
      ∃ whole behind, cs = whole ++ '.' :: behind ∧ whole ≠ [] ∧ (∀ c ∈ whole, isDecimalDigit c) ∧
        ((∀ c ∈ behind, isDecimalDigit c) ∨
          ∃ fraction rest, behind = fraction ++ '.' :: rest ∧
            ∀ c ∈ fraction, isDecimalDigit c) := by
  obtain ⟨c, more, rfl, digit, parts⟩ := h.number_inv
  rcases digits_or_point parts with all | ⟨digits, behind, rfl, all⟩
  · exact .inl ⟨List.cons_ne_nil c more, List.forall_mem_cons.mpr ⟨digit, all⟩⟩
  · rw [List.forall_mem_append, List.forall_mem_cons] at parts
    exact .inr ⟨c :: digits, behind, rfl, List.cons_ne_nil c digits,
      List.forall_mem_cons.mpr ⟨digit, all⟩, digits_or_point parts.2.2⟩

/-! ## Reading -/

theorem readDecimal_twoPoints (digits : ∀ c ∈ whole, isDecimalDigit c)
    (further : ∀ c ∈ fraction, isDecimalDigit c) (rest : List Char) :
    readDecimal (whole ++ '.' :: (fraction ++ '.' :: rest)) = none := by
  have point : ¬ isDecimalDigit '.' := by decide
  have left : (whole ++ '.' :: (fraction ++ '.' :: rest)).dropWhile isDecimalDigit =
      '.' :: (fraction ++ '.' :: rest) := by
    rw [List.dropWhile_append_of_pos digits, List.dropWhile_cons_of_neg point]
  have behind : (fraction ++ '.' :: rest).dropWhile isDecimalDigit = '.' :: rest := by
    rw [List.dropWhile_append_of_pos further, List.dropWhile_cons_of_neg point]
  have exponent : readExponent ('.' :: rest) = none := by
    rw [readExponent]
    rfl
  simp only [readDecimal, left, takeFraction, behind, exponent, Option.map_none, ite_self]

/-- A numeral with at most one point is read, as a number that is not negative. -/
theorem Lexeme.readFloat_of_count_le (h : Lexeme .number cs) (few : cs.count '.' ≤ 1) :
    ∃ bits ≤ infinityBits, readFloat cs = .ok (floatOfBits false bits) := by
  have decimal : ∃ d, readDecimal cs = some d := by
    rcases h.numeral_cases with ⟨ne, digits⟩ | ⟨whole, behind, rfl, ne, digits, further⟩
    · exact ⟨_, readDecimal_whole digits ne⟩
    · rcases further with further | ⟨fraction, rest, rfl, further⟩
      · exact ⟨_, readDecimal_point digits ne further⟩
      · rw [count_point_of_point digits, count_point_of_point further] at few
        omega
  obtain ⟨d, reads⟩ := decimal
  refine ⟨d.roundedBits, d.roundedBits_le, ?_⟩
  rw [h.readFloat_eq, reads]
  rfl

theorem Lexeme.readFloat_of_lt_count (h : Lexeme .number cs) (many : 1 < cs.count '.') :
    readFloat cs = .error .malformed := by
  have none : readDecimal cs = none := by
    rcases h.numeral_cases with ⟨ne, digits⟩ | ⟨whole, behind, rfl, ne, digits, further⟩
    · rw [count_point_of_digits digits] at many
      omega
    · rcases further with further | ⟨fraction, rest, rfl, further⟩
      · rw [count_point_of_point digits, count_point_of_digits further] at many
        omega
      · exact readDecimal_twoPoints digits further rest
  rw [h.readFloat_eq, none]
  rfl

theorem Lexeme.readFloat_ok_iff (h : Lexeme .number cs) :
    (∃ value, readFloat cs = .ok value) ↔ cs.count '.' ≤ 1 := by
  constructor
  · rintro ⟨value, reads⟩
    by_contra many
    cases reads.symm.trans (h.readFloat_of_lt_count (Nat.lt_of_not_le many))
  · intro few
    obtain ⟨bits, -, reads⟩ := h.readFloat_of_count_le few
    exact ⟨_, reads⟩

/-! ## Values

The order of doubles is that of their unpacked forms.  Zero is compared with
each of them in turn, of which only the ones with a sign bit and the
undefined one would be less or incomparable. -/

open Float.Model (UnpackedFloat Format)
open Float.Model.UnpackedFloat

/-- What has no sign bit is no less than zero, unless it is undefined. -/
theorem zero_le_unpack {b : BitVec Format.binary64.numBits} (positive : unpackSign b = 0#1)
    (defined : UnpackedFloat.unpack .binary64 b ≠ .notANumber) :
    UnpackedFloat.le (.zero .positive) (UnpackedFloat.unpack .binary64 b) := by
  have sign : Sign.ofBitVec (unpackSign b) = .positive := by rw [positive]; rfl
  unfold UnpackedFloat.unpack at defined ⊢
  dsimp only at defined ⊢
  rw [sign] at defined ⊢
  split
  next all =>
    rw [if_pos all] at defined
    split
    next none => rfl
    next some => exact absurd (if_neg some) defined
  next =>
    split
    next => split <;> rfl
    next => rfl

theorem zero_le_floatOfBits {bits : Nat} (le : bits ≤ infinityBits) :
    0 ≤ floatOfBits false bits := by
  have encoded := toNat_toBits_floatOfBits false le
  have defined := not_isNaN_floatOfBits le
  generalize floatOfBits false bits = x at encoded defined
  obtain ⟨⟨b, valid⟩⟩ := x
  have small : b.toBitVec.toNat = bits := encoded
  have positive : @unpackSign .binary64 b.toBitVec = 0#1 := by
    apply BitVec.eq_of_toNat_eq
    show (b.toBitVec.extractLsb 63 63).toNat = 0
    rw [BitVec.extractLsb_toNat, small, Nat.shiftRight_eq_div_pow]
    rw [infinityBits] at le
    omega
  have defined : UnpackedFloat.unpack .binary64 b.toBitVec ≠ .notANumber := by
    intro undefined
    refine defined ?_
    show (UnpackedFloat.unpack .binary64 b.toBitVec).isNaN = true
    rw [undefined]
    rfl
  have zero : (0 : Float).toModel.unpack = .zero .positive := rfl
  show decide ((0 : Float).toModel.unpack.le (UnpackedFloat.unpack .binary64 b.toBitVec) = true) =
    true
  rw [zero, zero_le_unpack positive defined]
  rfl

/-- A one with very many zeros behind it is read as infinity. -/
theorem readFloat_power {n : Nat} (large : 310 ≤ n) :
    readFloat ('1' :: List.replicate n '0') = .ok (floatOfBits false infinityBits) := by
  have digits : ∀ c ∈ '1' :: List.replicate n '0', isDecimalDigit c :=
    List.forall_mem_cons.mpr ⟨rfl, digits_zeros n⟩
  have value : digitsValue ('1' :: List.replicate n '0') = tenPow n := by
    have power := digitsValue_append_zeros 1 n
    rwa [Nat.one_mul] at power
  have rounded : Decimal.roundedBits ⟨tenPow n, 0⟩ = infinityBits := by
    rw [Decimal.roundedBits_eq]
    refine roundQuotient_eq_infinity (Nat.le_trans (tenPow_le large) ?_)
    rw [Decimal.num]
    exact Nat.le_mul_of_pos_right _ (tenPow_pos _)
  rw [(numeral_of_digits (List.cons_ne_nil _ _) digits).readFloat_eq,
    readDecimal_whole digits (List.cons_ne_nil _ _), value, Option.map_some, rounded]
  rfl

end Arith
