/-
# What is written of a number is read as that number

A finite double that is not negative is written as digits with at most one
point among them (`lexeme_floatChars`), and reading these gives the double
back, bit for bit (`readFloat_floatChars`).

That the shortest decimal is rounded to the double is shown with the
rounding.  What is left is that the text of a decimal is read as a decimal
of the same value (`ReadsAs`): the digits may have got zeros in front, so
that there is one before the point, or zeros behind, where the exponent is
not negative, and neither changes the value (`digitsValue_zeros_append`,
`digitsValue_append_zeros`).
-/
import Arith.Number.Layout
import Arith.Number.Literal
import Arith.Proofs.Number.Bits
import Arith.Proofs.Number.Rounding
import Arith.Proofs.Token.Alphabet

namespace Arith

/-! ## Runs of digits -/

theorem isDecimalDigit_of_isDigit {c : Char} (h : c.isDigit) : isDecimalDigit c := h

theorem digits_toDigits (n : Nat) : ∀ c ∈ Nat.toDigits 10 n, isDecimalDigit c := fun _ hc =>
  isDecimalDigit_of_isDigit (Nat.isDigit_of_mem_toDigits (by decide) (by decide) hc)

theorem digits_zeros (n : Nat) : ∀ c ∈ List.replicate n '0', isDecimalDigit c := by
  intro c hc
  rw [List.eq_of_mem_replicate hc]
  rfl

theorem digitsValue_eq (cs : List Char) : digitsValue cs = Nat.ofDigitChars 10 cs 0 := rfl

theorem digitsValue_zeros_append (n k : Nat) :
    digitsValue (List.replicate k '0' ++ Nat.toDigits 10 n) = n := by
  rw [digitsValue_eq, Nat.ofDigitChars_append, Nat.ofDigitChars_replicate_zero, Nat.mul_zero,
    Nat.ofDigitChars_ten_toDigits]

theorem digitsValue_append_zeros (n k : Nat) :
    digitsValue (Nat.toDigits 10 n ++ List.replicate k '0') = n * tenPow k := by
  rw [digitsValue_eq, Nat.ofDigitChars_append, Nat.ofDigitChars_ten_toDigits,
    Nat.ofDigitChars_replicate_zero, Nat.mul_comm]
  rfl

theorem numberPart_of_digit {c : Char} (h : isDecimalDigit c) : isNumberPart c := by
  rw [isNumberPart, h]
  rfl

/-! ## Reading a decimal -/

variable {whole fraction : List Char}

theorem readDecimal_whole (digits : ∀ c ∈ whole, isDecimalDigit c) (ne : whole ≠ []) :
    readDecimal whole = some ⟨digitsValue whole, 0⟩ := by
  have all : whole.takeWhile isDecimalDigit = whole := List.takeWhile_eq_self_iff.mpr digits
  have none : whole.dropWhile isDecimalDigit = [] := List.dropWhile_eq_nil_iff.mpr digits
  simp only [readDecimal, all, none, takeFraction, List.isEmpty_eq_false_iff.mpr ne, readExponent]
  rw [List.append_nil]
  rfl

theorem readDecimal_point (digits : ∀ c ∈ whole, isDecimalDigit c) (ne : whole ≠ [])
    (further : ∀ c ∈ fraction, isDecimalDigit c) :
    readDecimal (whole ++ '.' :: fraction) =
      some ⟨digitsValue (whole ++ fraction), -fraction.length⟩ := by
  have point : ¬ isDecimalDigit '.' := by decide
  have taken : (whole ++ '.' :: fraction).takeWhile isDecimalDigit = whole := by
    rw [List.takeWhile_append_of_pos digits, List.takeWhile_cons_of_neg point, List.append_nil]
  have left : (whole ++ '.' :: fraction).dropWhile isDecimalDigit = '.' :: fraction := by
    rw [List.dropWhile_append_of_pos digits, List.dropWhile_cons_of_neg point]
  have all : fraction.takeWhile isDecimalDigit = fraction := List.takeWhile_eq_self_iff.mpr further
  have none : fraction.dropWhile isDecimalDigit = [] := List.dropWhile_eq_nil_iff.mpr further
  simp only [readDecimal, taken, left, takeFraction, all, none, List.isEmpty_eq_false_iff.mpr ne,
    readExponent]
  rw [if_neg (by simp), Option.map_some, Int.zero_sub]

/-! ## The text of a decimal -/

theorem numeral_of_parts {cs : List Char} (ne : whole ≠ []) (digits : ∀ c ∈ whole, isDecimalDigit c)
    (parts : ∀ c ∈ cs, isNumberPart c) : Lexeme .number (whole ++ cs) := by
  cases whole with
  | nil => exact absurd rfl ne
  | cons c whole =>
    rw [List.forall_mem_cons] at digits
    exact .number digits.1
      (List.forall_mem_append.mpr ⟨fun x hx => numberPart_of_digit (digits.2 x hx), parts⟩)

theorem numeral_of_digits (ne : whole ≠ []) (digits : ∀ c ∈ whole, isDecimalDigit c) :
    Lexeme .number whole := by
  have numeral : Lexeme .number (whole ++ []) := numeral_of_parts ne digits (List.forall_mem_nil _)
  rwa [List.append_nil] at numeral

theorem numeral_of_point (ne : whole ≠ []) (digits : ∀ c ∈ whole, isDecimalDigit c)
    (further : ∀ c ∈ fraction, isDecimalDigit c) : Lexeme .number (whole ++ '.' :: fraction) :=
  numeral_of_parts ne digits
    (List.forall_mem_cons.mpr ⟨rfl, fun c hc => numberPart_of_digit (further c hc)⟩)

/-- A numeral that is read as a decimal of the same value as `d`. -/
structure ReadsAs (cs : List Char) (d : Decimal) : Prop where
  numeral : Lexeme .number cs
  reads : ∃ d', readDecimal cs = some d' ∧ d'.Same d

/-- A whole number has zeros behind its digits. -/
theorem readsAs_whole (digits places : Nat) :
    ReadsAs (Nat.toDigits 10 digits ++ List.replicate places '0') ⟨digits, places⟩ := by
  have all : ∀ c ∈ Nat.toDigits 10 digits ++ List.replicate places '0', isDecimalDigit c :=
    List.forall_mem_append.mpr ⟨digits_toDigits digits, digits_zeros places⟩
  have ne : Nat.toDigits 10 digits ++ List.replicate places '0' ≠ [] :=
    List.append_ne_nil_of_left_ne_nil Nat.toDigits_ne_nil _
  refine ⟨numeral_of_digits ne all, _, readDecimal_whole all ne, ?_⟩
  have same := Decimal.same_shift digits places 0
  rwa [Int.zero_add, ← digitsValue_append_zeros] at same

/-- A fraction has its point inside its digits, in front of which zeros are put if there are too
few. -/
theorem readsAs_fraction {digits places : Nat} {padded : List Char}
    (all : ∀ c ∈ padded, isDecimalDigit c) (value : digitsValue padded = digits)
    (length : places < padded.length) :
    ReadsAs (padded.take (padded.length - places) ++ '.' :: padded.drop (padded.length - places))
      ⟨digits, -places⟩ := by
  have before : ∀ c ∈ padded.take (padded.length - places), isDecimalDigit c := fun c hc =>
    all c (List.mem_of_mem_take hc)
  have behind : ∀ c ∈ padded.drop (padded.length - places), isDecimalDigit c := fun c hc =>
    all c (List.mem_of_mem_drop hc)
  have ne : padded.take (padded.length - places) ≠ [] := by
    apply List.ne_nil_of_length_pos
    rw [List.length_take]
    omega
  refine ⟨numeral_of_point ne before behind, _, readDecimal_point before ne behind, ?_⟩
  rw [List.take_append_drop, value, List.length_drop, Nat.sub_sub_self (Nat.le_of_lt length)]
  exact rfl

/-- A decimal is written in digits, and these are read as a decimal of the same value. -/
theorem readsAs_decimalText (d : Decimal) : ReadsAs (Layout.plain.decimalText d) d := by
  obtain ⟨digits, exponent⟩ := d
  show ReadsAs (Layout.plain.positionalText (Nat.toDigits 10 digits) exponent) ⟨digits, exponent⟩
  rw [Layout.positionalText]
  split
  next nonneg =>
    have whole := readsAs_whole digits exponent.toNat
    rw [Int.toNat_of_nonneg nonneg, ← List.append_nil (_ ++ _)] at whole
    exact whole
  next neg =>
    have fraction := @readsAs_fraction digits (-exponent).toNat
      (List.replicate ((-exponent).toNat + 1 - (Nat.toDigits 10 digits).length) '0'
        ++ Nat.toDigits 10 digits)
      (List.forall_mem_append.mpr ⟨digits_zeros _, digits_toDigits digits⟩)
      (digitsValue_zeros_append digits _)
      (by rw [List.length_append, List.length_replicate]; omega)
    rw [Int.toNat_of_nonneg (by omega), Int.neg_neg] at fraction
    exact fraction

/-! ## Reading a number -/

theorem takeSign_of_digit {c : Char} (digit : isDecimalDigit c) (cs : List Char) :
    takeSign (c :: cs) = (false, c :: cs) := by
  unfold takeSign
  split
  next e =>
    cases e
    exact absurd digit (by decide)
  next e =>
    cases e
    exact absurd digit (by decide)
  next => rfl

theorem toLower_of_digit {c : Char} (digit : isDecimalDigit c) : c.toLower = c := by
  simp only [isDecimalDigit, Bool.and_eq_true, decide_eq_true_eq] at digit
  have high : c.toNat ≤ 57 := digit.2
  unfold Char.toLower
  rw [dif_neg]
  rintro ⟨low, -⟩
  have low : 65 ≤ c.toNat := low
  omega

theorem readWord_of_digit {c : Char} (digit : isDecimalDigit c) (cs : List Char) :
    readWord (c :: cs) = none := by
  have first : ∀ word : String, String.ofList ((c :: cs).map Char.toLower) = word →
      word.toList.head? = some c := by
    rintro word rfl
    rw [String.toList_ofList, List.map_cons, toLower_of_digit digit]
    rfl
  have letter : ∀ {word : String} {x : Char}, word.toList.head? = some x → ¬ isDecimalDigit x →
      String.ofList ((c :: cs).map Char.toLower) ≠ word := by
    intro word x head other e
    obtain rfl : x = c := Option.some.inj (head.symm.trans (first word e))
    exact other digit
  unfold readWord
  split
  next e => exact absurd e (@letter "inf" 'i' rfl (by decide))
  next e => exact absurd e (@letter "infinity" 'i' rfl (by decide))
  next e => exact absurd e (@letter "nan" 'n' rfl (by decide))
  next => rfl

theorem Lexeme.readFloat_eq {cs : List Char} (h : Lexeme .number cs) :
    readFloat cs = ((readDecimal cs).map fun d => floatOfBits false d.roundedBits).elim
      (.error .malformed) .ok := by
  obtain ⟨c, more, rfl, digit, -⟩ := h.number_inv
  simp only [readFloat, List.isEmpty_cons, takeSign_of_digit digit, readMagnitude,
    readWord_of_digit digit,
    Option.none_or]
  cases readDecimal (c :: more) <;> rfl

/-! ## Writing a number and reading it -/

theorem floatChars_floatOfBits {bits : Nat} (lt : bits < infinityBits) :
    floatChars (floatOfBits false bits) = Layout.plain.decimalText (shortest .up bits) := by
  rw [floatChars, magnitude_floatOfBits false lt, isNegative_floatOfBits false (Nat.le_of_lt lt)]
  rfl

theorem lexeme_floatChars {bits : Nat} (lt : bits < infinityBits) :
    Lexeme .number (floatChars (floatOfBits false bits)) := by
  rw [floatChars_floatOfBits lt]
  exact (readsAs_decimalText _).numeral

theorem readFloat_floatChars {bits : Nat} (lt : bits < infinityBits) :
    readFloat (floatChars (floatOfBits false bits)) = .ok (floatOfBits false bits) := by
  rw [(lexeme_floatChars lt).readFloat_eq, floatChars_floatOfBits lt]
  obtain ⟨d, reads, same⟩ := (readsAs_decimalText (shortest .up bits)).reads
  rw [reads, Option.map_some, same.roundedBits_eq, roundedBits_shortest .up (Nat.le_of_lt lt)]
  rfl

end Arith
