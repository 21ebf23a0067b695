/-
# What is written of a value spells the value

A finite double is written as the shortest decimal that is nearest to it,
with or without an exponent; the characters of a string as they are or by an
escape; and a value with parts with a break in front of each.  What is
written of any of these spells it by the rules of the grammar.

What is written of a value is always written in front of something else, and
a numeral would go on if a digit came next.  So the statement about values
carries the assumption that no numeral goes on behind them (`Stops`), which
is true of breaks, commas and closing signs, hence of all that a value is
ever written in front of.

**Proved here.**

    a decimal is written as a numeral of the same value     (`numbers_decimalText`)
    what is written of a finite double stands for it        (`numeral_finiteText`)
    what is written of a string spells it                   (`spellsChars_escaped`)
    what is written of a value spells it, at any depth      (`spells_write`)
    the text of a value denotes it, and nothing else        (`denotes_text_iff`)
-/
import Arith.Proofs.Json.Grammar
import Arith.Proofs.Number.Reading

namespace Arith.Json

/-! ## Numerals -/

/-- No number but zero starts with a zero. -/
theorem toDigits_head {n : Nat} (ne : n ≠ 0) : ∃ c cs, Nat.toDigits 10 n = c :: cs ∧ c ≠ '0' := by
  induction n using Nat.strongRecOn with
  | ind n ih =>
    by_cases small : n < 10
    · refine ⟨n.digitChar, [], Nat.toDigits_of_lt_base small, fun e => ne ?_⟩
      exact Nat.digitChar_eq_zero.mp e
    · obtain ⟨c, cs, e, first⟩ := ih (n / 10) (by omega) (by omega)
      refine ⟨c, cs ++ [(n % 10).digitChar], ?_, first⟩
      rw [Nat.toDigits_of_base_le (by decide) (by omega), e]
      rfl

theorem whole_toDigits_append {n : Nat} {cs : List Char} (ne : n ≠ 0)
    (digits : ∀ c ∈ cs, isDecimalDigit c) : Whole (Nat.toDigits 10 n ++ cs) := by
  obtain ⟨c, more, e, first⟩ := toDigits_head ne
  have all := digits_toDigits n
  rw [e, List.forall_mem_cons] at all
  rw [e]
  exact .digits first all.1 (List.forall_mem_append.mpr ⟨all.2, digits⟩)

/-- The first digits of a number other than zero do not start with a zero. -/
theorem whole_take {n k : Nat} (ne : n ≠ 0) (pos : 0 < k) : Whole ((Nat.toDigits 10 n).take k) := by
  obtain ⟨c, more, e, first⟩ := toDigits_head ne
  obtain ⟨k, rfl⟩ := Nat.exists_eq_succ_of_ne_zero (Nat.ne_of_gt pos)
  have all := digits_toDigits n
  rw [e, List.forall_mem_cons] at all
  rw [e]
  exact .digits first all.1 fun x hx => all.2 x (List.mem_of_mem_take hx)

/-- Every single digit may stand in front of the point. -/
theorem whole_singleton {c : Char} (digit : isDecimalDigit c) : Whole [c] := by
  by_cases zero : c = '0'
  · rw [zero]
    exact .zero
  · exact .digits zero digit (List.forall_mem_nil _)

/-- A numeral of the same value as `d`. -/
def Numbers (cs : List Char) (d : Decimal) : Prop := ∃ d', Unsigned cs d' ∧ d'.Same d

theorem numbers_whole {digits : Nat} (places : Nat) (front : digits ≠ 0 ∨ places = 0) :
    Numbers (Nat.toDigits 10 digits ++ List.replicate places '0' ++ ['.', '0'])
      ⟨digits, places⟩ := by
  have whole : Whole (Nat.toDigits 10 digits ++ List.replicate places '0') := by
    by_cases zero : digits = 0
    · obtain rfl := front.resolve_left (not_not_intro zero)
      rw [zero]
      exact .zero
    · exact whole_toDigits_append zero (digits_zeros places)
  refine ⟨_, .parts whole (.point (List.cons_ne_nil _ _) (digits_zeros 1)) .none, ?_⟩
  have same := Decimal.same_shift digits (places + 1) (-1)
  rw [← digitsValue_append_zeros, List.replicate_succ', ← List.append_assoc] at same
  have exponent : (-1 : Int) + (places + 1 : Nat) = places := by omega
  rwa [exponent] at same

/-- A fraction has a zero in front of its point if there are too few digits. -/
theorem numbers_fraction {digits places : Nat} (ne : digits ≠ 0) (pos : 0 < places) :
    Numbers (Layout.json.positionalText (Nat.toDigits 10 digits) (-places)) ⟨digits, -places⟩ := by
  generalize padded_eq : List.replicate (places + 1 - (Nat.toDigits 10 digits).length) '0' ++
    Nat.toDigits 10 digits = padded
  have length : places < padded.length := by
    rw [← padded_eq, List.length_append, List.length_replicate]
    omega
  have all : ∀ c ∈ padded, isDecimalDigit c := by
    rw [← padded_eq]
    exact List.forall_mem_append.mpr ⟨digits_zeros _, digits_toDigits digits⟩
  have value : digitsValue padded = digits := by
    rw [← padded_eq]
    exact digitsValue_zeros_append digits _
  have whole : Whole (padded.take (padded.length - places)) := by
    by_cases long : places < (Nat.toDigits 10 digits).length
    · have none : places + 1 - (Nat.toDigits 10 digits).length = 0 := by omega
      obtain rfl : Nat.toDigits 10 digits = padded := by rw [← padded_eq, none]; rfl
      exact whole_take ne (by omega)
    · obtain ⟨zeros, some⟩ : ∃ zeros, places + 1 - (Nat.toDigits 10 digits).length = zeros + 1 :=
        Nat.exists_eq_succ_of_ne_zero (by omega)
      have one : padded.length - places = 1 := by
        rw [← padded_eq, List.length_append, List.length_replicate]
        omega
      rw [one, ← padded_eq, some]
      exact .zero
  have text : Layout.json.positionalText (Nat.toDigits 10 digits) (-places) =
      padded.take (padded.length - places) ++
        ('.' :: padded.drop (padded.length - places) ++ []) := by
    rw [Layout.positionalText, if_neg (by omega), Int.neg_neg, Int.toNat_natCast, List.append_nil]
    simp only [padded_eq]
  rw [text]
  refine ⟨_, .parts whole (.point ?_ fun c hc => all c (List.mem_of_mem_drop hc)) .none, ?_⟩
  · apply List.ne_nil_of_length_pos
    rw [List.length_drop]
    omega
  · rw [List.take_append_drop, value, List.length_drop, Nat.sub_sub_self (Nat.le_of_lt length),
      Int.zero_sub]
    exact rfl

theorem digitsValue_toDigits (n : Nat) : digitsValue (Nat.toDigits 10 n) = n :=
  digitsValue_zeros_append n 0

theorem exponent_written (e : Int) :
    Exponent ('e' :: (if e < 0 then '-' else '+') :: Nat.toDigits 10 e.natAbs) e := by
  have value := digitsValue_toDigits e.natAbs
  generalize sign : (if e < 0 then '-' else '+') = c
  have digits : (takeSign (c :: Nat.toDigits 10 e.natAbs)).2 = Nat.toDigits 10 e.natAbs := by
    rw [← sign]
    split <;> rfl
  have signed : signedValue (c :: Nat.toDigits 10 e.natAbs) = e := by
    rw [← sign]
    split
    · show -(digitsValue (Nat.toDigits 10 e.natAbs) : Int) = e
      omega
    · show (digitsValue (Nat.toDigits 10 e.natAbs) : Int) = e
      omega
  have spelled := @Exponent.letter 'e' (c :: Nat.toDigits 10 e.natAbs) (.inl rfl)
  rw [digits, signed] at spelled
  exact spelled Nat.toDigits_ne_nil (digits_toDigits e.natAbs)

/-- With an exponent there is one digit in front of the point. -/
theorem unsigned_scientific (d : Decimal) :
    Unsigned (Layout.scientificText (Nat.toDigits 10 d.digits)
      (d.exponent + (Nat.toDigits 10 d.digits).length - 1)) d := by
  obtain ⟨digits, exponent⟩ := d
  have all := digits_toDigits digits
  simp only
  cases e : Nat.toDigits 10 digits with
  | nil => exact absurd e Nat.toDigits_ne_nil
  | cons c more =>
    rw [e, List.forall_mem_cons] at all
    have value : digitsValue ([c] ++ more) = digits := by
      rw [List.singleton_append, ← e]
      exact digitsValue_toDigits digits
    have fraction : Fraction (if more.isEmpty then [] else '.' :: more) more := by
      cases more with
      | nil => exact .none
      | cons d more => exact .point (List.cons_ne_nil d more) all.2
    have whole := Unsigned.parts (whole_singleton all.1) fraction
      (exponent_written (exponent + (c :: more).length - 1))
    have scale : exponent + ((c :: more).length : Int) - 1 - more.length = exponent := by
      rw [List.length_cons]
      omega
    rw [scale, value] at whole
    rw [Layout.scientificText, List.append_assoc]
    exact whole

/-- A power of ten is given to no zero. -/
theorem shortest_eq (tie : Tie) {bits : Nat} (lt : bits < infinityBits) :
    (shortest tie bits).digits ≠ 0 ∨ shortest tie bits = ⟨0, 0⟩ := by
  by_cases zero : bits = 0
  · right
    rw [zero]
    rfl
  · left
    intro none
    have reads := roundedBits_shortest tie (Nat.le_of_lt lt)
    rw [Decimal.roundedBits, none] at reads
    exact zero reads.symm

/-- The shortest decimal of a finite double is written as a numeral of the same value. -/
theorem numbers_decimalText {d : Decimal} (front : d.digits ≠ 0 ∨ d = ⟨0, 0⟩) :
    Numbers (Layout.json.decimalText d) d := by
  obtain ⟨digits, exponent⟩ := d
  rw [Layout.decimalText]
  simp only
  split
  next =>
    by_cases nonneg : 0 ≤ exponent
    · obtain ⟨places, rfl⟩ := Int.eq_ofNat_of_zero_le nonneg
      rw [Layout.positionalText, if_pos nonneg, Int.toNat_natCast]
      exact numbers_whole places (front.imp_right fun e => by
        injection e with _ exponent
        omega)
    · obtain ⟨places, e⟩ := Int.eq_ofNat_of_zero_le (show 0 ≤ -exponent by omega)
      obtain rfl : exponent = -places := by omega
      refine numbers_fraction (front.resolve_right fun e => ?_) (by omega)
      injection e with _ exponent
      omega
  next => exact ⟨_, unsigned_scientific ⟨digits, exponent⟩, rfl⟩

theorem numeral_finiteText {negative : Bool} {bits : Nat} (lt : bits < infinityBits) :
    ∃ d, Numeral (Layout.json.finiteText negative bits) negative d ∧ d.roundedBits = bits := by
  obtain ⟨d, unsigned, same⟩ := numbers_decimalText (shortest_eq .even lt)
  refine ⟨d, ?_, same.roundedBits_eq.trans (roundedBits_shortest .even (Nat.le_of_lt lt))⟩
  cases negative with
  | false => exact .plain unsigned
  | true => exact .minus unsigned

/-! ## Strings -/

theorem hexValue?_hexDigit (n : Nat) : Pattern.hexValue? (hexDigit n) = some (n % 16) := by
  have digits : ∀ m : Fin 16,
      Pattern.hexValue? ((Nat.toDigits 16 m).headD '0') = some m.val := by decide
  exact digits ⟨n % 16, Nat.mod_lt n (by decide)⟩

theorem codeUnit?_control {n : Nat} (control : n < 0x20) (rest : List Char) :
    codeUnit? ('\\' :: 'u' :: '0' :: '0' :: hexDigit (n / 16) :: hexDigit n :: rest) =
      some (n, rest) := by
  have value : 16 * (16 * (16 * 0 + 0) + n / 16 % 16) + n % 16 = n := by omega
  have zero : Pattern.hexValue? '0' = some 0 := by decide
  simp only [codeUnit?, zero, hexValue?_hexDigit, Option.bind_eq_bind, Option.bind_some]
  rw [value]
  rfl

theorem spellsChar_escapeChar (c : Char) (rest : List Char) :
    SpellsChar c (escapeChar c ++ rest) rest := by
  unfold escapeChar
  split
  case h_8 quote backslash _ _ _ _ _ =>
    split
    next control =>
      have spelled := SpellsChar.unit (codeUnit?_control control rest) c.valid
      rwa [Char.ofNat_toNat] at spelled
    next printable => exact .plain (Nat.le_of_not_lt printable) quote backslash
  all_goals exact .short rfl

theorem spellsChars_escaped (text rest : List Char) :
    SpellsChars text (text.flatMap escapeChar ++ '"' :: rest) rest := by
  induction text with
  | nil => exact .close
  | cons c text ih =>
    rw [List.flatMap_cons, List.append_assoc]
    exact .char (spellsChar_escapeChar c _) ih

/-! ## Breaks -/

/-- Blanks in front of a part mean nothing. -/
theorem Spells.of_skip {part : Part} {y : part.Yield} {cs cs' rest : List Char}
    (h : Spells part y cs rest) (same : skip cs' = skip cs) : Spells part y cs' rest := by
  induction h generalizing cs' with
  | scalar scalar => exact .scalar (same ▸ scalar)
  | list opens items => exact .list (same.trans opens) items
  | object opens members => exact .object (same.trans opens) members
  | member quote key colon value => exact .member (same.trans quote) key colon value
  | none closes => exact .none (same.trans closes)
  | some _ further ih => exact .some (ih same) further
  | last closes => exact .last (same.trans closes)
  | next comma next further => exact .next (same.trans comma) next further

theorem skip_writeBreak (depth : Nat) (rest : List Char) :
    skip (writeBreak depth rest) = skip rest := by
  have gaps : ∀ c ∈ List.replicate (2 * depth) ' ', isGap c := by
    intro c hc
    rw [List.eq_of_mem_replicate hc]
    rfl
  rw [writeBreak, skip, List.cons_append, List.dropWhile_cons_of_pos rfl,
    List.dropWhile_append_of_pos gaps, skip]

theorem skip_cons {c : Char} (solid : ¬ isGap c) (cs : List Char) : skip (c :: cs) = c :: cs :=
  List.dropWhile_cons_of_neg solid

theorem stops_nil : Stops [] := by
  intro c hc
  cases hc

theorem stops_writeBreak (depth : Nat) (rest : List Char) : Stops (writeBreak depth rest) := by
  intro c hc
  obtain rfl : '\n' = c := Option.some.inj hc
  decide

theorem stops_comma (rest : List Char) : Stops (',' :: rest) := by
  intro c hc
  obtain rfl : ',' = c := Option.some.inj hc
  decide

theorem stops_writeItems (depth : Nat) (items : List Json) {rest : List Char} (h : Stops rest) :
    Stops (writeItems depth items rest) := by
  cases items with
  | nil => exact h
  | cons => exact stops_comma _

theorem stops_writeMembers (depth : Nat) (members : List (String × Json)) {rest : List Char}
    (h : Stops rest) : Stops (writeMembers depth members rest) := by
  cases members with
  | nil => exact h
  | cons => exact stops_comma _

/-! ## Values -/

/-- All numbers of a value are finite. -/
inductive Finite : Json → Prop where
  | null : Finite .null
  | number {negative : Bool} {bits : Nat} (lt : bits < infinityBits) :
      Finite (.number negative bits)
  | string (text : String) : Finite (.string text)
  | list {items : List Json} (all : ∀ j ∈ items, Finite j) : Finite (.list items)
  | object {members : List (String × Json)} (all : ∀ m ∈ members, Finite m.2) :
      Finite (.object members)

theorem not_gap_of_numeralSign {c : Char} (sign : isNumeralSign c) : ¬ isGap c := by
  intro gap
  simp only [isGap, Bool.or_eq_true, beq_iff_eq, or_assoc] at gap
  obtain rfl | rfl | rfl | rfl := gap <;> exact absurd sign (by decide)

/-- A value without parts has no blank in front of it. -/
theorem spells_scalar {j : Json} {c : Char} {cs rest : List Char}
    (h : SpellsScalar j (c :: cs) rest)
    (solid : ¬ isGap c) : Spells (.one .item) j (c :: cs) rest := by
  refine .scalar ?_
  rwa [skip_cons solid]

theorem spells_number {negative : Bool} {bits : Nat} {rest : List Char} (lt : bits < infinityBits)
    (stops : Stops rest) : Spells (.one .item) (.number negative bits)
      (Layout.json.finiteText negative bits ++ rest) rest := by
  obtain ⟨d, numeral, rfl⟩ := @numeral_finiteText negative _ lt
  obtain ⟨c, more, e, sign⟩ := numeral.head
  have spelled := SpellsScalar.number rfl numeral lt stops
  rw [e] at spelled ⊢
  exact spells_scalar spelled (not_gap_of_numeralSign sign)

theorem spells_string (text : String) (rest : List Char) :
    Spells (.one .item) (.string text) (writeString text rest) rest := by
  have spelled := SpellsScalar.string (spellsChars_escaped text.toList rest)
  rw [String.ofList_toList] at spelled
  exact spells_scalar spelled (by decide)

/-- A member is its key in quotes, a colon, a blank and its value. -/
theorem spells_member (key : String) {j : Json} {cs rest : List Char}
    (h : Spells (.one .item) j cs rest) :
    Spells (.one .member) (key, j) (writeString key (':' :: ' ' :: cs)) rest := by
  have quoted := spellsChars_escaped key.toList (':' :: ' ' :: cs)
  have value : Spells (.one .item) j (' ' :: cs) rest := h.of_skip rfl
  have spelled := Spells.member (skip_cons (by decide) _) quoted rfl value
  rwa [String.ofList_toList] at spelled

mutual

theorem spells_write : ∀ (j : Json) (depth : Nat) {rest : List Char}, j.Finite → Stops rest →
    Spells (.one .item) j (j.write depth rest) rest
  | .null, _, _, _, _ => spells_scalar .null (by decide)
  | .number _ _, _, _, .number lt, stops => spells_number lt stops
  | .string text, _, rest, _, _ => spells_string text rest
  | .list [], _, _, _, _ => .list rfl (.none rfl)
  | .list (item :: items), depth, rest, .list all, _ => by
    rw [List.forall_mem_cons] at all
    have closes : Stops (writeBreak depth (']' :: rest)) := stops_writeBreak _ _
    have first := spells_write item (depth + 1) all.1 (stops_writeItems (depth + 1) items closes)
    have further := spells_writeItems items (depth + 1) depth rest all.2
    exact .list rfl (.some (first.of_skip (skip_writeBreak _ _)) further)
  | .object [], _, _, _, _ => .object rfl (.none rfl)
  | .object ((key, value) :: members), depth, rest, .object all, _ => by
    rw [List.forall_mem_cons] at all
    have closes : Stops (writeBreak depth ('\x7d' :: rest)) := stops_writeBreak _ _
    have first :=
      spells_write value (depth + 1) all.1 (stops_writeMembers (depth + 1) members closes)
    have further := spells_writeMembers members (depth + 1) depth rest all.2
    exact .object rfl
      (.some ((spells_member key first).of_skip (skip_writeBreak _ _)) further)

theorem spells_writeItems : ∀ (items : List Json) (depth outer : Nat) (rest : List Char),
    (∀ j ∈ items, j.Finite) →
    Spells (.further .item) items (writeItems depth items (writeBreak outer (']' :: rest))) rest
  | [], _, outer, rest, _ => .last (skip_writeBreak outer _)
  | item :: items, depth, outer, rest, all => by
    rw [List.forall_mem_cons] at all
    have closes : Stops (writeBreak outer (']' :: rest)) := stops_writeBreak _ _
    have next := spells_write item depth all.1 (stops_writeItems depth items closes)
    have further := spells_writeItems items depth outer rest all.2
    exact .next rfl (next.of_skip (skip_writeBreak _ _)) further

theorem spells_writeMembers :
    ∀ (members : List (String × Json)) (depth outer : Nat) (rest : List Char),
    (∀ m ∈ members, m.2.Finite) →
    Spells (.further .member) members
      (writeMembers depth members (writeBreak outer ('\x7d' :: rest))) rest
  | [], _, outer, rest, _ => .last (skip_writeBreak outer _)
  | (key, value) :: members, depth, outer, rest, all => by
    rw [List.forall_mem_cons] at all
    have closes : Stops (writeBreak outer ('\x7d' :: rest)) := stops_writeBreak _ _
    have next := spells_write value depth all.1 (stops_writeMembers depth members closes)
    have further := spells_writeMembers members depth outer rest all.2
    exact .next rfl
      ((spells_member key next).of_skip (skip_writeBreak _ _)) further

end

theorem denotes_text_iff {j j' : Json} (finite : j.Finite) : Denotes j.text j' ↔ j' = j := by
  have denotes : Denotes j.text j := by
    refine ⟨[], ?_, rfl⟩
    rw [text, String.toList_ofList]
    exact spells_write j 0 finite stops_nil
  constructor
  · intro h
    exact h.unique denotes
  · rintro rfl
    exact denotes

end Arith.Json
