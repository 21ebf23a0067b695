/-
# Which characters may stand where

A text may hold blanks, letters, digits and signs anywhere, and a point
where a number goes on: behind a digit, or behind a point that may stand
there itself.  Whether a character may stand at a place depends on what
stands before it, never on what follows (`Allowed`).

That makes it a property of a text which does not mention lexemes.  A point
is the only difficulty: it may stand where a number goes on, and a number is
as long as it can be, so behind a longest lexeme a point may not stand.

Fullwidth characters are none of the allowed ones, so a text that is refused
for one of them is refused whatever else it holds (`Allowed.not_fullwidth`).

**Proved here.**

    lexemes are made of allowed characters                              (`Lexeme.allAllowed`)
    behind a longest lexeme no point may stand                          (`Longest.boundary`)
    where neither a blank nor a lexeme starts, nothing allowed stands   (`not_allowed_of_lexemeAt`)
-/
import Arith.Proofs.Token.Lexeme

namespace Arith

/-- Behind the characters `before` a character may stand. -/
inductive Allowed : (before : List Char) → Char → Prop where
  | blank {before : List Char} {c : Char} : isBlank c → c ≠ '\u3000' → Allowed before c
  | letter {before : List Char} {c : Char} : isSmallLetter c ∨ isCapitalLetter c → Allowed before c
  | digit {before : List Char} {c : Char} : isDecimalDigit c → Allowed before c
  | sign {before : List Char} {c : Char} :
      c ∈ ['(', ')', '{', '}', ',', '+', '-', '*', '/', '%', '^'] → Allowed before c
  | pointAfterDigit {before : List Char} {d : Char} : isDecimalDigit d → Allowed (before ++ [d]) '.'
  | pointAfterPoint {before : List Char} : Allowed before '.' → Allowed (before ++ ['.']) '.'

/-- Behind the characters `before` all of some characters may stand, one after the other. -/
def AllAllowed (before cs : List Char) : Prop :=
  ∀ as c bs, cs = as ++ c :: bs → Allowed (before ++ as) c

/-- No point stands first that continues a number. -/
def Boundary (before cs : List Char) : Prop := cs.head? = some '.' → ¬ Allowed before '.'

/-! ## Sequences -/

theorem allAllowed_nil (before : List Char) : AllAllowed before [] := by
  intro as c bs e
  exact absurd e.symm (List.append_ne_nil_of_right_ne_nil as (List.cons_ne_nil c bs))

theorem allAllowed_cons {before : List Char} {c : Char} {cs : List Char} :
    AllAllowed before (c :: cs) ↔ Allowed before c ∧ AllAllowed (before ++ [c]) cs := by
  constructor
  · intro h
    refine ⟨List.append_nil before ▸ h [] c cs rfl, fun as d bs e => ?_⟩
    rw [List.append_assoc]
    exact h (c :: as) d bs (by rw [e]; rfl)
  · rintro ⟨first, rest⟩ as d bs e
    cases as with
    | nil =>
      cases e
      rw [List.append_nil]
      exact first
    | cons a as =>
      rw [List.cons_append] at e
      obtain ⟨rfl, tail⟩ := List.cons.inj e
      have := rest as d bs tail
      rwa [List.append_assoc] at this

theorem allAllowed_append {before as bs : List Char} :
    AllAllowed before (as ++ bs) ↔ AllAllowed before as ∧ AllAllowed (before ++ as) bs := by
  induction as generalizing before with
  | nil =>
    rw [List.nil_append, List.append_nil]
    exact ⟨fun h => ⟨allAllowed_nil _, h⟩, fun h => h.2⟩
  | cons a as ih =>
    rw [List.cons_append, allAllowed_cons, allAllowed_cons, ih, List.append_assoc, and_assoc]
    rfl

theorem allAllowed_of_forall {before cs : List Char} (h : ∀ c ∈ cs, ∀ before, Allowed before c) :
    AllAllowed before cs := by
  rintro as c bs rfl
  exact h c (List.mem_append_right _ List.mem_cons_self) _

/-! ## Characters -/

theorem toNat_of_numberPart {c : Char} (h : isNumberPart c) : 46 ≤ c.toNat ∧ c.toNat ≤ 57 := by
  simp only [isNumberPart, isDecimalDigit, Bool.or_eq_true, Bool.and_eq_true, decide_eq_true_eq,
    beq_iff_eq] at h
  rcases h with ⟨low, high⟩ | rfl
  · exact ⟨Nat.le_trans (by decide) low, high⟩
  · decide

theorem not_numberPart_of_blank {c : Char} (h : isBlank c) : ¬ isNumberPart c := by
  intro part
  have := toNat_of_numberPart part
  simp only [isBlank, Bool.or_eq_true, Bool.and_eq_true, decide_eq_true_eq, beq_iff_eq] at h
  omega

theorem not_numberPart_of_letter {c : Char} (h : isSmallLetter c ∨ isCapitalLetter c) :
    ¬ isNumberPart c := by
  intro part
  have small := toNat_of_numberPart part
  simp only [isSmallLetter, isCapitalLetter, Bool.and_eq_true, decide_eq_true_eq] at h
  have low : 65 ≤ c.toNat := by
    rcases h with h | h
    · exact Nat.le_trans (by decide) h.1
    · exact h.1
  omega

/-- A point stands behind a part of a number only. -/
theorem Allowed.exists_numberPart {before : List Char} (h : Allowed before '.') :
    ∃ as x, before = as ++ [x] ∧ isNumberPart x := by
  cases h with
  | blank blank => exact absurd blank (by decide)
  | letter letter => exact absurd letter (by decide)
  | digit digit => exact absurd digit (by decide)
  | sign sign => exact absurd sign (by decide)
  | pointAfterDigit digit => exact ⟨_, _, rfl, by rw [isNumberPart, digit]; rfl⟩
  | pointAfterPoint => exact ⟨_, '.', rfl, rfl⟩

theorem boundary_of_last {before : List Char} {x : Char} (h : ¬ isNumberPart x) (cs : List Char) :
    Boundary (before ++ [x]) cs := by
  intro _ point
  obtain ⟨as, y, e, part⟩ := point.exists_numberPart
  obtain ⟨-, e⟩ := List.append_inj' e rfl
  cases e
  exact h part

theorem boundary_nil (cs : List Char) : Boundary [] cs := by
  intro _ point
  obtain ⟨as, y, e, -⟩ := point.exists_numberPart
  exact absurd e.symm (List.append_ne_nil_of_right_ne_nil as (List.cons_ne_nil y []))

/-! ## Lexemes -/

/-- Behind a digit or a point that may stand where it stands, a number goes on. -/
theorem allAllowed_of_numberParts {before cs : List Char} {d : Char}
    (first : isDecimalDigit d ∨ d = '.' ∧ Allowed before '.') (h : ∀ x ∈ cs, isNumberPart x) :
    AllAllowed (before ++ [d]) cs := by
  induction cs generalizing before d with
  | nil => exact allAllowed_nil _
  | cons x cs ih =>
    rw [List.forall_mem_cons] at h
    have point : Allowed (before ++ [d]) '.' := by
      rcases first with digit | ⟨rfl, before⟩
      · exact .pointAfterDigit digit
      · exact .pointAfterPoint before
    have part := h.1
    rw [isNumberPart, Bool.or_eq_true, beq_iff_eq] at part
    refine allAllowed_cons.mpr ⟨?_, ih ?_ h.2⟩
    · rcases part with digit | rfl
      · exact .digit digit
      · exact point
    · exact part.imp_right fun e => ⟨e, point⟩

theorem Lexeme.allAllowed {kind : TokenKind} {cs : List Char} (h : Lexeme kind cs)
    (before : List Char) : AllAllowed before cs := by
  cases h with
  | sign mem =>
    have : ∀ p ∈ signs, ∀ c ∈ p.1, c ∈ ['(', ')', '{', '}', ',', '+', '-', '*', '/', '%', '^'] := by
      simp [signs]
    exact allAllowed_of_forall fun c hc _ => .sign (this _ mem c hc)
  | number digit all =>
    exact allAllowed_cons.mpr ⟨.digit digit, allAllowed_of_numberParts (.inl digit) all⟩
  | functionName _ all => exact allAllowed_of_forall fun c hc _ => .letter (.inl (all c hc))
  | variableName _ all => exact allAllowed_of_forall fun c hc _ => .letter (.inr (all c hc))

theorem Longest.boundary {kind : TokenKind} {cs after : List Char} (h : Longest kind cs after)
    (before : List Char) : Boundary (before ++ cs) after := by
  have ne := h.lexeme.ne_nil
  rw [← List.dropLast_concat_getLast ne, ← List.append_assoc]
  have last := List.getLast_mem ne
  have lexeme := h.lexeme
  cases lexeme with
  | sign mem =>
    have : ∀ p ∈ signs, ∀ c ∈ p.1, ¬ isNumberPart c := by
      simp [signs, isNumberPart, isDecimalDigit]
    exact boundary_of_last (this _ mem _ last) _
  | functionName _ all => exact boundary_of_last (not_numberPart_of_letter (.inl (all _ last))) _
  | variableName _ all => exact boundary_of_last (not_numberPart_of_letter (.inr (all _ last))) _
  | @number c more digit all =>
    -- a point behind a number would belong to it
    intro head _
    obtain ⟨rest, rfl⟩ := List.head?_eq_some_iff.mp head
    have longer : Lexeme .number (c :: (more ++ ['.'])) := by
      refine .number digit fun x hx => ?_
      rcases List.mem_append.mp hx with hx | hx
      · exact all x hx
      · rw [List.mem_singleton.mp hx]
        rfl
    have same : c :: more ++ '.' :: rest = c :: (more ++ ['.']) ++ rest := by simp
    have := h.length_le same longer
    simp only [List.length_cons, List.length_append, List.length_nil] at this
    omega

/-- Where neither a blank nor a lexeme starts, nothing allowed stands. -/
theorem not_allowed_of_lexemeAt {before rest : List Char} {c : Char} (blank : ¬ isBlank c)
    (none : lexemeAt c rest = none) (boundary : Boundary before (c :: rest)) :
    ¬ Allowed before c := by
  rw [lexemeAt_eq_none_iff] at none
  have alone : ∀ kind, ¬ Lexeme kind [c] := fun kind => none kind [c] rest rfl
  intro allowed
  cases allowed with
  | blank h => exact blank h
  | letter h =>
    rcases h with h | h
    · exact alone _ (.functionName (List.cons_ne_nil _ _) (by simpa using h))
    · exact alone _ (.variableName (List.cons_ne_nil _ _) (by simpa using h))
  | digit h => exact alone _ (.number h (List.forall_mem_nil _))
  | sign h =>
    have : ∀ c ∈ ['(', ')', '{', '}', ',', '+', '-', '*', '/', '%', '^'],
        ∃ p ∈ signs, p.1 = [c] := by simp [signs]
    obtain ⟨⟨cs, kind⟩, mem, rfl⟩ := this c h
    exact alone kind (.sign mem)
  | pointAfterDigit h => exact boundary rfl (.pointAfterDigit h)
  | pointAfterPoint h => exact boundary rfl (.pointAfterPoint h)

/-! ## Fullwidth characters -/

theorem toNat_of_letter {c : Char} (h : isSmallLetter c ∨ isCapitalLetter c) : c.toNat ≤ 122 := by
  simp only [isSmallLetter, isCapitalLetter, Bool.and_eq_true, decide_eq_true_eq] at h
  rcases h with h | h
  · exact h.2
  · exact Nat.le_trans h.2 (by decide)

/-- A fullwidth form of a sign, a letter or a digit of ASCII, or the ideographic space. -/
def Fullwidth (c : Char) : Prop := (0xff01 ≤ c.toNat ∧ c.toNat ≤ 0xff5e) ∨ c.toNat = 0x3000

instance (c : Char) : Decidable (Fullwidth c) := inferInstanceAs (Decidable (_ ∨ _))

theorem isFullwidth_iff (c : Char) : isFullwidth c ↔ Fullwidth c := by
  simp only [isFullwidth, Fullwidth, Bool.or_eq_true, Bool.and_eq_true, decide_eq_true_eq,
    beq_iff_eq]

/-- No fullwidth character may stand anywhere. -/
theorem Allowed.not_fullwidth {before : List Char} {c : Char} (h : Allowed before c) :
    ¬ Fullwidth c := by
  have ascii : c.toNat ≤ 127 → ¬ Fullwidth c := by
    intro low wide
    unfold Fullwidth at wide
    omega
  cases h with
  | blank blank ne =>
    intro wide
    have ne : c.toNat ≠ 0x3000 := fun e => ne (Char.ext (UInt32.toNat.inj e))
    simp only [isBlank, Bool.or_eq_true, Bool.and_eq_true, decide_eq_true_eq, beq_iff_eq] at blank
    unfold Fullwidth at wide
    omega
  | letter letter => exact ascii (Nat.le_trans (toNat_of_letter letter) (by decide))
  | digit digit =>
    have part : isNumberPart c := by rw [isNumberPart, digit]; rfl
    exact ascii (Nat.le_trans (toNat_of_numberPart part).2 (by decide))
  | sign sign =>
    have : ∀ c ∈ ['(', ')', '{', '}', ',', '+', '-', '*', '/', '%', '^'], c.toNat ≤ 127 := by
      simp
    exact ascii (this c sign)
  | pointAfterDigit | pointAfterPoint => exact ascii (by decide)

theorem AllAllowed.narrow {before cs : List Char} (h : AllAllowed before cs) :
    ∀ c ∈ cs, ¬ Fullwidth c := by
  intro c hc
  obtain ⟨as, bs, e⟩ := List.append_of_mem hc
  exact (h as c bs e).not_fullwidth

/-- A blank that is no fullwidth character may stand anywhere. -/
theorem allowed_of_blank {before : List Char} {c : Char} (blank : isBlank c)
    (narrow : ¬ Fullwidth c) :
    Allowed before c := by
  refine .blank blank ?_
  rintro rfl
  exact narrow (.inr rfl)

end Arith
