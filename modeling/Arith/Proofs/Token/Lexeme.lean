/-
# Lexemes

What a token may be written as is said by patterns, here as a relation
between a kind and some characters (`Lexeme`): a sign from a table, digits
and points that start with a digit, or letters of one case.  The relation
says nothing about what comes behind, and one text may begin with several
lexemes.

A scan takes the longest lexeme at its place (`longest_of_lexemeAt`), and
stops where there is none (`lexemeAt_eq_none_iff`).  Of the kinds only the
two spellings of exponentiation can start alike and end differently, so the
first character tells the kind (`Lexeme.exists_lexemeAt`) and the longest
run of characters that may go on tells the end.
-/
import Mathlib.Data.List.TakeWhile
import Arith.Token.Scan

namespace Arith

/-- The lexemes that are always written the same. -/
def signs : List (List Char × TokenKind) :=
  [(['('], .leftParen), ([')'], .rightParen), (['{'], .leftBrace), (['}'], .rightBrace),
    ([','], .comma), (['+'], .add), (['-'], .sub), (['*'], .mul), (['/'], .quo), (['%'], .rem),
    (['^'], .pow), (['*', '*'], .pow)]

/-- What a token of some kind may be written as. -/
inductive Lexeme : TokenKind → List Char → Prop where
  | sign {kind : TokenKind} {cs : List Char} : (cs, kind) ∈ signs → Lexeme kind cs
  | number {c : Char} {cs : List Char} : isDecimalDigit c → (∀ x ∈ cs, isNumberPart x) →
      Lexeme .number (c :: cs)
  | functionName {cs : List Char} : cs ≠ [] → (∀ x ∈ cs, isSmallLetter x) → Lexeme .functionName cs
  | variableName {cs : List Char} :
      cs ≠ [] → (∀ x ∈ cs, isCapitalLetter x) → Lexeme .variableName cs

/-- A lexeme that stands in front of `after`, where no longer one starts at the same place. -/
structure Longest (kind : TokenKind) (cs after : List Char) : Prop where
  lexeme : Lexeme kind cs
  length_le : ∀ {kind' : TokenKind} {longer rest : List Char},
    cs ++ after = longer ++ rest → Lexeme kind' longer → longer.length ≤ cs.length

/-! ## Kinds -/

theorem Lexeme.ne_nil {kind : TokenKind} {cs : List Char} (h : Lexeme kind cs) : cs ≠ [] := by
  cases h with
  | sign mem =>
    rintro rfl
    revert mem
    cases kind <;> decide
  | number => exact List.cons_ne_nil _ _
  | functionName ne | variableName ne => exact ne

theorem Lexeme.kind_ne {kind : TokenKind} {cs : List Char} (h : Lexeme kind cs) :
    kind ≠ .eof ∧ kind ≠ .illegal := by
  cases h with
  | sign mem =>
    have : ∀ p ∈ signs, p.2 ≠ .eof ∧ p.2 ≠ .illegal := by decide
    exact this _ mem
  | number | functionName | variableName => decide

theorem Lexeme.number_inv {cs : List Char} (h : Lexeme .number cs) :
    ∃ c more, cs = c :: more ∧ isDecimalDigit c ∧ ∀ x ∈ more, isNumberPart x := by
  cases h with
  | sign mem =>
    have : ∀ p ∈ signs, p.2 ≠ .number := by decide
    exact absurd rfl (this _ mem)
  | number digit parts => exact ⟨_, _, rfl, digit, parts⟩

theorem Lexeme.functionName_inv {cs : List Char} (h : Lexeme .functionName cs) :
    ∃ c more, cs = c :: more ∧ ∀ x ∈ c :: more, isSmallLetter x := by
  cases h with
  | sign mem =>
    have : ∀ p ∈ signs, p.2 ≠ .functionName := by decide
    exact absurd rfl (this _ mem)
  | functionName ne letters =>
    obtain ⟨c, more, rfl⟩ := List.exists_cons_of_ne_nil ne
    exact ⟨c, more, rfl, letters⟩

theorem Lexeme.variableName_inv {cs : List Char} (h : Lexeme .variableName cs) :
    ∃ c more, cs = c :: more ∧ ∀ x ∈ c :: more, isCapitalLetter x := by
  cases h with
  | sign mem =>
    have : ∀ p ∈ signs, p.2 ≠ .variableName := by decide
    exact absurd rfl (this _ mem)
  | variableName ne letters =>
    obtain ⟨c, more, rfl⟩ := List.exists_cons_of_ne_nil ne
    exact ⟨c, more, rfl, letters⟩

/-! ## Where a lexeme starts -/

theorem lexemeAt_of_digit {c : Char} (h : isDecimalDigit c) (rest : List Char) :
    lexemeAt c rest = some (.number, rest.takeWhile isNumberPart) := by
  unfold lexemeAt
  split
  case h_12 => rw [if_pos h]
  all_goals exact absurd h (by decide)

theorem not_digit_of_small {c : Char} (h : isSmallLetter c) : ¬ isDecimalDigit c := by
  simp only [isSmallLetter, isDecimalDigit, Bool.and_eq_true, decide_eq_true_eq] at h ⊢
  intro d
  exact absurd (Char.le_trans h.1 d.2) (by decide)

theorem not_digit_of_capital {c : Char} (h : isCapitalLetter c) : ¬ isDecimalDigit c := by
  simp only [isCapitalLetter, isDecimalDigit, Bool.and_eq_true, decide_eq_true_eq] at h ⊢
  intro d
  exact absurd (Char.le_trans h.1 d.2) (by decide)

theorem not_small_of_capital {c : Char} (h : isCapitalLetter c) : ¬ isSmallLetter c := by
  simp only [isCapitalLetter, isSmallLetter, Bool.and_eq_true, decide_eq_true_eq] at h ⊢
  intro d
  exact absurd (Char.le_trans d.1 h.2) (by decide)

theorem lexemeAt_of_small {c : Char} (h : isSmallLetter c) (rest : List Char) :
    lexemeAt c rest = some (.functionName, rest.takeWhile isSmallLetter) := by
  unfold lexemeAt
  split
  case h_12 => rw [if_neg (not_digit_of_small h), if_pos h]
  all_goals exact absurd h (by decide)

theorem lexemeAt_of_capital {c : Char} (h : isCapitalLetter c) (rest : List Char) :
    lexemeAt c rest = some (.variableName, rest.takeWhile isCapitalLetter) := by
  unfold lexemeAt
  split
  case h_12 => rw [if_neg (not_digit_of_capital h), if_neg (not_small_of_capital h), if_pos h]
  all_goals exact absurd h (by decide)

/-- Nothing longer than what `takeWhile` takes satisfies a predicate throughout. -/
theorem length_le_takeWhile {α : Type} {p : α → Bool} {as bs : List α} (h : ∀ a ∈ as, p a) :
    as.length ≤ ((as ++ bs).takeWhile p).length := by
  rw [List.takeWhile_append_of_pos h, List.length_append]
  exact Nat.le_add_right _ _

theorem takeWhile_append_of_stops {p : Char → Bool} {more rest : List Char} (all : ∀ c ∈ more, p c)
    (stops : ∀ c ∈ rest.head?, ¬ p c) : (more ++ rest).takeWhile p = more := by
  rw [List.takeWhile_append_of_pos all]
  cases rest with
  | nil => rw [List.takeWhile_nil, List.append_nil]
  | cons c rest => rw [List.takeWhile_cons_of_neg (stops c rfl), List.append_nil]

theorem exists_lexemeAt_star (rest : List Char) :
    ∃ kind taken, lexemeAt '*' rest = some (kind, taken) ∧ 0 ≤ taken.length := by
  by_cases star : rest.head? == some '*'
  · exact ⟨.pow, ['*'], if_pos star, Nat.zero_le _⟩
  · exact ⟨.mul, [], if_neg star, Nat.zero_le _⟩

/-- A scan finds a lexeme wherever one starts, and none that is shorter. -/
theorem Lexeme.exists_lexemeAt {kind : TokenKind} {c : Char} {more : List Char}
    (h : Lexeme kind (c :: more)) (after : List Char) :
    ∃ kind' taken, lexemeAt c (more ++ after) = some (kind', taken) ∧
      more.length ≤ taken.length := by
  cases h with
  | sign mem =>
    simp only [signs, List.mem_cons, Prod.mk.injEq, List.cons.injEq, List.not_mem_nil,
      or_false] at mem
    rcases mem with ⟨⟨rfl, rfl⟩, -⟩ | ⟨⟨rfl, rfl⟩, -⟩ | ⟨⟨rfl, rfl⟩, -⟩ | ⟨⟨rfl, rfl⟩, -⟩ |
      ⟨⟨rfl, rfl⟩, -⟩ | ⟨⟨rfl, rfl⟩, -⟩ | ⟨⟨rfl, rfl⟩, -⟩ | ⟨⟨rfl, rfl⟩, -⟩ | ⟨⟨rfl, rfl⟩, -⟩ |
      ⟨⟨rfl, rfl⟩, -⟩ | ⟨⟨rfl, rfl⟩, -⟩ | ⟨⟨rfl, rfl⟩, -⟩
    all_goals first
      | exact exists_lexemeAt_star after
      | exact ⟨_, _, rfl, Nat.le_refl _⟩
  | number digit all =>
    exact ⟨_, _, lexemeAt_of_digit digit _, length_le_takeWhile all⟩
  | functionName _ all =>
    rw [List.forall_mem_cons] at all
    exact ⟨_, _, lexemeAt_of_small all.1 _, length_le_takeWhile all.2⟩
  | variableName _ all =>
    rw [List.forall_mem_cons] at all
    exact ⟨_, _, lexemeAt_of_capital all.1 _, length_le_takeWhile all.2⟩

theorem lexeme_of_lexemeAt {kind : TokenKind} {c : Char} {rest taken : List Char}
    (h : lexemeAt c rest = some (kind, taken)) : Lexeme kind (c :: taken) ∧ taken <+: rest := by
  unfold lexemeAt at h
  split at h
  case h_11 =>
    split at h <;> cases h
    next star =>
      cases rest with
      | nil => cases star
      | cons d rest =>
        obtain rfl : d = '*' := by simpa using star
        exact ⟨.sign (by decide), rest, rfl⟩
    · exact ⟨.sign (by decide), List.nil_prefix⟩
  case h_12 =>
    split at h
    next digit =>
      cases h
      exact ⟨.number digit fun _ => List.mem_takeWhile_imp, List.takeWhile_prefix _⟩
    · split at h
      next small =>
        cases h
        exact ⟨.functionName (List.cons_ne_nil _ _)
            (List.forall_mem_cons.mpr ⟨small, fun _ => List.mem_takeWhile_imp⟩),
          List.takeWhile_prefix _⟩
      · split at h
        next capital =>
          cases h
          exact ⟨.variableName (List.cons_ne_nil _ _)
            (List.forall_mem_cons.mpr ⟨capital, fun _ => List.mem_takeWhile_imp⟩),
            List.takeWhile_prefix _⟩
        · cases h
  all_goals
    cases h
    exact ⟨.sign (by decide), List.nil_prefix⟩

theorem longest_of_lexemeAt {kind : TokenKind} {c : Char} {rest taken : List Char}
    (h : lexemeAt c rest = some (kind, taken)) :
    ∃ after, rest = taken ++ after ∧ Longest kind (c :: taken) after := by
  obtain ⟨lexeme, after, rfl⟩ := lexeme_of_lexemeAt h
  refine ⟨after, rfl, lexeme, ?_⟩
  intro kind' longer rest e other
  cases longer with
  | nil => exact Nat.zero_le _
  | cons d longer =>
    rw [List.cons_append, List.cons_append, List.cons.injEq] at e
    obtain ⟨rfl, e⟩ := e
    obtain ⟨kind'', taken', h', le⟩ := other.exists_lexemeAt rest
    rw [← e, h] at h'
    cases h'
    exact Nat.succ_le_succ le

theorem lexemeAt_eq_none_iff {c : Char} {rest : List Char} :
    lexemeAt c rest = none ↔ ∀ kind cs after, c :: rest = cs ++ after → ¬ Lexeme kind cs := by
  constructor
  · intro none kind cs after e lexeme
    cases cs with
    | nil => exact lexeme.ne_nil rfl
    | cons d more =>
      obtain ⟨rfl, rfl⟩ := List.cons.inj e
      obtain ⟨kind', taken, e, -⟩ := lexeme.exists_lexemeAt after
      cases none.symm.trans e
  · intro none
    cases e : lexemeAt c rest with
    | none => rfl
    | some found =>
      obtain ⟨lexeme, after, rfl⟩ := lexeme_of_lexemeAt e
      exact absurd lexeme (none _ _ after rfl)

end Arith
