/-
# Blanks between tokens

A text is respaced by writing its tokens again, in their order, with other
blanks in front of them, between them and behind them.  Only where two
tokens stood apart must they still stand apart.  Where two of them touched
they may be separated, since a lexeme is the longest at its place as soon as
it cannot go on with the next character (`longest_iff`), and no lexeme goes
on with a blank.

The order of the argument is that of the program.  The words of a respaced
text are found by a scan that starts anywhere (`Tiles.scans_respaced`);
tokens with the same words differ in their places only
(`map_unplaced_of_map_word`); and a parse does not look at places except to
put them into errors.

**Proved here.** A respaced text has the same words in the same order, so it
is parsed into the same tree, or refused for the same reason, and evaluates
to the same value (`Scope.parse_respaced`).
-/
import Mathlib.Data.List.Basic
import Arith.Session
import Arith.Proofs.Parse.Places
import Arith.Proofs.Print.Words

namespace Arith

/-! ## Where a lexeme ends -/

/-- What a longer lexeme starts with is a lexeme already. -/
theorem Lexeme.exists_concat {kind : TokenKind} {cs more : List Char} {d : Char}
    (h : Lexeme kind (cs ++ d :: more)) (ne : cs ≠ []) : ∃ kind', Lexeme kind' (cs ++ [d]) := by
  have within : ∀ as : List Char, ∀ x ∈ as ++ [d], x ∈ as ++ d :: more := by
    intro as x hx
    rw [List.append_cons]
    exact List.mem_append_left _ hx
  have ne' : cs ++ [d] ≠ [] := List.append_ne_nil_of_left_ne_nil ne _
  generalize whole : cs ++ d :: more = word at h
  cases h with
  | sign mem =>
    -- no sign has more than two characters
    subst whole
    have short : ∀ p ∈ signs, p.1.length ≤ 2 := by decide
    have two := short _ mem
    have pos := List.length_pos_iff.mpr ne
    simp only [List.length_append, List.length_cons] at two
    obtain rfl : more = [] := List.eq_nil_of_length_eq_zero (by omega)
    exact ⟨kind, .sign mem⟩
  | number digit parts =>
    obtain ⟨c, cs, rfl⟩ := List.exists_cons_of_ne_nil ne
    obtain ⟨rfl, rfl⟩ := List.cons.inj whole
    exact ⟨.number, .number digit fun x hx => parts x (within cs x hx)⟩
  | functionName _ letters =>
    subst whole
    exact ⟨.functionName, .functionName ne' fun x hx => letters x (within cs x hx)⟩
  | variableName _ letters =>
    subst whole
    exact ⟨.variableName, .variableName ne' fun x hx => letters x (within cs x hx)⟩

/-- A lexeme is the longest at its place if the next character does not continue it. -/
theorem longest_iff {kind : TokenKind} {cs after : List Char} : Longest kind cs after ↔
    Lexeme kind cs ∧ ∀ d ∈ after.head?, ∀ kind', ¬ Lexeme kind' (cs ++ [d]) := by
  constructor
  · intro h
    refine ⟨h.lexeme, fun d hd kind' longer => ?_⟩
    obtain ⟨rest, rfl⟩ := List.head?_eq_some_iff.mp hd
    have le := h.length_le (List.append_cons cs d rest) longer
    rw [List.length_append, List.length_singleton] at le
    exact Nat.not_succ_le_self _ le
  · rintro ⟨lexeme, stop⟩
    refine ⟨lexeme, fun {kind' longer rest} e other => ?_⟩
    by_contra exceeds
    obtain ⟨more, rfl⟩ : cs <+: longer :=
      List.prefix_of_prefix_length_le (List.prefix_append cs after)
        (e ▸ List.prefix_append longer rest) (Nat.le_of_not_le exceeds)
    cases more with
    | nil => exact exceeds (by rw [List.append_nil])
    | cons d more =>
      obtain ⟨kind'', shorter⟩ := other.exists_concat lexeme.ne_nil
      rw [List.append_assoc, List.append_right_inj] at e
      exact stop d (by rw [e]; rfl) kind'' shorter

/-- Only the first character behind a lexeme decides whether it is the longest. -/
theorem Longest.of_head? {kind : TokenKind} {cs after after' : List Char}
    (h : Longest kind cs after) (head : after'.head? = after.head?) : Longest kind cs after' := by
  rw [longest_iff] at h ⊢
  rw [head]
  exact h

theorem Lexeme.not_blank {kind : TokenKind} {cs : List Char} (h : Lexeme kind cs) :
    ∀ c ∈ cs, ¬ isBlank c := by
  intro c hc
  cases h with
  | sign mem =>
    have solid : ∀ p ∈ signs, p.1.all fun c => !isBlank c := by decide
    have := List.all_eq_true.mp (solid _ mem) c hc
    simpa using this
  | number digit parts =>
    rcases List.mem_cons.mp hc with rfl | hc
    · exact not_blank_of_digit digit
    · exact fun blank => not_numberPart_of_blank blank (parts c hc)
  | functionName _ letters => exact not_blank_of_letter (.inl (letters c hc))
  | variableName _ letters => exact not_blank_of_letter (.inr (letters c hc))

/-- In front of a blank every lexeme is the longest. -/
theorem Lexeme.longest {kind : TokenKind} {cs after : List Char} (h : Lexeme kind cs)
    (blank : ∀ c ∈ after.head?, isBlank c) : Longest kind cs after := by
  refine longest_iff.mpr ⟨h, fun d hd kind' longer => ?_⟩
  exact longer.not_blank d (List.mem_append_right _ List.mem_cons_self) (blank d hd)

/-! ## Scanning what is respaced

By induction on the tiling of the original text, with the gaps counted from
the current token on, so that the gap in front is always `gap 0`. -/

theorem forall_mem_concat {p : Char → Prop} {cs : List Char} {d : Char} (all : ∀ x ∈ cs, p x)
    (last : p d) : ∀ x ∈ cs ++ [d], p x :=
  List.forall_mem_append.mpr ⟨all, List.forall_mem_singleton.mpr last⟩

theorem Longest.scans {kind : TokenKind} {cs after : List Char} (h : Longest kind cs after) :
    Scans (cs ++ after) [(kind, cs)] after := by
  obtain ⟨lexeme, stop⟩ := longest_iff.mp h
  cases lexeme with
  | @sign _ _ mem =>
    simp only [signs, List.mem_cons, Prod.mk.injEq, List.not_mem_nil, or_false] at mem
    rcases mem with ⟨rfl, rfl⟩ | ⟨rfl, rfl⟩ | ⟨rfl, rfl⟩ | ⟨rfl, rfl⟩ | ⟨rfl, rfl⟩ | ⟨rfl, rfl⟩ |
      ⟨rfl, rfl⟩ | star | ⟨rfl, rfl⟩ | ⟨rfl, rfl⟩ | ⟨rfl, rfl⟩ | ⟨rfl, rfl⟩
    case inr.inr.inr.inr.inr.inr.inr.inl =>
      obtain ⟨rfl, rfl⟩ := star
      have alone : ¬ (after.head? == some '*') := by
        intro head
        exact stop '*' (beq_iff_eq.mp head) .pow (.sign (by decide))
      exact .sign (by decide) (if_neg alone)
    case inr.inr.inr.inr.inr.inr.inr.inr.inr.inr.inr =>
      exact @Scans.lexeme after .pow '*' ['*'] (by decide) rfl
    all_goals exact .sign (by decide) rfl
  | number digit parts =>
    refine .number (.number digit parts) fun d hd part => ?_
    exact stop d hd .number (.number digit (forall_mem_concat parts part))
  | functionName ne letters =>
    refine .functionName (.functionName ne letters) fun d hd letter => ?_
    exact stop d hd .functionName (.functionName (List.append_ne_nil_of_left_ne_nil ne _)
      (forall_mem_concat letters letter))
  | variableName ne letters =>
    refine .variableName (.variableName ne letters) fun d hd letter => ?_
    exact stop d hd .variableName (.variableName (List.append_ne_nil_of_left_ne_nil ne _)
      (forall_mem_concat letters letter))

theorem Scans.blanks {gap : List Char} (h : ∀ c ∈ gap, isBlank c ∧ c ≠ '\u3000')
    (rest : List Char) :
    Scans (gap ++ rest) [] rest := by
  induction gap with
  | nil => exact .refl rest
  | cons c gap ih =>
    rw [List.forall_mem_cons] at h
    have narrow : ¬ Fullwidth c := (@Allowed.blank [] c h.1.1 h.1.2).not_fullwidth
    exact (Scans.blank h.1.1 narrow _).trans (ih h.2)

/-- Tokens written one after the other, with `gap 0` in front of the first, `gap 1` in front of
the second, and so on, and one more gap behind the last. -/
def respaced (gap : Nat → List Char) : List Token → List Char
  | [] => gap 0
  | t :: ts => gap 0 ++ (t.text.toList ++ respaced (fun i => gap (i + 1)) ts)

/-- Gaps that may be written around some tokens: they hold blanks only, and none is empty between
two tokens that stand apart. -/
structure Spacing (gap : Nat → List Char) (ts : List Token) : Prop where
  blank : ∀ i ≤ ts.length, ∀ c ∈ gap i, isBlank c ∧ c ≠ '\u3000'
  apart : ∀ i a b, ts[i]? = some a → ts[i + 1]? = some b → a.span.stop < b.span.start →
    gap (i + 1) ≠ []

theorem Spacing.tail {gap : Nat → List Char} {t : Token} {ts : List Token}
    (h : Spacing gap (t :: ts)) : Spacing (fun i => gap (i + 1)) ts where
  blank i le := h.blank (i + 1) (Nat.succ_le_succ le)
  apart i a b ha hb := h.apart (i + 1) a b ha hb

/-- Where the first token stands at the beginning of a text, the text begins as the token does. -/
theorem Tiles.head?_eq {offset : Nat} {cs : List Char} {t : Token} {ts : List Token}
    (h : Tiles offset cs (t :: ts)) (first : t.span.start ≤ offset) :
    cs.head? = t.text.toList.head? ∧ t.text.toList ≠ [] := by
  cases h with
  | @blank _ c cs _ blank rest =>
    have behind := rest.le_start t List.mem_cons_self
    have pos := Char.utf8Size_pos c
    omega
  | @lexeme _ kind cs after _ longest rest =>
    have ne := longest.lexeme.ne_nil
    rw [String.toList_ofList]
    exact ⟨List.head?_append_of_ne_nil cs ne, ne⟩

theorem head?_respaced {gap : Nat → List Char} {t : Token} {ts : List Token} (none : gap 0 = [])
    (ne : t.text.toList ≠ []) : (respaced gap (t :: ts)).head? = t.text.toList.head? := by
  rw [respaced, none, List.nil_append]
  exact List.head?_append_of_ne_nil _ ne

/-- The lexemes of a text are the longest ones of the respaced text as well. -/
theorem Longest.respaced {kind : TokenKind} {cs after : List Char} {offset : Nat} {ts : List Token}
    {gap : Nat → List Char} (h : Longest kind cs after) (rest : Tiles offset after ts)
    (blank : ∀ c ∈ gap 0, isBlank c)
    (apart : ∀ t ∈ ts.head?, offset < t.span.start → gap 0 ≠ []) :
    Longest kind cs (respaced gap ts) := by
  cases e : gap 0 with
  | cons c more =>
    have head : (Arith.respaced gap ts).head? = some c := by
      cases ts <;> rw [Arith.respaced, e] <;> rfl
    refine h.lexeme.longest fun d hd => ?_
    rw [head] at hd
    cases hd
    exact blank c (e ▸ List.mem_cons_self)
  | nil =>
    cases ts with
    | nil =>
      rw [Arith.respaced, e]
      exact h.lexeme.longest (by rintro c ⟨⟩)
    | cons t ts =>
      -- the next token touches the lexeme in both texts
      have first : t.span.start ≤ offset := by
        by_contra gapped
        exact apart t rfl (Nat.lt_of_not_le gapped) e
      obtain ⟨head, ne⟩ := rest.head?_eq first
      exact h.of_head? ((head?_respaced e ne).trans head.symm)

/-- A scan of a respaced text finds the words of the text. -/
theorem Tiles.scans_respaced {offset : Nat} {cs : List Char} {ts : List Token}
    (h : Tiles offset cs ts) :
    ∀ gap : Nat → List Char, Spacing gap ts → Scans (respaced gap ts) (ts.map Token.word) [] := by
  induction h with
  | nil =>
    intro gap spacing
    have scans := Scans.blanks (spacing.blank 0 (Nat.le_refl 0)) []
    rwa [List.append_nil] at scans
  | blank _ _ ih => exact ih
  | @lexeme offset kind cs after ts longest rest ih =>
    intro gap spacing
    have blank : ∀ c ∈ gap 1, isBlank c := by
      intro c hc
      exact (spacing.blank 1 (Nat.succ_le_succ (Nat.zero_le _)) c hc).1
    have apart : ∀ t ∈ ts.head?, offset + byteLength cs < t.span.start → gap 1 ≠ [] := by
      intro t ht
      refine spacing.apart 0 _ t rfl ?_
      rwa [List.getElem?_cons_succ, ← List.head?_eq_getElem?]
    have found :=
      (@Longest.respaced _ _ _ _ _ (fun i => gap (i + 1)) longest rest blank apart).scans
    rw [respaced, List.map_cons, Token.word, String.toList_ofList]
    exact (Scans.blanks (spacing.blank 0 (Nat.zero_le _)) _).trans
      (found.trans (ih _ spacing.tail))

/-! ## Parsing and evaluating what is respaced -/

theorem Token.unplaced_eq (t : Token) :
    t.unplaced = ⟨t.word.1, String.ofList t.word.2, .point 0⟩ := by
  rw [word, String.ofList_toList]
  rfl

theorem map_unplaced_of_map_word {ts ts' : List Token}
    (same : ts'.map Token.word = ts.map Token.word) :
    ts'.map Token.unplaced = ts.map Token.unplaced := by
  have words : ∀ ts : List Token, ts.map Token.unplaced =
      (ts.map Token.word).map fun w => ⟨w.1, String.ofList w.2, .point 0⟩ := by
    intro ts
    rw [List.map_map]
    exact List.map_congr_left fun t _ => t.unplaced_eq
  rw [words, words, same]

/-- Two parses that differ in the place of their error only. -/
def Parsed.Alike (p p' : Parsed) : Prop :=
  p'.tree = p.tree ∧ p'.error.map (·.fault) = p.error.map (·.fault)

/-- The same answer, or two failures of which the same is told. -/
inductive Session.Reply.Alike : Session.Reply → Session.Reply → Prop
  | same (r : Session.Reply) : Alike r r
  | failed {e e' : ExpressionError} : e'.message = e.message → Alike (.failed e) (.failed e')

/-- Parses that are alike have the same result, up to the place of an error. -/
theorem Parsed.Alike.result {p p' : Parsed} (h : p.Alike p') :
    p'.result = p.result ∨
      ∃ e e', p.result = .error e ∧ p'.result = .error e' ∧ e'.message = e.message := by
  obtain ⟨tree, error⟩ := p
  obtain ⟨tree', error'⟩ := p'
  obtain ⟨rfl, fault⟩ := h
  cases error with
  | none =>
    obtain rfl := Option.map_eq_none_iff.mp fault
    exact .inl rfl
  | some e =>
    obtain ⟨e', rfl, same⟩ := Option.map_eq_some_iff.mp fault
    exact .inr ⟨e, e', rfl, rfl, congrArg ParseFault.message same⟩

/-- Texts whose parses are alike are evaluated alike, and leave the same session behind. -/
theorem Session.evaluate_alike {source source' : String}
    (h : ∀ scope : Scope, ∃ p p', (scope.parseRecovering source).1 = .ok p ∧
      (scope.parseRecovering source').1 = .ok p' ∧ p.Alike p') (s : Session) (name : String) :
    Reply.Alike (s.step (.evaluate name source)).1 (s.step (.evaluate name source')).1 ∧
      (s.step (.evaluate name source')).2.2 = (s.step (.evaluate name source)).2.2 := by
  cases kept : s.scopes[name]? with
  | none =>
    simp only [step, kept]
    exact ⟨.same _, rfl⟩
  | some scope =>
    obtain ⟨p, p', parsed, parsed', alike⟩ := h scope
    have answer := step_evaluate kept source
    have answer' := step_evaluate kept source'
    have tree : (scope.parse source).1 = p.result.mapError .parse := by rw [Scope.parse_fst, parsed]
    have tree' : (scope.parse source').1 = p'.result.mapError .parse := by
      rw [Scope.parse_fst, parsed']
    rw [tree] at answer
    rw [tree'] at answer'
    rcases alike.result with same | ⟨e, e', failed, failed', message⟩
    · rw [same, ← answer, Prod.mk.injEq] at answer'
      rw [answer'.1]
      exact ⟨.same _, answer'.2⟩
    · rw [failed] at answer
      rw [failed'] at answer'
      obtain ⟨reply, after⟩ := Prod.mk.inj answer
      obtain ⟨reply', after'⟩ := Prod.mk.inj answer'
      rw [reply, reply', after, after']
      exact ⟨.failed message, rfl⟩

/-- However a text is respaced, it has the same words, is parsed alike in every scope, and is
evaluated alike in every session. -/
theorem Scope.parse_respaced (source source' : String) (ts : List Token) (gap : Nat → List Char)
    (scanned : tokenize source = .ok ts) (spacing : Spacing gap ts)
    (written : source'.toList = respaced gap ts) (nonempty : source' ≠ "") :
    (∃ ts', tokenize source' = .ok ts' ∧ ts'.map Token.word = ts.map Token.word) ∧
      (∀ scope : Scope, ∃ p p', (scope.parseRecovering source).1 = .ok p ∧
        (scope.parseRecovering source').1 = .ok p' ∧ p.Alike p') ∧
      ∀ (s : Session) (name : String),
        Session.Reply.Alike (s.step (.evaluate name source)).1 (s.step (.evaluate name source')).1 ∧
          (s.step (.evaluate name source')).2.2 = (s.step (.evaluate name source)).2.2 := by
  have outcome := tokenize_outcome source
  rw [scanned] at outcome
  obtain ⟨ts', scanned', words⟩ : ∃ ts', tokenize source' = .ok ts' ∧
      ts'.map Token.word = ts.map Token.word := by
    cases outcome with
    | ok _ _ tiles =>
      have scans := tiles.scans_respaced gap spacing
      rw [← written] at scans
      exact scans.tokenize fun empty => nonempty (String.toList_inj.mp empty)
  have parses : ∀ scope : Scope, ∃ p p', (scope.parseRecovering source).1 = .ok p ∧
      (scope.parseRecovering source').1 = .ok p' ∧ p.Alike p' := by
    intro scope
    refine ⟨(parseTokens scope ts).1, (parseTokens scope ts').1, ?_, ?_,
      parseTokens_of_unplaced scope (map_unplaced_of_map_word words)⟩
    · rw [parseRecovering_fst, scanned]
      rfl
    · rw [parseRecovering_fst, scanned']
      rfl
  exact ⟨⟨ts', scanned', words⟩, parses, Session.evaluate_alike parses⟩

/-- In `A* *B` the two stars stay apart, and another blank may be written in front of them. -/
theorem Scope.parse_respaced_stars :
    let ts : List Token := [⟨.variableName, "A", ⟨0, 1⟩⟩, ⟨.mul, "*", ⟨1, 2⟩⟩, ⟨.mul, "*", ⟨3, 4⟩⟩,
      ⟨.variableName, "B", ⟨4, 5⟩⟩]
    let gap : Nat → List Char := fun i => if i = 1 then [' '] else if i = 2 then ['\t'] else []
    tokenize "A* *B" = .ok ts ∧ Spacing gap ts ∧ "A *\t*B".toList = respaced gap ts ∧
      "A *\t*B" ≠ "" ∧ ∀ scope : Scope, ∃ p p', (scope.parseRecovering "A* *B").1 = .ok p ∧
        (scope.parseRecovering "A *\t*B").1 = .ok p' ∧ p.Alike p' := by
  intro ts gap
  have scanned : tokenize "A* *B" = .ok ts := by cbv
  have spacing : Spacing gap ts := by
    constructor
    · intro i _ c hc
      simp only [gap] at hc
      split at hc
      · rw [List.mem_singleton.mp hc]
        decide
      · split at hc
        · rw [List.mem_singleton.mp hc]
          decide
        · exact absurd hc List.not_mem_nil
    · intro i a b ha hb gapped
      rcases i with _ | _ | _ | i
      · exact List.cons_ne_nil _ _
      · exact List.cons_ne_nil _ _
      · cases ha
        cases hb
        exact absurd gapped (by decide)
      · exact absurd hb (by simp [ts])
  have written : "A *\t*B".toList = respaced gap ts := by rfl
  have nonempty : "A *\t*B" ≠ "" := by decide
  exact ⟨scanned, spacing, written, nonempty,
    (parse_respaced "A* *B" "A *\t*B" ts gap scanned spacing written nonempty).2.1⟩

end Arith
