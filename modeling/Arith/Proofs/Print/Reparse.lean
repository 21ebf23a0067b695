/-
# Reading what was written

A tree that was read from a text is written as a text that is read as the
same tree, with the same operators in the same groups, the same names with
the same values and handles, and the same numbers bit for bit, or that is
not read at all (`Scope.parse_text_iff`).

It is not read if one of its numbers is infinite, or if it is higher than
operands may be nested: a sum of many terms needs no nesting, but is written
with a pair of parentheses for every sign.  These are the only two reasons,
and a text that is read is never read as another tree
(`Scope.parse_text_of_parse`).

Trees that could not have been read are left out by the assumption that the
tree was read in the same scope.  What is used of it is
`Scope.faithful_of_parse`, so any tree with plain names and numbers that the
scope knows would do.
-/
import Arith.Evaluator
import Arith.Proofs.Grammar.Exact
import Arith.Proofs.Grammar.Unambiguous
import Arith.Proofs.Print.Spelling

namespace Arith

open Grammar

variable {scope : Scope} {source : String} {t : Expr}

theorem mapError_eq_ok {ε ε' : Type} {f : ε → ε'} {r : Except ε Expr} :
    r.mapError f = .ok t ↔ r = .ok t := by
  cases r with
  | error e => constructor <;> rintro ⟨⟩
  | ok t' => simp only [Except.mapError, Except.ok.injEq]

theorem Scope.parse_eq_ok_iff : (scope.parse source).1 = .ok t ↔
    ∃ ts, tokenize source = .ok ts ∧ (parseTokens scope ts).1.result = .ok t := by
  rw [parse_fst, parseRecovering_fst]
  cases tokenize source with
  | error e =>
    constructor
    · rintro ⟨⟩
    · rintro ⟨ts, ⟨⟩, parses⟩
  | ok ts =>
    simp only [Except.map, mapError_eq_ok]
    constructor
    · intro parses
      exact ⟨ts, rfl, parses⟩
    · rintro ⟨_, ⟨⟩, parses⟩
      exact parses

/-- A text has a tree exactly if its tokens are a phrase that is accepted. -/
theorem Scope.exists_accepted : (scope.parse source).1 = .ok t ↔
    ∃ ts, tokenize source = .ok ts ∧ ∃ c, Accepted scope ts t c := by
  rw [parse_eq_ok_iff]
  refine exists_congr fun ts => and_congr_right fun _ => ?_
  rw [result_eq_ok_iff_run, run_silent_iff]

theorem lexed_of_tokenize {ts : List Token} (h : tokenize source = .ok ts) : Lexed ts := by
  have outcome := tokenize_outcome source
  rw [h] at outcome
  cases outcome with
  | ok _ _ tiles =>
    intro t ht
    obtain ⟨before, cs, after, -, longest, text, -⟩ := tiles.stands [] rfl t ht
    rw [text, String.toList_ofList]
    exact longest.lexeme

theorem Scope.faithful_of_parse (h : (scope.parse source).1 = .ok t) :
    t.Faithful scope ∧ t.nodes.length ≤ nodeLimit := by
  obtain ⟨ts, lexes, c, accepted⟩ := exists_accepted.mp h
  have lexed := lexed_of_tokenize lexes
  rw [← accepted.tokens_eq] at lexed
  have faithful := c.faithful lexed (accepted.tokens_eq ▸ accepted.known)
  rw [accepted.tree_eq] at faithful
  exact ⟨faithful, accepted.space⟩

theorem Scope.parse_text_iff {e : Expr} (faithful : e.Faithful scope)
    (space : e.nodes.length ≤ nodeLimit) :
    (scope.parse e.text).1 = .ok t ↔ t = e ∧ e.Finite ∧ e.height ≤ nestingLimit := by
  obtain ⟨ts, lexes, words⟩ := Expr.tokenize_text fun n hn => (faithful n hn).1
  have parses : (scope.parse e.text).1 = .ok t ↔ ∃ c, Accepted scope ts t c := by
    rw [parse_eq_ok_iff, ← run_silent_iff, ← result_eq_ok_iff_run]
    constructor
    · rintro ⟨ts', lexes', parses⟩
      obtain rfl : ts' = ts := Except.ok.inj (lexes'.symm.trans lexes)
      exact parses
    · intro parses
      exact ⟨ts, lexes, parses⟩
  rw [parses]
  by_cases finite : e.Finite
  · obtain ⟨x, hx⟩ := exists_operand e faithful finite words
    have tokens : (Chain.mk x .nil).tokens = ts := (List.append_nil _).trans hx.tokens_eq
    have separated : (Chain.mk x .nil).Separated := ⟨hx.separated, trivial⟩
    have tree : (Chain.mk x .nil).tree scope = e := hx.tree_eq
    have nesting : (Chain.mk x .nil).nesting = e.height := by
      rw [Chain.nesting, Tail.nesting, Nat.max_zero, hx.nesting_eq]
    constructor
    · rintro ⟨c, h⟩
      obtain rfl : c = .mk x .nil :=
        Chain.tokens_injective h.separated separated (h.tokens_eq.trans tokens.symm)
      exact ⟨h.tree_eq.symm.trans tree, finite, nesting ▸ h.room⟩
    · rintro ⟨rfl, -, low⟩
      exact ⟨_, tokens, separated, tree, hx.known, space, nesting ▸ low⟩
  · constructor
    · rintro ⟨c, h⟩
      have paired : Paired (c.tokens.map Token.word ++ []) := c.paired trivial
      rw [h.tokens_eq, words] at paired
      exact absurd paired (not_paired_words e finite (by simp [Unopened]))
    · rintro ⟨-, h, -⟩
      exact absurd h finite

/-- What is written of a tree that was read from a text is read exactly if no number of the tree
is infinite and no path through it is longer than operands may be nested, and only ever as the
same tree. -/
theorem Scope.parse_text_of_parse (scope : Scope) (source : String) (t : Expr)
    (h : (scope.parse source).1 = .ok t) :
    ((∃ t', (scope.parse t.text).1 = .ok t') ↔
        (∀ x ∈ t.numbers, magnitude x ≠ .infinite) ∧ t.height ≤ nestingLimit) ∧
      ∀ t', (scope.parse t.text).1 = .ok t' → t' = t := by
  obtain ⟨faithful, space⟩ := faithful_of_parse h
  refine ⟨⟨?_, ?_⟩, ?_⟩
  · rintro ⟨t', reads⟩
    exact ((parse_text_iff faithful space).mp reads).2
  · intro good
    exact ⟨t, (parse_text_iff faithful space).mpr ⟨rfl, good⟩⟩
  · intro t' reads
    exact ((parse_text_iff faithful space).mp reads).1

/-- `0-A-A` is written as `((0 - {A}) - {A})`. -/
theorem Scope.parse_text_of_parse_difference :
    let scope := Scope.empty.setVariable "A" 0
    let t : Expr := .binary .sub (.binary .sub (.number 0) (.var "A" 0)) (.var "A" 0)
    (scope.parse "0-A-A").1 = .ok t ∧
      ((∃ t', (scope.parse t.text).1 = .ok t') ↔
          (∀ x ∈ t.numbers, magnitude x ≠ .infinite) ∧ t.height ≤ nestingLimit) ∧
        ∀ t', (scope.parse t.text).1 = .ok t' → t' = t := by
  intro scope t
  have h : (scope.parse "0-A-A").1 = .ok t := by cbv
  exact ⟨h, parse_text_of_parse scope "0-A-A" t h⟩

end Arith
