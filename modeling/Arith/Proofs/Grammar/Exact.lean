/-
# What a parse accepts

A parse makes a tree exactly of the token lists that are one chain, with all
names known and within the two limits, and the tree is the one that the
chain stands for (`parseTokens_eq_ok_iff`).  Nothing is assumed of the
tokens: the end of an expression, illegal tokens and tokens whose text does
not belong to their kind may stand anywhere.

This is the specification that other properties of a parse are derived from:
that a text is read in one way, that what was written is read again, and how
a change of the tokens changes the tree.  It does not mention states,
cursors or the order in which anything is read.
-/
import Arith.Proofs.Grammar.Sound
import Arith.Proofs.Grammar.Complete

namespace Arith

open Parse ParseState Grammar

variable {scope : Scope} {tokens : List Token}

theorem ParseState.finish_silent {s : ParseState} (silent : s.finish.errors = []) :
    s.cursor.rest = [] ∧ s.errors = [] := by
  unfold finish at silent
  split at silent
  next atEnd => exact ⟨List.isEmpty_iff.mp atEnd, silent⟩
  · exact absurd silent (errors_fault_ne s _)

theorem Parsed.result_eq_ok {p : Parsed} {t : Expr} :
    p.result = .ok t ↔ p.error = none ∧ p.tree = some t := by
  obtain ⟨tree, error⟩ := p
  cases error <;> cases tree <;> simp [result]

/-- The chain that some tokens are, if a parse of them makes the tree `t` without an error. -/
structure Grammar.Accepted (scope : Scope) (tokens : List Token) (t : Expr) (c : Chain) : Prop where
  tokens_eq : c.tokens = tokens
  separated : c.Separated
  tree_eq : c.tree scope = t
  known : Known scope tokens
  space : t.nodes.length ≤ nodeLimit
  room : c.nesting ≤ nestingLimit

theorem run_silent_iff (scope : Scope) (tokens : List Token) (t : Expr) :
    (run scope tokens).1 = some t ∧ (run scope tokens).2.errors = [] ↔
      ∃ c, Accepted scope tokens t c := by
  constructor
  · rintro ⟨tree, silent⟩
    obtain ⟨rest, silent⟩ := finish_silent silent
    have reads : Reads scope .chain (.start tokens) (chain scope (.start tokens)).tree
        (chain scope (.start tokens)).next := (yields scope).2.2.2.1 _
    obtain ⟨c, e, separated, covers, -⟩ := phrased_of_reads reads silent
    obtain rfl : c.tree scope = t := Option.some.inj (e.symm.trans tree)
    have all : c.tokens = tokens := by
      have taken := covers.rest
      rw [rest, List.append_nil] at taken
      exact taken.symm
    exact ⟨c, all, separated, rfl, all ▸ covers.known, c.size_eq scope ▸ covers.space, covers.room⟩
  · rintro ⟨c, rfl, separated, rfl, known, space, room⟩
    rw [← c.size_eq scope] at space
    obtain ⟨next, reads, takes⟩ := c.readable scope separated known (.start c.tokens) []
      (List.append_nil _).symm (stops_nil 1) ⟨space, room⟩
    obtain ⟨tree, final⟩ := chain_of_reads reads
    have rest : next.cursor.rest = [] := takes.rest_eq (List.append_nil _).symm
    refine ⟨tree, ?_⟩
    rw [run, final]
    simp only [finish, Cursor.atEnd, rest, List.isEmpty_nil, if_true]
    exact takes.errors

theorem parseTokens_of_ne (scope : Scope) (nonempty : tokens ≠ []) :
    (parseTokens scope tokens).1 = ⟨(run scope tokens).1, (run scope tokens).2.errors.head?⟩ := by
  rw [parseTokens, if_neg (by rwa [List.isEmpty_iff])]
  rfl

theorem run_of_tree {t : Expr} (made : (parseTokens scope tokens).1.tree = some t) :
    (run scope tokens).1 = some t ∧
      (parseTokens scope tokens).1.error = (run scope tokens).2.errors.head? := by
  have nonempty : tokens ≠ [] := by
    rintro rfl
    cases made
  rw [parseTokens_of_ne scope nonempty] at made ⊢
  exact ⟨made, rfl⟩

theorem run_of_silent (silent : (parseTokens scope tokens).1.error = none) :
    (parseTokens scope tokens).1.tree = (run scope tokens).1 ∧
      (run scope tokens).2.errors = [] := by
  have nonempty : tokens ≠ [] := by
    rintro rfl
    cases silent
  rw [parseTokens_of_ne scope nonempty] at silent ⊢
  exact ⟨rfl, List.head?_eq_none_iff.mp silent⟩

/-- A parse returns a tree if it makes one without an error. -/
theorem result_eq_ok_iff_run (scope : Scope) (tokens : List Token) (t : Expr) :
    (parseTokens scope tokens).1.result = .ok t ↔
      (run scope tokens).1 = some t ∧ (run scope tokens).2.errors = [] := by
  by_cases nonempty : tokens = []
  · subst nonempty
    rw [run_silent_iff]
    constructor
    · rintro ⟨⟩
    · rintro ⟨c, accepted⟩
      obtain ⟨t, ts, e, -⟩ := c.exists_tokens
      cases e.symm.trans accepted.tokens_eq
  · rw [parseTokens, if_neg (by rwa [List.isEmpty_iff]), Parsed.result_eq_ok]
    show (run scope tokens).2.errors.head? = none ∧ (run scope tokens).1 = some t ↔ _
    rw [List.head?_eq_none_iff, and_comm]

/-- A parse without an error makes a tree, so whatever is refused is refused with the first
error. -/
theorem result_eq_error_iff (scope : Scope) (tokens : List Token) (e : ParseError) :
    (parseTokens scope tokens).1.result = .error e ↔
      (parseTokens scope tokens).1.error = some e := by
  cases noted : (parseTokens scope tokens).1.error with
  | some e' =>
    rw [Parsed.result, noted]
    exact ⟨fun h => congrArg some (Except.error.inj h), fun h => congrArg _ (Option.some.inj h)⟩
  | none =>
    obtain ⟨t, made⟩ : ∃ t, (parseTokens scope tokens).1.tree = some t := by
      by_cases nonempty : tokens = []
      · subst nonempty
        cases noted
      · rw [parseTokens, if_neg (by rwa [List.isEmpty_iff])] at noted ⊢
        have silent : (run scope tokens).2.errors = [] := List.head?_eq_none_iff.mp noted
        obtain ⟨-, silent⟩ := finish_silent silent
        have reads : Reads scope .chain (.start tokens) (chain scope (.start tokens)).tree
            (chain scope (.start tokens)).next := (yields scope).2.2.2.1 _
        obtain ⟨c, e, -⟩ := phrased_of_reads reads silent
        exact ⟨c.tree scope, e⟩
    rw [Parsed.result, noted, made]
    constructor <;> rintro ⟨⟩

/-- A parse accepts exactly the chains with known names that keep the limits, and makes the tree
that the chain stands for. -/
theorem parseTokens_eq_ok_iff (scope : Scope) (tokens : List Token) (t : Expr) :
    (parseTokens scope tokens).1.result = .ok t ↔
      ∃ c : Chain, c.tokens = tokens ∧ c.Separated ∧ c.tree scope = t ∧ Known scope tokens ∧
        t.nodes.length ≤ nodeLimit ∧ c.nesting ≤ nestingLimit := by
  rw [result_eq_ok_iff_run, run_silent_iff]
  constructor
  · rintro ⟨c, h⟩
    exact ⟨c, h.tokens_eq, h.separated, h.tree_eq, h.known, h.space, h.room⟩
  · rintro ⟨c, tokens_eq, separated, tree_eq, known, space, room⟩
    exact ⟨c, tokens_eq, separated, tree_eq, known, space, room⟩

end Arith
