/-
# Texts of one leaf

A numeral, the name of a variable and a name in braces are texts of one
operand that has no operand inside.  What they are scanned as and parsed as
is said by the grammar alone: no limit is near.

These are the texts by which the command line can be asked about single
names and numbers, so they are what a property of names and numerals is
stated with.
-/
import Arith.Proofs.Number.Numerals
import Arith.Proofs.Print.Reparse

namespace Arith

open Grammar

variable {scope : Scope} {source : String}

theorem Scope.parse_operand {x : Operand} (scanned : tokenize source = .ok x.tokens)
    (separated : x.Separated) (known : Known scope x.tokens) (space : x.size ≤ nodeLimit)
    (room : x.nesting ≤ nestingLimit) : (scope.parse source).1 = .ok (x.tree scope) := by
  refine exists_accepted.mpr ⟨x.tokens, scanned, .mk x .nil, ?_⟩
  exact {
    tokens_eq := List.append_nil _
    separated := ⟨separated, trivial⟩
    tree_eq := rfl
    known := known
    space := x.size_eq scope ▸ space
    room := Nat.max_le.mpr ⟨room, Nat.zero_le _⟩ }

theorem tokenize_word {kind : TokenKind} (lexeme : Lexeme kind source.toList)
    (scans : Scans source.toList [(kind, source.toList)] []) :
    ∃ t, tokenize source = .ok [t] ∧ t.kind = kind ∧ t.text = source := by
  obtain ⟨ts, scanned, words⟩ := scans.tokenize lexeme.ne_nil
  obtain ⟨t, rfl, word⟩ := List.map_eq_singleton_iff.mp words
  exact ⟨t, scanned, Token.eq_of_word word⟩

/-! ## Numerals -/

theorem tokenize_numeral (h : Lexeme .number source.toList) :
    ∃ t, tokenize source = .ok [t] ∧ t.kind = .number ∧ t.text = source := by
  have scans : Scans (source.toList ++ []) [(.number, source.toList)] [] := .number h (by simp)
  rw [List.append_nil] at scans
  exact tokenize_word h scans

theorem Scope.parse_numeral (h : Lexeme .number source.toList) :
    (scope.parse source).1 = .ok (.number (numberOf source)) := by
  obtain ⟨t, scanned, kind, rfl⟩ := tokenize_numeral h
  exact parse_operand (x := .number ⟨t, kind⟩) scanned trivial (known_of_kind kind (by simp))
    (by simp [Operand.size, nodeLimit]) (by simp [Operand.nesting, nestingLimit])

/-! ## Names -/

theorem tokenize_name (h : Lexeme .variableName source.toList) :
    ∃ t, tokenize source = .ok [t] ∧ t.kind = .variableName ∧ t.text = source := by
  have scans : Scans (source.toList ++ []) [(.variableName, source.toList)] [] :=
    .variableName h (by simp)
  rw [List.append_nil] at scans
  exact tokenize_word h scans

theorem Scope.parse_name {value : Float} (h : Lexeme .variableName source.toList)
    (bound : scope.bindings.get? source = some value) :
    (scope.parse source).1 = .ok (.var source value) := by
  obtain ⟨t, scanned, kind, rfl⟩ := tokenize_name h
  rw [← variableOf_of_bound bound]
  exact parse_operand (x := .name ⟨t, kind⟩) scanned trivial (known_of_bound kind bound)
    (by simp [Operand.size, nodeLimit]) (by simp [Operand.nesting, nestingLimit])

/-- A name in braces is what is written of a variable. -/
theorem Scope.parse_braced {name : String} {value : Float} (h : Lexeme .variableName name.toList)
    (bound : scope.bindings.get? name = some value) :
    (scope.parse ("\x7b" ++ name ++ "\x7d")).1 = .ok (.var name value) := by
  have written : (Expr.var name value).text = "\x7b" ++ name ++ "\x7d" := by
    rw [← String.toList_inj, Expr.text, String.toList_ofList]
    simp [Expr.write]
  rw [← written,
    parse_text_iff (Expr.faithful_var.mpr ⟨h, bound⟩) (by simp [Expr.nodes_var, nodeLimit])]
  refine ⟨rfl, ?_, by simp [Expr.height, nestingLimit]⟩
  rintro x ⟨⟩

end Arith
