/-
# Where errors are found

Every error that a parse notes is about one token, and its place is the
place of that token; only a pair of parentheses that hold nothing is about
two, which stand next to each other (`PlacedAt`).  A state is `Located` if
all that has been noted so far is placed in this way and what is left to be
read is the end of the list.  Each small step keeps a state located, if it
notes an error about a token of the list, and so does every reading, rule by
rule (`Reads.located`).

What is asked of a fault depends on what it tells.  Most faults tell the
text of the token at which they were found, and it is the token of the
place; a name is told where it was looked up; the limits are told at
whatever token stands there when they are reached.  The end of the
expression is a token of its own, with the empty range behind the last one
as its place, so that a fault at the end has a place like any other.

**Proved here.** The error of a parse is placed among the tokens
(`parseTokens_error_placed`).
-/
import Arith.Proofs.Parse.Notes

namespace Arith

def ParseFault.found? : ParseFault → Option String
  | .unexpectedToken found | .unclosedParenthesis found | .missingCallParenthesis _ found |
    .unclosedCall _ found | .expectedVariableName found | .unclosedBrace _ found |
    .trailingTokens found => some found
  | _ => none

/-- A token at which a parse of `tokens` may stand: one of them, or the end of the expression. -/
def Token.Among (tokens : List Token) (t : Token) : Prop :=
  t ∈ tokens ∨ t = .eof (Cursor.stopOf tokens)

/-- The place of a fault among some tokens. -/
inductive ParseFault.PlacedAt (tokens : List Token) : ParseFault → Span → Prop
  | unboundVariable {t : Token} : t ∈ tokens → PlacedAt tokens (.unboundVariable t.text) t.span
  | undefinedFunction {t : Token} : t ∈ tokens → PlacedAt tokens (.undefinedFunction t.text) t.span
  | found {f : ParseFault} {t : Token} : t.Among tokens → f.found? = some t.text →
      PlacedAt tokens f t.span
  | unexpectedEnd {t : Token} :
      t.Among tokens → t.kind = .eof → PlacedAt tokens .unexpectedEnd t.span
  | emptyParentheses {read rest : List Token} {opening closing : Token} :
      tokens = read ++ opening :: closing :: rest → opening.kind = .leftParen →
        closing.kind = .rightParen →
          PlacedAt tokens .emptyParentheses ⟨opening.span.start, closing.span.stop⟩
  | nestingTooDeep {t : Token} :
      t.Among tokens → PlacedAt tokens (.nestingTooDeep nestingLimit) t.span
  | expressionTooLarge {t : Token} : t.Among tokens →
      PlacedAt tokens (.expressionTooLarge nodeLimit) t.span

/-- A state of a parse of `tokens` in which every error noted has its place. -/
structure ParseState.Located (tokens : List Token) (s : ParseState) : Prop where
  suffix : s.cursor.rest <:+ tokens
  stop : s.cursor.stop = Cursor.stopOf tokens
  errors : ∀ e ∈ s.errors, ∃ span, e.span = some span ∧ e.fault.PlacedAt tokens span

namespace ParseState

variable {tokens : List Token} {s t : ParseState}

theorem exists_rest_of_kind {kind : TokenKind} (h : s.kind = kind) (ne : kind ≠ .eof) :
    ∃ rest, s.cursor.rest = s.current :: rest ∧ s.advance.cursor.rest = rest := by
  obtain ⟨⟨position, rest, stop⟩, _, _, _⟩ := s
  cases rest with
  | nil => exact absurd h.symm ne
  | cons t rest => exact ⟨rest, rfl, rfl⟩

namespace Located

/-! ## Small steps

A small step either takes a token from the list, which leaves a shorter end
of it, or notes an error at the token in front, or changes numbers that have
no place. -/

theorem start (tokens : List Token) : (ParseState.start tokens).Located tokens :=
  ⟨List.suffix_refl _, rfl, List.forall_mem_nil _⟩

/-- Only the tokens that are left and the errors count. -/
theorem congr (h : s.Located tokens) (cursor : t.cursor = s.cursor) (errors : t.errors = s.errors) :
    t.Located tokens :=
  ⟨cursor ▸ h.suffix, cursor ▸ h.stop, errors ▸ h.errors⟩

theorem claim (h : s.Located tokens) (count : Nat) :
    (s.claim count).Located tokens := h.congr rfl rfl

theorem enter (h : s.Located tokens) : s.enter.Located tokens := h.congr rfl rfl

theorem leave (h : s.Located tokens) : s.leave.Located tokens := h.congr rfl rfl

theorem advance (h : s.Located tokens) : s.advance.Located tokens where
  suffix := by
    rw [ParseState.advance, Cursor.rest_advance]
    exact (List.tail_suffix _).trans h.suffix
  stop := by
    rw [ParseState.advance, Cursor.stop_advance]
    exact h.stop
  errors := h.errors

theorem among (h : s.Located tokens) : s.current.Among tokens := by
  cases rest : s.cursor.rest with
  | nil =>
    refine .inr ?_
    rw [current, Cursor.current, rest, ← h.stop]
    rfl
  | cons t ts =>
    have first : s.current = t := by
      rw [current, Cursor.current, rest]
      rfl
    exact .inl (h.suffix.mem (by rw [rest, first]; exact List.mem_cons_self))

theorem mem_of_kind {kind : TokenKind} (h : s.Located tokens) (e : s.kind = kind)
    (ne : kind ≠ .eof) :
    s.current ∈ tokens := by
  obtain ⟨rest, cons, -⟩ := exists_rest_of_kind e ne
  exact h.suffix.mem (cons ▸ List.mem_cons_self)

theorem faultAt (h : s.Located tokens) {span : Span} {f : ParseFault}
    (placed : f.PlacedAt tokens span) :
    (s.faultAt span f).Located tokens where
  suffix := h.suffix
  stop := h.stop
  errors := by
    rw [errors_faultAt]
    exact List.forall_mem_append.mpr
      ⟨h.errors, List.forall_mem_singleton.mpr ⟨span, rfl, placed⟩⟩

theorem fault_found (h : s.Located tokens) {f : ParseFault}
    (found : f.found? = some s.current.text) :
    (s.fault f).Located tokens := h.faultAt (.found h.among found)

theorem faultTooDeep (h : s.Located tokens) : s.faultTooDeep.Located tokens :=
  h.faultAt (.nestingTooDeep h.among)

theorem faultTooLarge (h : s.Located tokens) : s.faultTooLarge.Located tokens :=
  h.faultAt (.expressionTooLarge h.among)

theorem readNumber (h : s.Located tokens) : s.readNumber.2.Located tokens := by
  unfold ParseState.readNumber
  split
  · exact h.advance
  · have noted : (s.note (.malformedNumber s.current)).Located tokens :=
      h.congr rfl ((errors_note s _).trans (List.append_nil _))
    exact noted.advance

theorem readVariable (h : s.Located tokens) (scope : Scope) (kind : s.kind = .variableName) :
    (s.readVariable scope).2.Located tokens := by
  unfold ParseState.readVariable
  dsimp only
  split
  · exact h.advance
  · exact (h.faultAt (.unboundVariable (h.mem_of_kind kind (by decide)))).advance

theorem closeBrace (h : s.Located tokens) (name : String) : (s.closeBrace name).Located tokens := by
  unfold ParseState.closeBrace
  split
  · exact h.advance
  · exact h.fault_found rfl

theorem readBraced (h : s.Located tokens) (scope : Scope) :
    (s.readBraced scope).2.Located tokens := by
  unfold ParseState.readBraced
  dsimp only
  split
  · exact h.advance.fault_found rfl
  next kind =>
    split
    · exact h.advance.faultTooLarge
    · exact ((h.advance.claim 1).readVariable scope (Decidable.not_not.mp kind)).closeBrace _

/-- The parenthesis that closes at once stands right behind the one that opens. -/
theorem closeEmptyParentheses (h : s.Located tokens) (kind : s.kind = .leftParen)
    (closing : s.advance.kind = .rightParen) :
    (s.advance.closeEmptyParentheses s.current).Located tokens := by
  obtain ⟨rest, e, e'⟩ := exists_rest_of_kind kind (by decide)
  obtain ⟨rest', e'', -⟩ := exists_rest_of_kind closing (by decide)
  obtain ⟨read, split⟩ := h.suffix
  rw [e, ← e', e''] at split
  exact (h.advance.faultAt (.emptyParentheses split.symm kind closing)).advance

theorem closeGroup (h : s.Located tokens) (tree : Option Expr) :
    (s.closeGroup tree).2.Located tokens := by
  unfold ParseState.closeGroup
  split
  · exact h.advance
  · exact h.fault_found rfl

theorem closeCall (h : s.Located tokens) (scope : Scope) {name : Token} (trees : Option (List Expr))
    (mem : name ∈ tokens) : (s.closeCall scope name trees).2.Located tokens := by
  unfold ParseState.closeCall
  split
  · split
    · exact h.advance
    · exact h.advance.faultAt (.undefinedFunction mem)
  · exact h.fault_found rfl

theorem finish (h : s.Located tokens) : s.finish.Located tokens := by
  unfold ParseState.finish
  split
  · exact h
  · exact h.fault_found rfl

end Located

end ParseState

namespace Parse

open ParseState

variable {scope : Scope} {tokens : List Token}

/-! ## Readings -/

theorem Reads.located {part : Part} {s next : ParseState} {yield : part.Yield}
    (h : Reads scope part s yield next) (located : s.Located tokens) : next.Located tokens := by
  induction h with
  | tooDeep | tightenTooDeep => exact located.faultTooDeep
  | tooLarge | climbTooLarge => exact located.faultTooLarge
  | operand _ _ ih => exact (ih located.enter).leave
  | number => exact (located.claim 1).readNumber
  | negation _ _ _ ih => exact ih (located.claim 2).advance
  | emptyParentheses kind closing => exact located.closeEmptyParentheses kind closing
  | group _ _ _ ih => exact (ih located.advance).closeGroup _
  | braced => exact located.readBraced scope
  | variableName kind => exact (located.claim 1).readVariable scope kind
  | call kind _ _ _ ih =>
    have name := located.mem_of_kind kind (by decide)
    exact (ih (located.claim 1).advance.advance).closeCall scope _ name
  | missingParenthesis => exact (located.claim 1).advance.fault_found rfl
  | unexpectedEnd kind => exact located.faultAt (.unexpectedEnd located.among kind)
  | unexpectedToken => exact located.fault_found rfl
  | climbStop | tightenStop | argumentsEnd => exact located
  | noChain _ ih | tightenTighter _ _ _ ih => exact ih located
  | chain _ _ ihFirst ihMore => exact ihMore (ihFirst located)
  | climbNoOperand _ _ _ _ ih => exact ih (located.claim 1).advance
  | climb _ _ _ _ _ _ ihBody ihTighter ihMore =>
    exact ihMore (ihTighter (ihBody (located.claim 1).advance))
  | tightenSame _ _ _ _ _ ih => exact (ih located.enter).leave
  | comma _ _ ih => exact ih located.advance
  | argument _ _ _ _ ihFirst ihMore | failedArgument _ _ _ _ _ ihFirst ihMore =>
    exact ihMore (ihFirst located)
  | skippedArgument _ _ _ _ _ ihFirst ihMore => exact ihMore (ihFirst located).advance

theorem run_located (scope : Scope) (tokens : List Token) : (run scope tokens).2.Located tokens :=
  (((yields scope).2.2.2.1 (.start tokens)).located (.start tokens)).finish

end Parse

open Parse

theorem parseTokens_error_placed {scope : Scope} {tokens : List Token} {e : ParseError}
    (nonempty : tokens ≠ []) (h : (parseTokens scope tokens).1.error = some e) :
    ∃ span, e.span = some span ∧ e.fault.PlacedAt tokens span := by
  rw [parseTokens, if_neg (by rwa [List.isEmpty_iff])] at h
  exact (run_located scope tokens).errors e (List.mem_of_mem_head? h)

end Arith
