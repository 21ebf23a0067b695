/-
# Errors point at the text that they name

The place of an error counts bytes.  In the text that was parsed it is a
range between two boundaries of characters, so that cutting the text there
moves nothing, and what stands in the range is what the error is about: the
offending character, the name, the token that was found, or a pair of
parentheses with nothing but blanks in it.  Where the expression ended too
early the range is empty and stands behind the last token.

The tokens of a text stand in it one behind the other (`Tiles`), which
brings the places of `Arith.Proofs.Parse.Located` down to characters.

An error without a place belongs to a text with nothing in it, or to a parse
of no tokens at all.  What is shown of a range to a reader, the line and the
mark below it, is the subject of `Arith.Proofs.Text.Excerpt` and
`Arith.Proofs.Text.Underline`.

**Proved here.** Every error of a parse or an evaluation points at its text
(`ExpressionError.points`).
-/
import Arith.Session
import Arith.Proofs.Grammar.Exact
import Arith.Proofs.Parse.Located
import Arith.Proofs.Token.Tiling
import Arith.Proofs.Text.Boundary

namespace Arith

/-! ## Tokens of a text

From the tiling of the text: where each token stands, and what is between
two neighbours. -/

theorem Token.StandsIn.slice {cs : List Char} {t : Token} (h : t.StandsIn cs) :
    Slice cs t.span t.text.toList := by
  obtain ⟨before, lexeme, after, split, -, text, span⟩ := h
  rw [text, String.toList_ofList]
  exact ⟨before, after, split, span⟩

theorem Lexeme.leftParen_inv {cs : List Char} (h : Lexeme .leftParen cs) : cs = ['('] := by
  cases h with
  | sign mem =>
    have only : ∀ p ∈ signs, p.2 = .leftParen → p.1 = ['('] := by decide
    exact only _ mem rfl

theorem Lexeme.rightParen_inv {cs : List Char} (h : Lexeme .rightParen cs) : cs = [')'] := by
  cases h with
  | sign mem =>
    have only : ∀ p ∈ signs, p.2 = .rightParen → p.1 = [')'] := by decide
    exact only _ mem rfl

namespace Tiles

variable {offset : Nat} {cs : List Char}

/-- A text may be cut in front of each of its tokens. -/
theorem exists_append {xs ys : List Token} (h : Tiles offset cs (xs ++ ys)) :
    ∃ as bs, cs = as ++ bs ∧ Tiles (offset + byteLength as) bs ys := by
  generalize e : xs ++ ys = ts at h
  induction h generalizing xs with
  | nil =>
    obtain ⟨-, rfl⟩ := List.append_eq_nil_iff.mp e
    exact ⟨[], [], rfl, .nil⟩
  | @blank offset c cs ts blank rest ih =>
    obtain ⟨as, bs, rfl, tiles⟩ := ih e
    rw [Nat.add_assoc, ← byteLength_cons] at tiles
    exact ⟨c :: as, bs, rfl, tiles⟩
  | @lexeme offset kind cs after ts longest rest ih =>
    cases xs with
    | nil =>
      rw [List.nil_append] at e
      subst e
      exact ⟨[], cs ++ after, rfl, .lexeme longest rest⟩
    | cons x xs =>
      obtain ⟨as, bs, rfl, tiles⟩ := ih (List.cons.inj e).2
      rw [Nat.add_assoc, ← byteLength_append] at tiles
      exact ⟨cs ++ as, bs, (List.append_assoc _ _ _).symm, tiles⟩

/-- A text begins with blanks and its first token. -/
theorem exists_first {t : Token} {ts : List Token} (h : Tiles offset cs (t :: ts)) :
    ∃ gap after, cs = gap ++ (t.text.toList ++ after) ∧ (∀ c ∈ gap, isBlank c) ∧
      Lexeme t.kind t.text.toList ∧ t.span.start = offset + byteLength gap ∧
        Tiles (t.span.start + byteLength t.text.toList) after ts ∧
          t.span.stop = t.span.start + byteLength t.text.toList := by
  generalize e : t :: ts = all at h
  induction h with
  | nil => cases e
  | @blank offset c cs _ blank rest ih =>
    obtain ⟨gap, after, rfl, blanks, lexeme, start, rest⟩ := ih e
    rw [Nat.add_assoc, ← byteLength_cons] at start
    exact ⟨c :: gap, after, rfl, List.forall_mem_cons.mpr ⟨blank, blanks⟩, lexeme, start, rest⟩
  | @lexeme offset kind cs after _ longest rest ih =>
    obtain ⟨rfl, rfl⟩ := List.cons.inj e
    rw [String.toList_ofList]
    exact ⟨[], after, rfl, List.forall_mem_nil _, longest.lexeme, rfl, rest, rfl⟩

theorem slice_parentheses {read rest : List Token} {opening closing : Token}
    (h : Tiles 0 cs (read ++ opening :: closing :: rest)) (opens : opening.kind = .leftParen)
    (closes : closing.kind = .rightParen) :
    ∃ blanks, (∀ c ∈ blanks, isBlank c) ∧
      Slice cs ⟨opening.span.start, closing.span.stop⟩ ('(' :: (blanks ++ [')'])) := by
  obtain ⟨as, bs, rfl, tiles⟩ := h.exists_append
  obtain ⟨gap, after, rfl, -, first, start, tiles', -⟩ := tiles.exists_first
  obtain ⟨blanks, after, rfl, blank, second, start', -, stop⟩ := tiles'.exists_first
  rw [opens] at first
  rw [closes] at second
  rw [first.leftParen_inv] at start' ⊢
  rw [second.rightParen_inv] at stop ⊢
  refine ⟨blanks, blank, as ++ gap, after, by simp, ?_⟩
  rw [stop, start', start]
  simp [Nat.add_assoc]

end Tiles

/-! ## What an error points at

Said of the characters of the text and of the tokens, without a parse. -/

/-- The empty range behind the last of some tokens. -/
def Span.Behind (ts : List Token) (span : Span) : Prop :=
  ∃ last, ts.getLast? = some last ∧ span = .point last.span.stop

/-- What stands at the place of a fault in the text `cs` with the tokens `ts`. -/
def ParseFault.Marks (cs : List Char) (ts : List Token) (span : Span) : ParseFault → Prop
  | .emptyTokenList => False
  | .unboundVariable name | .undefinedFunction name => Slice cs span name.toList
  | .unexpectedToken found | .trailingTokens found | .unclosedParenthesis found |
    .missingCallParenthesis _ found | .unclosedCall _ found | .expectedVariableName found |
    .unclosedBrace _ found => Slice cs span found.toList ∨ found = "eof" ∧ span.Behind ts
  | .unexpectedEnd => span.Behind ts
  | .emptyParentheses =>
    ∃ blanks, (∀ c ∈ blanks, isBlank c) ∧ Slice cs span ('(' :: (blanks ++ [')']))
  | .nestingTooDeep _ | .expressionTooLarge _ => (∃ t ∈ ts, span = t.span) ∨ span.Behind ts

/-- An error has a place if there is something to point at, and what stands there is what the
error is about. -/
structure ExpressionError.Points (source : String) (e : ExpressionError) : Prop where
  span_eq_none_iff : e.span = none ↔
    e = .scan .emptyInput ∨ ∃ p, e = .parse p ∧ p.fault = .emptyTokenList
  within : ∀ span, e.span = some span → span.Within source.toList
  scan : ∀ c offset,
    e = .scan (.unsupportedCharset c offset) ∨ e = .scan (.unsupportedToken c offset) →
      ∃ span, e.span = some span ∧ Slice source.toList span [c]
  parse : ∀ p, e = .parse p → ∃ ts, tokenize source = .ok ts ∧
    ∀ span, p.span = some span → p.fault.Marks source.toList ts span

/-! ## The errors of a scan -/

theorem points_of_refused {source : String} {e : ScanError} (h : Refused source.toList e) :
    ExpressionError.Points source (.scan e) := by
  have named : ∀ {c : Char} {as bs : List Char}, source.toList = as ++ c :: bs →
      Slice source.toList ⟨byteLength as, byteLength as + c.utf8Size⟩ [c] :=
    fun split => ⟨_, _, split, by simp⟩
  cases h with
  | emptyInput =>
    refine ⟨⟨fun _ => .inl rfl, fun _ => rfl⟩, ?_, ?_, ?_⟩
    · rintro span ⟨⟩
    · rintro c offset (⟨⟨⟩⟩ | ⟨⟨⟩⟩)
    · rintro p ⟨⟩
  | unsupportedCharset split | unsupportedToken split =>
    refine ⟨⟨?_, ?_⟩, ?_, ?_, ?_⟩
    · rintro ⟨⟩
    · rintro (⟨⟨⟩⟩ | ⟨p, ⟨⟩, -⟩)
    · rintro span ⟨⟩
      exact (named split).within
    · rintro c offset (⟨⟨⟩⟩ | ⟨⟨⟩⟩)
      exact ⟨_, rfl, named split⟩
    · rintro p ⟨⟩

/-! ## The errors of a parse

What is known of the places among the tokens is translated into ranges of
the text, fault by fault. -/

section Parse

variable {source : String} {ts : List Token}

/-- A token at which a parse may stand is written in the text, or is the end of the expression
behind the last token. -/
theorem Token.Among.slice_or_behind (tiles : Tiles 0 source.toList ts) (nonempty : ts ≠ [])
    {t : Token} (h : t.Among ts) :
    t ∈ ts ∧ Slice source.toList t.span t.text.toList ∨
      t.kind = .eof ∧ t.text = "eof" ∧ t.span.Behind ts := by
  rcases h with mem | rfl
  · exact .inl ⟨mem, (tiles.stands [] rfl t mem).slice⟩
  · have last := List.getLast?_eq_some_getLast nonempty
    refine .inr ⟨rfl, rfl, ts.getLast nonempty, last, ?_⟩
    rw [Token.eof, Cursor.stopOf, last]
    rfl

theorem ParseFault.PlacedAt.marks (tiles : Tiles 0 source.toList ts) (nonempty : ts ≠ [])
    {f : ParseFault} {span : Span} (h : f.PlacedAt ts span) : f.Marks source.toList ts span := by
  cases h with
  | unboundVariable mem | undefinedFunction mem => exact (tiles.stands [] rfl _ mem).slice
  | @found _ t among found =>
    have marked : Slice source.toList t.span t.text.toList ∨ t.text = "eof" ∧ t.span.Behind ts :=
      (among.slice_or_behind tiles nonempty).imp And.right And.right
    cases f <;> cases found <;> exact marked
  | unexpectedEnd among eof =>
    rcases among.slice_or_behind tiles nonempty with ⟨mem, -⟩ | ⟨-, -, behind⟩
    · exact absurd eof (tiles.tokenization.kinds _ mem).1
    · exact behind
  | emptyParentheses split opens closes =>
    subst split
    exact tiles.slice_parentheses opens closes
  | nestingTooDeep among | expressionTooLarge among =>
    exact (among.slice_or_behind tiles nonempty).imp (fun h => ⟨_, h.1, rfl⟩) fun h => h.2.2

/-- Whatever stands at the place of a fault, the place is a range of the text. -/
theorem ParseFault.Marks.within (tiles : Tiles 0 source.toList ts) {f : ParseFault} {span : Span}
    (h : f.Marks source.toList ts span) : span.Within source.toList := by
  have behind : span.Behind ts → span.Within source.toList := by
    rintro ⟨last, mem, rfl⟩
    exact (tiles.stands [] rfl last (List.mem_of_getLast? mem)).slice.behind.within
  cases f with
  | emptyTokenList => exact h.elim
  | unboundVariable | undefinedFunction => exact Slice.within h
  | unexpectedEnd => exact behind h
  | emptyParentheses =>
    obtain ⟨blanks, -, slice⟩ := h
    exact slice.within
  | nestingTooDeep | expressionTooLarge =>
    rcases h with ⟨t, mem, rfl⟩ | h
    · exact (tiles.stands [] rfl t mem).slice.within
    · exact behind h
  | _ => exact h.elim Slice.within fun h => behind h.2

theorem points_of_parseTokens {scope : Scope} {e : ParseError} (scanned : tokenize source = .ok ts)
    (tiles : Tiles 0 source.toList ts) (h : (parseTokens scope ts).1.error = some e) :
    ExpressionError.Points source (.parse e) := by
  by_cases nonempty : ts = []
  · subst nonempty
    cases h
    refine ⟨⟨fun _ => .inr ⟨_, rfl, rfl⟩, fun _ => rfl⟩, ?_, ?_, ?_⟩
    · rintro span ⟨⟩
    · rintro c offset (⟨⟨⟩⟩ | ⟨⟨⟩⟩)
    · rintro p ⟨⟩
      refine ⟨[], scanned, ?_⟩
      rintro span ⟨⟩
  · obtain ⟨fault, place⟩ := e
    obtain ⟨span, rfl, placed⟩ := parseTokens_error_placed nonempty h
    have marks := placed.marks tiles nonempty
    refine ⟨⟨?_, ?_⟩, ?_, ?_, ?_⟩
    · rintro ⟨⟩
    · rintro (⟨⟨⟩⟩ | ⟨p, ⟨⟩, rfl⟩)
      exact marks.elim
    · rintro span ⟨⟩
      exact marks.within tiles
    · rintro c offset (⟨⟨⟩⟩ | ⟨⟨⟩⟩)
    · rintro p ⟨⟩
      refine ⟨ts, scanned, ?_⟩
      rintro span ⟨⟩
      exact marks

end Parse

/-! ## Whole texts -/

/-- An expression has no tree because its text is refused, or because a parse of its tokens has
noted an error. -/
theorem Scope.error_of_parse {scope : Scope} {source : String} {e : ExpressionError}
    (h : (scope.parse source).1 = .error e) :
    (∃ refusal, e = .scan refusal ∧ Refused source.toList refusal) ∨
      ∃ p ts, e = .parse p ∧ tokenize source = .ok ts ∧ Tiles 0 source.toList ts ∧
        (parseTokens scope ts).1.error = some p := by
  have outcome := tokenize_outcome source
  rw [Scope.parse_fst, Scope.parseRecovering_fst] at h
  cases scanned : tokenize source with
  | error refusal =>
    rw [scanned] at outcome h
    cases h
    cases outcome with
    | error refused => exact .inl ⟨refusal, rfl, refused⟩
  | ok ts =>
    rw [scanned] at outcome h
    have failed : ((parseTokens scope ts).1.result.mapError ExpressionError.parse) = .error e := h
    cases result : (parseTokens scope ts).1.result with
    | ok t =>
      rw [result] at failed
      cases failed
    | error p =>
      rw [result] at failed
      cases failed
      cases outcome with
      | ok _ _ tiles =>
        exact .inr ⟨p, ts, rfl, rfl, tiles, (result_eq_error_iff scope ts p).mp result⟩

theorem Scope.points_of_parse {scope : Scope} {source : String} {e : ExpressionError}
    (h : (scope.parse source).1 = .error e) : e.Points source := by
  rcases scope.error_of_parse h with ⟨_, rfl, refused⟩ | ⟨_, _, rfl, scanned, tiles, noted⟩
  · exact points_of_refused refused
  · exact points_of_parseTokens scanned tiles noted

/-- Every error of a parse or an evaluation points at the text that it is about. -/
theorem ExpressionError.points (source : String) (e : ExpressionError)
    (h : (∃ scope : Scope, (scope.parse source).1 = .error e) ∨
      ∃ (s : Session) (name : String), (s.step (.evaluate name source)).1 = .failed e) :
    e.Points source := by
  rcases h with ⟨scope, failed⟩ | ⟨s, name, failed⟩
  · exact Scope.points_of_parse failed
  · cases kept : s.scopes[name]? with
    | none =>
      simp only [Session.step, kept] at failed
      cases failed
    | some scope =>
      have answer := congrArg Prod.fst (Session.step_evaluate kept source)
      rw [failed] at answer
      cases parsed : (scope.parse source).1 with
      | ok t =>
        rw [parsed] at answer
        cases answer
      | error e' =>
        rw [parsed] at answer
        cases answer
        exact Scope.points_of_parse parsed

/-- In `(` and a wide blank and `)` the error covers both parentheses and the blank. -/
theorem ExpressionError.points_emptyParentheses :
    let e : ExpressionError := .parse ⟨.emptyParentheses, some ⟨0, 5⟩⟩
    (Scope.empty.parse "(\u2003)").1 = .error e ∧ e.Points "(\u2003)" := by
  intro e
  let ts : List Token := [⟨.leftParen, "(", ⟨0, 1⟩⟩, ⟨.rightParen, ")", ⟨4, 5⟩⟩]
  have scanned : tokenize "(\u2003)" = .ok ts := by
    simp [ts, tokenize, Arith.scan, refusal, findFullwidth, isFullwidth, scanFrom, isBlank,
      lexemeAt, Scan.result, Scan.cons, Char.utf8Size]
  have failed :
      (parseTokens Scope.empty ts).1.result = .error ⟨.emptyParentheses, some ⟨0, 5⟩⟩ := by
    rw [parseTokens, if_neg (by decide), @Parse.run_of_steps Scope.empty 10 ts _ rfl]
    rfl
  have h : (Scope.empty.parse "(\u2003)").1 = .error e := by
    rw [Scope.parse_fst, Scope.parseRecovering_fst, scanned]
    show (parseTokens Scope.empty ts).1.result.mapError ExpressionError.parse = .error e
    rw [failed]
    rfl
  exact ⟨h, points "(\u2003)" e (.inl ⟨Scope.empty, h⟩)⟩

end Arith
