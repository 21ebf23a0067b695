/-
# The mark below a line

A mark covers the characters of a range up to the end of their line.  It is
counted on the line as it stands in the text, while the line is shown
without the carriage returns at its end.  So a mark of several characters is
as long as the range asks for and ends below the line that is shown, unless
the range goes on behind a line that ends with a carriage return: of
`(\r\n)` the line is shown as `(`, with the mark `^~` below it.

Of the errors of a parse only a pair of parentheses with nothing between
them can have such a range; the range of every other error is one token, one
character or empty.

What may stand between two parentheses is blanks, and these may be line
ends, while a token holds no carriage return and neither does a character
that is refused.  So the exception is not an accident of one text: it is met
wherever the first line between the two ends with a carriage return, and
nowhere else.

**Proved here.**

    which marks end below the line that is shown              (`Excerpt.ofSpan_markFits_iff`)
    every mark ends below the line with its carriage returns  (`Excerpt.ofSpan_overhang`)
    which errors of a parse have a mark that ends there       (`ExpressionError.markFits_iff`)
    two parentheses on lines that end with `\r\n` do not      (`Scope.not_markFits_parentheses`)
-/
import Arith.Proofs.Parse.Pointing
import Arith.Proofs.Text.Excerpt
import Arith.Proofs.Token.Spacing

namespace Arith

/-- The mark of an excerpt is a single caret, or it ends below the line that is shown. -/
def Excerpt.MarkFits (e : Excerpt) : Prop :=
  e.width = 1 ∨ e.place.column - 1 + e.width ≤ e.line.length

/-- A range of a text goes on behind its first line, which ends with a carriage return and does
not consist of it alone. -/
def PassesReturn (cs : List Char) (span : Span) : Prop :=
  ∃ front rest, front ≠ [] ∧ '\n' ∉ front ∧ Slice cs span (front ++ '\r' :: '\n' :: rest)

/-- The line of a text in which a range starts, with the carriage returns at its end. -/
def lineOf (cs : List Char) (span : Span) : List Char :=
  lastLine (splitAtByte cs span.start).1 ++ (splitAtByte cs span.start).2.takeWhile insideLine

/-! ## Ranges with several lines -/

theorem takeWhile_insideLine_cases (cs : List Char) :
    cs.takeWhile insideLine = cs ∨ ∃ rest, cs.takeWhile insideLine ++ '\n' :: rest = cs := by
  have whole := List.takeWhile_append_dropWhile (p := insideLine) (l := cs)
  rcases dropWhile_insideLine cs with none | ⟨rest, some⟩
  · rw [none, List.append_nil] at whole
    exact .inl whole
  · rw [some] at whole
    exact .inr ⟨rest, whole⟩

namespace Slice

variable {cs mid mid' : List Char} {span : Span}

theorem unique (h : Slice cs span mid) (h' : Slice cs span mid') : mid = mid' :=
  Option.some.inj (h.part?_eq.symm.trans h'.part?_eq)

theorem not_passesReturn (h : Slice cs span mid) (none : '\r' ∉ mid) : ¬ PassesReturn cs span := by
  rintro ⟨front, rest, -, -, passes⟩
  rw [h.unique passes] at none
  exact none (List.mem_append_right _ List.mem_cons_self)

/-- A range passes a carriage return if it goes on behind its first line and that ends with one. -/
theorem passesReturn_iff (h : Slice cs span mid) :
    PassesReturn cs span ↔ mid.takeWhile insideLine ≠ mid ∧
      ∃ front, front ≠ [] ∧ mid.takeWhile insideLine = front ++ ['\r'] := by
  constructor
  · rintro ⟨front, rest, nonempty, inside, passes⟩
    have split : mid = (front ++ ['\r']) ++ '\n' :: rest := by
      rw [h.unique passes, List.append_assoc, List.singleton_append]
    have inside' : '\n' ∉ front ++ ['\r'] := by
      rw [List.mem_append, List.mem_singleton]
      rintro (mem | mem)
      · exact inside mem
      · cases mem
    have first : mid.takeWhile insideLine = front ++ ['\r'] := by
      rw [split, takeWhile_insideLine_append inside']
      exact List.append_nil _
    refine ⟨fun whole => ?_, front, nonempty, first⟩
    rw [first, split, List.self_eq_append_right] at whole
    cases whole
  · rintro ⟨more, front, nonempty, first⟩
    have inside := not_mem_takeWhile_insideLine mid
    obtain ⟨rest, whole⟩ := (takeWhile_insideLine_cases mid).resolve_left more
    rw [first] at inside whole
    refine ⟨front, rest, nonempty, fun mem => inside (List.mem_append_left _ mem), ?_⟩
    rw [List.append_assoc, List.singleton_append] at whole
    rwa [whole]

end Slice

/-! ## The length of a mark

The shown line is the line of the text without a run of carriage returns.
Whether a mark that starts in it ends in it is a question about the last
character under the mark only: if that is no carriage return it is shown,
and all before it. -/

/-- What ends with a character that stays is not cut. -/
theorem length_le_dropTrailing {p : Char → Bool} {cs : List Char}
    (last : ∀ c, cs.getLast? = some c → p c = false) (more : List Char) :
    cs.length ≤ (dropTrailing p (cs ++ more)).length := by
  have stays : cs.reverse.dropWhile p = cs.reverse := by
    cases e : cs.reverse with
    | nil => rfl
    | cons c ds =>
      refine List.dropWhile_cons_of_neg ?_
      rw [last c (by rw [List.getLast?_eq_head?_reverse, e]; rfl)]
      exact Bool.false_ne_true
  rw [dropTrailing, List.length_reverse, List.reverse_append, List.dropWhile_append]
  split
  · rw [stays, List.length_reverse]
  · rw [List.length_append, List.length_reverse]
    exact Nat.le_add_left _ _

/-- A last character that goes does not count. -/
theorem length_dropTrailing_concat_le {p : Char → Bool} {c : Char} (h : p c) (cs : List Char) :
    (dropTrailing p (cs ++ [c])).length ≤ cs.length := by
  rw [dropTrailing, List.reverse_append, List.reverse_singleton, List.singleton_append,
    List.dropWhile_cons_of_pos h, List.length_reverse]
  exact Nat.le_trans (List.dropWhile_sublist p).length_le (Nat.le_of_eq List.length_reverse)

namespace Excerpt

theorem ofSpan_append (before mid after : List Char) :
    ofSpan (before ++ (mid ++ after)) ⟨byteLength before, byteLength before + byteLength mid⟩ =
      { place := Location.after before
        line := dropTrailing (· == '\r') (lastLine before ++ (mid ++ after).takeWhile insideLine)
        width := max (mid.takeWhile insideLine).length 1 } := by
  simp only [ofSpan, splitAtByte_append_byteLength, Nat.add_sub_cancel_left]

theorem exists_line_eq (before mid after : List Char) : ∃ more,
    lastLine before ++ (mid ++ after).takeWhile insideLine =
      lastLine before ++ mid.takeWhile insideLine ++ more := by
  rw [List.takeWhile_append]
  split
  · next whole =>
    rw [(List.takeWhile_prefix insideLine).eq_of_length whole, ← List.append_assoc]
    exact ⟨_, rfl⟩
  · exact ⟨[], (List.append_nil _).symm⟩

section Range

variable {before mid after : List Char}

/-- A mark that does not end on a carriage return ends below its line. -/
theorem markFits_of_getLast? (last : (mid.takeWhile insideLine).getLast? ≠ some '\r') :
    (ofSpan (before ++ (mid ++ after))
      ⟨byteLength before, byteLength before + byteLength mid⟩).MarkFits := by
  rw [ofSpan_append]
  by_cases nonempty : mid.takeWhile insideLine = []
  · exact .inl (by rw [nonempty]; rfl)
  · refine .inr ?_
    obtain ⟨more, line⟩ := exists_line_eq before mid after
    have stays : ∀ c, (lastLine before ++ mid.takeWhile insideLine).getLast? = some c →
        (c == '\r') = false := by
      intro c mem
      rw [List.getLast?_append_of_ne_nil _ nonempty] at mem
      exact beq_eq_false_iff_ne.mpr fun e => last (e ▸ mem)
    have kept := length_le_dropTrailing stays more
    have pos := List.length_pos_of_ne_nil nonempty
    rw [line]
    show (lastLine before).length + max (mid.takeWhile insideLine).length 1 ≤
      (dropTrailing _ _).length
    rw [List.length_append] at kept
    omega

/-- A mark of several characters that ends on the carriage return of its line goes further than
the line that is shown. -/
theorem not_markFits_of_return {front : List Char} (nonempty : front ≠ [])
    (first : mid.takeWhile insideLine = front ++ ['\r']) (more : mid.takeWhile insideLine ≠ mid) :
    ¬ (ofSpan (before ++ (mid ++ after))
      ⟨byteLength before, byteLength before + byteLength mid⟩).MarkFits := by
  -- The range goes on behind its first line, so nothing of the line stands behind the mark.
  have line : (mid ++ after).takeWhile insideLine = front ++ ['\r'] := by
    rw [List.takeWhile_append,
      if_neg fun e => more ((List.takeWhile_prefix insideLine).eq_of_length e), first]
  have short := @length_dropTrailing_concat_le (· == '\r') '\r' rfl (lastLine before ++ front)
  have pos := List.length_pos_of_ne_nil nonempty
  rw [ofSpan_append, line, first, ← List.append_assoc, List.length_append, List.length_singleton]
  rw [List.length_append] at short
  show ¬ (max (front.length + 1) 1 = 1 ∨
    (lastLine before).length + max (front.length + 1) 1 ≤ (dropTrailing _ _).length)
  omega

end Range

/-- The mark of a range ends below its line unless the range passes a carriage return.  It is
assumed that the range itself does not end with one. -/
theorem ofSpan_markFits_iff {cs mid : List Char} {span : Span} (h : Slice cs span mid)
    (last : mid.getLast? ≠ some '\r') :
    (ofSpan cs span).MarkFits ↔ ¬ PassesReturn cs span := by
  rw [h.passesReturn_iff]
  obtain ⟨before, after, rfl, rfl⟩ := h
  constructor
  · rintro fits ⟨more, front, nonempty, first⟩
    exact not_markFits_of_return nonempty first more fits
  · intro passes
    by_cases returns : (mid.takeWhile insideLine).getLast? = some '\r'
    · have more : mid.takeWhile insideLine ≠ mid := fun whole => last (whole ▸ returns)
      obtain ⟨front, first⟩ := List.getLast?_eq_some_iff.mp returns
      by_cases nonempty : front = []
      · rw [ofSpan_append, first, nonempty]
        exact .inl rfl
      · exact absurd ⟨more, front, nonempty, first⟩ passes
    · exact markFits_of_getLast? returns

/-- A mark of several characters ends below the line of the text, if not below the line that is
shown. -/
theorem ofSpan_overhang (cs : List Char) (span : Span) : (ofSpan cs span).width = 1 ∨
    (ofSpan cs span).place.column - 1 + (ofSpan cs span).width ≤ (lineOf cs span).length := by
  let before := (splitAtByte cs span.start).1
  let after := (splitAtByte cs span.start).2
  let marked := (splitAtByte after (span.stop - byteLength before)).1
  obtain ⟨more, line⟩ :=
    exists_line_eq before marked (splitAtByte after (span.stop - byteLength before)).2
  rw [splitAtByte_append] at line
  rw [lineOf, line, List.length_append, List.length_append]
  show max (marked.takeWhile insideLine).length 1 = 1 ∨
    (lastLine before).length + max (marked.takeWhile insideLine).length 1 ≤ _
  omega

end Excerpt

/-! ## The ranges of errors

By `ParseFault.PlacedAt` an error of a parse is about a token, about the
place behind one, or about everything from an opening parenthesis to a
closing one; only the last can have a line end inside. -/

section Errors

variable {source : String} {ts : List Token}

theorem Token.Among.exists_slice (tiles : Tiles 0 source.toList ts) (nonempty : ts ≠ []) {t : Token}
    (h : t.Among ts) : ∃ mid, Slice source.toList t.span mid ∧ '\r' ∉ mid := by
  have written : ∀ t ∈ ts, ∃ mid, Slice source.toList t.span mid ∧ '\r' ∉ mid := by
    intro t mem
    obtain ⟨before, lexeme, after, split, longest, -, span⟩ := tiles.stands [] rfl t mem
    exact ⟨lexeme, ⟨before, after, split, span⟩, fun mem => longest.lexeme.not_blank _ mem rfl⟩
  rcases h.slice_or_behind tiles nonempty with ⟨mem, -⟩ | ⟨-, -, last, mem, span⟩
  · exact written t mem
  · obtain ⟨mid, slice, -⟩ := written last (List.mem_of_getLast? mem)
    exact ⟨[], span ▸ slice.behind, List.not_mem_nil⟩

/-- The range of an error of a parse holds no carriage return, or it is that of two parentheses. -/
theorem ParseFault.PlacedAt.exists_slice (tiles : Tiles 0 source.toList ts) (nonempty : ts ≠ [])
    {f : ParseFault} {span : Span} (h : f.PlacedAt ts span) : ∃ mid, Slice source.toList span mid ∧
      ('\r' ∉ mid ∨ f = .emptyParentheses ∧ mid.getLast? = some ')') := by
  have among : ∀ {t : Token}, t.Among ts → ∃ mid, Slice source.toList t.span mid ∧
      ('\r' ∉ mid ∨ f = .emptyParentheses ∧ mid.getLast? = some ')') := by
    intro t h
    obtain ⟨mid, slice, none⟩ := h.exists_slice tiles nonempty
    exact ⟨mid, slice, .inl none⟩
  cases h with
  | unboundVariable mem | undefinedFunction mem => exact among (.inl mem)
  | found h | unexpectedEnd h | nestingTooDeep h | expressionTooLarge h => exact among h
  | emptyParentheses split opens closes =>
    subst split
    obtain ⟨blanks, -, slice⟩ := tiles.slice_parentheses opens closes
    refine ⟨_, slice, .inr ⟨rfl, ?_⟩⟩
    rw [← List.cons_append, List.getLast?_concat]

theorem Refused.exists_slice {e : ScanError} {span : Span} (h : Refused source.toList e)
    (placed : e.span = some span) : ∃ mid, Slice source.toList span mid ∧ '\r' ∉ mid := by
  cases h with
  | emptyInput => cases placed
  | @unsupportedCharset as bs c split _ wide =>
    cases placed
    refine ⟨[c], ⟨as, bs, split, by simp⟩, ?_⟩
    rw [List.mem_singleton]
    rintro rfl
    exact absurd wide (by decide)
  | @unsupportedToken as bs c split _ _ refused =>
    cases placed
    refine ⟨[c], ⟨as, bs, split, by simp⟩, ?_⟩
    rw [List.mem_singleton]
    rintro rfl
    exact refused (.blank rfl (by decide))

end Errors

/-- The range of an error of an expression holds no carriage return, or it is that of two
parentheses. -/
theorem Scope.exists_slice_of_parse {scope : Scope} {source : String} {e : ExpressionError}
    {span : Span} (h : (scope.parse source).1 = .error e) (placed : e.span = some span) :
    ∃ mid, Slice source.toList span mid ∧
      ('\r' ∉ mid ∨ (∃ p, e = .parse p ∧ p.fault = .emptyParentheses) ∧
        mid.getLast? = some ')') := by
  rcases scope.error_of_parse h with ⟨_, rfl, refused⟩ | ⟨p, ts, rfl, -, tiles, noted⟩
  · obtain ⟨mid, slice, none⟩ := refused.exists_slice placed
    exact ⟨mid, slice, .inl none⟩
  · by_cases nonempty : ts = []
    · subst nonempty
      cases noted
      cases placed
    · obtain ⟨span', place, placedAt⟩ := parseTokens_error_placed nonempty noted
      cases Option.some.inj (place.symm.trans placed)
      obtain ⟨mid, slice, kind⟩ := placedAt.exists_slice tiles nonempty
      exact ⟨mid, slice, kind.imp_right fun h => ⟨⟨p, rfl, h.1⟩, h.2⟩⟩

/-! ## Two parentheses on several lines -/

section Parentheses

variable {source : String} {blanks : List Char}

theorem scanFrom_blanks (blank : ∀ c ∈ blanks, isBlank c ∧ c ≠ '\u3000') (offset : Nat)
    (rest : List Char) :
    scanFrom offset (blanks ++ rest) = scanFrom (offset + byteLength blanks) rest := by
  induction blanks generalizing offset with
  | nil => rfl
  | cons c blanks ih =>
    rw [List.forall_mem_cons] at blank
    rw [List.cons_append, scanFrom, if_pos blank.1.1, ih blank.2, byteLength_cons, Nat.add_assoc]

theorem tokenize_parentheses (text : source.toList = '(' :: (blanks ++ [')']))
    (blank : ∀ c ∈ blanks, isBlank c ∧ c ≠ '\u3000') : tokenize source =
      .ok [⟨.leftParen, "(", ⟨0, 1⟩⟩,
        ⟨.rightParen, ")", ⟨1 + byteLength blanks, 1 + byteLength blanks + 1⟩⟩] := by
  have scanned : scanFrom 0 source.toList = ⟨[⟨.leftParen, "(", ⟨0, 1⟩⟩,
      ⟨.rightParen, ")", ⟨1 + byteLength blanks, 1 + byteLength blanks + 1⟩⟩], none⟩ := by
    have opening : ∀ n rest, scanFrom n ('(' :: rest) =
        .cons ⟨.leftParen, "(", ⟨n, n + 1⟩⟩ (scanFrom (n + 1) rest) := by
      intro n rest
      rw [scanFrom]
      rfl
    have closing : ∀ n rest, scanFrom n (')' :: rest) =
        .cons ⟨.rightParen, ")", ⟨n, n + 1⟩⟩ (scanFrom (n + 1) rest) := by
      intro n rest
      rw [scanFrom]
      rfl
    rw [text, opening, scanFrom_blanks blank, closing, scanFrom, Nat.zero_add]
    rfl
  have scans : Scans source.toList _ [] :=
    text ▸ (Scans.opening _).trans ((Scans.blanks blank _).trans (Scans.closing []))
  have nonempty : source.toList ≠ [] := text ▸ List.cons_ne_nil _ _
  rw [tokenize, Arith.scan, scans.refusal_eq_none nonempty]
  show (scanFrom 0 source.toList).result = _
  rw [scanned]
  rfl

/-- Two parentheses with nothing but blanks between them are an error, which covers the text from
the one to the other. -/
theorem Scope.parse_parentheses (scope : Scope) (text : source.toList = '(' :: (blanks ++ [')']))
    (blank : ∀ c ∈ blanks, isBlank c ∧ c ≠ '\u3000') : (scope.parse source).1 =
      .error (.parse ⟨.emptyParentheses, some ⟨0, 1 + byteLength blanks + 1⟩⟩) := by
  let ts : List Token := [⟨.leftParen, "(", ⟨0, 1⟩⟩,
    ⟨.rightParen, ")", ⟨1 + byteLength blanks, 1 + byteLength blanks + 1⟩⟩]
  have nonempty : ¬ ts.isEmpty = true := Bool.false_ne_true
  have failed : (parseTokens scope ts).1.result =
      .error ⟨.emptyParentheses, some ⟨0, 1 + byteLength blanks + 1⟩⟩ := by
    rw [parseTokens, if_neg nonempty, @Parse.run_of_steps scope 10 ts _ rfl]
    rfl
  rw [Scope.parse_fst, Scope.parseRecovering_fst, tokenize_parentheses text blank]
  show (parseTokens scope ts).1.result.mapError ExpressionError.parse = _
  rw [failed]
  rfl

theorem slice_whole (text : source.toList = '(' :: (blanks ++ [')'])) :
    Slice source.toList ⟨0, 1 + byteLength blanks + 1⟩ ('(' :: (blanks ++ [')'])) := by
  refine ⟨[], [], by rw [List.append_nil, text]; rfl, ?_⟩
  rw [byteLength_cons, byteLength_append, byteLength_nil, Nat.zero_add, ← Nat.add_assoc]
  rfl

/-- Wherever two parentheses have nothing between them but blanks with a first line that ends with a
carriage return, the mark of the error goes further than the line. -/
theorem Scope.not_markFits_parentheses (scope : Scope) {front back : List Char}
    (text : source.toList = '(' :: ((front ++ '\r' :: '\n' :: back) ++ [')']))
    (inside : '\n' ∉ front)
    (blank : ∀ c ∈ front ++ '\r' :: '\n' :: back, isBlank c ∧ c ≠ '\u3000') :
    ∃ e span, (scope.parse source).1 = .error e ∧ e.span = some span ∧
      ¬ (Excerpt.ofSpan source.toList span).MarkFits := by
  have whole := slice_whole text
  have last : ('(' :: ((front ++ '\r' :: '\n' :: back) ++ [')'])).getLast? ≠ some '\r' := by
    rw [← List.cons_append, List.getLast?_concat]
    rintro ⟨⟩
  refine ⟨_, _, scope.parse_parentheses text blank, rfl, ?_⟩
  rw [Excerpt.ofSpan_markFits_iff whole last, not_not]
  refine ⟨'(' :: front, back ++ [')'], List.cons_ne_nil _ _, ?_, ?_⟩
  · rw [List.mem_cons]
    rintro (mem | mem)
    · cases mem
    · exact inside mem
  · rwa [List.append_assoc] at whole

end Parentheses

/-! ## The marks of errors -/

/-- The mark of an error of a parse is a single caret or ends below the line that is shown, unless
the error is about two parentheses with a line end between them that has a carriage return.  Then
it goes further, but still ends below the line with the carriage returns that it is shown
without. -/
theorem ExpressionError.markFits_iff (scope : Scope) (source : String) (e : ExpressionError)
    (span : Span) (failed : (scope.parse source).1 = .error e) (placed : e.span = some span) :
    let shown := Excerpt.ofSpan source.toList span
    shown.ShownIn e.message (e.render source) ∧
      (shown.MarkFits ↔ ¬ PassesReturn source.toList span) ∧
      (PassesReturn source.toList span → ∃ p, e = .parse p ∧ p.fault = .emptyParentheses) ∧
      shown.line = dropTrailing (· == '\r') (lineOf source.toList span) ∧
      (shown.width = 1 ∨
        shown.place.column - 1 + shown.width ≤ (lineOf source.toList span).length) := by
  intro shown
  obtain ⟨mid, slice, kind⟩ := scope.exists_slice_of_parse failed placed
  have last : mid.getLast? ≠ some '\r' := by
    intro last
    rcases kind with none | ⟨-, last'⟩
    · exact none (List.mem_of_getLast? last)
    · cases last.symm.trans last'
  refine ⟨?_, Excerpt.ofSpan_markFits_iff slice last, fun passes => ?_, rfl,
    Excerpt.ofSpan_overhang _ span⟩
  · rw [ExpressionError.render, placed]
    exact Excerpt.lines_shownIn (Excerpt.ofSpan_locates _ span).not_mem_line e.message
  · exact (kind.resolve_left fun none => slice.not_passesReturn none passes).1

/-- Two parentheses on two lines are marked with a single caret. -/
theorem ExpressionError.markFits_lineFeed :
    let e : ExpressionError := .parse ⟨.emptyParentheses, some ⟨0, 3⟩⟩
    (Scope.empty.parse "(\n)").1 = .error e ∧ e.span = some ⟨0, 3⟩ ∧
      (Excerpt.ofSpan "(\n)".toList ⟨0, 3⟩).ShownIn e.message (e.render "(\n)") ∧
      ¬ PassesReturn "(\n)".toList ⟨0, 3⟩ := by
  intro e
  have failed : (Scope.empty.parse "(\n)").1 = .error e :=
    @Scope.parse_parentheses _ ['\n'] Scope.empty rfl (List.forall_mem_singleton.mpr (by decide))
  have shown := ExpressionError.markFits_iff Scope.empty "(\n)" e ⟨0, 3⟩ failed rfl
  exact ⟨failed, rfl, shown.1, shown.2.1.mp (.inl rfl)⟩

/-- With a carriage return at the end of the first line, the mark has two characters below a line
of one. -/
theorem ExpressionError.not_markFits_returnLineFeed :
    let e : ExpressionError := .parse ⟨.emptyParentheses, some ⟨0, 4⟩⟩
    (Scope.empty.parse "(\r\n)").1 = .error e ∧ e.span = some ⟨0, 4⟩ ∧
      e.render "(\r\n)" =
        "error: empty parentheses expression\n --> line 1, col 1\n  |\n1 | (\n  | ^~" ∧
      ¬ (Excerpt.ofSpan "(\r\n)".toList ⟨0, 4⟩).MarkFits := by
  intro e
  have blank : ∀ c ∈ ['\r', '\n'], isBlank c ∧ c ≠ '\u3000' :=
    List.forall_mem_cons.mpr ⟨by decide, List.forall_mem_singleton.mpr (by decide)⟩
  refine ⟨@Scope.parse_parentheses _ _ Scope.empty rfl blank, rfl, rfl, ?_⟩
  rintro (single | fits)
  · cases single
  · exact absurd fits (by decide)

end Arith
