/-
# The tokens of a written tree

What is written of a tree is scanned as the tokens that one would expect
(`tokenize_text`), with one exception: an infinite number is written as
`inf`, which is the name of a function.  The places of the tokens are of no
interest here, so that a token is only a word, its kind and its characters.

The words of a tree say where the tree ends only together with what is
written behind it, because a number or a name goes on as long as digits or
letters follow.  In a tree nothing but a blank, a comma or a closing
parenthesis follows a smaller tree (`Ends`).

A scan is therefore described from any place to any later one (`Scans`):
from characters it finds words and goes on with the rest, wherever in a text
it started.  Such descriptions are put one behind the other (`Scans.trans`),
and that of a written tree is put together in the order in which the tree is
written.
-/
import Arith.Expr.Printer
import Arith.Proofs.Number.Reading
import Arith.Proofs.Token.Tiling
import Arith.Proofs.Grammar.Grouping

namespace Arith

/-- A token without its place. -/
abbrev Word := TokenKind × List Char

def Token.word (t : Token) : Word := (t.kind, t.text.toList)

namespace Expr

/-- The word that a number is written as. -/
def numberWord (value : Float) : Word :=
  match magnitude value with
  | .infinite => (.functionName, floatChars value)
  | _ => (.number, floatChars value)

mutual

/-- The words that a tree is written as. -/
def words : Expr → List Word
  | .number value => [numberWord value]
  | .binary op left right =>
    (.leftParen, ['(']) :: (left.words ++ (op.kind, [op.symbol]) ::
      (right.words ++ [(.rightParen, [')'])]))
  | .var key _ => [(.leftBrace, ['{']), (.variableName, key.toList), (.rightBrace, ['}'])]
  | .call name _ arguments =>
    (.functionName, name.toList) :: (.leftParen, ['(']) ::
      (wordsAll arguments ++ [(.rightParen, [')'])])

def wordsAll : List Expr → List Word
  | [] => []
  | e :: es => e.words ++ wordsBehind es

/-- The words of further arguments, each behind a comma. -/
def wordsBehind : List Expr → List Word
  | [] => []
  | e :: es => (.comma, [',']) :: (e.words ++ wordsBehind es)

end

/-- The names and numbers that a parse puts into a node: no number is negative or undefined, and
names are written in letters. -/
def Plain : Expr → Prop
  | .number value => ∃ bits ≤ infinityBits, value = floatOfBits false bits
  | .binary _ _ _ => True
  | .var key _ => Lexeme .variableName key.toList
  | .call name _ _ => Lexeme .functionName name.toList

end Expr

/-! ## Scanning a part of a text -/

/-- A scan of `cs` finds `ws` and goes on with `rest`. -/
structure Scans (cs : List Char) (ws : List Word) (rest : List Char) : Prop where
  narrow : (∀ c ∈ rest, ¬ Fullwidth c) → ∀ c ∈ cs, ¬ Fullwidth c
  scan : ∀ offset, ∃ ts offset', ts.map Token.word = ws ∧
    scanFrom offset cs = ⟨ts ++ (scanFrom offset' rest).tokens, (scanFrom offset' rest).error⟩

namespace Scans

variable {cs rest last : List Char} {ws ws' : List Word}

theorem refl (cs : List Char) : Scans cs [] cs where
  narrow h := h
  scan offset := ⟨[], offset, rfl, rfl⟩

theorem trans (h : Scans cs ws rest) (h' : Scans rest ws' last) : Scans cs (ws ++ ws') last where
  narrow narrow := h.narrow (h'.narrow narrow)
  scan offset := by
    obtain ⟨ts, offset₁, rfl, e⟩ := h.scan offset
    obtain ⟨ts', offset₂, rfl, e'⟩ := h'.scan offset₁
    refine ⟨ts ++ ts', offset₂, List.map_append, ?_⟩
    rw [e, e', List.append_assoc]

theorem blank {c : Char} (blank : isBlank c) (narrow : ¬ Fullwidth c) (rest : List Char) :
    Scans (c :: rest) [] rest where
  narrow others := List.forall_mem_cons.mpr ⟨narrow, others⟩
  scan offset := by
    refine ⟨[], offset + c.utf8Size, rfl, ?_⟩
    rw [scanFrom, if_pos blank]
    rfl

theorem space (rest : List Char) : Scans (' ' :: rest) [] rest :=
  blank (by decide) (by decide) rest

theorem lexeme {kind : TokenKind} {c : Char} {more : List Char} (solid : ¬ isBlank c)
    (h : lexemeAt c (more ++ rest) = some (kind, more)) :
    Scans (c :: more ++ rest) [(kind, c :: more)] rest where
  narrow narrow := by
    obtain ⟨lexeme, -⟩ := lexeme_of_lexemeAt h
    exact List.forall_mem_append.mpr ⟨(lexeme.allAllowed []).narrow, narrow⟩
  scan offset := by
    refine ⟨[⟨kind, String.ofList (c :: more), ⟨offset, offset + byteLength (c :: more)⟩⟩],
      offset + byteLength (c :: more), ?_, ?_⟩
    · rw [List.map_singleton, Token.word, String.toList_ofList]
    · rw [List.cons_append, scanFrom, if_neg solid, h]
      simp only [List.drop_left]
      rfl

end Scans

/-- A text that is not empty is not refused before it is scanned, if a scan finds all of it. -/
theorem Scans.refusal_eq_none {cs : List Char} {ws : List Word} (h : Scans cs ws [])
    (nonempty : cs ≠ []) : refusal cs = none := by
  rw [refusal, if_neg (by rwa [List.isEmpty_iff])]
  rcases findFullwidth_outcome 0 cs with ⟨-, none⟩ | ⟨as, c, bs, split, -, wide, -⟩
  · exact none
  · exact absurd wide (h.narrow (List.forall_mem_nil _) c
      (split ▸ List.mem_append_right _ List.mem_cons_self))

/-- A text that is not empty has the words that a scan of all of it finds. -/
theorem Scans.tokenize {source : String} {ws : List Word} (h : Scans source.toList ws [])
    (nonempty : source.toList ≠ []) : ∃ ts, tokenize source = .ok ts ∧ ts.map Token.word = ws := by
  obtain ⟨ts, offset, words, scanned⟩ := h.scan 0
  rw [scanFrom, List.append_nil] at scanned
  refine ⟨ts, ?_, words⟩
  rw [Arith.tokenize, Arith.scan, h.refusal_eq_none nonempty]
  dsimp only
  rw [scanned]
  rfl

theorem Scans.words_eq_nil {ws : List Word} (h : Scans [] ws []) : ws = [] := by
  obtain ⟨ts, offset, rfl, scanned⟩ := h.scan 0
  rw [scanFrom, scanFrom, List.append_nil, Scan.mk.injEq] at scanned
  rw [← scanned.1]
  rfl

/-! ## Where numbers and names end -/

/-- What may follow a tree that is written in another one. -/
def Ends (rest : List Char) : Prop := ∀ c ∈ rest.head?, c ∈ [' ', ')', ',']

theorem ends_nil : Ends [] := by
  rintro c ⟨⟩

theorem ends_cons {c : Char} (h : c ∈ [' ', ')', ',']) (rest : List Char) : Ends (c :: rest) := by
  rintro d ⟨⟩
  exact h

theorem Ends.stops {rest : List Char} {p : Char → Bool} (h : Ends rest)
    (none : ∀ c ∈ [' ', ')', ','], ¬ p c) : ∀ c ∈ rest.head?, ¬ p c :=
  fun c hc => none c (h c hc)

theorem not_blank_of_digit {c : Char} (h : isDecimalDigit c) : ¬ isBlank c :=
  fun blank => not_numberPart_of_blank blank (numberPart_of_digit h)

theorem not_blank_of_letter {c : Char} (h : isSmallLetter c ∨ isCapitalLetter c) : ¬ isBlank c := by
  intro blank
  have high := toNat_of_letter h
  have low : 65 ≤ c.toNat := by
    simp only [isSmallLetter, isCapitalLetter, Bool.and_eq_true, decide_eq_true_eq] at h
    rcases h with h | h
    · exact Nat.le_trans (by decide) h.1
    · exact h.1
  simp only [isBlank, Bool.or_eq_true, Bool.and_eq_true, decide_eq_true_eq, beq_iff_eq] at blank
  omega

namespace Scans

variable {cs rest : List Char}

theorem number (h : Lexeme .number cs) (stops : ∀ c ∈ rest.head?, ¬ isNumberPart c) :
    Scans (cs ++ rest) [(.number, cs)] rest := by
  obtain ⟨c, more, rfl, digit, parts⟩ := h.number_inv
  refine lexeme (not_blank_of_digit digit) ?_
  rw [lexemeAt_of_digit digit, takeWhile_append_of_stops parts stops]

theorem functionName (h : Lexeme .functionName cs) (stops : ∀ c ∈ rest.head?, ¬ isSmallLetter c) :
    Scans (cs ++ rest) [(.functionName, cs)] rest := by
  obtain ⟨c, more, rfl, letters⟩ := h.functionName_inv
  rw [List.forall_mem_cons] at letters
  refine lexeme (not_blank_of_letter (.inl letters.1)) ?_
  rw [lexemeAt_of_small letters.1, takeWhile_append_of_stops letters.2 stops]

theorem variableName (h : Lexeme .variableName cs) (stops : ∀ c ∈ rest.head?, ¬ isCapitalLetter c) :
    Scans (cs ++ rest) [(.variableName, cs)] rest := by
  obtain ⟨c, more, rfl, letters⟩ := h.variableName_inv
  rw [List.forall_mem_cons] at letters
  refine lexeme (not_blank_of_letter (.inr letters.1)) ?_
  rw [lexemeAt_of_capital letters.1, takeWhile_append_of_stops letters.2 stops]

/-- Behind an operator a blank is written, so that no `*` becomes a part of `**`. -/
theorem symbol (op : Operator) (rest : List Char) :
    Scans (op.symbol :: ' ' :: rest) [(op.kind, [op.symbol])] (' ' :: rest) := by
  have solid : ¬ isBlank op.symbol := by cases op <;> decide
  refine @lexeme (' ' :: rest) op.kind op.symbol [] solid ?_
  cases op <;> rfl

theorem sign {kind : TokenKind} {c : Char} (solid : ¬ isBlank c)
    (h : lexemeAt c rest = some (kind, [])) : Scans (c :: rest) [(kind, [c])] rest :=
  @lexeme rest kind c [] solid h

theorem opening (rest : List Char) : Scans ('(' :: rest) [(.leftParen, ['('])] rest :=
  sign (by decide) rfl

theorem closing (rest : List Char) : Scans (')' :: rest) [(.rightParen, [')'])] rest :=
  sign (by decide) rfl

theorem comma (rest : List Char) : Scans (',' :: rest) [(.comma, [','])] rest :=
  sign (by decide) rfl

theorem braced {name : List Char} (h : Lexeme .variableName name) (rest : List Char) :
    Scans ('{' :: (name ++ '}' :: rest))
      [(.leftBrace, ['{']), (.variableName, name), (.rightBrace, ['}'])] rest := by
  have opened : Scans ('{' :: (name ++ '}' :: rest)) [(.leftBrace, ['{'])] _ := sign (by decide) rfl
  have key : Scans (name ++ '}' :: rest) [(.variableName, name)] ('}' :: rest) :=
    variableName h (by rintro c ⟨⟩; decide)
  have closed : Scans ('}' :: rest) [(.rightBrace, ['}'])] rest := sign (by decide) rfl
  exact opened.trans (key.trans closed)

end Scans

/-! ## Scanning a written tree -/

namespace Expr

theorem floatChars_infinity : floatChars (floatOfBits false infinityBits) = ['i', 'n', 'f'] := by
  rw [floatChars, magnitude_infinity, isNegative_floatOfBits false (Nat.le_refl _)]
  rfl

theorem scans_number {value : Float} (plain : (number value).Plain) {rest : List Char}
    (ends : Ends rest) : Scans (floatChars value ++ rest) [numberWord value] rest := by
  obtain ⟨bits, le, rfl⟩ := plain
  rcases Nat.lt_or_eq_of_le le with lt | rfl
  · have word : numberWord (floatOfBits false bits) =
        (.number, floatChars (floatOfBits false bits)) := by
      rw [numberWord, magnitude_floatOfBits false lt]
    rw [word]
    exact .number (lexeme_floatChars lt) (ends.stops (by simp [isNumberPart, isDecimalDigit]))
  · have word : numberWord (floatOfBits false infinityBits) =
        (.functionName, floatChars (floatOfBits false infinityBits)) := by
      rw [numberWord, magnitude_infinity]
    rw [word, floatChars_infinity]
    have letters : ∀ c ∈ ['i', 'n', 'f'], isSmallLetter c := by simp [isSmallLetter]
    exact .functionName (.functionName (List.cons_ne_nil _ _) letters)
      (ends.stops (by simp [isSmallLetter]))

theorem ends_writeFurther (es : List Expr) {rest : List Char} (ends : Ends rest) :
    Ends (writeFurther es rest) := by
  cases es with
  | nil => exact ends
  | cons e es => exact ends_cons (by decide) _

mutual

theorem scans_write : ∀ (e : Expr) {rest : List Char}, (∀ n ∈ e.nodes, n.Plain) → Ends rest →
    Scans (e.write rest) e.words rest
  | .number value, rest, plain, ends => scans_number (plain _ List.mem_cons_self) ends
  | .var key value, rest, plain, _ => by
    have name : Lexeme .variableName key.toList := plain _ List.mem_cons_self
    exact .braced name rest
  | .binary op left right, rest, plain, _ => by
    rw [nodes_binary, List.forall_mem_cons, List.forall_mem_append] at plain
    have first := left.scans_write plain.2.1
      (ends_cons (by decide : ' ' ∈ _) (op.symbol :: ' ' :: right.write (')' :: rest)))
    have symbol := Scans.symbol op (right.write (')' :: rest))
    have second := right.scans_write plain.2.2 (ends_cons (by decide : ')' ∈ _) rest)
    exact (Scans.opening _).trans (first.trans ((Scans.space _).trans (symbol.trans
      ((Scans.space _).trans (second.trans (.closing rest))))))
  | .call name callee arguments, rest, plain, _ => by
    rw [nodes_call, List.forall_mem_cons] at plain
    have name : Scans (name.toList ++ '(' :: writeArguments arguments (')' :: rest))
        [(.functionName, name.toList)] ('(' :: writeArguments arguments (')' :: rest)) :=
      .functionName plain.1 (by rintro c ⟨⟩; decide)
    have arguments := scans_writeArguments arguments plain.2 (ends_cons (by decide : ')' ∈ _) rest)
    exact name.trans ((Scans.opening _).trans (arguments.trans (.closing rest)))

theorem scans_writeArguments : ∀ (es : List Expr) {rest : List Char},
    (∀ n ∈ es.flatMap nodes, n.Plain) → Ends rest →
      Scans (writeArguments es rest) (wordsAll es) rest
  | [], _, _, _ => .refl _
  | e :: es, rest, plain, ends => by
    rw [List.flatMap_cons, List.forall_mem_append] at plain
    exact (e.scans_write plain.1 (ends_writeFurther es ends)).trans
      (scans_writeFurther es plain.2 ends)

theorem scans_writeFurther : ∀ (es : List Expr) {rest : List Char},
    (∀ n ∈ es.flatMap nodes, n.Plain) → Ends rest →
      Scans (writeFurther es rest) (wordsBehind es) rest
  | [], _, _, _ => .refl _
  | e :: es, rest, plain, ends => by
    rw [List.flatMap_cons, List.forall_mem_append] at plain
    exact (Scans.comma _).trans ((Scans.space _).trans
      ((e.scans_write plain.1 (ends_writeFurther es ends)).trans
        (scans_writeFurther es plain.2 ends)))

end

theorem words_ne_nil (e : Expr) : e.words ≠ [] := by
  cases e <;> rw [words] <;> exact List.cons_ne_nil _ _

theorem tokenize_text {e : Expr} (plain : ∀ n ∈ e.nodes, n.Plain) :
    ∃ ts, tokenize e.text = .ok ts ∧ ts.map Token.word = e.words := by
  have scans := e.scans_write plain ends_nil
  have chars : e.text.toList = e.write [] := by rw [text, String.toList_ofList]
  rw [← chars] at scans
  refine scans.tokenize fun empty => ?_
  rw [empty] at scans
  exact e.words_ne_nil (scans.words_eq_nil)

end Expr

end Arith
