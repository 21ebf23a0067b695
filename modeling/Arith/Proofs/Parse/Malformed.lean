/-
# Numbers that cannot be read

A number with a second point in it counts as zero, and a note of it is
taken.  Beside the notes that have been taken stand the tokens of this kind
that are still ahead: both together are what there was in the beginning,
less what has been skipped where an error was found (`Accounts`).  No reader
does anything else to them, rule by rule (`accounts_of_reads`), so without
an error the notes at the end are about all such tokens, in their order.

That exactly these numerals cannot be read is a fact about the reader of
numbers (`Arith.Proofs.Number.Numerals`), and that the texts of numbers are
numerals is one about the scanner.  Here both are put together with what a
parse does, so that the statement is about the text.

The sign of a number is not part of its numeral.  What is negative is
written as a negation, which is a difference from zero; so of the numbers in
the leaves none is negative, and none is undefined.
-/
import Arith.Proofs.Parse.Built
import Arith.Proofs.Print.Leaves

namespace Arith

/-- A number that cannot be read. -/
def Token.isMalformed (t : Token) : Bool :=
  t.kind == .number && (readFloat t.text.toList).toOption.isNone

/-- A number with more points than one. -/
def Token.hasPoints (t : Token) : Bool := t.kind == .number && 1 < t.text.toList.count '.'

/-- What is told of a number that cannot be read. -/
def Token.malformedRecord (t : Token) : Record :=
  ⟨.debug, .parser, s!"malformed number '{t.text}' at {t.span.text}, using 0"⟩

/-- The number that a note is about. -/
def Note.malformed? : Note → Option Token
  | .error _ _ => none
  | .malformedNumber t => some t

/-- The numbers that cannot be read and of which a note has been taken, the first one first. -/
def Journal.malformed (j : Journal) : List Token := j.notes.reverse.filterMap Note.malformed?

/-! ## Notes and records

Among the records of a parse those about numbers are found by their level
and their origin. -/

/-- A parse tells nothing else at this level. -/
def Record.isOfNumber (r : Record) : Bool := r.origin == .parser && r.level == .debug

theorem filter_recordsFrom (seen : Bool) (notes : List Note) :
    (Journal.recordsFrom seen notes).filter Record.isOfNumber =
      (notes.filterMap Note.malformed?).map Token.malformedRecord := by
  induction notes generalizing seen with
  | nil => rfl
  | cons n notes ih =>
    cases n with
    | error e position =>
      rw [Journal.recordsFrom, List.filter_cons_of_neg (by cases seen <;> simp [Record.isOfNumber])]
      exact ih true
    | malformedNumber t =>
      rw [Journal.recordsFrom, List.filter_cons_of_pos rfl, ih seen]
      rfl

theorem Journal.filter_records (j : Journal) :
    j.records.filter Record.isOfNumber = j.malformed.map Token.malformedRecord :=
  filter_recordsFrom false j.notes.reverse

namespace Parse

open ParseState

/-- The numbers that cannot be read: those noted, and those that are ahead. -/
def account (s : ParseState) : List Token :=
  s.journal.malformed ++ s.cursor.rest.filter Token.isMalformed

theorem malformed_note (j : Journal) (n : Note) :
    (j.note n).malformed = j.malformed ++ n.malformed?.toList := by
  rw [Journal.malformed, Journal.malformed, Journal.note, List.reverse_cons, List.filterMap_append]
  cases n <;> rfl

theorem account_faultAt (s : ParseState) (span : Span) (f : ParseFault) :
    account (s.faultAt span f) = account s := by
  have noted : (s.faultAt span f).journal.malformed = s.journal.malformed :=
    (malformed_note s.journal _).trans (List.append_nil _)
  rw [account, account, noted]
  rfl

/-- Moving on forgets a number at most. -/
theorem account_advance_sublist (s : ParseState) : (account s.advance).Sublist (account s) := by
  refine List.Sublist.append_left ?_ s.journal.malformed
  rw [advance, Cursor.rest_advance]
  exact (List.tail_sublist _).filter _

theorem account_advance {s : ParseState} (h : ¬ s.current.isMalformed) :
    account s.advance = account s := by
  obtain ⟨⟨position, rest, stop⟩, depth, claimed, journal⟩ := s
  cases rest with
  | nil => rfl
  | cons t rest =>
    have passed : (t :: rest).filter Token.isMalformed = rest.filter Token.isMalformed :=
      List.filter_cons_of_neg h
    show journal.malformed ++ rest.filter _ = journal.malformed ++ (t :: rest).filter _
    rw [passed]

/-- A number that has been noted is no longer ahead. -/
theorem account_malformedNumber {s : ParseState} (h : s.current.isMalformed)
    (pos : 0 < s.remaining) :
    account (s.note (.malformedNumber s.current)).advance = account s := by
  obtain ⟨⟨position, rest, stop⟩, depth, claimed, journal⟩ := s
  cases rest with
  | nil => exact absurd pos (Nat.lt_irrefl 0)
  | cons t rest =>
    have next : (t :: rest).filter Token.isMalformed = t :: rest.filter Token.isMalformed :=
      List.filter_cons_of_pos h
    show (journal.note (.malformedNumber t)).malformed ++ rest.filter _ =
      journal.malformed ++ (t :: rest).filter _
    rw [malformed_note, next, List.append_assoc]
    rfl

/-- What has become of the numbers that cannot be read. -/
structure Accounts (s next : ParseState) : Prop where
  silent : next.errors = [] → s.errors = []
  kept : (account next).Sublist (account s)
  all : next.errors = [] → account next = account s

namespace Accounts

variable {scope : Scope} {s t u : ParseState}

theorem still (same : account t = account s) (errors : t.errors = s.errors) : Accounts s t where
  silent none := errors ▸ none
  kept := same ▸ List.Sublist.refl _
  all _ := same

theorem refl (s : ParseState) : Accounts s s := still rfl rfl

theorem claim (s : ParseState) (count : Nat) : Accounts s (s.claim count) := still rfl rfl

theorem enter (s : ParseState) : Accounts s s.enter := still rfl rfl

theorem leave (s : ParseState) : Accounts s s.leave := still rfl rfl

theorem trans (h : Accounts s t) (h' : Accounts t u) : Accounts s u where
  silent none := h.silent (h'.silent none)
  kept := h'.kept.trans h.kept
  all none := (h'.all none).trans (h.all (h'.silent none))

/-! ### Small steps -/

theorem faultAt (s : ParseState) (span : Span) (f : ParseFault) :
    Accounts s (s.faultAt span f) where
  silent none := absurd none (errors_faultAt_ne s span f)
  kept := account_faultAt s span f ▸ List.Sublist.refl _
  all _ := account_faultAt s span f

theorem fault (s : ParseState) (f : ParseFault) : Accounts s (s.fault f) := faultAt s _ f

theorem past {kind : TokenKind} (h : s.kind = kind) (other : kind ≠ .number) :
    Accounts s s.advance := by
  refine still (account_advance ?_) rfl
  have kind : s.current.kind ≠ .number := fun number => other (h.symm.trans number)
  simp [Token.isMalformed, kind]

/-- Behind an error any token may be skipped. -/
theorem skip (noted : s.errors ≠ []) : Accounts s s.advance where
  silent none := absurd none noted
  kept := account_advance_sublist s
  all none := absurd none noted

theorem readNumber (kind : s.kind = .number) : Accounts s s.readNumber.2 := by
  have kind' : s.current.kind = .number := kind
  unfold ParseState.readNumber
  split
  next value reads =>
    refine still (account_advance ?_) rfl
    simp [Token.isMalformed, reads, Except.toOption]
  next reason reads =>
    have malformed : s.current.isMalformed := by
      simp [Token.isMalformed, kind', reads, Except.toOption]
    refine still (account_malformedNumber malformed (remaining_pos (by simp [kind]))) ?_
    exact (errors_note s _).trans (List.append_nil _)

theorem readVariable (kind : s.kind = .variableName) : Accounts s (s.readVariable scope).2 := by
  unfold ParseState.readVariable
  dsimp only
  split
  · exact past kind (by simp)
  · exact (fault s _).trans (past kind (by simp))

theorem closeBrace (s : ParseState) (name : String) : Accounts s (s.closeBrace name) := by
  unfold ParseState.closeBrace
  split
  next closing => exact past closing (by simp)
  · exact fault s _

theorem readBraced (kind : s.kind = .leftBrace) : Accounts s (s.readBraced scope).2 := by
  refine (past kind (by simp)).trans ?_
  unfold ParseState.readBraced
  dsimp only
  split
  · exact fault _ _
  next word =>
    have word : (s.advance.claim 1).kind = .variableName := Decidable.not_not.mp word
    split
    · exact fault _ _
    · exact (claim _ 1).trans ((readVariable word).trans (closeBrace _ _))

theorem closeEmptyParentheses (opening : Token) (closing : s.kind = .rightParen) :
    Accounts s (s.closeEmptyParentheses opening) := by
  have noted : Accounts s (s.faultAt ⟨opening.span.start, s.current.span.stop⟩ .emptyParentheses) :=
    faultAt s _ _
  exact noted.trans (past closing (by simp))

theorem closeGroup (s : ParseState) (tree : Option Expr) : Accounts s (s.closeGroup tree).2 := by
  unfold ParseState.closeGroup
  split
  next closing => exact past closing (by simp)
  · exact fault s _

theorem closeCall (s : ParseState) (name : Token) (trees : Option (List Expr)) :
    Accounts s (s.closeCall scope name trees).2 := by
  unfold ParseState.closeCall
  split
  next closing =>
    have passed : Accounts s s.advance := past closing (by simp)
    split
    · exact passed
    · exact passed.trans (faultAt _ _ _)
  · exact fault s _

theorem operator {op : Operator} (h : s.operator? = some op) :
    Accounts s (s.claim 1).advance := by
  refine (claim s 1).trans (past (s := s.claim 1) rfl ?_)
  intro number
  have none : s.operator? = none := by
    rw [operator?, show s.kind = .number from number]
    rfl
  cases none.symm.trans h

theorem finish (s : ParseState) : Accounts s s.finish := by
  unfold ParseState.finish
  split
  · exact refl s
  · exact fault s _

end Accounts

/-! ## All rules

Where a token is skipped, an error has been noted before; otherwise a token
is passed that is no number, or a number that is read. -/

variable {scope : Scope} {s next : ParseState}

theorem errors_of_noChain (h : Reads scope .chain s none next) : next.errors ≠ [] := by
  have gathered : Gathered s next none := gathered_of_reads h
  exact gathered.1

theorem accounts_of_reads {part : Part} {yield : part.Yield} (h : Reads scope part s yield next) :
    Accounts s next := by
  induction h with
  | tooDeep | tooLarge | unexpectedEnd | unexpectedToken | climbTooLarge | tightenTooDeep =>
    exact .fault _ _
  | operand _ _ ih => exact (Accounts.enter _).trans (ih.trans (.leave _))
  | number kind _ => exact (Accounts.claim _ 1).trans (.readNumber kind)
  | @negation s next tree kind _ _ ih =>
    have minus : Accounts (s.claim 2) (s.claim 2).advance := .past kind (by simp)
    exact (Accounts.claim s 2).trans (minus.trans ih)
  | emptyParentheses kind closing =>
    exact (Accounts.past kind (by simp)).trans (.closeEmptyParentheses _ closing)
  | group kind _ _ ih => exact (Accounts.past kind (by simp)).trans (ih.trans (.closeGroup _ _))
  | braced kind => exact .readBraced kind
  | variableName kind _ => exact (Accounts.claim _ 1).trans (.readVariable kind)
  | @call s next trees kind _ opening _ ih =>
    have name : Accounts (s.claim 1) (s.claim 1).advance := .past kind (by simp)
    have opened := name.trans (.past opening (by simp))
    exact (Accounts.claim s 1).trans (opened.trans (ih.trans (.closeCall _ _ _)))
  | @missingParenthesis s kind =>
    have name : Accounts (s.claim 1) (s.claim 1).advance := .past kind (by simp)
    exact (Accounts.claim s 1).trans (name.trans (.fault _ _))
  | climbStop | tightenStop | argumentsEnd => exact .refl _
  | noChain _ ih | tightenTighter _ _ _ ih => exact ih
  | chain _ _ ihFirst ihMore | argument _ _ _ _ ihFirst ihMore
  | failedArgument _ _ _ _ _ ihFirst ihMore => exact ihFirst.trans ihMore
  | climbNoOperand operator _ _ _ ih => exact (Accounts.operator operator).trans ih
  | climb operator _ _ _ _ _ ihBody ihTighter ihMore =>
    exact (Accounts.operator operator).trans (ihBody.trans (ihTighter.trans ihMore))
  | tightenSame _ _ _ _ _ ih => exact (Accounts.enter _).trans (ih.trans (.leave _))
  | comma kind _ ih => exact (Accounts.past kind (by simp)).trans ih
  | skippedArgument _ _ first _ _ ihFirst ihMore =>
    exact ihFirst.trans ((Accounts.skip (errors_of_noChain first)).trans ihMore)

/-- At the end of a parse a note has been taken of numbers that cannot be read only, and without
an error of all of them. -/
theorem malformed_run (scope : Scope) (tokens : List Token) :
    (run scope tokens).2.journal.malformed.Sublist (tokens.filter Token.isMalformed) ∧
      ((run scope tokens).2.errors = [] →
        (run scope tokens).2.journal.malformed = tokens.filter Token.isMalformed) := by
  have reads : Reads scope .chain (.start tokens) (chain scope (.start tokens)).tree
      (chain scope (.start tokens)).next := (yields scope).2.2.2.1 _
  have accounts : Accounts (.start tokens) (run scope tokens).2 :=
    (accounts_of_reads reads).trans (.finish _)
  constructor
  · exact (List.sublist_append_left _ _).trans accounts.kept
  · intro silent
    have same := accounts.all silent
    rw [account, rest_of_silent silent] at same
    rwa [List.filter_nil, List.append_nil] at same

end Parse

/-! ## Numerals in a text -/

variable {scope : Scope} {source : String} {ts : List Token} {e : Expr}

theorem Lexed.isMalformed_eq {t : Token} (lexed : Lexed ts) (mem : t ∈ ts) :
    t.isMalformed = t.hasPoints := by
  by_cases kind : t.kind = .number
  · have numeral : Lexeme .number t.text.toList := kind ▸ lexed t mem
    by_cases few : t.text.toList.count '.' ≤ 1
    · obtain ⟨bits, -, reads⟩ := numeral.readFloat_of_count_le few
      simp [Token.isMalformed, Token.hasPoints, reads, Except.toOption, few]
    · have many : 1 < t.text.toList.count '.' := Nat.lt_of_not_le few
      have unread := numeral.readFloat_of_lt_count many
      simp [Token.isMalformed, Token.hasPoints, kind, unread, Except.toOption, many]
  · have other : (t.kind == .number) = false := beq_false_of_ne kind
    rw [Token.isMalformed, Token.hasPoints, other, Bool.false_and, Bool.false_and]

/-- The reader of numbers counts a numeral as zero exactly if it has two points or more. -/
theorem Lexeme.readNumber_eq {s : ParseState} (h : Lexeme .number s.current.text.toList) :
    if s.current.text.toList.count '.' ≤ 1 then
      ∃ value, readFloat s.current.text.toList = .ok value ∧
        s.readNumber = (.number value, s.advance)
    else s.readNumber = (.number 0, (s.note (.malformedNumber s.current)).advance) := by
  split
  next few =>
    obtain ⟨bits, -, reads⟩ := h.readFloat_of_count_le few
    refine ⟨_, reads, ?_⟩
    simp only [ParseState.readNumber, reads]
  next many =>
    have unread := h.readFloat_of_lt_count (Nat.lt_of_not_le many)
    simp only [ParseState.readNumber, unread]

/-- No number in a tree is negative or undefined. -/
def Expr.Unsigned (e : Expr) : Prop :=
  ∀ x ∈ e.numbers, ∃ bits ≤ infinityBits, x = floatOfBits false bits

theorem Expr.Unsigned.binary {left right : Expr} (l : left.Unsigned) (r : right.Unsigned)
    (op : Operator) : (Expr.binary op left right).Unsigned := by
  rw [Unsigned, numbers_binary, List.forall_mem_append]
  exact ⟨l, r⟩

/-- What is built of numerals has no other numbers but zeros. -/
theorem Expr.Unsigned.of_built (lexed : Lexed ts) (h : Built scope ts e) : e.Unsigned := by
  induction h with
  | number mem kind =>
    have numeral : Lexeme .number _ := kind ▸ lexed _ mem
    exact List.forall_mem_singleton.mpr (numberOf_of_lexeme numeral)
  | name => exact List.forall_mem_nil _
  | negation _ ih =>
    have zero : (Expr.number 0).Unsigned := List.forall_mem_singleton.mpr ⟨0, Nat.zero_le _, rfl⟩
    exact zero.binary ih .sub
  | binary op _ _ ihLeft ihRight => exact ihLeft.binary ihRight op
  | call _ _ _ _ ih =>
    rw [Unsigned, numbers_call, List.forall_mem_flatMap]
    exact ih

theorem Scope.tree_of_parse (scanned : tokenize source = .ok ts)
    (parses : (scope.parse source).1 = .ok e) :
    (parseTokens scope ts).1.error = none ∧ (parseTokens scope ts).1.tree = some e := by
  obtain ⟨ts', scanned', result⟩ := parse_eq_ok_iff.mp parses
  obtain rfl : ts' = ts := Except.ok.inj (scanned'.symm.trans scanned)
  exact Parsed.result_eq_ok.mp result

theorem Scope.tree_of_parseRecovering {p : Parsed} (scanned : tokenize source = .ok ts)
    (parses : (scope.parseRecovering source).1 = .ok p) : (parseTokens scope ts).1 = p := by
  rw [parseRecovering_fst, scanned] at parses
  exact Except.ok.inj parses

theorem filter_parseTokens (scope : Scope) (ts : List Token) :
    (parseTokens scope ts).2.filter Record.isOfNumber =
      (Parse.run scope ts).2.journal.malformed.map Token.malformedRecord := by
  unfold parseTokens
  split
  next empty =>
    have sub := (Parse.malformed_run scope ts).1
    rw [List.isEmpty_iff.mp empty] at sub ⊢
    rw [List.sublist_nil.mp sub]
    rfl
  next =>
    have tree : (Parse.treeRecords (Parse.run scope ts).1).filter Record.isOfNumber = [] := by
      cases (Parse.run scope ts).1 <;> rfl
    simp only [List.filter_append, tree, List.append_nil, Journal.filter_records]

theorem filter_scan (s : Scan) : s.records.filter Record.isOfNumber = [] := by
  rw [List.filter_eq_nil_iff, Scan.records, List.forall_mem_append]
  constructor
  · intro r told
    obtain ⟨t, -, rfl⟩ := List.mem_map.mp told
    simp [Record.isOfNumber]
  · intro r told
    obtain ⟨e, -, rfl⟩ := Option.map_eq_some_iff.mp (Option.mem_toList.mp told)
    cases e <;> simp [Record.isOfNumber, Scan.endRecord]

/-- What is told of the numbers in a text is told of those of which notes have been taken. -/
theorem Scope.filter_parseRecovering (scope : Scope) (scanned : tokenize source = .ok ts) :
    (scope.parseRecovering source).2.filter Record.isOfNumber =
      (Parse.run scope ts).2.journal.malformed.map Token.malformedRecord := by
  have scanned : (scan source).result = .ok ts := scanned
  simp only [parseRecovering, scanned, List.filter_append, filter_scan, filter_parseTokens,
    List.nil_append]

/-- Which numerals of a text are read, and what becomes of them: a numeral is read exactly if it
has at most one point.  One that is not read counts as zero, and that is told; of no other it is
told, and of all of them if the text has a tree.  Whatever tree is made of the text, none of its
numbers is negative or undefined, though one of very many digits is infinite. -/
theorem numerals_read (scope : Scope) (source : String) (ts : List Token)
    (scanned : tokenize source = .ok ts) :
    (∀ t ∈ ts, t.kind = .number →
      ((∃ value, readFloat t.text.toList = .ok value) ↔ t.text.toList.count '.' ≤ 1) ∧
        ∀ s : ParseState, s.current = t →
          if t.text.toList.count '.' ≤ 1 then
            ∃ value, readFloat t.text.toList = .ok value ∧ s.readNumber = (.number value, s.advance)
          else s.readNumber = (.number 0, (s.note (.malformedNumber t)).advance)) ∧
    (∃ told : List Token, told.Sublist (ts.filter Token.hasPoints) ∧
      (scope.parseRecovering source).2.filter Record.isOfNumber = told.map Token.malformedRecord ∧
        ∀ e, (scope.parse source).1 = .ok e → told = ts.filter Token.hasPoints) ∧
    (∀ e, ((∃ p, (scope.parseRecovering source).1 = .ok p ∧ p.tree = some e) ∨
        (scope.parse source).1 = .ok e) →
      ∀ x ∈ e.numbers, isNegative x = false ∧ ¬ x.isNaN ∧ 0 ≤ x) ∧
    ∀ n ≥ 310, (scope.parse (String.ofList ('1' :: List.replicate n '0'))).1 =
      .ok (.number (floatOfBits false infinityBits)) := by
  have lexed := lexed_of_tokenize scanned
  refine ⟨?read, ?told, ?unsigned, ?infinite⟩
  case read =>
    intro t mem kind
    have numeral : Lexeme .number t.text.toList := kind ▸ lexed t mem
    refine ⟨numeral.readFloat_ok_iff, ?_⟩
    rintro s rfl
    exact numeral.readNumber_eq
  case told =>
    have same : ts.filter Token.isMalformed = ts.filter Token.hasPoints :=
      List.filter_congr fun t mem => lexed.isMalformed_eq mem
    obtain ⟨some, all⟩ := Parse.malformed_run scope ts
    rw [same] at some all
    refine ⟨_, some, scope.filter_parseRecovering scanned, fun e parses => all ?_⟩
    obtain ⟨silent, -⟩ := Scope.tree_of_parse scanned parses
    exact (run_of_silent silent).2
  case unsigned =>
    intro e made x mem
    have tree : (parseTokens scope ts).1.tree = some e := by
      rcases made with ⟨p, parses, tree⟩ | parses
      · rwa [Scope.tree_of_parseRecovering scanned parses]
      · exact (Scope.tree_of_parse scanned parses).2
    obtain ⟨bits, le, rfl⟩ := Expr.Unsigned.of_built lexed (built_of_tree tree) x mem
    exact ⟨isNegative_floatOfBits false le, not_isNaN_floatOfBits le, zero_le_floatOfBits le⟩
  case infinite =>
    intro n large
    have digits : ∀ c ∈ '1' :: List.replicate n '0', isDecimalDigit c :=
      List.forall_mem_cons.mpr ⟨rfl, digits_zeros n⟩
    have numeral := numeral_of_digits (List.cons_ne_nil _ _) digits
    rw [← String.toList_ofList (l := '1' :: List.replicate n '0')] at numeral
    have value : Grammar.numberOf (String.ofList ('1' :: List.replicate n '0')) =
        floatOfBits false infinityBits := by
      rw [Grammar.numberOf, String.toList_ofList, readFloat_power large]
    rw [Scope.parse_numeral numeral, value]

/-- `1.2.3` has the tree of `0`, and that is told. -/
theorem numerals_read_twoPoints :
    let t : Token := ⟨.number, "1.2.3", ⟨0, 5⟩⟩
    tokenize "1.2.3" = .ok [t] ∧ (¬ ∃ value, readFloat t.text.toList = .ok value) ∧
      (Scope.empty.parse "1.2.3").1 = .ok (.number 0) ∧
      (Scope.empty.parseRecovering "1.2.3").2.filter Record.isOfNumber =
        [⟨.debug, .parser, "malformed number '1.2.3' at 0..5, using 0"⟩] ∧
      isNegative 0 = false ∧ ¬ (0 : Float).isNaN ∧ (0 : Float) ≤ 0 := by
  intro t
  have scanned : tokenize "1.2.3" = .ok [t] := by cbv
  have lexeme : Lexeme .number t.text.toList := lexed_of_tokenize scanned t List.mem_cons_self
  have zero : Grammar.numberOf t.text = 0 := by
    rw [Grammar.numberOf, lexeme.readFloat_of_lt_count (by decide)]
  have parses : (Scope.empty.parse t.text).1 = .ok (.number 0) := by
    rw [Scope.parse_numeral lexeme, zero]
  obtain ⟨read, told, unsigned, -⟩ := numerals_read .empty "1.2.3" _ scanned
  obtain ⟨noted, -, records, all⟩ := told
  refine ⟨scanned, ?_, parses, ?_, unsigned _ (.inr parses) 0 List.mem_cons_self⟩
  · rw [(read t List.mem_cons_self rfl).1]
    decide
  · rw [records, all _ parses]
    cbv

end Arith
