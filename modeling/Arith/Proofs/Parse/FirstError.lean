/-
# The first error is kept, and nothing depends on it

Errors are only ever written down.  Whatever a reader finds in the journal
when it is called, it reads the same tree, stops at the same place and notes
the same: it puts its notes on top of those that are there and looks at none
of them.  That is a `Transport` of a parse into itself which exchanges
nothing but the journal (`Transport.behind`).  The rules leave one way to
read a part (`Reads.unique`), so it holds of the readers themselves
(`framed_read`).

So an error that counts goes on counting, and where there is none the first
of those that a reader notes does (`WriteOnly`).

What a reader notes is defined by running it on an empty journal
(`notedBy`).  That this is what it notes on any other journal is the
statement that the notes have no influence.  It is proved once for readings
and then read off for every reader, for the two which are branches of an
operand, and for the small steps that may note an error.

**Proved here.** `journal_writeOnly`: all this, reader by reader; and what
is told of the errors of a parse.
-/
import Arith.Proofs.Grammar.Exact
import Arith.Proofs.Parse.Located
import Arith.Proofs.Parse.Transport

namespace Arith

/-! ## What is told of errors

An error that is noted becomes a record at once, and which record it becomes
depends on whether it is the first. -/

/-- What is told of an error that is the first. -/
def ParseError.announced (e : ParseError) : Record :=
  ⟨.debug, .parserErrors, s!"parse error: {e.message}"⟩

/-- What is told of an error that is not. -/
def ParseError.suppressed (e : ParseError) : Record :=
  ⟨.trace, .parserErrors, s!"suppressed later parse error: {e.message}"⟩

/-- What is told of some errors, the first one first. -/
def reports : List ParseError → List Record
  | [] => []
  | e :: later => e.announced :: later.map ParseError.suppressed

/-- Whether a record reads as if it were about an error. -/
def Record.isReport (r : Record) : Bool :=
  (r.level == .debug && "parse error: ".toList.isPrefixOf r.message.toList) ||
    (r.level == .trace && "suppressed later parse error: ".toList.isPrefixOf r.message.toList)

theorem ParseError.isReport_announced (e : ParseError) : e.announced.isReport := by
  have starts : "parse error: ".toList <+: e.announced.message.toList := by
    show _ <+: ("parse error: " ++ e.message).toList
    rw [String.toList_append]
    exact List.prefix_append _ _
  rw [Record.isReport, List.isPrefixOf_iff_prefix.mpr starts]
  rfl

theorem ParseError.isReport_suppressed (e : ParseError) : e.suppressed.isReport := by
  have starts : "suppressed later parse error: ".toList <+: e.suppressed.message.toList := by
    show _ <+: ("suppressed later parse error: " ++ e.message).toList
    rw [String.toList_append]
    exact List.prefix_append _ _
  rw [Record.isReport, List.isPrefixOf_iff_prefix.mpr starts]
  rfl

/-- A number that cannot be read is no error. -/
theorem not_isReport_malformed (t : Token) :
    ¬ Record.isReport ⟨.debug, .parser,
      s!"malformed number '{t.text}' at {t.span.text}, using 0"⟩ := by
  show ¬ Record.isReport
    ⟨.debug, .parser, "malformed number '" ++ t.text ++ "' at " ++ t.span.text ++ ", using 0"⟩
  simp [Record.isReport]

namespace Journal

theorem filter_isReport_recordsFrom (seen : Bool) (notes : List Note) :
    (recordsFrom seen notes).filter Record.isReport =
      if seen then (notes.filterMap Note.error?).map ParseError.suppressed
      else reports (notes.filterMap Note.error?) := by
  induction notes generalizing seen with
  | nil => cases seen <;> rfl
  | cons n notes ih =>
    cases n with
    | error e position =>
      cases seen with
      | true =>
        show (e.suppressed :: recordsFrom true notes).filter _ = _
        rw [List.filter_cons_of_pos e.isReport_suppressed, ih]
        rfl
      | false =>
        show (e.announced :: recordsFrom true notes).filter _ = _
        rw [List.filter_cons_of_pos e.isReport_announced, ih]
        rfl
    | malformedNumber t =>
      rw [recordsFrom, List.filter_cons_of_neg (not_isReport_malformed t), ih]
      rfl

/-- What is told of errors is told of them one by one as they are noted. -/
theorem filter_isReport_records (j : Journal) :
    j.records.filter Record.isReport = reports j.errors :=
  filter_isReport_recordsFrom false j.notes.reverse

/-- Notes are told of behind those before them, which decide only whether an error is the first. -/
theorem recordsFrom_append (seen : Bool) (notes more : List Note) :
    recordsFrom seen (notes ++ more) = recordsFrom seen notes ++
      recordsFrom (seen || (notes.filterMap Note.error?).head?.isSome) more := by
  induction notes generalizing seen with
  | nil =>
    rw [List.filterMap_nil, List.head?_nil, Option.isSome_none, Bool.or_false]
    rfl
  | cons n notes ih =>
    cases n with
    | error e position =>
      rw [List.cons_append, recordsFrom, recordsFrom, ih, Bool.true_or]
      show _ = _ ++ recordsFrom (seen || true) more
      rw [Bool.or_true]
      rfl
    | malformedNumber t =>
      rw [List.cons_append, recordsFrom, recordsFrom, ih]
      rfl

/-- A journal with more notes on top of those of `j`. -/
def extend (j : Journal) (made : List Note) : Journal := ⟨made ++ j.notes⟩

variable (j : Journal) (made : List Note)

theorem errors_extend :
    (j.extend made).errors = j.errors ++ made.reverse.filterMap Note.error? := by
  rw [errors, errors, extend, List.reverse_append, List.filterMap_append]

theorem records_extend :
    (j.extend made).records = j.records ++ recordsFrom j.isSet made.reverse := by
  rw [records, extend, List.reverse_append, recordsFrom_append, Bool.false_or]
  rfl

theorem first?_extend_of_some {e : ParseError} (set : j.first? = some e) :
    (j.extend made).first? = some e := by
  rw [first?, errors_extend, List.head?_append, ← first?, set]
  rfl

theorem first?_extend_of_none (unset : j.first? = none) :
    (j.extend made).first? = (⟨made⟩ : Journal).first? := by
  rw [first?, errors_extend, List.head?_append, ← first?, unset]
  rfl

end Journal

/-! ## Readings over another journal

That a reading is unique comes from the machine: whatever is read, the
machine gets there, and it halts in one way only.  Only the arguments of a
call do not halt, and are compared where the call is closed. -/

/-- A state whose notes stand on top of those of another journal. -/
def ParseState.behind (s : ParseState) (before : Journal) : ParseState :=
  { s with journal := before.extend s.journal.notes }

/-- A parse, carried over to where something has been noted before. -/
def Transport.behind (functions : FunctionTable) (b : Bindings) (before : Journal) :
    Transport ⟨b, functions⟩ ⟨b, functions⟩ where
  place offset := offset
  value _ x := x
  journal j := before.extend j.notes
  functions_eq := .refl functions
  value_eq _ := rfl
  journal_malformed _ _ := rfl
  journal_lookUp j name span position := by
    simp only [Journal.lookUp]
    cases b.get? name <;> rfl
  journal_fault _ _ _ _ _ := rfl

namespace Parse

open ParseState

variable {scope : Scope}

theorem state_behind (before : Journal) (s : ParseState) :
    (Transport.behind scope.functions scope.bindings before).state s = s.behind before := by
  obtain ⟨⟨position, rest, stop⟩, depth, claimed, journal⟩ := s
  have unmoved : rest.map (Token.relocate fun offset => offset) = rest := List.map_id rest
  show ParseState.mk ⟨position, rest.map (Token.relocate fun offset => offset), stop⟩ depth
    claimed _ = _
  rw [unmoved]
  rfl

theorem tree_behind (before : Journal) :
    (Transport.behind scope.functions scope.bindings before).tree = id :=
  funext Expr.mapValues_id

/-- A part is read in the same way whatever has been noted before. -/
theorem Reads.behind {part : Part} {s next : ParseState} {yield : part.Yield}
    (h : Reads scope part s yield next) (before : Journal) :
    Reads scope part (s.behind before) yield (next.behind before) := by
  have carried := h.transport (Transport.behind scope.functions scope.bindings before)
  cases part with
  | operand | primary | chain =>
    simp only [Carried, state_behind, tree_behind, Option.map_id] at carried
    exact carried
  | climb | tighten =>
    simp only [Carried, state_behind] at carried
    rw [tree_behind] at carried
    exact carried
  | arguments =>
    simp only [Carried, state_behind, tree_behind, List.map_id_fun, Option.map_id] at carried
    exact carried

/-- From what closes a call the parse goes on to leave the call, and does not come back. -/
theorem eq_of_steps_closing {k : Nat} {name : Token} {trees trees' : Option (List Expr)}
    {s s' : ParseState} (closing : s.kind = .rightParen ∨ s.kind = .eof)
    (h : steps scope k (.enter (.argument name trees) s []) =
      .enter (.argument name trees') s' []) :
    trees = trees' ∧ s = s' := by
  cases k with
  | zero =>
    cases h
    exact ⟨rfl, rfl⟩
  | succ k =>
    have left : step scope (.enter (.argument name trees) s []) =
        .exit (s.closeCall scope name trees).1 (s.closeCall scope name trees).2 [] :=
      if_pos closing
    rw [steps, left, steps_halted] at h
    cases h

/-- So what closes a call is reached in one way only. -/
theorem closing_unique {c : Config} {name : Token} {trees trees' : Option (List Expr)}
    {s s' : ParseState} (closing : s.kind = .rightParen ∨ s.kind = .eof)
    (closing' : s'.kind = .rightParen ∨ s'.kind = .eof)
    (h : Reaches scope c (.enter (.argument name trees) s []))
    (h' : Reaches scope c (.enter (.argument name trees') s' [])) : trees = trees' ∧ s = s' := by
  obtain ⟨m, hm⟩ := h
  obtain ⟨n, hn⟩ := h'
  rcases Nat.le_total m n with le | le
  · obtain ⟨k, rfl⟩ := Nat.exists_eq_add_of_le le
    rw [steps_add, hm] at hn
    exact eq_of_steps_closing closing hn
  · obtain ⟨k, rfl⟩ := Nat.exists_eq_add_of_le le
    rw [steps_add, hn] at hm
    obtain ⟨trees, state⟩ := eq_of_steps_closing closing' hm
    exact ⟨trees.symm, state.symm⟩

/-- The rules leave one way to read a part. -/
theorem Reads.unique {part : Part} {s next next' : ParseState} {yield yield' : part.Yield}
    (h : Reads scope part s yield next) (h' : Reads scope part s yield' next') :
    yield = yield' ∧ next = next' := by
  have exits := h.reaches
  have exits' := h'.reaches
  cases part with
  | operand | primary | chain => exact halt_unique (exits []) (exits' [])
  | climb | tighten =>
    obtain ⟨tree, state⟩ := halt_unique (exits []) (exits' [])
    exact ⟨Option.some.inj tree, state⟩
  | arguments =>
    obtain ⟨trees, state⟩ := closing_unique exits.1 exits'.1 (exits.2 s.current (some []) [])
      (exits'.2 s.current (some []) [])
    exact ⟨(appendTrees_nil yield).symm.trans (trees.trans (appendTrees_nil yield')), state⟩

/-! ## Readers

The branches of an operand that claim nodes or have a body, as readers of
their own. -/

/-- What a part of an expression is read with. -/
def Part.read (scope : Scope) : (part : Part) → ParseState → part.Yield × ParseState
  | .operand, s => (Parse.operand scope s).outcome
  | .primary, s => (Parse.primary scope s).outcome
  | .chain, s => (Parse.chain scope s).outcome
  | .climb least left, s => (Parse.climb scope least left s).outcome
  | .tighten op right, s => (Parse.tighten scope op right s).outcome
  | .arguments, s => (Parse.arguments scope s).outcome

theorem Part.reads (part : Part) (s : ParseState) :
    Reads scope part s (part.read scope s).1 (part.read scope s).2 := by
  obtain ⟨operand, primary, arguments, chain, climb, tighten⟩ := yields scope
  cases part with
  | operand => exact operand s
  | primary => exact primary s
  | chain => exact chain s
  | climb least left => exact climb least left s
  | tighten op right => exact tighten op right s
  | arguments => exact arguments s

/-- Claims some nodes, and says whether there were so many left. -/
def reserve (count : Nat) (s : ParseState) : Bool × ParseState :=
  if s.tooLarge count then (false, s.faultTooLarge) else (true, s.claim count)

/-- Goes on reading if some nodes could be claimed. -/
def claiming (count : Nat) (read : ParseState → Option Expr × ParseState) (s : ParseState) :
    Option Expr × ParseState :=
  let r := reserve count s
  if r.1 then read r.2 else (none, r.2)

theorem claiming_eq (count : Nat) (read : ParseState → Option Expr × ParseState) (s : ParseState) :
    claiming count read s =
      if s.tooLarge count then (none, s.faultTooLarge) else read (s.claim count) := by
  dsimp only [claiming, reserve]
  split <;> rfl

/-- Reads a group, where the current token is its first parenthesis. -/
def readGroup (scope : Scope) (s : ParseState) : Option Expr × ParseState :=
  if s.advance.kind = .rightParen then (none, s.advance.closeEmptyParentheses s.current)
  else
    let r := (chain scope s.advance).outcome
    r.2.closeGroup r.1

/-- Reads a call, where the current token is the name. -/
def readCall (scope : Scope) : ParseState → Option Expr × ParseState :=
  claiming 1 fun s =>
    let opening := s.advance
    if opening.kind = .leftParen then
      let r := (arguments scope opening.advance).outcome
      r.2.closeCall scope s.current r.1
    else (none, opening.fault (.missingCallParenthesis s.current.text opening.current.text))

/-- An operand is read by what its first token is. -/
theorem outcome_primary_eq (scope : Scope) (s : ParseState) : (primary scope s).outcome =
    match s.kind with
    | .number => claiming 1 (fun s => (some s.readNumber.1, s.readNumber.2)) s
    | .sub => claiming 2 (fun s =>
        let r := (operand scope s.advance).outcome
        (r.1.map .negate, r.2)) s
    | .leftParen => readGroup scope s
    | .leftBrace => s.readBraced scope
    | .variableName =>
      claiming 1 (fun s => (some (s.readVariable scope).1, (s.readVariable scope).2)) s
    | .functionName => readCall scope s
    | .eof => (none, s.fault .unexpectedEnd)
    | _ => (none, s.fault (.unexpectedToken s.current.text)) := by
  rw [outcome_primary]
  cases s.kind
  case number | sub | variableName =>
    dsimp only
    rw [claiming_eq]
  case functionName =>
    dsimp only [readCall]
    rw [claiming_eq]
    rfl
  all_goals rfl

/-! ## What readers do to the journal

A reader that only puts notes on top of the others has all five properties;
and of being such a reader there is one proof for all parts. -/

section

variable {α : Type}

/-- What a reader notes. -/
def notedBy (read : ParseState → α × ParseState) (s : ParseState) : Journal :=
  (read { s with journal := .empty }).2.journal

/-- A reader writes to the journal and does not read it. -/
structure WriteOnly (read : ParseState → α × ParseState) : Prop where
  /-- Between states that differ in what has been noted the reader sees no difference. -/
  blind : ∀ s t : ParseState, t.cursor = s.cursor → t.depth = s.depth → t.claimed = s.claimed →
    (read t).1 = (read s).1 ∧ (read t).2.cursor = (read s).2.cursor ∧
      (read t).2.depth = (read s).2.depth ∧ (read t).2.claimed = (read s).2.claimed ∧
      notedBy read t = notedBy read s
  /-- What it notes comes on top of what has been noted. -/
  appends : ∀ s, (read s).2.journal = s.journal.extend (notedBy read s).notes
  /-- An error that counts goes on counting. -/
  sticky : ∀ s e, s.journal.first? = some e → (read s).2.journal.first? = some e
  /-- Where there is none, the first that the reader notes counts. -/
  first : ∀ s, s.journal.first? = none → (read s).2.journal.first? = (notedBy read s).first?
  /-- What is told of the notes depends on whether an error came before them, and on nothing
  else. -/
  told : ∀ s, (read s).2.journal.records =
    s.journal.records ++ Journal.recordsFrom s.journal.isSet (notedBy read s).notes.reverse

/-- Reading on top of other notes comes to the same, on top of them. -/
def Framed (read : ParseState → α × ParseState) : Prop :=
  ∀ (before : Journal) (s : ParseState),
    read (s.behind before) = ((read s).1, (read s).2.behind before)

theorem Framed.writeOnly {read : ParseState → α × ParseState} (h : Framed read) :
    WriteOnly read := by
  -- Every reading is one of a state without notes, put on top of those that there are.
  have eq : ∀ s : ParseState, read s =
      ((read { s with journal := .empty }).1,
        (read { s with journal := .empty }).2.behind s.journal) :=
    fun s => h s.journal { s with journal := .empty }
  have appends : ∀ s, (read s).2.journal = s.journal.extend (notedBy read s).notes := by
    intro s
    rw [eq s]
    rfl
  constructor
  case blind =>
    intro s t cursor depth claimed
    have same : { t with journal := .empty } = { s with journal := .empty } := by
      rw [cursor, depth, claimed]
    rw [notedBy, notedBy, eq s, eq t, same]
    exact ⟨rfl, rfl, rfl, rfl, rfl⟩
  case appends => exact appends
  case sticky =>
    intro s e set
    rw [appends]
    exact s.journal.first?_extend_of_some _ set
  case first =>
    intro s unset
    rw [appends]
    exact s.journal.first?_extend_of_none _ unset
  case told =>
    intro s
    rw [appends, Journal.records_extend]

end

variable {scope : Scope}

theorem framed_read (part : Part) : Framed (part.read scope) := by
  intro before s
  obtain ⟨yield, next⟩ := (part.reads (s.behind before)).unique ((part.reads s).behind before)
  exact Prod.ext yield next

theorem framed_readNumber : Framed readNumber := by
  intro before s
  have current : (s.behind before).current = s.current := rfl
  rw [readNumber, readNumber, current]
  cases readFloat s.current.text.toList <;> rfl

theorem framed_readVariable : Framed (·.readVariable scope) := by
  intro before s
  have carried := (Transport.behind scope.functions scope.bindings before).readVariable_state s
  rw [state_behind, state_behind, tree_behind] at carried
  exact carried

theorem framed_readBraced : Framed (·.readBraced scope) := by
  intro before s
  have carried := (Transport.behind scope.functions scope.bindings before).readBraced_state s
  rw [state_behind, state_behind, tree_behind, Option.map_id] at carried
  exact carried

theorem framed_closeGroup (tree : Option Expr) : Framed (·.closeGroup tree) := by
  intro before s
  have kind : (s.behind before).kind = s.kind := rfl
  dsimp only [closeGroup]
  rw [kind]
  split <;> rfl

theorem framed_closeCall (name : Token) (trees : Option (List Expr)) :
    Framed (·.closeCall scope name trees) := by
  intro before s
  have carried :=
    (Transport.behind scope.functions scope.bindings before).closeCall_state s name trees
  rw [state_behind, state_behind, tree_behind, List.map_id_fun, Option.map_id,
    Option.map_id] at carried
  exact carried

theorem framed_reserve (count : Nat) : Framed (reserve count) := by
  intro before s
  have large : (s.behind before).tooLarge count = s.tooLarge count := rfl
  rw [reserve, reserve, large]
  split <;> rfl

theorem Framed.claiming {read : ParseState → Option Expr × ParseState} (h : Framed read)
    (count : Nat) : Framed (claiming count read) := by
  intro before s
  have large : (s.behind before).tooLarge count = s.tooLarge count := rfl
  rw [claiming_eq, claiming_eq, large]
  split
  · rfl
  · exact h before (s.claim count)

theorem framed_readGroup : Framed (readGroup scope) := by
  intro before s
  have next : (s.behind before).advance = s.advance.behind before := rfl
  have body : (chain scope (s.advance.behind before)).outcome =
      ((chain scope s.advance).outcome.1, (chain scope s.advance).outcome.2.behind before) :=
    framed_read .chain before s.advance
  rw [readGroup, readGroup, next, body]
  show (if s.advance.kind = .rightParen then _ else _) = _
  split
  · rfl
  · exact framed_closeGroup _ before _

theorem framed_readCall : Framed (readCall scope) := by
  refine Framed.claiming ?_ 1
  intro before s
  have next : (s.behind before).advance = s.advance.behind before := rfl
  have inner : (s.advance.behind before).advance = s.advance.advance.behind before := rfl
  have body : (arguments scope (s.advance.advance.behind before)).outcome =
      ((arguments scope s.advance.advance).outcome.1,
        (arguments scope s.advance.advance).outcome.2.behind before) :=
    framed_read .arguments before s.advance.advance
  dsimp only
  rw [next, inner, body]
  show (if s.advance.kind = .leftParen then _ else _) = _
  split
  · exact framed_closeCall s.current _ before _
  · rfl

end Parse

open Parse

theorem filter_isReport_treeRecords (tree : Option Expr) :
    (treeRecords tree).filter Record.isReport = [] := by
  cases tree with
  | none => rfl
  | some e =>
    have other : ¬ Record.isReport ⟨.trace, .parser, "parsed " ++ e.text⟩ := by
      simp [Record.isReport]
    exact List.filter_cons_of_neg other

theorem filter_isReport_parseTokens (scope : Scope) {tokens : List Token} (nonempty : tokens ≠ []) :
    (parseTokens scope tokens).2.filter Record.isReport = reports (run scope tokens).2.errors := by
  rw [parseTokens, if_neg (by rwa [List.isEmpty_iff])]
  show (_ ++ treeRecords _).filter _ = _
  rw [List.filter_append, filter_isReport_treeRecords, List.append_nil,
    Journal.filter_isReport_records]
  rfl

theorem eq_nil_of_emptyTokenList {scope : Scope} {tokens : List Token}
    (error : (parseTokens scope tokens).1.error = some .emptyTokenList) : tokens = [] := by
  cases tokens with
  | nil => rfl
  | cons t ts =>
    obtain ⟨span, placed, -⟩ := parseTokens_error_placed (List.cons_ne_nil t ts) error
    cases placed

/-- No reader looks at the errors noted before it was called, and none takes one of them back.  So
of a parse it is told first which error counts, and then which errors came later and do not. -/
theorem journal_writeOnly (scope : Scope) :
    (∀ (j : Journal) (e : ParseError) (position : Nat),
      (j.note (.error e position)).first? = some (j.first?.getD e) ∧
        (j.note (.error e position)).records =
          j.records ++ [if j.isSet then e.suppressed else e.announced]) ∧
    (∀ part : Part, WriteOnly (part.read scope)) ∧
    (WriteOnly (readGroup scope) ∧
      ∀ s : ParseState, s.kind = .leftParen → (primary scope s).outcome = readGroup scope s) ∧
    (WriteOnly (readCall scope) ∧
      ∀ s : ParseState, s.kind = .functionName → (primary scope s).outcome = readCall scope s) ∧
    WriteOnly (·.readBraced scope) ∧ WriteOnly (·.readVariable scope) ∧
    WriteOnly ParseState.readNumber ∧ (∀ count, WriteOnly (reserve count)) ∧
    ∀ tokens : List Token,
      let reported := (parseTokens scope tokens).2.filter Record.isReport
      match (parseTokens scope tokens).1.error with
      | none => reported = []
      | some e =>
        if e = .emptyTokenList then reported = []
        else ∃ later, (run scope tokens).2.errors = e :: later ∧
          reported = e.announced :: later.map ParseError.suppressed := by
  refine ⟨?note, fun part => (framed_read part).writeOnly, ⟨framed_readGroup.writeOnly, ?group⟩,
    ⟨framed_readCall.writeOnly, ?call⟩, framed_readBraced.writeOnly, framed_readVariable.writeOnly,
    framed_readNumber.writeOnly, fun count => (framed_reserve count).writeOnly, ?parse⟩
  case note =>
    intro j e position
    refine ⟨?_, j.records_extend [.error e position]⟩
    cases counts : j.first? with
    | none => exact j.first?_extend_of_none [.error e position] counts
    | some first => exact j.first?_extend_of_some [.error e position] counts
  case group | call =>
    intro s kind
    rw [outcome_primary_eq, kind]
  case parse =>
    intro tokens reported
    cases counted : (parseTokens scope tokens).1.error with
    | none =>
      have nonempty : tokens ≠ [] := by
        rintro rfl
        cases counted
      exact (filter_isReport_parseTokens scope nonempty).trans
        (congrArg reports (run_of_silent counted).2)
    | some e =>
      dsimp only
      split
      next isEmpty =>
        obtain rfl := eq_nil_of_emptyTokenList (isEmpty ▸ counted)
        rfl
      next other =>
        have nonempty : tokens ≠ [] := by
          rintro rfl
          cases counted
          exact other rfl
        have told : reported = reports (run scope tokens).2.errors :=
          filter_isReport_parseTokens scope nonempty
        rw [parseTokens_of_ne scope nonempty] at counted
        obtain ⟨later, errors⟩ := List.head?_eq_some_iff.mp counted
        rw [errors] at told
        exact ⟨later, errors, told⟩

end Arith
