/-
# Carrying a parse over into another scope

Which way a parse goes depends on the kinds of its tokens, on how deep it
stands and on how many nodes it has claimed.  It does not depend on where
the tokens stand in the text, on the value of a variable, or on what has
been noted.  So all three may be exchanged at once: a `Transport` says how
the offsets, the values and the journal of a parse in one scope are turned
into those of a parse in another scope that knows the same functions.
Nothing is asked of it but that it does so note by note.

Three transports are in use: one moves the tokens and touches nothing else
(`Arith.Proofs.Parse.Places`), one puts in the values that some bindings
have (`Arith.Proofs.Parse.Bindings`), and one puts notes in front of the
journal (`Arith.Proofs.Parse.FirstError`).

**Proved here.**

    every reading is carried over rule by rule                         (`Reads.transport`)
    a whole parse is carried over, with its tree and all its notes     (`Transport.run_eq`)

A transport turns one parse into the other by a function.  Two parses of
which neither determines the other are compared by carrying both over into a
third one.
-/
import Arith.Proofs.Parse.Machine

namespace Arith

/-! ## Moving tokens

A place is moved by moving its ends, and nothing is asked of the function by
which they are moved. -/

/-- A range with its ends moved. -/
def Span.relocate (place : Nat → Nat) (s : Span) : Span := ⟨place s.start, place s.stop⟩

/-- A token with its place moved. -/
def Token.relocate (place : Nat → Nat) (t : Token) : Token :=
  { t with span := t.span.relocate place }

/-- A cursor over moved tokens. -/
def Cursor.relocate (place : Nat → Nat) (c : Cursor) : Cursor :=
  ⟨c.position, c.rest.map (Token.relocate place), place c.stop⟩

namespace Cursor

variable (place : Nat → Nat) (c : Cursor)

theorem current_relocate : (c.relocate place).current = c.current.relocate place := by
  obtain ⟨position, rest, stop⟩ := c
  cases rest <;> rfl

theorem advance_relocate : (c.relocate place).advance = c.advance.relocate place := by
  obtain ⟨position, rest, stop⟩ := c
  cases rest <;> rfl

theorem atEnd_relocate : (c.relocate place).atEnd = c.atEnd := by
  obtain ⟨position, rest, stop⟩ := c
  cases rest <;> rfl

theorem relocate_ofTokens {tokens : List Token} (nonempty : tokens ≠ []) :
    (ofTokens tokens).relocate place = ofTokens (tokens.map (Token.relocate place)) := by
  have last : tokens.getLast? = some (tokens.getLast nonempty) :=
    List.getLast?_eq_some_getLast nonempty
  simp only [ofTokens, relocate, stopOf, List.getLast?_map, last]
  rfl

end Cursor

/-! ## Exchanging the values of variables

The tree keeps its shape and its names. -/

namespace Expr

mutual

/-- A tree with the values of its variables exchanged. -/
def mapValues (value : String → Float → Float) : Expr → Expr
  | .number x => .number x
  | .binary op left right => .binary op (left.mapValues value) (right.mapValues value)
  | .var key x => .var key (value key x)
  | .call name callee arguments => .call name callee (mapValuesAll value arguments)

/-- The same for each of some trees. -/
def mapValuesAll (value : String → Float → Float) : List Expr → List Expr
  | [] => []
  | e :: es => e.mapValues value :: mapValuesAll value es

end

theorem mapValuesAll_eq (value : String → Float → Float) (es : List Expr) :
    mapValuesAll value es = es.map (mapValues value) := by
  induction es with
  | nil => rfl
  | cons e es ih => rw [mapValuesAll, ih, List.map_cons]

mutual

theorem mapValues_id : ∀ e : Expr, e.mapValues (fun _ x => x) = e
  | .number _ | .var _ _ => rfl
  | .binary op left right => by rw [mapValues, left.mapValues_id, right.mapValues_id]
  | .call name callee arguments => by rw [mapValues, mapValuesAll_id arguments]

theorem mapValuesAll_id : ∀ es : List Expr, mapValuesAll (fun _ x => x) es = es
  | [] => rfl
  | e :: es => by rw [mapValuesAll, e.mapValues_id, mapValuesAll_id es]

end

end Expr

/-! ## Transports

The conditions on the journal are those under which a note may be taken
before or after it is carried over.  A lookup has a condition of its own,
since what is noted of it depends on the scope. -/

/-- The value that a variable is read with. -/
def Scope.valueOf (scope : Scope) (name : String) : Float := (scope.bindings.get? name).getD 0

/-- What looking the variable `name` up adds to a journal: an error, if it is not bound. -/
def Journal.lookUp (j : Journal) (scope : Scope) (name : String) (span : Span) (position : Nat) :
    Journal :=
  match scope.bindings.get? name with
  | some _ => j
  | none => j.note (.error ⟨.unboundVariable name, some span⟩ position)

/-- How a parse in one scope is turned into a parse in another. -/
structure Transport (scope scope' : Scope) where
  /-- Where an offset of the text has gone. -/
  place : Nat → Nat
  /-- What the value of a variable has become. -/
  value : String → Float → Float
  journal : Journal → Journal
  functions_eq : scope'.functions = scope.functions
  value_eq : ∀ name, value name (scope.valueOf name) = scope'.valueOf name
  journal_malformed : ∀ (j : Journal) (t : Token),
    journal (j.note (.malformedNumber t)) = (journal j).note (.malformedNumber (t.relocate place))
  journal_lookUp : ∀ (j : Journal) (name : String) (span : Span) (position : Nat),
    journal (j.lookUp scope name span position) =
      (journal j).lookUp scope' name (span.relocate place) position
  journal_fault : ∀ (j : Journal) {f : ParseFault} (span : Span) (position : Nat),
    (∀ name, f ≠ .unboundVariable name) →
      journal (j.note (.error ⟨f, some span⟩ position)) =
        (journal j).note (.error ⟨f, some (span.relocate place)⟩ position)

namespace ParseState

/-- A variable is read with its value, and looking it up may be noted. -/
theorem readVariable_eq (s : ParseState) (scope : Scope) : s.readVariable scope =
    (.var s.current.text (scope.valueOf s.current.text),
      { s with
        journal := s.journal.lookUp scope s.current.text s.current.span s.position }.advance) := by
  unfold readVariable Journal.lookUp Scope.valueOf
  dsimp only
  cases scope.bindings.get? s.current.text <;> rfl

end ParseState

namespace Transport

variable {scope scope' : Scope} (m : Transport scope scope')

/-- What a tree becomes. -/
def tree (e : Expr) : Expr := e.mapValues m.value

/-- What a state becomes. -/
def state (s : ParseState) : ParseState :=
  ⟨s.cursor.relocate m.place, s.depth, s.claimed, m.journal s.journal⟩

theorem map_tree_negate (tree : Option Expr) :
    (tree.map Expr.negate).map m.tree = (tree.map m.tree).map Expr.negate := by
  cases tree <;> rfl

theorem map_tree_call (name : String) (callee : Handle) (trees : Option (List Expr)) :
    (trees.map (.call name callee)).map m.tree =
      (trees.map (List.map m.tree)).map (.call name callee) := by
  cases trees with
  | none => rfl
  | some es =>
    show some (Expr.call name callee (Expr.mapValuesAll m.value es)) = _
    rw [Expr.mapValuesAll_eq]
    rfl

/-! ### Small steps -/

variable (s : ParseState)

theorem current_state : (m.state s).current = s.current.relocate m.place :=
  s.cursor.current_relocate m.place

theorem text_state : (m.state s).current.text = s.current.text := by rw [current_state]; rfl

theorem span_state : (m.state s).current.span = s.current.span.relocate m.place := by
  rw [current_state]; rfl

theorem kind_state : (m.state s).kind = s.kind := by
  show (m.state s).current.kind = s.current.kind
  rw [current_state]
  rfl

theorem operator?_state : (m.state s).operator? = s.operator? :=
  congrArg Operator.ofKind? (m.kind_state s)

theorem tooLarge_state (count : Nat) : (m.state s).tooLarge count = s.tooLarge count := rfl

theorem advance_state : (m.state s).advance = m.state s.advance := by
  simp only [ParseState.advance, state, Cursor.advance_relocate]

theorem claim_state (count : Nat) : (m.state s).claim count = m.state (s.claim count) := rfl

theorem note_state {n n' : Note}
    (h : m.journal (s.journal.note n) = (m.journal s.journal).note n') :
    (m.state s).note n' = m.state (s.note n) := by
  rw [ParseState.note, state, state, ← h]
  rfl

theorem faultAt_state (span : Span) {f : ParseFault} (known : ∀ name, f ≠ .unboundVariable name) :
    (m.state s).faultAt (span.relocate m.place) f = m.state (s.faultAt span f) :=
  m.note_state s (m.journal_fault s.journal span s.position known)

theorem fault_state {f : ParseFault} (known : ∀ name, f ≠ .unboundVariable name) :
    (m.state s).fault f = m.state (s.fault f) := by
  rw [ParseState.fault, span_state, faultAt_state m s _ known]
  rfl

theorem faultTooDeep_state : (m.state s).faultTooDeep = m.state s.faultTooDeep :=
  m.fault_state s (by simp)

theorem faultTooLarge_state : (m.state s).faultTooLarge = m.state s.faultTooLarge :=
  m.fault_state s (by simp)

theorem readNumber_state :
    (m.state s).readNumber = (m.tree s.readNumber.1, m.state s.readNumber.2) := by
  unfold ParseState.readNumber
  rw [text_state]
  cases readFloat s.current.text.toList with
  | ok value => rw [advance_state]; rfl
  | error _ =>
    have noted := m.note_state s (m.journal_malformed s.journal s.current)
    simp only [current_state, noted, advance_state]
    rfl

theorem readVariable_state :
    (m.state s).readVariable scope' =
      (m.tree (s.readVariable scope).1, m.state (s.readVariable scope).2) := by
  rw [ParseState.readVariable_eq, ParseState.readVariable_eq, text_state, span_state, ← m.value_eq,
    ← advance_state]
  show _ = (Expr.var _ _, ParseState.advance ⟨_, _, _, m.journal _⟩)
  rw [m.journal_lookUp]
  rfl

theorem closeBrace_state (name : String) :
    (m.state s).closeBrace name = m.state (s.closeBrace name) := by
  unfold ParseState.closeBrace
  rw [kind_state, text_state]
  split
  · exact m.advance_state s
  · exact m.fault_state s (by simp)

theorem readBraced_state :
    (m.state s).readBraced scope' =
      ((s.readBraced scope).1.map m.tree, m.state (s.readBraced scope).2) := by
  unfold ParseState.readBraced
  simp only [advance_state, kind_state, text_state, tooLarge_state, claim_state, readVariable_state,
    closeBrace_state]
  split
  · rw [m.fault_state _ (by simp)]
    rfl
  · split
    · rw [faultTooLarge_state]
      rfl
    · rfl

theorem closeEmptyParentheses_state (opening : Token) :
    (m.state s).closeEmptyParentheses (opening.relocate m.place) =
      m.state (s.closeEmptyParentheses opening) := by
  unfold ParseState.closeEmptyParentheses
  rw [span_state, ← advance_state, ← m.faultAt_state s _ (by simp)]
  rfl

theorem closeGroup_state (tree : Option Expr) :
    (m.state s).closeGroup (tree.map m.tree) =
      ((s.closeGroup tree).1.map m.tree, m.state (s.closeGroup tree).2) := by
  unfold ParseState.closeGroup
  rw [kind_state, text_state]
  split
  · rw [advance_state]
  · rw [m.fault_state s (by simp)]
    rfl

theorem closeCall_state (name : Token) (trees : Option (List Expr)) :
    (m.state s).closeCall scope' (name.relocate m.place) (trees.map (List.map m.tree)) =
      ((s.closeCall scope name trees).1.map m.tree, m.state (s.closeCall scope name trees).2) := by
  unfold ParseState.closeCall
  rw [kind_state, text_state, m.functions_eq, advance_state]
  split
  · rw [Token.relocate]
    dsimp only
    cases scope.functions.get? name.text with
    | some callee =>
      show ((trees.map (List.map m.tree)).map (Expr.call name.text callee), m.state s.advance) = _
      rw [← map_tree_call]
    | none =>
      show (none, (m.state s.advance).faultAt (name.span.relocate m.place) _) = _
      rw [m.faultAt_state s.advance _ (by simp)]
      rfl
  · rw [m.fault_state s (by simp)]
    rfl

end Transport

namespace Parse

variable {scope scope' : Scope} (m : Transport scope scope')

/-! ## Readings

By induction over the rules, each carried over by the lemmas about the small
steps that it is made of. -/

/-- The reading of a part from `s` to `next`, carried over. -/
def Carried (s next : ParseState) : (part : Part) → part.Yield → Prop
  | .operand, tree => Reads scope' .operand (m.state s) (tree.map m.tree) (m.state next)
  | .primary, tree => Reads scope' .primary (m.state s) (tree.map m.tree) (m.state next)
  | .chain, tree => Reads scope' .chain (m.state s) (tree.map m.tree) (m.state next)
  | .climb least left, (tree : Expr) =>
    Reads scope' (.climb least (m.tree left)) (m.state s) (m.tree tree) (m.state next)
  | .tighten op right, (tree : Expr) =>
    Reads scope' (.tighten op (m.tree right)) (m.state s) (m.tree tree) (m.state next)
  | .arguments, trees =>
    Reads scope' .arguments (m.state s) (trees.map (List.map m.tree)) (m.state next)

/-- The conditions of every rule are about kinds, depth and nodes, so the rule that was followed
in one scope may be followed in the other. -/
theorem Reads.transport {part : Part} {s next : ParseState} {yield : part.Yield}
    (h : Reads scope part s yield next) : Carried m s next part yield := by
  -- In each case the rule itself is applied to the carried premises.  What it then says of the
  -- small steps in the other scope is rewritten to what those in this scope have become.
  have kind := m.kind_state
  have operator := m.operator?_state
  induction h with
  | @tooDeep s deep =>
    have reads : Reads scope' .operand (m.state s) _ _ := .tooDeep deep
    rw [m.faultTooDeep_state] at reads
    exact reads
  | @operand s next tree deep _ body =>
    have body : Reads scope' .primary (m.state s).enter _ _ := body
    have deep : ¬ (m.state s).tooDeep := deep
    exact body.operand deep
  | @tooLarge s count claims large =>
    have reads : Reads scope' .primary (m.state s) _ _ :=
      .tooLarge ((congrArg claimOf? (kind s)).trans claims) large
    rw [m.faultTooLarge_state] at reads
    exact reads
  | @number s number large =>
    have reads : Reads scope' .primary (m.state s) _ _ := .number ((kind s).trans number) large
    rw [m.claim_state, m.readNumber_state] at reads
    exact reads
  | @negation s next tree sub large _ body =>
    have body : Reads scope' .operand (m.state (s.claim 2).advance) _ _ := body
    rw [← m.advance_state] at body
    have reads : Reads scope' .primary (m.state s) _ _ := .negation ((kind s).trans sub) large body
    rw [← m.map_tree_negate] at reads
    exact reads
  | @emptyParentheses s opening closing =>
    rw [← kind, ← m.advance_state] at closing
    have reads : Reads scope' .primary (m.state s) _ _ :=
      .emptyParentheses ((kind s).trans opening) closing
    rw [m.advance_state, m.current_state, m.closeEmptyParentheses_state] at reads
    exact reads
  | @group s next tree opening closing _ body =>
    have body : Reads scope' .chain (m.state s.advance) _ _ := body
    rw [← m.advance_state] at body
    rw [← kind, ← m.advance_state] at closing
    have reads : Reads scope' .primary (m.state s) _ _ :=
      .group ((kind s).trans opening) closing body
    rw [m.closeGroup_state] at reads
    exact reads
  | @braced s opening =>
    have reads : Reads scope' .primary (m.state s) _ _ := .braced ((kind s).trans opening)
    rw [m.readBraced_state] at reads
    exact reads
  | @variableName s word large =>
    have reads : Reads scope' .primary (m.state s) _ _ := .variableName ((kind s).trans word) large
    rw [m.claim_state, m.readVariable_state] at reads
    exact reads
  | @call s next trees word large opening _ body =>
    have body : Reads scope' .arguments (m.state (s.claim 1).advance.advance) _ _ := body
    rw [← kind] at opening
    rw [← m.advance_state] at body
    rw [← m.advance_state, ← m.claim_state] at opening body
    have reads : Reads scope' .primary (m.state s) _ _ :=
      .call ((kind s).trans word) large opening body
    rw [m.current_state, m.closeCall_state] at reads
    exact reads
  | @missingParenthesis s word large opening =>
    rw [← kind, ← m.advance_state, ← m.claim_state] at opening
    have reads : Reads scope' .primary (m.state s) _ _ :=
      .missingParenthesis ((kind s).trans word) large opening
    rw [m.claim_state, m.advance_state, m.fault_state _ (by simp), m.text_state,
      m.text_state] at reads
    exact reads
  | @unexpectedEnd s eof =>
    have reads : Reads scope' .primary (m.state s) _ _ := .unexpectedEnd ((kind s).trans eof)
    rw [m.fault_state _ (by simp)] at reads
    exact reads
  | @unexpectedToken s claims paren brace eof =>
    rw [← kind] at claims paren brace eof
    have reads : Reads scope' .primary (m.state s) _ _ := .unexpectedToken claims paren brace eof
    rw [m.fault_state _ (by simp), m.text_state] at reads
    exact reads
  | @noChain s next _ first =>
    have first : Reads scope' .operand (m.state s) none _ := first
    exact first.noChain
  | @chain s next after left tree _ _ first more =>
    have first : Reads scope' .operand (m.state s) (some _) _ := first
    exact first.chain more
  | @climbStop s least left stop =>
    have stop' : ∀ op, (m.state s).operator? = some op → op.precedence < least := by
      intro op h
      exact stop op ((operator s).symm.trans h)
    exact Reads.climbStop stop'
  | @climbTooLarge s least left op found tight large =>
    have reads : Reads scope' (.climb least (m.tree left)) (m.state s) _ _ :=
      .climbTooLarge ((operator s).trans found) tight large
    rw [m.faultTooLarge_state] at reads
    exact reads
  | @climbNoOperand s next least left op found tight large _ body =>
    have body : Reads scope' .operand (m.state (s.claim 1).advance) none _ := body
    rw [← m.advance_state] at body
    exact Reads.climbNoOperand ((operator s).trans found) tight large body
  | @climb s next after final least left right tightened tree op found tight large _ _ _ body
      tighter more =>
    have body : Reads scope' .operand (m.state (s.claim 1).advance) (some _) _ := body
    rw [← m.advance_state] at body
    exact Reads.climb ((operator s).trans found) tight large body tighter more
  | @tightenStop s op right stop =>
    have stop' : ∀ next, (m.state s).operator? = some next → next.precedence < rightLevel op := by
      intro next h
      exact stop next ((operator s).symm.trans h)
    exact Reads.tightenStop stop'
  | @tightenTighter s after op next right tree found tight _ more =>
    exact Reads.tightenTighter ((operator s).trans found) tight more
  | @tightenTooDeep s op next right found same rightward deep =>
    have reads : Reads scope' (.tighten op (m.tree right)) (m.state s) _ _ :=
      .tightenTooDeep ((operator s).trans found) same rightward deep
    rw [m.faultTooDeep_state] at reads
    exact reads
  | @tightenSame s after op next right tree found same rightward deep _ more =>
    have more : Reads scope' (.climb op.precedence (m.tree right)) (m.state s).enter _ _ := more
    exact more.tightenSame ((operator s).trans found) same rightward deep
  | @argumentsEnd s closing =>
    rw [← kind] at closing
    exact Reads.argumentsEnd closing
  | @comma s next trees comma _ more =>
    have more : Reads scope' .arguments (m.state s.advance) _ _ := more
    rw [← m.advance_state] at more
    exact more.comma ((kind s).trans comma)
  | @argument s next after tree trees closing comma _ _ first more =>
    rw [← kind] at closing comma
    have first : Reads scope' .chain (m.state s) (some _) _ := first
    have reads := first.argument closing comma more
    cases trees <;> exact reads
  | @failedArgument s next after trees closing comma _ moved _ first more =>
    rw [← kind] at closing comma
    have first : Reads scope' .chain (m.state s) none _ := first
    exact first.failedArgument closing comma moved more
  | @skippedArgument s next after trees closing comma _ moved _ first more =>
    rw [← kind] at closing comma
    have first : Reads scope' .chain (m.state s) none _ := first
    have more : Reads scope' .arguments (m.state next.advance) _ _ := more
    rw [← m.advance_state] at more
    exact first.skippedArgument closing comma moved more

end Parse

/-! ## A whole parse -/

namespace Transport

open Parse

variable {scope scope' : Scope} (m : Transport scope scope')

theorem finish_state (s : ParseState) : (m.state s).finish = m.state s.finish := by
  unfold ParseState.finish
  rw [text_state]
  show (if (s.cursor.relocate m.place).atEnd then _ else _) = _
  rw [Cursor.atEnd_relocate]
  split
  · rfl
  · exact m.fault_state s (by simp)

/-- A parse of moved tokens in the other scope makes what the parse has become. -/
theorem run_eq (empty : m.journal .empty = .empty) {tokens : List Token} (nonempty : tokens ≠ []) :
    run scope' (tokens.map (Token.relocate m.place)) =
      ((run scope tokens).1.map m.tree, m.state (run scope tokens).2) := by
  have start : m.state (.start tokens) = .start (tokens.map (Token.relocate m.place)) := by
    rw [ParseState.start, state, empty, Cursor.relocate_ofTokens _ nonempty]
    rfl
  have reads : Reads scope .chain (.start tokens) (chain scope (.start tokens)).tree
      (chain scope (.start tokens)).next := (yields scope).2.2.2.1 _
  have carried : Reads scope' .chain (m.state (.start tokens)) _ _ := reads.transport m
  rw [start] at carried
  obtain ⟨tree, next⟩ := chain_of_reads carried
  simp only [run, tree, next, finish_state]

/-- What a parse notes has become what the other parse notes. -/
theorem parseTokens_eq (empty : m.journal .empty = .empty) {tokens : List Token}
    (nonempty : tokens ≠ []) :
    (parseTokens scope' (tokens.map (Token.relocate m.place))).1 =
      ⟨(parseTokens scope tokens).1.tree.map m.tree,
        (m.journal (run scope tokens).2.journal).first?⟩ := by
  have nonempty' : tokens.map (Token.relocate m.place) ≠ [] := by simpa using nonempty
  rw [parseTokens, parseTokens, if_neg (by simpa using nonempty), if_neg (by simpa using nonempty'),
    m.run_eq empty nonempty]
  rfl

end Transport

end Arith
