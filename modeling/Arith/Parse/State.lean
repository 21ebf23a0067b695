/-
# The state of a parse

A list of tokens is read one by one.  A cursor always has a current token:
behind the last token of the list stands the end of the expression, an empty
token placed where the last one ends, and moving on from there does nothing.

The state of a parse is a cursor, the depth at which operands are being
read, the number of nodes that have been claimed, and the journal of what
has been noted.  Two limits keep trees small: operands may be nested no
deeper than `nestingLimit`, and a tree may have no more than `nodeLimit`
nodes.  Nodes are claimed before they are made and never given back, so what
has been claimed bounds what has been made.

The small steps that the grammar is read with are here too, from noting an
error to closing a call.  None of them reads the journal, and each leaves
most of the state alone: what it leaves alone is said once for every step
(`Onward`, `Passes`), and all that is proved of whole parses about the
number of tokens, the depth and the nodes starts from there.
-/
import Arith.Token
import Arith.Number.Literal
import Arith.Expr
import Arith.Table
import Arith.Parse.Journal

namespace Arith

/-- A place in a list of tokens. -/
structure Cursor where
  /-- How many tokens lie before the place. -/
  position : Nat
  /-- The tokens from the place on. -/
  rest : List Token
  /-- The offset at which the last token of the list ends. -/
  stop : Nat

namespace Cursor

/-- The offset at which the last of some tokens ends. -/
def stopOf (tokens : List Token) : Nat := (tokens.getLast?.map (·.span.stop)).getD 0

def ofTokens (tokens : List Token) : Cursor := ⟨0, tokens, stopOf tokens⟩

def current (c : Cursor) : Token := c.rest.headD (.eof c.stop)

def kind (c : Cursor) : TokenKind := c.current.kind

/-- Moves past the current token, if there is one. -/
def advance (c : Cursor) : Cursor :=
  match c.rest with
  | [] => c
  | _ :: rest => { c with position := c.position + 1, rest }

def atEnd (c : Cursor) : Bool := c.rest.isEmpty

/-- How many tokens the whole list has. -/
def length (c : Cursor) : Nat := c.position + c.rest.length

@[simp] theorem rest_advance (c : Cursor) : c.advance.rest = c.rest.tail := by
  cases c with
  | mk position rest stop => cases rest <;> rfl

@[simp] theorem stop_advance (c : Cursor) : c.advance.stop = c.stop := by
  cases c with
  | mk position rest stop => cases rest <;> rfl

@[simp] theorem length_advance (c : Cursor) : c.advance.length = c.length := by
  cases c with
  | mk position rest stop =>
    cases rest <;> simp [advance, length, Nat.add_comm, Nat.add_left_comm]

/-- Where the current token is not the end of the expression, a token is left. -/
theorem length_rest_pos {c : Cursor} (h : c.kind ≠ .eof) : 0 < c.rest.length := by
  cases c with
  | mk position rest stop =>
    cases rest with
    | nil => exact absurd rfl h
    | cons t rest => simp

end Cursor

/-! ## States and small steps -/

/-- How deep operands may be nested. -/
def nestingLimit : Nat := 256

/-- How many nodes a tree may have. -/
def nodeLimit : Nat := 2048

structure Scope where
  bindings : Bindings
  functions : FunctionTable

/-- The state of a parse. -/
structure ParseState where
  cursor : Cursor
  /-- How many operands are being read, each inside the one before. -/
  depth : Nat
  /-- How many nodes have been claimed. -/
  claimed : Nat
  journal : Journal

namespace ParseState

def start (tokens : List Token) : ParseState := ⟨.ofTokens tokens, 0, 0, .empty⟩

def remaining (s : ParseState) : Nat := s.cursor.rest.length

/-- How many tokens have been read. -/
def position (s : ParseState) : Nat := s.cursor.position

def total (s : ParseState) : Nat := s.cursor.length

def current (s : ParseState) : Token := s.cursor.current

def kind (s : ParseState) : TokenKind := s.cursor.kind

/-- The operator at the cursor. -/
def operator? (s : ParseState) : Option Operator := Operator.ofKind? s.kind

def advance (s : ParseState) : ParseState := { s with cursor := s.cursor.advance }

def note (s : ParseState) (n : Note) : ParseState := { s with journal := s.journal.note n }

/-- Notes an error at some place. -/
def faultAt (s : ParseState) (span : Span) (fault : ParseFault) : ParseState :=
  s.note (.error ⟨fault, some span⟩ s.position)

def fault (s : ParseState) (fault : ParseFault) : ParseState := s.faultAt s.current.span fault

def enter (s : ParseState) : ParseState := { s with depth := s.depth + 1 }

def leave (s : ParseState) : ParseState := { s with depth := s.depth - 1 }

/-- Whether no further operand may be entered. -/
def tooDeep (s : ParseState) : Bool := nestingLimit ≤ s.depth

def faultTooDeep (s : ParseState) : ParseState := s.fault (.nestingTooDeep nestingLimit)

/-- Whether `count` more nodes would be too many. -/
def tooLarge (s : ParseState) (count : Nat) : Bool := nodeLimit < s.claimed + count

def faultTooLarge (s : ParseState) : ParseState := s.fault (.expressionTooLarge nodeLimit)

def claim (s : ParseState) (count : Nat) : ParseState := { s with claimed := s.claimed + count }

/-- Reads the current token as a number; one that is malformed counts as zero. -/
def readNumber (s : ParseState) : Expr × ParseState :=
  match readFloat s.current.text.toList with
  | .ok value => (.number value, s.advance)
  | .error _ => (.number 0, (s.note (.malformedNumber s.current)).advance)

/-- Reads the current token as a variable; one that is not bound counts as zero. -/
def readVariable (s : ParseState) (scope : Scope) : Expr × ParseState :=
  let name := s.current.text
  match scope.bindings.get? name with
  | some value => (.var name value, s.advance)
  | none => (.var name 0, (s.fault (.unboundVariable name)).advance)

/-- Moves past the brace that closes a variable. -/
def closeBrace (s : ParseState) (name : String) : ParseState :=
  if s.kind = .rightBrace then s.advance else s.fault (.unclosedBrace name s.current.text)

/-- Reads a variable in braces, where the current token is the first of them. -/
def readBraced (s : ParseState) (scope : Scope) : Option Expr × ParseState :=
  let inner := s.advance
  if inner.kind ≠ .variableName then
    (none, inner.fault (.expectedVariableName inner.current.text))
  else if inner.tooLarge 1 then (none, inner.faultTooLarge)
  else
    let (e, s') := (inner.claim 1).readVariable scope
    (some e, s'.closeBrace inner.current.text)

/-- Notes that parentheses hold nothing and moves past them, where `opening` is the first of them
and the current token the second. -/
def closeEmptyParentheses (s : ParseState) (opening : Token) : ParseState :=
  (s.faultAt ⟨opening.span.start, s.current.span.stop⟩ .emptyParentheses).advance

/-- Moves past the parenthesis that closes a group, of which `tree` is what could be read. -/
def closeGroup (s : ParseState) (tree : Option Expr) : Option Expr × ParseState :=
  if s.kind = .rightParen then (tree, s.advance)
  else (none, s.fault (.unclosedParenthesis s.current.text))

/-- Moves past the parenthesis that closes a call and looks the function up.  There is no tree if
the function is missing or one of the arguments could not be read. -/
def closeCall (s : ParseState) (scope : Scope) (name : Token) (arguments : Option (List Expr)) :
    Option Expr × ParseState :=
  if s.kind = .rightParen then
    match scope.functions.get? name.text with
    | some callee => (arguments.map (.call name.text callee), s.advance)
    | none => (none, s.advance.faultAt name.span (.undefinedFunction name.text))
  else (none, s.fault (.unclosedCall name.text s.current.text))

/-! ## How many tokens are left -/

theorem total_eq (s : ParseState) : s.total = s.position + s.remaining := rfl

/-- Of two states over equally many tokens, the one that has read more has fewer left. -/
theorem remaining_lt_iff {s t : ParseState} (h : t.total = s.total) :
    t.remaining < s.remaining ↔ s.position < t.position := by
  rw [total_eq, total_eq] at h
  omega

@[simp] theorem remaining_claim (s : ParseState) (count : Nat) :
    (s.claim count).remaining = s.remaining := rfl

@[simp] theorem kind_claim (s : ParseState) (count : Nat) : (s.claim count).kind = s.kind := rfl

@[simp] theorem remaining_advance (s : ParseState) : s.advance.remaining = s.remaining - 1 := by
  simp [remaining, advance]

theorem remaining_advance_le (s : ParseState) : s.advance.remaining ≤ s.remaining := by
  rw [remaining_advance]
  omega

/-- Where the current token is not the end of the expression, a token is left. -/
theorem remaining_pos {s : ParseState} (h : s.kind ≠ .eof) : 0 < s.remaining :=
  Cursor.length_rest_pos h

/-- Where the current token is an operator, a token is left. -/
theorem remaining_pos_of_operator {s : ParseState} {op : Operator} (h : s.operator? = some op) :
    0 < s.remaining := by
  apply remaining_pos
  intro eof
  rw [operator?, eof] at h
  exact nomatch h

theorem remaining_lt_of_advance {s next : ParseState} (pos : 0 < s.remaining)
    (le : next.remaining ≤ s.advance.remaining) : next.remaining < s.remaining := by
  rw [remaining_advance] at le
  omega

@[simp] theorem total_note (s : ParseState) (n : Note) : (s.note n).total = s.total := rfl

@[simp] theorem total_fault (s : ParseState) (f : ParseFault) : (s.fault f).total = s.total := rfl

@[simp] theorem total_enter (s : ParseState) : s.enter.total = s.total := rfl

@[simp] theorem total_faultTooDeep (s : ParseState) : s.faultTooDeep.total = s.total := rfl

@[simp] theorem total_faultTooLarge (s : ParseState) : s.faultTooLarge.total = s.total := rfl

@[simp] theorem total_claim (s : ParseState) (count : Nat) : (s.claim count).total = s.total := rfl

@[simp] theorem total_advance (s : ParseState) : s.advance.total = s.total := by
  simp [total, advance]

/-! ## What the small steps leave alone

Whatever a small step reads, it reads of the same tokens, it does not move
back, and it leaves the depth as it was.  All of them but one claim no node
either: the variable inside braces is claimed while it is read.  That is
said once for each step, and by the step that a token has been taken before
it (`s.advance.Passes ..`) where the step takes one in any case. -/

/-- On the way from `s` to `t` tokens are read, and the depth does not change. -/
structure Onward (s t : ParseState) : Prop where
  total : t.total = s.total
  le : t.remaining ≤ s.remaining
  depth : t.depth = s.depth

/-- On the way from `s` to `t` tokens are read and notes made, and nothing else changes. -/
structure Passes (s t : ParseState) : Prop extends Onward s t where
  claimed : t.claimed = s.claimed

variable {s t u : ParseState}

theorem Onward.trans (h : s.Onward t) (h' : t.Onward u) : s.Onward u :=
  ⟨h'.total.trans h.total, Nat.le_trans h'.le h.le, h'.depth.trans h.depth⟩

/-- A step behind the current token leaves fewer tokens, if there was one. -/
theorem Onward.lt_of_advance (h : s.advance.Onward t) (pos : 0 < s.remaining) :
    t.remaining < s.remaining := remaining_lt_of_advance pos h.le

theorem Passes.refl (s : ParseState) : s.Passes s := ⟨⟨rfl, Nat.le_refl _, rfl⟩, rfl⟩

theorem Passes.trans (h : s.Passes t) (h' : t.Passes u) : s.Passes u :=
  ⟨h.toOnward.trans h'.toOnward, h'.claimed.trans h.claimed⟩

theorem passes_note (s : ParseState) (n : Note) : s.Passes (s.note n) :=
  ⟨⟨rfl, Nat.le_refl _, rfl⟩, rfl⟩

theorem passes_fault (s : ParseState) (f : ParseFault) : s.Passes (s.fault f) := passes_note s _

theorem passes_advance (s : ParseState) : s.Passes s.advance :=
  ⟨⟨total_advance s, remaining_advance_le s, rfl⟩, rfl⟩

theorem Onward.of_advance (h : s.advance.Onward t) : s.Onward t :=
  (passes_advance s).toOnward.trans h

/-- A step behind the current token moves on, if there was one. -/
theorem Onward.position_lt (h : s.advance.Onward t) (pos : 0 < s.remaining) :
    s.position < t.position := (remaining_lt_iff h.of_advance.total).mp (h.lt_of_advance pos)

theorem Passes.of_advance (h : s.advance.Passes t) : s.Passes t := (passes_advance s).trans h

/-- A note made before the token is passed. -/
theorem passes_note_advance (s : ParseState) (n : Note) : s.advance.Passes (s.note n).advance :=
  passes_note s.advance n

theorem passes_readNumber (s : ParseState) : s.advance.Passes s.readNumber.2 := by
  unfold readNumber
  split
  · exact .refl _
  · exact passes_note_advance s _

theorem passes_readVariable (s : ParseState) (scope : Scope) :
    s.advance.Passes (s.readVariable scope).2 := by
  unfold readVariable
  dsimp only
  split
  · exact .refl _
  · exact passes_note_advance s _

theorem passes_closeBrace (s : ParseState) (name : String) : s.Passes (s.closeBrace name) := by
  unfold closeBrace
  split
  · exact passes_advance s
  · exact passes_fault s _

theorem onward_readBraced (s : ParseState) (scope : Scope) :
    s.advance.Onward (s.readBraced scope).2 := by
  unfold readBraced
  dsimp only
  split
  · exact (passes_fault s.advance _).toOnward
  · split
    · exact (passes_fault s.advance _).toOnward
    · have claims : s.advance.Onward (s.advance.claim 1) := ⟨rfl, Nat.le_refl _, rfl⟩
      have reads := (passes_readVariable (s.advance.claim 1) scope).of_advance
      exact claims.trans (reads.trans (passes_closeBrace _ _)).toOnward

theorem passes_closeEmptyParentheses (s : ParseState) (opening : Token) :
    s.Passes (s.closeEmptyParentheses opening) :=
  (passes_note s _).trans (passes_advance _)

theorem passes_closeGroup (s : ParseState) (tree : Option Expr) :
    s.Passes (s.closeGroup tree).2 := by
  unfold closeGroup
  split
  · exact passes_advance s
  · exact passes_fault s _

theorem passes_closeCall (s : ParseState) (scope : Scope) (name : Token)
    (arguments : Option (List Expr)) : s.Passes (s.closeCall scope name arguments).2 := by
  unfold closeCall
  split
  · split
    · exact passes_advance s
    · exact (passes_advance s).trans (passes_note _ _)
  · exact passes_fault s _

end ParseState

end Arith
