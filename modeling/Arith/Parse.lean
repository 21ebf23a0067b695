/-
# From tokens to trees

    chain     ::=  operand (operator operand)*
    operand   ::=  NUMBER | "-" operand | "(" chain ")" | VARIABLE
                |  "{" VARIABLE "}" | FUNCTION "(" (chain | ",")* ")"

A chain is grouped by precedence climbing: `climb` folds the operators that
bind at least as tightly as some precedence onto what stands left of them,
and `tighten` first lets a right operand take what binds tighter still.

Reading never stops at an error.  Whatever is read, the reader says so if no
tree came out of it, it never moves back, and a tree takes at least one
token.  These facts are part of what each function returns (`Reading`,
`Extension`, `ArgumentsReading`), and by them the recursion ends: a call is
made with fewer tokens left, or with as many and for a smaller part of the
grammar.

A parse returns the tree that it could make together with the first error
that it met (`parseTokens`).  A caller who wants no tree with an error takes
`Parsed.result`.
-/
import Arith.Parse.State
import Arith.Expr.Printer

namespace Arith

/-! ## What readers return -/

/-- What came out of reading a part of an expression from the state `s` on. -/
structure Reading (s : ParseState) where
  /-- The tree, if one could be made. -/
  tree : Option Expr
  /-- The state behind the part. -/
  next : ParseState
  total : next.total = s.total
  le : next.remaining ≤ s.remaining
  lt : tree.isSome → next.remaining < s.remaining

namespace Reading

/-- A part of which no tree could be made. -/
def fail {s : ParseState} (next : ParseState) (total : next.total = s.total)
    (le : next.remaining ≤ s.remaining) : Reading s :=
  ⟨none, next, total, le, by simp⟩

/-- A part that takes at least one token, with or without a tree. -/
def shorter {s : ParseState} (r : Option Expr × ParseState) (total : r.2.total = s.total)
    (lt : r.2.remaining < s.remaining) : Reading s :=
  ⟨r.1, r.2, total, by omega, fun _ => lt⟩

end Reading

/-- What came out of extending a tree from the state `s` on. -/
structure Extension (s : ParseState) where
  tree : Expr
  next : ParseState
  total : next.total = s.total
  le : next.remaining ≤ s.remaining

/-- The arguments that were read from the state `s` on, none if one of them could not be read. -/
structure ArgumentsReading (s : ParseState) where
  trees : Option (List Expr)
  next : ParseState
  total : next.total = s.total
  le : next.remaining ≤ s.remaining

/-! ## The grammar -/

namespace Parse

open ParseState

mutual

def operand (scope : Scope) (s : ParseState) : Reading s :=
  if s.tooDeep then .fail s.faultTooDeep rfl (Nat.le_refl _)
  else
    match primary scope s.enter with
    | ⟨tree, next, total, le, lt⟩ => ⟨tree, next.leave, total, le, lt⟩
termination_by (s.remaining, 1)

def primary (scope : Scope) (s : ParseState) : Reading s :=
  match h : s.kind with
  | .number =>
    have pos : 0 < s.remaining := remaining_pos (by rw [h]; decide)
    if s.tooLarge 1 then .fail s.faultTooLarge rfl (Nat.le_refl _)
    else
      let r := (s.claim 1).readNumber
      .shorter (some r.1, r.2) (passes_readNumber _).of_advance.total
        ((passes_readNumber _).lt_of_advance pos)
  | .sub =>
    have pos : 0 < s.remaining := remaining_pos (by rw [h]; decide)
    if s.tooLarge 2 then .fail s.faultTooLarge rfl (Nat.le_refl _)
    else
      match operand scope (s.claim 2).advance with
      | ⟨tree, next, total, le, _⟩ =>
        .shorter (tree.map .negate, next) (total.trans (total_advance _))
          (remaining_lt_of_advance pos le)
  | .leftParen =>
    have pos : 0 < s.remaining := remaining_pos (by rw [h]; decide)
    if s.advance.kind = .rightParen then
      .fail (s.advance.closeEmptyParentheses s.current)
        (passes_closeEmptyParentheses _ _).of_advance.total
        (passes_closeEmptyParentheses _ _).of_advance.le
    else
      match chain scope s.advance with
      | ⟨tree, next, total, le, _⟩ =>
        .shorter (next.closeGroup tree)
          ((passes_closeGroup _ _).total.trans (total.trans (total_advance _)))
          (remaining_lt_of_advance pos (Nat.le_trans (passes_closeGroup _ _).le le))
  | .leftBrace =>
    have pos : 0 < s.remaining := remaining_pos (by rw [h]; decide)
    .shorter (s.readBraced scope) (onward_readBraced s scope).of_advance.total
      ((onward_readBraced s scope).lt_of_advance pos)
  | .variableName =>
    have pos : 0 < s.remaining := remaining_pos (by rw [h]; decide)
    if s.tooLarge 1 then .fail s.faultTooLarge rfl (Nat.le_refl _)
    else
      let r := (s.claim 1).readVariable scope
      .shorter (some r.1, r.2) (passes_readVariable _ scope).of_advance.total
        ((passes_readVariable _ scope).lt_of_advance pos)
  | .functionName =>
    have pos : 0 < s.remaining := remaining_pos (by rw [h]; decide)
    if s.tooLarge 1 then .fail s.faultTooLarge rfl (Nat.le_refl _)
    else
      let opening := (s.claim 1).advance
      if opening.kind = .leftParen then
        match arguments scope opening.advance with
        | ⟨trees, next, total, le⟩ =>
          .shorter (next.closeCall scope s.current trees)
            ((passes_closeCall _ _ _ _).total.trans
              (total.trans ((total_advance _).trans (total_advance _))))
            (remaining_lt_of_advance pos
              (Nat.le_trans (passes_closeCall _ _ _ _).le
                (Nat.le_trans le (remaining_advance_le _))))
      else
        .fail (opening.fault (.missingCallParenthesis s.current.text opening.current.text))
          (total_advance _) (remaining_advance_le _)
  | .eof => .fail (s.fault .unexpectedEnd) rfl (Nat.le_refl _)
  | _ => .fail (s.fault (.unexpectedToken s.current.text)) rfl (Nat.le_refl _)
termination_by (s.remaining, 0)

/-- Reads operands with operators between them. -/
def chain (scope : Scope) (s : ParseState) : Reading s :=
  match operand scope s with
  | ⟨none, next, total, le, _⟩ => .fail next total le
  | ⟨some left, next, total, _, lt⟩ =>
    have shorter : next.remaining < s.remaining := lt rfl
    match climb scope 1 left next with
    | ⟨tree, after, total', le⟩ =>
      .shorter (some tree, after) (total'.trans total) (Nat.lt_of_le_of_lt le shorter)
termination_by (s.remaining, 2)

/-- Folds the operators of at least the precedence `least` onto the tree left of them. -/
def climb (scope : Scope) (least : Nat) (left : Expr) (s : ParseState) : Extension s :=
  match h : s.operator? with
  | none => ⟨left, s, rfl, Nat.le_refl _⟩
  | some op =>
    if op.precedence < least then ⟨left, s, rfl, Nat.le_refl _⟩
    else if s.tooLarge 1 then ⟨left, s.faultTooLarge, rfl, Nat.le_refl _⟩
    else
      have pos : 0 < s.remaining := remaining_pos_of_operator h
      match operand scope (s.claim 1).advance with
      | ⟨none, next, total, le, _⟩ =>
        ⟨left, next, total.trans (total_advance _), Nat.le_of_lt (remaining_lt_of_advance pos le)⟩
      | ⟨some right, next, total, le, _⟩ =>
        have shorter : next.remaining < s.remaining := remaining_lt_of_advance pos le
        match tighten scope op right next with
        | ⟨tightened, after, total', le'⟩ =>
          have shorter' : after.remaining < s.remaining := Nat.lt_of_le_of_lt le' shorter
          match climb scope least (.binary op left tightened) after with
          | ⟨tree, final, total'', le''⟩ =>
            ⟨tree, final, total''.trans (total'.trans (total.trans (total_advance _))),
              Nat.le_trans le'' (Nat.le_of_lt shorter')⟩
termination_by (s.remaining, 0)

/-- Lets the right operand of `op` take the operators that bind tighter, and as many as there are
of the same if they group to the right. -/
def tighten (scope : Scope) (op : Operator) (right : Expr) (s : ParseState) : Extension s :=
  match s.operator? with
  | none => ⟨right, s, rfl, Nat.le_refl _⟩
  | some next =>
    if op.precedence < next.precedence then climb scope (op.precedence + 1) right s
    else if next.precedence = op.precedence ∧ op.isRightAssociative then
      if s.tooDeep then ⟨right, s.faultTooDeep, rfl, Nat.le_refl _⟩
      else
        match climb scope op.precedence right s.enter with
        | ⟨tree, after, total, le⟩ => ⟨tree, after.leave, total, le⟩
    else ⟨right, s, rfl, Nat.le_refl _⟩
termination_by (s.remaining, 1)

/-- Reads the arguments of a call up to its closing parenthesis or the end.  Commas separate
arguments but need not, and a token that starts no argument is skipped. -/
def arguments (scope : Scope) (s : ParseState) : ArgumentsReading s :=
  if closed : s.kind = .rightParen ∨ s.kind = .eof then ⟨some [], s, rfl, Nat.le_refl _⟩
  else
    have : 0 < s.remaining := remaining_pos fun eof => closed (.inr eof)
    if s.kind = .comma then
      match arguments scope s.advance with
      | ⟨trees, next, total, le⟩ =>
        ⟨trees, next, total.trans (total_advance _), Nat.le_trans le (remaining_advance_le _)⟩
    else
      match chain scope s with
      | ⟨some tree, next, total, _, lt⟩ =>
        have shorter : next.remaining < s.remaining := lt rfl
        match arguments scope next with
        | ⟨trees, after, total', le⟩ =>
          ⟨trees.map (tree :: ·), after, total'.trans total,
            Nat.le_trans le (Nat.le_of_lt shorter)⟩
      | ⟨none, next, total, le, _⟩ =>
        if moved : s.position < next.position then
          have : next.remaining < s.remaining := (remaining_lt_iff total).mpr moved
          match arguments scope next with
          | ⟨_, after, total', le'⟩ =>
            ⟨none, after, total'.trans total, Nat.le_trans le' le⟩
        else
          match arguments scope next.advance with
          | ⟨_, after, total', le'⟩ =>
            ⟨none, after, total'.trans ((total_advance _).trans total),
              Nat.le_trans le' (Nat.le_trans (remaining_advance_le _) le)⟩
termination_by (s.remaining, 3)

end

end Parse

/-! ## Whole parses -/

structure Parsed where
  tree : Option Expr
  error : Option ParseError

namespace Parsed

/-- The tree if there was no error, else the error; without either, the expression ended too
early. -/
def result (p : Parsed) : Except ParseError Expr :=
  match p.error, p.tree with
  | some e, _ => .error e
  | none, some tree => .ok tree
  | none, none => .error ⟨.unexpectedEnd, some (.point 0)⟩

end Parsed

/-- Notes that tokens are left behind the expression, if there are any. -/
def ParseState.finish (s : ParseState) : ParseState :=
  if s.cursor.atEnd then s else s.fault (.trailingTokens s.current.text)

theorem ParseState.passes_finish (s : ParseState) : s.Passes s.finish := by
  unfold finish
  split
  · exact .refl s
  · exact passes_fault s _

namespace Parse

/-- The tree that can be made of some tokens, and the state in which the parse of them ends. -/
def run (scope : Scope) (tokens : List Token) : Option Expr × ParseState :=
  let r := chain scope (.start tokens)
  (r.tree, r.next.finish)

/-- What is told of the tree at the end of a parse. -/
def treeRecords (tree : Option Expr) : List Record :=
  (tree.map fun e => ⟨.trace, .parser, s!"parsed {e.text}"⟩).toList

end Parse

/-- Parses tokens; what is told of it comes with the result.  An empty list of tokens is an error of
which nothing is told. -/
def parseTokens (scope : Scope) (tokens : List Token) : Parsed × List Record :=
  if tokens.isEmpty then (⟨none, some .emptyTokenList⟩, [])
  else
    let (tree, final) := Parse.run scope tokens
    (⟨tree, final.journal.first?⟩, final.journal.records ++ Parse.treeRecords tree)

end Arith
