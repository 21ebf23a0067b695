/-
# Trees as texts

A tree is written as an expression, walked through node by node, and written
as JSON.

* In an expression every binary operation stands in parentheses, so that the
  text shows how it was grouped; variables stand in braces, and numbers are
  written in the plain layout.  Writing puts the characters of a tree in
  front of what follows them (`Expr.write`), so that the time it takes does
  not depend on how deep the tree is.
* A walk starts at the root, takes a binary operation before its operands
  and a call before its arguments, and what stands further left in the text
  comes first (`Expr.preorder`).  The nodes of a tree, its numbers and the
  names that it uses are read off the walk.
* In JSON every node is an object whose `type` says what it is
  (`Expr.json`).  A call keeps its name and its arguments, but not the
  function behind them, and a number that is not finite is null.
-/
import Arith.Expr
import Arith.Number.Layout
import Arith.Json

namespace Arith.Expr

mutual

/-- Writes a tree in front of `rest`. -/
def write : Expr → List Char → List Char
  | .number value, rest => floatChars value ++ rest
  | .binary op left right, rest =>
    '(' :: left.write (' ' :: op.symbol :: ' ' :: right.write (')' :: rest))
  | .var key _, rest => '{' :: key.toList ++ '}' :: rest
  | .call name _ arguments, rest => name.toList ++ '(' :: writeArguments arguments (')' :: rest)

/-- Writes the arguments of a call in front of `rest`. -/
def writeArguments : List Expr → List Char → List Char
  | [], rest => rest
  | a :: as, rest => a.write (writeFurther as rest)

/-- Writes the arguments after the first, each behind a comma, in front of `rest`. -/
def writeFurther : List Expr → List Char → List Char
  | [], rest => rest
  | a :: as, rest => ',' :: ' ' :: a.write (writeFurther as rest)

end

def text (e : Expr) : String := String.ofList (e.write [])

mutual

/-- The nodes of a tree in the order of a walk, each with its depth, where the root has `depth`. -/
def preorder (depth : Nat) : Expr → List (Nat × Expr)
  | .number value => [(depth, .number value)]
  | .binary op left right =>
    (depth, .binary op left right) :: left.preorder (depth + 1) ++ right.preorder (depth + 1)
  | .var key value => [(depth, .var key value)]
  | .call name callee arguments =>
    (depth, .call name callee arguments) :: preorderAll (depth + 1) arguments

def preorderAll (depth : Nat) : List Expr → List (Nat × Expr)
  | [] => []
  | e :: es => e.preorder depth ++ preorderAll depth es

end

def nodes (e : Expr) : List Expr := (e.preorder 1).map (·.2)

/-- The names of the variables of a tree, as often and in the order as they stand in the text. -/
def variableNames (e : Expr) : List String :=
  e.nodes.filterMap fun
    | .var key _ => some key
    | _ => none

def numbers (e : Expr) : List Float :=
  e.nodes.filterMap fun
    | .number value => some value
    | _ => none

/-- One line about a node at some depth. -/
def describe (depth : Nat) : Expr → String
  | .number value => s!"{depth} number {floatText value}"
  | .binary op _ _ => s!"{depth} binary {op.symbol} {op.label}"
  | .var key value => s!"{depth} variable {key} {floatText value}"
  | .call name _ arguments => s!"{depth} function {name} {arguments.length}"

def outline (e : Expr) : List String := (e.preorder 1).map fun (depth, node) => node.describe depth

mutual

def json : Expr → Json
  | .number value => .object [("type", .string "Number"), ("value", .ofFloat value)]
  | .binary op left right =>
    .object [("type", .string "Binary"), ("op", .string op.label), ("left", left.json),
      ("right", right.json)]
  | .var key value =>
    .object [("type", .string "Variable"), ("key", .string key), ("value", .ofFloat value)]
  | .call name _ arguments =>
    .object [("type", .string "Function"), ("name", .string name),
      ("args", .list (jsonAll arguments))]

def jsonAll : List Expr → List Json
  | [] => []
  | e :: es => e.json :: jsonAll es

end

end Arith.Expr
