/-
# Expression trees

A tree is what an expression means once its names have been looked up: a
variable carries the value that it had, and a call carries the handle of the
function that its name stood for.  Two calls are calls of the same function
exactly if their handles are the same, whatever their names.

There is no node for a sign: the opposite of a tree is its difference from
zero (`Expr.negate`), which counts as two nodes more.

Trees are compared with the equality of numbers (`Expr.same`), which is not
reflexive, so a tree may differ from itself.
-/
import Arith.Token

namespace Arith

/-- The operations that stand between two operands. -/
inductive Operator where
  | add
  | sub
  | mul
  | quo
  | rem
  | pow
deriving DecidableEq, Inhabited

namespace Operator

/-- How tightly an operator binds its operands. -/
def precedence : Operator → Nat
  | .add | .sub => 1
  | .mul | .quo | .rem => 2
  | .pow => 3

/-- Whether a run of the operator groups to the right. -/
def isRightAssociative (op : Operator) : Bool := op == .pow

def symbol : Operator → Char
  | .add => '+'
  | .sub => '-'
  | .mul => '*'
  | .quo => '/'
  | .rem => '%'
  | .pow => '^'

def label : Operator → String
  | .add => "Add"
  | .sub => "Sub"
  | .mul => "Mul"
  | .quo => "Quo"
  | .rem => "Rem"
  | .pow => "Pow"

/-- The operator that a token stands for. -/
def ofKind? : TokenKind → Option Operator
  | .add => some .add
  | .sub => some .sub
  | .mul => some .mul
  | .quo => some .quo
  | .rem => some .rem
  | .pow => some .pow
  | _ => none

end Operator

def TokenKind.isOperator (kind : TokenKind) : Bool := (Operator.ofKind? kind).isSome

/-- The identity of a function of the host. -/
structure Handle where
  id : Nat
deriving DecidableEq, Inhabited

/-- An expression with its names looked up. -/
inductive Expr where
  | number (value : Float)
  | binary (op : Operator) (left right : Expr)
  /-- A variable and the value that it had when the expression was read. -/
  | var (key : String) (value : Float)
  /-- A call of the function behind a handle under the name that it was found by. -/
  | call (name : String) (callee : Handle) (arguments : List Expr)
deriving Inhabited

namespace Expr

/-- The opposite of a tree, as a difference from zero. -/
def negate (e : Expr) : Expr := .binary .sub (.number 0) e

mutual

/-- Whether two trees are equal.  Numbers are compared as numbers are, so that a tree which holds
one that is undefined differs from itself, and functions by their handles. -/
def same : Expr → Expr → Bool
  | .number a, .number b => a == b
  | .binary op l r, .binary op' l' r' => op == op' && same l l' && same r r'
  | .var key a, .var key' b => key == key' && a == b
  | .call name callee as, .call name' callee' bs =>
    name == name' && callee == callee' && sameAll as bs
  | _, _ => false

def sameAll : List Expr → List Expr → Bool
  | [], [] => true
  | a :: as, b :: bs => same a b && sameAll as bs
  | _, _ => false

end

end Expr

end Arith
