/-
# The value of a tree

Evaluation never fails.  A division by zero and a call with too few
arguments yield zero and leave a warning.

A function receives its arguments unevaluated, each as its tree together
with a computation of its value (`Argument`), and decides which of them it
evaluates, how often, and in which order.  Besides warning it may use one
counter that is its own.  So evaluation is a computation on a world of
counters and warnings (`Eval`), and what a call evaluates to may depend on
how often the function was called before, but on nothing else that is
outside of the tree.
-/
import Arith.Expr
import Arith.Number.Layout
import Arith.Number.Binary64
import Arith.Log

namespace Arith

/-- What evaluation warns of. -/
inductive Warning where
  | zeroDivisor (left right : Float)
  | zeroModulus (left right : Float)
  | missingArguments (name : String) (expected given : Nat)

namespace Warning

def message : Warning → String
  | .zeroDivisor l r => s!"expr[{floatText l}/{floatText r}] division by zero, evaluating to 0"
  | .zeroModulus l r => s!"expr[{floatText l}%{floatText r}] division by zero, evaluating to 0"
  | .missingArguments name expected given =>
    s!"{name} expects {expected} argument(s), got {given}, evaluating to 0"

def record (w : Warning) : Record :=
  let origin := match w with
    | .missingArguments .. => Origin.builtins
    | _ => Origin.evaluation
  ⟨.warn, origin, w.message⟩

end Warning

/-! ## Worlds -/

/-- What evaluation works on: the counters of the functions that have used theirs, and the warnings,
the latest first. -/
structure World where
  counters : List (Handle × Nat)
  warnings : List Warning

namespace World

def initial : World := ⟨[], []⟩

def count (w : World) (h : Handle) : Nat := (w.counters.lookup h).getD 0

def advance (w : World) (h : Handle) : World :=
  { w with counters := (h, w.count h + 1) :: w.counters.filter (·.1 != h) }

def warn (w : World) (warning : Warning) : World := { w with warnings := warning :: w.warnings }

/-- Forgets the warnings given so far. -/
def silence (w : World) : World := { w with warnings := [] }

def records (w : World) : List Record := w.warnings.reverse.map Warning.record

end World

/-- A computation that may warn and count. -/
abbrev Eval := StateM World

namespace Eval

/-- Gives a warning and goes on with zero. -/
def zero (warning : Warning) : Eval Float := fun w => (0, w.warn warning)

def tick (h : Handle) : Eval Nat := fun w => (w.count h, w.advance h)

end Eval

/-! ## Trees -/

/-- Applies an operator to the values of its operands. -/
def Operator.apply : Operator → Float → Float → Eval Float
  | .add, l, r => pure (l + r)
  | .sub, l, r => pure (l - r)
  | .mul, l, r => pure (l * r)
  | .quo, l, r => if r == 0 then Eval.zero (.zeroDivisor l r) else pure (l / r)
  | .rem, l, r =>
    match truncatedRemainder? l r with
    | some x => pure x
    | none => Eval.zero (.zeroModulus l r)
  | .pow, l, r => pure (l.pow r)

/-- An argument of a call: the tree, and its evaluation, which may be run any number of times. -/
structure Argument where
  expr : Expr
  evaluate : Eval Float

/-- What a function of the host does with its arguments; it knows its own handle. -/
abbrev HostFunction := Handle → List Argument → Eval Float

namespace Expr

mutual

/-- The value of a tree, where `host` says what the functions do.  The left operand of an operator
is evaluated before the right one. -/
def evaluate (host : HostFunction) : Expr → Eval Float
  | .number value => pure value
  | .var _ value => pure value
  | .binary op left right => do
    let l ← left.evaluate host
    let r ← right.evaluate host
    op.apply l r
  | .call _ callee arguments => host callee (suspend host arguments)

/-- Arguments that wait for being evaluated. -/
def suspend (host : HostFunction) : List Expr → List Argument
  | [] => []
  | e :: es => ⟨e, e.evaluate host⟩ :: suspend host es

end

end Expr

end Arith
