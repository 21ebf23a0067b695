/-
# Functions that a host may register

Constants, folds over the arguments, choices among them, counters, and
measures of the unevaluated arguments.  Between them they make use of all
that a function may do: look at a tree without evaluating it, evaluate an
argument more than once or not at all, and count.

The random number is that of a fixed sequence (`Recipe.spread`).  No
statement relies on which sequence it is; those about the program hold for
whatever its function for random numbers does.
-/
import Arith.Expr.Eval
import Arith.Expr.Printer
import Arith.Host

namespace Arith

inductive Recipe where
  /-- Always the same number. -/
  | const (value : Float)
  /-- How many arguments there are. -/
  | count
  /-- The sum of the arguments, evaluated from left to right. -/
  | sum
  /-- The first argument, the only one that is evaluated. -/
  | first
  /-- The last argument, the only one that is evaluated. -/
  | last
  /-- Ten times the first argument and the first argument, which is evaluated twice. -/
  | twice
  /-- The second argument if the first is not zero, else the third. -/
  | choose
  /-- How often the function has been called before. -/
  | tick
  /-- How many bytes the texts of the arguments take. -/
  | width
  /-- How many variables the arguments refer to. -/
  | vars
  /-- A number from zero up to, but not including, one. -/
  | random
  /-- One of the functions that are there from the start. -/
  | builtin (function : Builtin)

namespace Recipe

/-- Adds the values of arguments to a number, from left to right. -/
def addAll (total : Float) : List Argument → Eval Float
  | [] => pure total
  | a :: as => do addAll (total + (← a.evaluate)) as

def total (measure : Argument → Nat) (as : List Argument) : Nat :=
  as.foldl (fun n a => n + measure a) 0

def optional : Option Argument → Eval Float
  | none => pure 0
  | some a => a.evaluate

/-- The `n`-th number of a sequence that is spread evenly over the numbers from zero up to one: the
multiples of the golden ratio without their integer parts, to 53 bits. -/
def spread (n : Nat) : Float :=
  Float.ofNat ((n + 1) * 0x13c6ef372fe94f % twoPow 53) / Float.ofNat (twoPow 53)

def function : Recipe → HostFunction
  | .const value => fun _ _ => pure value
  | .count => fun _ as => pure (Float.ofNat as.length)
  | .sum => fun _ as => addAll 0 as
  | .first => fun _ as => optional as.head?
  | .last => fun _ as => optional as.getLast?
  | .twice => fun _ as => do
    let a ← optional as.head?
    let b ← optional as.head?
    return a * 10 + b
  | .choose => fun _ as =>
    match as with
    | a :: b :: c :: _ => do if (← a.evaluate) != 0 then b.evaluate else c.evaluate
    | _ => pure (-1)
  | .tick => fun h _ => do return Float.ofNat (← Eval.tick h)
  | .width => fun _ as => pure (Float.ofNat (total (fun a => a.expr.text.utf8ByteSize) as))
  | .vars => fun _ as => pure (Float.ofNat (total (fun a => a.expr.variableNames.length) as))
  | .random => fun h _ => do return spread (← Eval.tick h)
  | .builtin b => b.function

end Recipe

end Arith
