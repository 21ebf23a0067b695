/-
# Hosts

The functions that handles stand for, the four that are there from the
start, and trees that are built together with their functions.

A handle is the place of its function in the order of registration, so a new
one differs from all that were given out before, and what a handle stands
for never changes (`Host.register`, `Host.dispatch`).  Nothing is ever taken
out of a host.

A sketch is a tree whose calls name what their functions do instead of who
they are; building a tree from it registers a new function for every call,
so two trees built from one sketch are never equal if there is a call in
them.
-/
import Arith.Expr.Eval

namespace Arith

/-- The registered functions, the one with handle zero first. -/
structure Host where
  functions : Array HostFunction

namespace Host

def empty : Host := ⟨#[]⟩

def fresh (host : Host) : Handle := ⟨host.functions.size⟩

/-- Registers a function under the fresh handle. -/
def register (host : Host) (f : HostFunction) : Host := ⟨host.functions.push f⟩

/-- What the handles do.  One that was never given out does nothing and yields zero. -/
def dispatch (host : Host) : HostFunction := fun h arguments =>
  match host.functions[h.id]? with
  | some f => f h arguments
  | none => pure 0

end Host

/-! ## The functions that are there from the start

Each of them needs one or two arguments.  With fewer it evaluates nothing,
warns, and yields zero; what it has beyond them it never looks at. -/

inductive Builtin where
  | min
  | max
  | floor
  | round
deriving DecidableEq

/-- The smaller of two numbers, or the other one if one of them is undefined. -/
def smaller (a b : Float) : Float :=
  if a.isNaN then b else if b < a then b else a

/-- The larger of two numbers, or the other one if one of them is undefined. -/
def larger (a b : Float) : Float :=
  if a.isNaN then b else if a < b then b else a

namespace Builtin

def all : List Builtin := [.min, .max, .floor, .round]

def name : Builtin → String
  | .min => "min"
  | .max => "max"
  | .floor => "floor"
  | .round => "round"

/-- How many arguments a function needs. -/
def arity : Builtin → Nat
  | .min | .max => 2
  | .floor | .round => 1

def named? (name : String) : Option Builtin := all.find? (·.name == name)

/-- What a function does once it has its arguments: it evaluates them from left to right.  A half is
rounded away from zero. -/
def compute : Builtin → List Argument → Eval Float
  | .min, a :: b :: _ => do return smaller (← a.evaluate) (← b.evaluate)
  | .max, a :: b :: _ => do return larger (← a.evaluate) (← b.evaluate)
  | .floor, a :: _ => do return (← a.evaluate).floor
  | .round, a :: _ => do return (← a.evaluate).round
  | _, _ => pure 0

def function (b : Builtin) : HostFunction := fun _ arguments =>
  if arguments.length < b.arity then
    Eval.zero (.missingArguments b.name b.arity arguments.length)
  else b.compute arguments

end Builtin

/-! ## Sketches -/

/-- A tree that is not yet bound to a host. -/
inductive Sketch where
  | number (value : Float)
  | var (key : String) (value : Float)
  | binary (op : Operator) (left right : Sketch)
  | negate (operand : Sketch)
  | call (name : String) (function : HostFunction) (arguments : List Sketch)
deriving Inhabited

namespace Sketch

mutual

/-- Builds the tree of a sketch in a host. -/
def build (host : Host) : Sketch → Expr × Host
  | .number value => (.number value, host)
  | .var key value => (.var key value, host)
  | .binary op left right =>
    let (l, host) := left.build host
    let (r, host) := right.build host
    (.binary op l r, host)
  | .negate operand =>
    let (e, host) := operand.build host
    (e.negate, host)
  | .call name function arguments =>
    let (args, registered) := buildAll (host.register function) arguments
    (.call name host.fresh args, registered)

/-- Builds the trees of several sketches, one after the other. -/
def buildAll (host : Host) : List Sketch → List Expr × Host
  | [] => ([], host)
  | s :: ss =>
    let (e, host) := s.build host
    let (es, host) := buildAll host ss
    (e :: es, host)

end

end Sketch

end Arith
