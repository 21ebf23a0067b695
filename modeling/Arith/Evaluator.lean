/-
# From texts to trees and values

An expression is read in a scope, the variables and functions that it may
use.  Reading looks every name up once, so a tree does not change when the
scope does, and a tree that was read once may be evaluated any number of
times.  Everything that is told on the way comes with the result.

There are two ways of reading.  `Scope.parseRecovering` returns what tree
could be made beside the first error, and only a text that cannot be scanned
has no tree at all.  `Scope.parse` returns the tree or the error.
-/
import Arith.Text.Span
import Arith.Token.Scan
import Arith.Parse
import Arith.Expr.Eval

namespace Arith

/-- Why an expression has no tree. -/
inductive ExpressionError where
  | scan (error : ScanError)
  | parse (error : ParseError)

namespace ExpressionError

def message : ExpressionError → String
  | .scan e => e.message
  | .parse e => e.message

def span : ExpressionError → Option Span
  | .scan e => e.span
  | .parse e => e.span

/-- The error with the place in the text that it is about. -/
def render (e : ExpressionError) (source : String) : String := snippet e.message e.span source

end ExpressionError

namespace Scope

def empty : Scope := ⟨.empty, .empty⟩

/-- Functions and no variables. -/
def ofFunctions (functions : FunctionTable) : Scope := ⟨.empty, functions⟩

def setVariable (s : Scope) (name : String) (value : Float) : Scope :=
  { s with bindings := s.bindings.set name value }

def setFunction (s : Scope) (name : String) (h : Handle) : Scope :=
  { s with functions := s.functions.insert name h }

/-- Parses an expression as far as possible; a text that cannot be scanned has no tree at all. -/
def parseRecovering (s : Scope) (source : String) : Except ScanError Parsed × List Record :=
  let scanned := scan source
  match scanned.result with
  | .error e => (.error e, scanned.records)
  | .ok tokens =>
    let (parsed, records) := parseTokens s tokens
    (.ok parsed, scanned.records ++ records)

/-- The tree of an expression, or its first error. -/
def parse (s : Scope) (source : String) : Except ExpressionError Expr × List Record :=
  let (outcome, records) := s.parseRecovering source
  let tree := match outcome with
    | .error e => .error (.scan e)
    | .ok parsed => parsed.result.mapError .parse
  (tree, records)

theorem parseRecovering_fst (s : Scope) (source : String) :
    (s.parseRecovering source).1 = (tokenize source).map fun ts => (parseTokens s ts).1 := by
  simp only [parseRecovering, tokenize]
  cases (scan source).result <;> rfl

theorem parse_fst (s : Scope) (source : String) :
    (s.parse source).1 = match (s.parseRecovering source).1 with
      | .error e => .error (.scan e)
      | .ok parsed => parsed.result.mapError .parse :=
  rfl

end Scope

/-- Evaluates a tree, and takes the records of the warnings out of the world. -/
def Expr.run (e : Expr) (host : HostFunction) (world : World) : Float × List Record × World :=
  let (value, after) := e.evaluate host world.silence
  (value, after.records, after.silence)

end Arith
