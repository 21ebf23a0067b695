/-
# Tokens

The smallest pieces of an expression that have a meaning.  A token keeps the
text that it was read from and the bytes that it covers, and nothing of it
is interpreted yet: that a number has one point at most, or that a name is
known, is not asked before the token is parsed.

The end of an expression is a token too, which no text has; it stands behind
the last one.
-/
import Arith.Text.Span
import Arith.Text.Quoted

namespace Arith

inductive TokenKind where
  /-- The end of the expression, which stands behind the last token of a text. -/
  | eof
  | illegal
  | leftParen
  | rightParen
  | leftBrace
  | rightBrace
  | comma
  | number
  /-- A word in small letters, the name of a function. -/
  | functionName
  /-- A word in capital letters, the name of a variable. -/
  | variableName
  | add
  | sub
  | mul
  | quo
  | rem
  /-- Exponentiation, which has two spellings. -/
  | pow
deriving DecidableEq, Inhabited

def TokenKind.label : TokenKind → String
  | .eof => "Eof"
  | .illegal => "Illegal"
  | .leftParen => "LeftParen"
  | .rightParen => "RightParen"
  | .leftBrace => "LeftBrace"
  | .rightBrace => "RightBrace"
  | .comma => "Comma"
  | .number => "Number"
  | .functionName => "Function"
  | .variableName => "Variable"
  | .add => "Add"
  | .sub => "Sub"
  | .mul => "Mul"
  | .quo => "Quo"
  | .rem => "Rem"
  | .pow => "Pow"

/-- A token: its kind, the text that it was read from, and where that stands. -/
structure Token where
  kind : TokenKind
  text : String
  span : Span
deriving DecidableEq, Inhabited

namespace Token

/-- The end of the expression, standing at `offset`. -/
def eof (offset : Nat) : Token := ⟨.eof, "eof", .point offset⟩

/-- The token as `Kind("text")@start..stop`. -/
def display (t : Token) : String := s!"{t.kind.label}({quoted t.text})@{t.span.text}"

end Token

end Arith
