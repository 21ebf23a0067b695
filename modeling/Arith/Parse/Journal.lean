/-
# What a parse notes

An error of a parse has a cause and, unless there is no token at all, a
place.  The cause says all that the message says, so two errors read the
same if they have the same cause.

A parse does not stop at an error: it notes the error and goes on, so that a
tree can be returned beside it.  Only the first error counts
(`Journal.first?`); the later ones are there to be told about.  A note is
only ever added, and nothing that a parse does depends on the notes it has
made, which is what makes the first error a property of the tokens before
it.
-/
import Arith.Text.Span
import Arith.Token
import Arith.Log

namespace Arith

/-- What is wrong. -/
inductive ParseFault where
  | emptyTokenList
  | unboundVariable (name : String)
  | undefinedFunction (name : String)
  | unexpectedToken (found : String)
  | unexpectedEnd
  | emptyParentheses
  | unclosedParenthesis (found : String)
  | missingCallParenthesis (name found : String)
  | unclosedCall (name found : String)
  | expectedVariableName (found : String)
  | unclosedBrace (name found : String)
  | trailingTokens (found : String)
  | nestingTooDeep (limit : Nat)
  | expressionTooLarge (limit : Nat)
deriving DecidableEq

def ParseFault.message : ParseFault → String
  | .emptyTokenList => "the token list is empty"
  | .unboundVariable name => s!"variable '{name}' is not bound"
  | .undefinedFunction name => s!"function '{name}' is undefined"
  | .unexpectedToken found => s!"unexpected token '{found}'"
  | .unexpectedEnd => "unexpected end of expression"
  | .emptyParentheses => "empty parentheses expression"
  | .unclosedParenthesis found => s!"expression expects ')' to close, got '{found}'"
  | .missingCallParenthesis name found =>
    s!"function '{name}' expects '(' after name, got '{found}'"
  | .unclosedCall name found =>
    s!"function '{name}' expects ')' to close parameters, got '{found}'"
  | .expectedVariableName found => s!"expected a variable name inside '\x7b\x7d', got '{found}'"
  | .unclosedBrace name found => s!"variable '{name}' expects '\x7d' to close, got '{found}'"
  | .trailingTokens found => s!"unexpected token '{found}' after expression"
  | .nestingTooDeep limit => s!"expression nests deeper than {limit} levels"
  | .expressionTooLarge limit => s!"expression has more than {limit} nodes"

/-- A fault and where it was found. -/
structure ParseError where
  fault : ParseFault
  span : Option Span
deriving DecidableEq

namespace ParseError

/-- An error without a place: there is no token that it could point at. -/
def emptyTokenList : ParseError := ⟨.emptyTokenList, none⟩

def message (e : ParseError) : String := e.fault.message

end ParseError

/-! ## Notes -/

inductive Note where
  /-- An error that was found when `position` tokens had been read. -/
  | error (error : ParseError) (position : Nat)
  /-- The text of a number that cannot be read as one and counts as zero. -/
  | malformedNumber (token : Token)

/-- The error in a note. -/
def Note.error? : Note → Option ParseError
  | .error e _ => some e
  | .malformedNumber _ => none

/-- The notes of a parse, the latest first. -/
structure Journal where
  notes : List Note

namespace Journal

def empty : Journal := ⟨[]⟩

def note (j : Journal) (n : Note) : Journal := ⟨n :: j.notes⟩

/-- The errors, the first one first. -/
def errors (j : Journal) : List ParseError := j.notes.reverse.filterMap Note.error?

/-- The error that counts. -/
def first? (j : Journal) : Option ParseError := j.errors.head?

/-- Whether an error has been noted. -/
def isSet (j : Journal) : Bool := j.first?.isSome

/-- What is told of notes in the order in which they were made, where `seen` says whether an error
came before them. -/
def recordsFrom (seen : Bool) : List Note → List Record
  | [] => []
  | .error e _ :: notes =>
    (if seen then ⟨.trace, .parserErrors, s!"suppressed later parse error: {e.message}"⟩
      else ⟨.debug, .parserErrors, s!"parse error: {e.message}"⟩) :: recordsFrom true notes
  | .malformedNumber t :: notes =>
    ⟨.debug, .parser, s!"malformed number '{t.text}' at {t.span.text}, using 0"⟩ ::
      recordsFrom seen notes

/-- What is told of a journal. -/
def records (j : Journal) : List Record := recordsFrom false j.notes.reverse

end Journal

end Arith
