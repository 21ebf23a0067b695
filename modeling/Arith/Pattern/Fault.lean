/-
# What can be wrong with a written pattern, and how that is shown

An error is shown under the pattern: each line of it stands indented on a
line of its own, and under a line stand marks for the stretches on it that
the error is about.  There is an earlier stretch besides the place of the
error where something was written twice.

The lines of a pattern that has several are numbered and stand between
rules, and a stretch over several lines is told in words.  An error in an
expression has one stretch of bytes instead, and of the text only the line
is shown in which that starts (`Arith.Text.Span`).
-/
import Arith.Text.Character
import Arith.Pattern.Form

namespace Arith.Pattern

inductive Fault where
  | escapeInSet
  | rangeOrder
  | rangeBoundary
  | unclosedSet
  | invalidNumber
  | emptyHex
  | invalidHex
  | invalidHexDigit
  | unfinishedEscape
  | unknownEscape
  | danglingNegation
  | duplicateFlag
  | repeatedNegation
  | unfinishedFlags
  | unknownFlag
  | duplicateName
  | emptyName
  | invalidName
  | unfinishedName
  | unclosedGroup
  | unopenedGroup
  | nestingTooDeep (limit : Nat)
  | countOrder
  | emptyCount
  | unclosedCount
  | nothingToRepeat
  | unclosedWordEdge
  | unknownWordEdge
  | unfinishedWordEdge
  | invalidProperty
  | backreference
  | lookAround
  | beyondAscii
  | beyondText
  | unknownProperty
  | unknownPropertyValue
  | unknownShorthand
  | unknownCases
deriving DecidableEq

def Fault.message : Fault → String
  | escapeInSet => "invalid escape sequence found in character class"
  | rangeOrder => "invalid character class range, the start must be <= the end"
  | rangeBoundary => "invalid range boundary, must be a literal"
  | unclosedSet => "unclosed character class"
  | invalidNumber => "decimal literal invalid"
  | emptyHex => "hexadecimal literal empty"
  | invalidHex => "hexadecimal literal is not a Unicode scalar value"
  | invalidHexDigit => "invalid hexadecimal digit"
  | unfinishedEscape => "incomplete escape sequence, reached end of pattern prematurely"
  | unknownEscape => "unrecognized escape sequence"
  | danglingNegation => "dangling flag negation operator"
  | duplicateFlag => "duplicate flag"
  | repeatedNegation => "flag negation operator repeated"
  | unfinishedFlags => "expected flag but got end of regex"
  | unknownFlag => "unrecognized flag"
  | duplicateName => "duplicate capture group name"
  | emptyName => "empty capture group name"
  | invalidName => "invalid capture group character"
  | unfinishedName => "unclosed capture group name"
  | unclosedGroup => "unclosed group"
  | unopenedGroup => "unopened group"
  | nestingTooDeep limit =>
    s!"exceed the maximum number of nested parentheses/brackets ({limit})"
  | countOrder => "invalid repetition count range, the start must be <= the end"
  | emptyCount => "repetition quantifier expects a valid decimal"
  | unclosedCount => "unclosed counted repetition"
  | nothingToRepeat => "repetition operator missing expression"
  | unclosedWordEdge =>
    "special word boundary assertion is either unclosed or contains an invalid character"
  | unknownWordEdge =>
    "unrecognized special word boundary assertion, " ++
      "valid choices are: start, end, start-half or end-half"
  | unfinishedWordEdge =>
    "found either the beginning of a special word boundary or a bounded repetition " ++
      "on a \\b with an opening brace, but no closing brace"
  | invalidProperty => "invalid Unicode character class"
  | backreference => "backreferences are not supported"
  | lookAround => "look-around, including look-ahead and look-behind, is not supported"
  | beyondAscii => "Unicode not allowed here"
  | beyondText => "pattern can match invalid UTF-8"
  | unknownProperty => "Unicode property not found"
  | unknownPropertyValue => "Unicode property value not found"
  | unknownShorthand =>
    "Unicode-aware Perl class not found (make sure the unicode-perl feature is enabled)"
  | unknownCases =>
    "Unicode-aware case insensitivity matching is not available " ++
      "(make sure the unicode-case feature is enabled)"

/-- A fault, where it was found, and an earlier stretch that it has to do with. -/
structure Error where
  fault : Fault
  place : Stretch
  earlier : Option Stretch

/-! ## Showing stretches -/

namespace Stretch

def onOneLine (s : Stretch) : Bool := s.start.line == s.stop.line

/-- Whether a stretch starts before another, or with it and ends no later. -/
def comesFirst (s t : Stretch) : Bool :=
  if s.start = t.start then
    s.stop.line < t.stop.line || s.stop.line == t.stop.line && s.stop.column ≤ t.stop.column
  else s.start.line < t.start.line ||
    s.start.line == t.start.line && s.start.column < t.start.column

/-- How many marks a stretch on one line gets. -/
def width (s : Stretch) : Nat := max 1 (s.stop.column - s.start.column)

def inWords (s : Stretch) : String :=
  s!"on line {s.start.line} (column {s.start.column}) through line {s.stop.line} " ++
    s!"(column {s.stop.column - 1})"

end Stretch

namespace Error

/-- The stretches that an error is about, by the places where they start. -/
def stretches (e : Error) : List Stretch :=
  match e.earlier with
  | none => [e.place]
  | some other => if other.comesFirst e.place then [other, e.place] else [e.place, other]

/-- The marks of stretches on one line of which `filled` columns have been passed. -/
def marksFrom (filled : Nat) : List Stretch → List Char
  | [] => []
  | s :: rest =>
    let gap := s.start.column - 1 - filled
    List.replicate gap ' ' ++ List.replicate s.width '^' ++ marksFrom (filled + gap + s.width) rest

/-- A line with its number, in front of it as many columns as `width` says, and the marks under
it. -/
def markedLine (e : Error) (width number : Nat) (line : List Char) : List String :=
  let label := toString number
  let padded := String.ofList (List.replicate (width - label.length) ' ') ++ label
  let margin := if width == 0 then "    " else s!"{padded}: "
  let marked := e.stretches.filter fun s => s.onOneLine && s.start.line == number
  let marks := String.ofList (List.replicate margin.length ' ' ++ marksFrom 0 marked)
  (margin ++ String.ofList line) :: if marked.isEmpty then [] else [marks]

/-- How many columns the number of a line takes: none if there is only one line. -/
def numberWidth (pattern : List Char) : Nat :=
  let count := (splitAtEach '\n' pattern).length
  if count ≤ 1 then 0 else (toString count).length

def marked (e : Error) (pattern : List Char) : List String :=
  ((linesOf pattern).zipIdx 1).flatMap fun (line, number) =>
    e.markedLine (numberWidth pattern) number line

def text (e : Error) (pattern : List Char) : String :=
  let rule := if pattern.contains '\n' then [String.ofList (List.replicate 79 '~')] else []
  let told := (e.stretches.filter fun s => !s.onOneLine).map Stretch.inWords
  "\n".intercalate <|
    "regex parse error:" :: rule ++ e.marked pattern ++ rule ++ told ++
      [s!"error: {e.fault.message}"]

end Error

end Arith.Pattern
