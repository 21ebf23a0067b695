/-
# Escapes

What a backslash and the characters behind it stand for.

Before a sign the backslash takes its meaning away.  Before some letters it
stands for a character that is not easily typed, a set of characters, or an
assertion.  Digits are refused, since they would refer back to a group, and
so is every other letter, so that a meaning may be given to it later.

A code point is written with a fixed number of digits or in braces, and a
name in braces says what an assertion about words demands.  The latter may
turn out to be a count of repetitions, so it is the one place where a reader
goes back (`readEdge`).
-/
import Arith.Text.Character
import Arith.Pattern.Reading

namespace Arith.Pattern

open Read

/-- Whether a character is a sign that has a meaning in patterns or may be given one. -/
def isSign (c : Char) : Bool :=
  c.toNat < 0x80 && !isDecimalDigit c && !isSmallLetter c && !isCapitalLetter c && c != '<' &&
    c != '>'

def hexValue? (c : Char) : Option Nat :=
  if isDecimalDigit c then some (c.toNat - '0'.toNat)
  else if 'a' ≤ c && c ≤ 'f' then some (c.toNat - 'a'.toNat + 10)
  else if 'A' ≤ c && c ≤ 'F' then some (c.toNat - 'A'.toNat + 10)
  else none

/-- The character with some code point in hexadecimal digits, if there is one. -/
def charOfHex? (digits : List Nat) : Option Char :=
  let n := digits.foldl (fun n d => 16 * n + d) 0
  if n.isValidChar then some (Char.ofNat n) else none

def peekHex (c : Char) : Read Nat :=
  match hexValue? c with
  | some d => return d
  | none => failChar .invalidHexDigit

/-- Reads `count` hexadecimal digits; what is skipped may stand between them. -/
def readDigits (first : Bool) : Nat → Read (List Nat)
  | 0 => return []
  | count + 1 => do
    unless first do bumpSkip
    match ← peek with
    | none => failHere .unfinishedEscape
    | some c => do
      let d ← peekHex c
      return d :: (← readDigits false count)

/-- Reads a code point of a fixed number of digits, for an escape that began at `start`. -/
def readFixedHex (start : Location) (count : Nat) : Read Form := do
  let first ← here
  let digits ← readDigits true count
  bumpSkip
  match charOfHex? digits with
  | some c => return .letter ⟨c, ⟨start, ← here⟩, count == 2⟩
  | none => failSince first .invalidHex

/-- Moves on inside braces and reads a hexadecimal digit, if there is no closing brace. -/
def nextBracedDigit : Read (Option Nat) := do
  bumpSkip
  match ← peek with
  | none => return none
  | some '\x7d' => return none
  | some c => return some (← peekHex c)

/-- Reads a code point in braces, for an escape that began at `start`. -/
def readBracedHex (start : Location) : Read Form := do
  let brace ← here
  let inner := (← charStretch).stop
  let digits ← collect nextBracedDigit
  if ← atEnd then failSince brace .unfinishedEscape
  let stop ← here
  bumpSkip
  if digits.isEmpty then failSince brace .emptyHex
  match charOfHex? digits with
  | some c => return .letter ⟨c, ⟨start, ← here⟩, false⟩
  | none => failAt ⟨inner, stop⟩ .invalidHex

/-- Reads a code point behind the letter that says how many digits it has without braces. -/
def readHex (start : Location) (count : Nat) : Read Form := do
  bumpSkip
  match ← peek with
  | none => failHere .unfinishedEscape
  | some '\x7b' => readBracedHex start
  | some _ => readFixedHex start count

/-- Moves on inside braces and reads a character, if it is not the closing brace. -/
def nextBraced : Read (Option Char) := do
  bumpSkip
  let c ← peek
  return if c == some '\x7d' then none else c

/-- Whether the text between braces names a property together with a value. -/
def namesValue (cs : List Char) : Bool := cs.contains '=' || cs.contains ':'

def readProperty (start : Location) : Read Form := do
  bumpSkip
  match ← peek with
  | none => failHere .unfinishedEscape
  | some '\x7b' => do
    let name ← collect nextBraced
    if ← atEnd then failHere .unfinishedEscape
    bump
    return .set (.property ⟨start, ← here⟩ name (namesValue name))
  | some '\\' => failChar .invalidProperty
  | some c => do
    bumpSkip
    return .set (.property ⟨start, ← here⟩ [c] false)

/-- Whether a character may stand in the name of an assertion about words. -/
def isEdgeLetter (c : Char) : Bool := isSmallLetter c || isCapitalLetter c || c == '-'

def nextEdgeLetter : Read (Option Char) := do
  match ← peek with
  | none => return none
  | some c => do
    if isEdgeLetter c then
      bumpSkip
      return some c
    else return none

def edgeNamed? (name : String) : Option WordEdge :=
  [("start", WordEdge.wordStart), ("end", .wordEnd), ("start-half", .startHalf),
    ("end-half", .endHalf)].lookup name

/-- Reads the name in braces behind `\b`, for an escape that began at `start`.  What cannot be a
name is left to be read as a count of repetitions. -/
def readEdge (start : Location) : Read WordEdge := do
  let kept ← get
  if kept.rest.head? != some '\x7b' then return .edge
  bumpSkip
  match ← peek with
  | none => failSince start .unfinishedWordEdge
  | some c => do
    if isEdgeLetter c then
      let inner ← here
      let name ← collect nextEdgeLetter
      if (← peek) != some '\x7d' then failSince kept.place .unclosedWordEdge
      let stop ← here
      bump
      match edgeNamed? (String.ofList name) with
      | some found => return found
      | none => failAt ⟨inner, stop⟩ .unknownWordEdge
    else
      set kept
      return .edge

def assertion (start : Location) (kind : Assertion) : Read Form := do
  return .assertion ⟨start, ← here⟩ kind

def character (start : Location) (c : Char) : Read Form := do
  return .letter ⟨c, ⟨start, ← here⟩, false⟩

/-- What a backslash and a letter or sign stand for, both of which have been read. -/
def simpleEscape (start : Location) (c : Char) : Read Form :=
  if isSign c then character start c
  else
    match c with
    | 'a' => character start '\x07'
    | 'f' => character start '\x0c'
    | 't' => character start '\t'
    | 'n' => character start '\n'
    | 'r' => character start '\r'
    | 'v' => character start '\x0b'
    | 'A' => assertion start .textStart
    | 'z' => assertion start .textEnd
    | 'b' => do assertion start (.word (← readEdge start))
    | 'B' => assertion start (.word .noEdge)
    | '<' => assertion start (.word .wordStart)
    | '>' => assertion start (.word .wordEnd)
    | _ => failSince start .unknownEscape

def readShorthand (start : Location) (negated : Bool) (kind : Shorthand) : Read Form := do
  bump
  return .set (.shorthand ⟨start, ← here⟩ negated kind)

def readEscape : Read Form := do
  let start ← here
  bump
  match ← peek with
  | none => failSince start .unfinishedEscape
  | some 'x' => readHex start 2
  | some 'u' => readHex start 4
  | some 'U' => readHex start 8
  | some 'p' => readProperty start
  | some 'P' => readProperty start
  | some 'd' => readShorthand start false .digit
  | some 's' => readShorthand start false .space
  | some 'w' => readShorthand start false .word
  | some 'D' => readShorthand start true .digit
  | some 'S' => readShorthand start true .space
  | some 'W' => readShorthand start true .word
  | some c => do
    bump
    if isDecimalDigit c then failSince start .backreference else simpleEscape start c

end Arith.Pattern
