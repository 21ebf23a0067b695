/-
# Reading a written pattern character by character

A reader knows what is left of the pattern, at which place that stands, and
whether white space and comments in it are skipped.  Each step of reading
either moves on or ends with an error; a reader never moves back except to a
place that it has kept.

A step is a state transformer that may end with an error (`Read`), so a
reader of a part is written in the order in which it reads.  Where a part is
a run of equal parts the step is taken as often as there are characters left
(`Read.collect`): a step that yields something has read something, so that
is often enough.
-/
import Arith.Pattern.Fault

namespace Arith.Pattern

/-- How far a pattern has been read. -/
structure Reader where
  rest : List Char
  place : Location
  /-- Whether white space and comments are skipped. -/
  spaced : Bool
  /-- The names of groups so far, with their stretches. -/
  names : List (List Char × Stretch)

abbrev Read := StateT Reader (Except Error)

def behind (place : Location) (c : Char) : Location :=
  if c == '\n' then ⟨place.line + 1, 1⟩ else ⟨place.line, place.column + 1⟩

/-- What is left of a text, and where it stands, behind white space and comments. -/
def skipSpaces (comment : Bool) (place : Location) : List Char → List Char × Location
  | [] => ([], place)
  | c :: cs =>
    if comment then skipSpaces (c != '\n') (behind place c) cs
    else if isBlank c then skipSpaces false (behind place c) cs
    else if c == '#' then skipSpaces true (behind place c) cs
    else (c :: cs, place)

/-- The next character of a text where white space does not count.  Of a comment only the sign
that starts it is skipped; if nothing but white space is left, that does count. -/
def nextSpaced (cs : List Char) : Option Char :=
  let shown := match cs.dropWhile isBlank with
    | '#' :: comment => comment.dropWhile isBlank
    | shown => shown
  shown.head?.or cs.head?

namespace Reader

def start (cs : List Char) : Reader := ⟨cs, ⟨1, 1⟩, false, []⟩

/-- Behind the next character. -/
def bump (r : Reader) : Reader :=
  match r.rest with
  | [] => r
  | c :: cs => { r with rest := cs, place := behind r.place c }

/-- Behind white space and comments, if they are skipped. -/
def skip (r : Reader) : Reader :=
  if r.spaced then
    let (rest, place) := skipSpaces false r.place r.rest
    { r with rest, place }
  else r

end Reader

/-! ## Steps -/

namespace Read

def peek : Read (Option Char) := do return (← get).rest.head?

def here : Read Location := do return (← get).place

def atEnd : Read Bool := do return (← get).rest.isEmpty

def bump : Read Unit := modify Reader.bump

def skip : Read Unit := modify Reader.skip

/-- Moves past the next character and what is skipped behind it. -/
def bumpSkip : Read Unit := modify fun r => r.bump.skip

/-- Moves past a text if it comes next, and tells whether it did. -/
def accept (text : String) : Read Bool := do
  if text.toList.isPrefixOf (← get).rest then
    text.toList.forM fun _ => bump
    return true
  else return false

def charStretch : Read Stretch := do
  let r ← get
  return ⟨r.place, r.bump.place⟩

def failAt {α : Type} (place : Stretch) (fault : Fault) : Read α := throw ⟨fault, place, none⟩

/-- Ends with an error about what was read since a place. -/
def failSince {α : Type} (start : Location) (fault : Fault) : Read α := do
  failAt ⟨start, ← here⟩ fault

/-- Ends with an error about the next place. -/
def failHere {α : Type} (fault : Fault) : Read α := do failSince (← here) fault

/-- Ends with an error about the next character. -/
def failChar {α : Type} (fault : Fault) : Read α := do failAt (← charStretch) fault

/-- The results of a step that is taken until it has none, at most `fuel` times. -/
def many {α : Type} (step : Read (Option α)) : Nat → Read (List α)
  | 0 => return []
  | fuel + 1 => do
    match ← step with
    | none => return []
    | some a => return a :: (← many step fuel)

/-- The results of a step that is taken until it has none, and that reads something whenever it
has. -/
def collect {α : Type} (step : Read (Option α)) : Read (List α) := do
  many step (← get).rest.length

end Read

end Arith.Pattern
