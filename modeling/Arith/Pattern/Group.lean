/-
# Groups, repetitions and choices

A pattern is a choice of chains with bars between them.  A chain is read
from left to right; a sign of repetition takes the part right before it.
Parentheses open a group, and a question mark behind the opening one gives
it a name or flags.  Flags without a group hold up to the end of the group
that they stand in.

A choice is read into lists that grow at their heads, of branches and of the
parts of the current one (`Unfinished`), and is put together when it ends.
A group is read by recursion, again with the number of characters left as
fuel.

When all has been read it is checked how deep the parts are nested
(`Form.checkDepth`).  Every part that may have others in it counts as a
level: groups, repetitions, chains and choices, and between brackets sets in
brackets, unions and combinations.  A pattern that has too many levels is
refused at the first part that lies too deep.
-/
import Arith.Pattern.Fault
import Arith.Text.Alphabet
import Arith.Pattern.Brackets

namespace Arith.Pattern

def nestingBound : Nat := 250

/-! ## Nesting -/

/-- Goes one level down to a part at a place. -/
def deeper (depth : Nat) (place : Stretch) : Except Error Nat :=
  if nestingBound ≤ depth then .error ⟨.nestingTooDeep nestingBound, place, none⟩
  else .ok (depth + 1)

mutual

/-- Ends with an error at the first part of a set that is nested too deep. -/
def SetForm.checkDepth (depth : Nat) : SetForm → Except Error Unit
  | .bracketed place _ inner => do inner.checkDepth (← deeper depth place)
  | .union place items => do checkSets (← deeper depth place) items
  | .combined place _ left right => do
    let depth ← deeper depth place
    left.checkDepth depth
    right.checkDepth depth
  | _ => return ()

def checkSets (depth : Nat) : List SetForm → Except Error Unit
  | [] => return ()
  | s :: ss => do
    s.checkDepth depth
    checkSets depth ss

end

mutual

/-- Ends with an error at the first part of a pattern that is nested too deep. -/
def Form.checkDepth (depth : Nat) : Form → Except Error Unit
  | .set s => s.checkDepth depth
  | .repeated place _ _ body => do body.checkDepth (← deeper depth place)
  | .group place _ _ body => do body.checkDepth (← deeper depth place)
  | .chain place items => do checkForms (← deeper depth place) items
  | .choice place branches => do checkForms (← deeper depth place) branches
  | _ => return ()

def checkForms (depth : Nat) : List Form → Except Error Unit
  | [] => return ()
  | f :: fs => do
    f.checkDepth depth
    checkForms depth fs

end

open Read

/-! ## Heads of groups -/

def flagOf? : Char → Option Flag
  | 'i' => some .ignoreCase
  | 'm' => some .multipleLines
  | 's' => some .dotMeetsAll
  | 'U' => some .swapGreed
  | 'u' => some .allScripts
  | 'R' => some .carriageReturns
  | 'x' => some .spaced
  | _ => none

/-- Reads a sign of a list of flags without moving past it. -/
def peekFlag (c : Char) : Read FlagSign := do
  let place ← charStretch
  if c == '-' then return ⟨none, place⟩
  else
    match flagOf? c with
    | some flag => return ⟨some flag, place⟩
    | none => failChar .unknownFlag

/-- The fault of writing a sign of a list of flags again. -/
def FlagSign.repetition (s : FlagSign) : Fault :=
  if s.flag.isNone then .repeatedNegation else .duplicateFlag

/-- Reads flags up to the colon or parenthesis behind them; `signs` are those before, the latest
first. -/
def readFlags (signs : List FlagSign) : Nat → Read (List FlagSign)
  | 0 => return signs.reverse
  | fuel + 1 => do
    match ← peek with
    | none => failHere .unfinishedFlags
    | some c => do
      if c == ':' || c == ')' then
        match signs with
        | ⟨none, place⟩ :: _ => failAt place .danglingNegation
        | _ => return signs.reverse
      else
        let sign ← peekFlag c
        match signs.find? fun s => s.flag == sign.flag with
        | some other => throw ⟨sign.repetition, sign.place, some other.place⟩
        | none => do
          bump
          readFlags (sign :: signs) fuel

def isNameChar (first : Bool) (c : Char) : Bool :=
  if first then c == '_' || isAlphabetic c
  else c == '_' || c == '.' || c == '[' || c == ']' || isAlphanumeric c

/-- Reads a character of the name of a group that begins at `start`. -/
def nextNameChar (start : Location) : Read (Option Char) := do
  match ← peek with
  | none => return none
  | some '>' => return none
  | some c => do
    if isNameChar ((← here) == start) c then
      bump
      return some c
    else failChar .invalidName

def readName : Read Unit := do
  let start ← here
  let name ← collect (nextNameChar start)
  if ← atEnd then failHere .unfinishedName
  let place : Stretch := ⟨start, ← here⟩
  bump
  if name.isEmpty then failAt (.point start) .emptyName
  match (← get).names.lookup name with
  | some other => throw ⟨.duplicateName, place, some other⟩
  | none => modify fun r => { r with names := (name, place) :: r.names }

/-- What the opening of a group says. -/
inductive Opening where
  /-- It is no group, but flags for what follows. -/
  | flags (place : Stretch) (signs : List FlagSign)
  | group (place : Stretch) (captures : Bool) (signs : List FlagSign)

/-- Whether an assertion about what stands before or behind comes next. -/
def acceptLookAround : Read Bool := do
  if ← accept "?=" then return true
  else if ← accept "?!" then return true
  else if ← accept "?<=" then return true
  else accept "?<!"

/-- Whether the sign of a group with a name comes next. -/
def acceptNamed : Read Bool := do
  if ← accept "?P<" then return true else accept "?<"

/-- Reads the flags behind the opening parenthesis at `place` and a question mark at `mark`. -/
def readFlagged (place : Stretch) (mark : Location) : Read Opening := do
  if ← atEnd then failAt place .unclosedGroup
  let signs ← readFlags [] ((← get).rest.length + 1)
  let last ← peek
  bump
  if last == some ')' then
    if signs.isEmpty then failAt (.point mark) .nothingToRepeat
    return .flags ⟨place.start, ← here⟩ signs
  else return .group place false signs

def readGroupOpening : Read Opening := do
  let place ← charStretch
  bump
  skip
  if ← acceptLookAround then failSince place.start .lookAround
  let mark ← here
  if ← acceptNamed then
    readName
    return .group place true []
  else if ← accept "?" then readFlagged place mark
  else return .group place true []

/-! ## Repetitions -/

/-- The part that a sign of repetition takes, and those before it, of parts the latest first. -/
def takeRepeated (items : List Form) : Read (Form × List Form) :=
  match items with
  | [] => failHere .nothingToRepeat
  | .flags _ _ :: _ => failHere .nothingToRepeat
  | item :: before => return (item, before)

/-- Moves past the sign that makes a repetition prefer few turns. -/
def passLazy : Read Unit := do
  if (← peek) == some '?' then bump

/-- Reads a sign of repetition behind some parts. -/
def readRepetition (items : List Form) (least : Nat) (most : Option Nat) : Read (List Form) := do
  let (item, before) ← takeRepeated items
  bump
  passLazy
  return .repeated ⟨item.place.start, ← here⟩ least most item :: before

def nextDigit : Read (Option Char) := do
  match ← peek with
  | none => return none
  | some c => do
    if isDecimalDigit c then
      bumpSkip
      return some c
    else return none

def nextBlank : Read (Option Unit) := do
  match ← peek with
  | none => return none
  | some c => do
    if isBlank c then
      bumpSkip
      return some ()
    else return none

def countOf (digits : List Char) : Nat :=
  digits.foldl (fun n c => 10 * n + (c.toNat - '0'.toNat)) 0

/-- The first number of repetitions that cannot be written. -/
def countBound : Nat := 0x100000000

/-- Reads a number of repetitions between blanks; what is wrong with it is returned. -/
def readCount : Read (Except Error Nat) := do
  let _ ← collect nextBlank
  let start ← here
  let digits ← collect nextDigit
  let place : Stretch := ⟨start, ← here⟩
  let _ ← collect nextBlank
  if digits.isEmpty then return .error ⟨.emptyCount, place, none⟩
  else if countBound ≤ countOf digits then return .error ⟨.invalidNumber, place, none⟩
  else return .ok (countOf digits)

/-- Ends with an error if there is nothing behind a brace at `start`. -/
def demandMore (start : Location) : Read Unit := do
  if ← atEnd then failSince start .unclosedCount

/-- Reads the numbers of repetitions in braces that open at `start`. -/
def readBounds (start : Location) : Read (Nat × Option Nat) := do
  let least ← readCount
  demandMore start
  if (← peek) == some ',' then
    bumpSkip
    demandMore start
    if (← peek) == some '\x7d' then return (← least, none)
    else return (← least, some (← ← readCount))
  else
    let exactly ← least
    return (exactly, some exactly)

/-- Reads a repetition with numbers behind some parts. -/
def readCounted (items : List Form) : Read (List Form) := do
  let start ← here
  let (item, before) ← takeRepeated items
  bumpSkip
  demandMore start
  let (least, most) ← readBounds start
  if (← peek) != some '\x7d' then failSince start .unclosedCount
  bumpSkip
  passLazy
  if most.any (· < least) then failSince start .countOrder
  return .repeated ⟨item.place.start, ← here⟩ least most item :: before

/-! ## Chains and choices -/

/-- Reads a part that no sign combines with others. -/
def readSimple (c : Char) : Read Form := do
  match c with
  | '[' => readBrackets
  | '\\' => readEscape
  | '.' => do
    let place ← charStretch
    bump
    return .dot place
  | '^' => do
    let place ← charStretch
    bump
    return .assertion place .lineStart
  | '$' => do
    let place ← charStretch
    bump
    return .assertion place .lineEnd
  | c => readVerbatim c

/-- Sets whether white space is skipped, if flags say so. -/
def obey (signs : List FlagSign) : Read Unit :=
  modify fun r => { r with spaced := (settingOf .spaced signs).getD r.spaced }

/-- A choice that is being read: where it starts, its branches so far, where the current one
starts, and the parts of that one, the latest of both first. -/
structure Unfinished where
  start : Location
  branches : List Form
  branchStart : Location
  items : List Form

namespace Unfinished

def fresh (place : Location) : Unfinished := ⟨place, [], place, []⟩

/-- The current branch, which ends at a place. -/
def branch (u : Unfinished) (stop : Location) : Form :=
  .ofChain ⟨u.branchStart, stop⟩ u.items.reverse

def add (u : Unfinished) (item : Form) : Unfinished := { u with items := item :: u.items }

/-- The choice, which ends at a place. -/
def close (u : Unfinished) (stop : Location) : Form :=
  .ofBranches ⟨u.start, stop⟩ (u.branch stop :: u.branches).reverse

end Unfinished

/-- Reads a choice up to a closing parenthesis or the end. -/
def readChoice (u : Unfinished) : Nat → Read Form
  | 0 => return u.close (← here)
  | fuel + 1 => do
    skip
    match ← peek with
    | none => return u.close (← here)
    | some ')' => return u.close (← here)
    | some '|' => do
      let branch := u.branch (← here)
      bump
      readChoice ⟨u.start, branch :: u.branches, ← here, []⟩ fuel
    | some '(' => do
      match ← readGroupOpening with
      | .flags place signs => do
        obey signs
        readChoice (u.add (.flags place signs)) fuel
      | .group place captures signs => do
        let spaced := (← get).spaced
        obey signs
        let body ← readChoice (.fresh (← here)) fuel
        if ← atEnd then failAt place .unclosedGroup
        modify fun r => { r with spaced }
        bump
        readChoice (u.add (.group ⟨place.start, ← here⟩ captures signs body)) fuel
    | some '?' => do readChoice { u with items := ← readRepetition u.items 0 (some 1) } fuel
    | some '*' => do readChoice { u with items := ← readRepetition u.items 0 none } fuel
    | some '+' => do readChoice { u with items := ← readRepetition u.items 1 none } fuel
    | some '\x7b' => do readChoice { u with items := ← readCounted u.items } fuel
    | some c => do readChoice (u.add (← readSimple c)) fuel

/-! ## Whole patterns -/

def readAll : Read Form := do
  let form ← readChoice (.fresh (← here)) ((← get).rest.length + 1)
  if !(← atEnd) then failChar .unopenedGroup
  form.checkDepth 0
  return form

/-- The pattern that some characters are written for. -/
def Form.ofChars (cs : List Char) : Except Error Form := (readAll.run (.start cs)).map (·.1)

end Arith.Pattern
