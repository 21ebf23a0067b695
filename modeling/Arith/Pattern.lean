/-
# What a text has to contain

A pattern is matched by a part of a text, which may be empty; it says of
what characters the part consists and what surrounds the places in it.

Whether a text contains a match is found by following all places at which a
match may stand at once: a row of marks, one for each place from the
beginning of the text to its end, is carried through the pattern
(`Pattern.carry`).  A repetition carries the marks round until a turn
changes nothing, and never more often than there are places, so the
recursion is on the pattern alone and no turn has to be shown to take a
character.

A pattern is built by functions that also simplify it, as the machine that
searches for it would be: a repetition of what only the empty text matches,
a set with one member, and a choice between characters (`Pattern.times`,
`Pattern.ofSet`, `Pattern.ofChoice`).  What a pattern accepts does not
depend on that, but the room it takes does (`Arith.Pattern.Room`).
-/
import Arith.Text.Character
import Arith.Pattern.CharSet
import Arith.Pattern.Form

namespace Arith

/-- What surrounds a place: the character before it and the one behind it. -/
abbrev Surroundings := Option Char × Option Char

namespace Pattern

/-- What a pattern may demand of the surroundings of a place. -/
inductive Look where
  | textStart
  | textEnd
  | lineStart
  | lineEnd
  /-- The same for lines that may end in a carriage return, a line feed, or both. -/
  | returnLineStart
  | returnLineEnd
  /-- Something about the edges of words, of letters of ASCII or of all scripts. -/
  | word (allScripts : Bool) (boundary : WordEdge)
deriving DecidableEq

def isWordChar (c : Option Char) : Bool :=
  c.any fun c => isSmallLetter c || isCapitalLetter c || isDecimalDigit c || c == '_'

/-- Whether an edge of a word has a word before or behind it. -/
def WordEdge.holds (boundary : WordEdge) (before behind : Bool) : Bool :=
  match boundary with
  | .edge => before != behind
  | .noEdge => before == behind
  | .wordStart => !before && behind
  | .wordEnd => before && !behind
  | .startHalf => !before
  | .endHalf => !behind

/-- Whether the surroundings of a place are as demanded. -/
def Look.holds (demand : Look) (place : Surroundings) : Bool :=
  let (before, behind) := place
  match demand with
  | .textStart => before.isNone
  | .textEnd => behind.isNone
  | .lineStart => before.isNone || before == some '\n'
  | .lineEnd => behind.isNone || behind == some '\n'
  | .returnLineStart =>
    before.isNone || before == some '\n' || before == some '\r' && behind != some '\n'
  | .returnLineEnd =>
    behind.isNone || behind == some '\r' || behind == some '\n' && before != some '\r'
  | .word _ boundary => boundary.holds (isWordChar before) (isWordChar behind)

end Pattern

inductive Pattern where
  | empty
  | char (c : Char)
  | oneOf (set : Pattern.CharSet)
  | look (demand : Pattern.Look)
  /-- A number of turns between two bounds, of which the upper one may be missing. -/
  | repeated (least : Nat) (most : Option Nat) (body : Pattern)
  | group (body : Pattern)
  | chain (items : List Pattern)
  | choice (branches : List Pattern)

/-! ## Searching -/

/-- Marks for the places of a text. -/
abbrev Marks := List Bool

/-- The places behind the marked characters that satisfy `p`. -/
def stepOver (p : Char → Bool) (text : List Char) (marks : Marks) : Marks :=
  false :: List.zipWith (fun mark c => mark && p c) marks text

/-- The surroundings of the places of a text behind the character `before`. -/
def surroundings (before : Option Char) : List Char → List Surroundings
  | [] => [(before, none)]
  | c :: cs => (before, some c) :: surroundings (some c) cs

def joinMarks (a b : Marks) : Marks := List.zipWith (· || ·) a b

/-- Carries marks through exactly `turns` turns; marks that a turn leaves as they are stay so. -/
def turnTimes (turn : Marks → Marks) : Nat → Marks → Marks
  | 0, marks => marks
  | turns + 1, marks =>
    let next := turn marks
    if next == marks then marks else turnTimes turn turns next

/-- Carries marks through at most `turns` turns. -/
def turnUpTo (turn : Marks → Marks) : Nat → Marks → Marks
  | 0, marks => marks
  | turns + 1, marks =>
    let more := joinMarks marks (turn marks)
    if more == marks then marks else turnUpTo turn turns more

namespace Pattern

mutual

/-- The places at which a match that starts at a marked place may end.  A text with `n` characters
has `n + 1` places, and more turns than that reach no other. -/
def carry (text : List Char) (marks : Marks) : Pattern → Marks
  | .empty => marks
  | .char c => stepOver (· == c) text marks
  | .oneOf s => stepOver s.contains text marks
  | .look demand =>
    List.zipWith (fun mark place => mark && demand.holds place) marks (surroundings none text)
  | .repeated least most body =>
    let bound := text.length + 1
    let turn := fun marks => carry text marks body
    let spare := match most with
      | none => bound
      | some most => min (most - least) bound
    turnUpTo turn spare (turnTimes turn (min least bound) marks)
  | .group body => carry text marks body
  | .chain items => carryChain text marks items
  | .choice branches => carryChoice text marks branches

def carryChain (text : List Char) (marks : Marks) : List Pattern → Marks
  | [] => marks
  | p :: ps => carryChain text (carry text marks p) ps

def carryChoice (text : List Char) (marks : Marks) : List Pattern → Marks
  | [] => marks.map fun _ => false
  | p :: ps => joinMarks (carry text marks p) (carryChoice text marks ps)

end

/-- Whether a text contains a match. -/
def occursIn (p : Pattern) (text : List Char) : Bool :=
  (p.carry text (List.replicate (text.length + 1) true)).any id

/-! ## Building patterns -/

mutual

/-- Whether only the empty text can match. -/
def onlyEmpty : Pattern → Bool
  | .empty => true
  | .char _ => false
  | .oneOf _ => false
  | .look _ => true
  | .repeated _ _ body => body.onlyEmpty
  | .group body => body.onlyEmpty
  | .chain items => allOnlyEmpty items
  | .choice branches => allOnlyEmpty branches

def allOnlyEmpty : List Pattern → Bool
  | [] => true
  | p :: ps => p.onlyEmpty && allOnlyEmpty ps

end

/-- Repeats a pattern.  More than one turn of one that only the empty text matches is as good as
one. -/
def times (least : Nat) (most : Option Nat) (body : Pattern) : Pattern :=
  let least := if body.onlyEmpty then min least 1 else least
  let most := if body.onlyEmpty then some ((most.map (min · 1)).getD 1) else most
  if most == some 0 then .empty
  else if least == 1 && most == some 1 then body
  else .repeated least most body

mutual

/-- Whether the pattern demands something about the words of all scripts. -/
def knowsAllScripts : Pattern → Bool
  | .look (.word allScripts _) => allScripts
  | .repeated _ _ body => body.knowsAllScripts
  | .group body => body.knowsAllScripts
  | .chain items => anyKnowsAllScripts items
  | .choice branches => anyKnowsAllScripts branches
  | _ => false

def anyKnowsAllScripts : List Pattern → Bool
  | [] => false
  | p :: ps => p.knowsAllScripts || anyKnowsAllScripts ps

end

/-- A set as a pattern; one with a single character is as good as that. -/
def ofSet (s : CharSet) : Pattern :=
  match s.single? with
  | some c => .char c
  | none => .oneOf s

/-- The number of the character that a pattern consists of. -/
def char? : Pattern → Option Nat
  | .char c => some (ordinal c)
  | _ => none

/-- The set that a pattern consists of. -/
def set? : Pattern → Option CharSet
  | .oneOf s => some s
  | _ => none

/-- Patterns to choose from.  A choice between characters only, or between sets only, is a set. -/
def ofChoice (branches : List Pattern) : Pattern :=
  match branches.mapM char? with
  | some chars => .ofSet (.ofRanges (chars.map fun n => (n, n)))
  | none =>
    match branches.mapM set? with
    | some sets => .ofSet (sets.foldl CharSet.union .empty)
    | none => .choice branches

end Pattern

end Arith
