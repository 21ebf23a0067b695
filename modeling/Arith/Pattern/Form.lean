/-
# The parts of a written pattern

A pattern describes texts by characters and sets of characters, one behind
the other, with choices, repetitions, groups, and assertions about a place
in the text.  A form is a pattern as it is written (`Form`), before anything
is decided about what its flags make of it.

Every part keeps the stretch of the written pattern that it was read from,
so that an error which is found later, such as a set that is too large for
the bytes it stands for, can point at it.
-/
import Arith.Text.Span

namespace Arith.Pattern

/-- A stretch of a written pattern, from a place up to, but not including, another. -/
structure Stretch where
  start : Location
  stop : Location
deriving DecidableEq

def Stretch.point (place : Location) : Stretch := ⟨place, place⟩

/-- A character that stands for itself. -/
structure Letter where
  char : Char
  stretch : Stretch
  /-- Whether it was written as two hexadecimal digits, which then may mean a byte. -/
  isByte : Bool

/-! ## Sets -/

/-- The sets of characters that are written as a single letter. -/
inductive Shorthand where
  | digit
  | space
  | word
deriving DecidableEq

/-- The sets of characters of ASCII that have a name inside brackets. -/
inductive NamedSet where
  | alnum
  | alpha
  | ascii
  | blank
  | cntrl
  | digit
  | graph
  | lower
  | print
  | punct
  | space
  | upper
  | word
  | xdigit
deriving DecidableEq

namespace NamedSet

def all : List (String × NamedSet) :=
  [("alnum", alnum), ("alpha", alpha), ("ascii", ascii), ("blank", blank), ("cntrl", cntrl),
    ("digit", digit), ("graph", graph), ("lower", lower), ("print", print), ("punct", punct),
    ("space", space), ("upper", upper), ("word", word), ("xdigit", xdigit)]

def named? (name : String) : Option NamedSet := all.lookup name

def ranges : NamedSet → List (Nat × Nat)
  | alnum => [(0x30, 0x39), (0x41, 0x5a), (0x61, 0x7a)]
  | alpha => [(0x41, 0x5a), (0x61, 0x7a)]
  | ascii => [(0, 0x7f)]
  | blank => [(0x9, 0x9), (0x20, 0x20)]
  | cntrl => [(0, 0x1f), (0x7f, 0x7f)]
  | digit => [(0x30, 0x39)]
  | graph => [(0x21, 0x7e)]
  | lower => [(0x61, 0x7a)]
  | print => [(0x20, 0x7e)]
  | punct => [(0x21, 0x2f), (0x3a, 0x40), (0x5b, 0x60), (0x7b, 0x7e)]
  | space => [(0x9, 0xd), (0x20, 0x20)]
  | upper => [(0x41, 0x5a)]
  | word => [(0x30, 0x39), (0x41, 0x5a), (0x5f, 0x5f), (0x61, 0x7a)]
  | xdigit => [(0x30, 0x39), (0x41, 0x46), (0x61, 0x66)]

end NamedSet

/-- The same sets without a knowledge of other scripts than that of ASCII. -/
def Shorthand.named : Shorthand → NamedSet
  | .digit => .digit
  | .space => .space
  | .word => .word

/-- How two sets between the same brackets are combined. -/
inductive SetOperator where
  | intersection
  | difference
  | symmetricDifference
deriving DecidableEq

/-- A set of characters, as it is written. -/
inductive SetForm where
  /-- Nothing at all, at some place between brackets. -/
  | empty (place : Stretch)
  | letter (letter : Letter)
  | range (place : Stretch) (first last : Letter)
  | named (place : Stretch) (negated : Bool) (set : NamedSet)
  | shorthand (place : Stretch) (negated : Bool) (set : Shorthand)
  /-- The characters with some property of theirs, or with one that has a certain value. -/
  | property (place : Stretch) (name : List Char) (valued : Bool)
  | bracketed (place : Stretch) (negated : Bool) (inner : SetForm)
  | union (place : Stretch) (items : List SetForm)
  | combined (place : Stretch) (op : SetOperator) (left right : SetForm)

def SetForm.place : SetForm → Stretch
  | .empty place => place
  | .letter l => l.stretch
  | .range place _ _ => place
  | .named place _ _ => place
  | .shorthand place _ _ => place
  | .property place _ _ => place
  | .bracketed place _ _ => place
  | .union place _ => place
  | .combined place _ _ _ => place

/-! ## Assertions and flags -/

/-- What a pattern may say about the beginning and the end of words at a place. -/
inductive WordEdge where
  | edge
  | noEdge
  | wordStart
  | wordEnd
  | startHalf
  | endHalf
deriving DecidableEq

inductive Assertion where
  | lineStart
  | lineEnd
  | textStart
  | textEnd
  | word (boundary : WordEdge)
deriving DecidableEq

/-- The ways of reading that a pattern may switch on and off. -/
inductive Flag where
  | ignoreCase
  | multipleLines
  | dotMeetsAll
  | swapGreed
  | allScripts
  | carriageReturns
  /-- White space and comments in the pattern do not count. -/
  | spaced
deriving DecidableEq

/-- One sign of a list of flags: a flag, or without one the sign that switches off what follows. -/
structure FlagSign where
  flag : Option Flag
  place : Stretch

/-- Whether a list of flags switches a flag on or off, if it does either. -/
def settingOf (flag : Flag) (signs : List FlagSign) : Option Bool :=
  let before := signs.takeWhile fun s => s.flag != some flag
  if before.length < signs.length then some (before.all fun s => s.flag.isSome) else none

/-! ## Patterns -/

inductive Form where
  | empty (place : Stretch)
  | letter (letter : Letter)
  /-- Any character, or any that does not end a line. -/
  | dot (place : Stretch)
  | set (set : SetForm)
  | assertion (place : Stretch) (kind : Assertion)
  | flags (place : Stretch) (signs : List FlagSign)
  | repeated (place : Stretch) (least : Nat) (most : Option Nat) (body : Form)
  | group (place : Stretch) (captures : Bool) (signs : List FlagSign) (body : Form)
  | chain (place : Stretch) (items : List Form)
  | choice (place : Stretch) (branches : List Form)

namespace Form

def place : Form → Stretch
  | .empty place => place
  | .letter l => l.stretch
  | .dot place => place
  | .set s => s.place
  | .assertion place _ => place
  | .flags place _ => place
  | .repeated place _ _ _ => place
  | .group place _ _ _ => place
  | .chain place _ => place
  | .choice place _ => place

/-- Patterns one behind the other. -/
def ofChain (place : Stretch) : List Form → Form
  | [] => .empty place
  | [item] => item
  | items => .chain place items

/-- Patterns to choose from. -/
def ofBranches (place : Stretch) : List Form → Form
  | [branch] => branch
  | branches => .choice place branches

end Form

end Arith.Pattern
