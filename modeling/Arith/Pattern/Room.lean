/-
# How much room a search takes

Before a pattern is searched for it is made into two machines that read the
bytes of a text, one forwards and one backwards.  A machine has states, of
which each takes the same room, and some states take more for the ways out
of them.  A pattern is refused if one of its machines would be too large; so
the room is counted, without building the machines (`Pattern.room`,
`Pattern.isTooLarge`).

The difficult states are those of a set with characters of several bytes.
The characters of a set are those whose bytes lie in one of several rows of
ranges (`CharSet.rows`).  The machine that reads forwards shares the states
of rows that begin alike and of those that end alike, so it has a state for
everything that may be left to read (`remainders`); the one that reads
backwards has one state for every beginning of a row.
-/
import Arith.Pattern

namespace Arith.Pattern

/-! ## Sets as rows of ranges of bytes -/

/-- Ranges of code points that together have all characters, each with characters of equal
length. -/
def evenRanges : List (Nat × Nat) :=
  [(0, 0x7f), (0x80, 0x7ff), (0x800, 0xd7ff), (0xe000, 0xffff), (0x10000, 0x10ffff)]

def overlap? (r s : Nat × Nat) : Option (Nat × Nat) :=
  let first := max r.1 s.1
  let last := min r.2 s.2
  if first ≤ last then some (first, last) else none

/-- Cuts a range into what lies before, in and behind the full blocks of some length in it. -/
def cutAtBlocks (length : Nat) (r : Nat × Nat) : List (Nat × Nat) :=
  if r.1 / length == r.2 / length then [r]
  else
    let start := (r.1 + length - 1) / length * length
    let stop := (r.2 + 1) / length * length
    (if r.1 < start then [(r.1, start - 1)] else []) ++
      (if start < stop then [(start, stop - 1)] else []) ++
      (if stop ≤ r.2 then [(stop, r.2)] else [])

abbrev ByteRange := UInt8 × UInt8

/-- The ranges of the bytes of the characters in a range, if these vary independently. -/
def byteRanges (r : Nat × Nat) : List ByteRange :=
  List.zip (String.utf8EncodeChar (Char.ofNat r.1)) (String.utf8EncodeChar (Char.ofNat r.2))

/-- Cuts a range of characters of equal length where their bytes do not vary independently.  The
last byte of several varies over 64 code points, the last two over 64 times as many, and so
on. -/
def cutAtBytes (r : Nat × Nat) : List (Nat × Nat) :=
  if r.2 < 0x80 then [r]
  else ((cutAtBlocks 0x40 r).flatMap (cutAtBlocks 0x1000)).flatMap (cutAtBlocks 0x40000)

/-- The rows of ranges of bytes of the characters in a range of code points. -/
def rowsOfRange (r : Nat × Nat) : List (List ByteRange) :=
  ((evenRanges.filterMap (overlap? r)).flatMap cutAtBytes).map byteRanges

/-- The rows of ranges of bytes of a set. -/
def CharSet.rows (s : CharSet) : List (List ByteRange) :=
  s.ranges.flatMap fun r => rowsOfRange ((charAt r.1).toNat, (charAt r.2).toNat)

/-- The beginnings of a list, the empty one among them. -/
def beginnings {α : Type} : List α → List (List α)
  | [] => [[]]
  | a :: rest => [] :: (beginnings rest).map (a :: ·)

/-- What is left of a row behind a beginning of it. -/
def remainder? : List ByteRange → List ByteRange → Option (List ByteRange)
  | [], row => some row
  | _ :: _, [] => none
  | r :: rs, s :: row => if r == s then remainder? rs row else none

/-- What is left of rows behind each of their beginnings. -/
def remainders (rows : List (List ByteRange)) : List (List (List ByteRange)) :=
  let starts := (rows.flatMap beginnings).eraseDups
  (starts.map fun start => rows.filterMap (remainder? start)).eraseDups

/-! ## The room for a machine -/

inductive Heading where
  | forwards
  | backwards
deriving DecidableEq

/-- The room for a state, in bytes. -/
def stateRoom : Nat := 32

/-- The room for a way out of a state that has several to choose from. -/
def branchRoom : Nat := 4

/-- The room for a way out of a state that is taken for some bytes only. -/
def rangeRoom : Nat := 8

/-- The room for a state of the machine that reads forwards, by what may be left to read: the last
state has nothing left. -/
def remainderRoom (rest : List (List ByteRange)) : Nat :=
  stateRoom + (rest.filterMap List.head?).eraseDups.length * rangeRoom

/-- The room for a set that has not just one character. -/
def CharSet.room (heading : Heading) (s : CharSet) : Nat :=
  if s.isAscii then 2 * stateRoom + s.ranges.length * rangeRoom
  else
    let rows := s.rows
    match heading with
    | .forwards => (remainders rows).foldl (fun n rest => n + remainderRoom rest) 0
    | .backwards =>
      let starts := (rows.flatMap beginnings).eraseDups
      (starts.length + 1) * stateRoom + rows.length * branchRoom

mutual

/-- Whether every match has a character. -/
def neverEmpty : Pattern → Bool
  | .empty => false
  | .char _ => true
  | .oneOf s => !s.isEmpty
  | .look _ => false
  | .repeated least _ body => 0 < least && body.neverEmpty
  | .group body => body.neverEmpty
  | .chain items => anyNeverEmpty items
  | .choice branches => allNeverEmpty branches

def anyNeverEmpty : List Pattern → Bool
  | [] => false
  | p :: ps => p.neverEmpty || anyNeverEmpty ps

def allNeverEmpty : List Pattern → Bool
  | [] => true
  | p :: ps => p.neverEmpty && allNeverEmpty ps

end

/-- The room for a state with two ways to choose from. -/
def forkRoom : Nat := stateRoom + 2 * branchRoom

/-- The room for turns of which each takes `body`.  Turns that may be left out have a fork each,
and there is one state behind all of them; a turn that may be taken ever again has one fork, or
two and a state behind them if it may be left out and may be empty. -/
def repeatedRoom (least : Nat) (most : Option Nat) (body : Nat) (neverEmpty : Bool) : Nat :=
  match most with
  | none =>
    if least == 0 then if neverEmpty then body + forkRoom else body + 2 * forkRoom + stateRoom
    else least * body + forkRoom
  | some most =>
    if least == most then most * body
    else
      let required := if least == 0 && 1 < most then stateRoom else least * body
      required + (most - least) * (body + forkRoom) + stateRoom

mutual

/-- The room for a machine that searches for a pattern.  The one that reads forwards marks the
groups. -/
def room (heading : Heading) : Pattern → Nat
  | .empty => stateRoom
  | .char c => c.utf8Size * stateRoom
  | .oneOf s => s.room heading
  | .look _ => stateRoom
  | .repeated least most body => repeatedRoom least most (body.room heading) body.neverEmpty
  | .group body => body.room heading + if heading = .forwards then 2 * stateRoom else 0
  | .chain items => chainRoom heading items
  | .choice branches => choiceRoom heading branches + 2 * stateRoom

def chainRoom (heading : Heading) : List Pattern → Nat
  | [] => 0
  | p :: ps => p.room heading + chainRoom heading ps

def choiceRoom (heading : Heading) : List Pattern → Nat
  | [] => 0
  | p :: ps => p.room heading + branchRoom + choiceRoom heading ps

end

/-- The room for what is not the pattern itself: the start, which may skip any bytes, the answer,
and two marks around the whole if the machine reads forwards. -/
def frameRoom (heading : Heading) : Nat :=
  forkRoom + 2 * stateRoom + rangeRoom + stateRoom +
    if heading = .forwards then 2 * stateRoom else 0

def roomBound : Nat := 10485760

/-- Whether one of the machines for a pattern would take too much room. -/
def isTooLarge (p : Pattern) : Bool :=
  roomBound < frameRoom .forwards + p.room .forwards ||
    roomBound < frameRoom .backwards + p.room .backwards

end Arith.Pattern
