/-
# Sets of characters

A set is kept as ascending ranges with gaps between them.  Characters are
counted without the surrogates, which are none, so that the characters on
the two sides of these are neighbours.  A set may hold all characters or,
where only bytes are known, all bytes; its complement is taken in the one or
the other, which is why the last number is an argument of every operation
that takes one.

Besides its members a set knows whether it is certain that it holds every
character in both cases, as far as this can be told without a table: it can
of a set that is empty, and of the complement of one.  The mark is carried
through the operations, not computed from the members, since a pattern is
refused or not by what is certain of its sets.
-/
namespace Arith.Pattern

/-- The number of a character among all characters. -/
def ordinal (c : Char) : Nat := if c.toNat < 0xd800 then c.toNat else c.toNat - 0x800

/-- The character with some number among all characters. -/
def charAt (n : Nat) : Char := Char.ofNat (if n < 0xd800 then n else n + 0x800)

def lastOrdinal : Nat := 0x10f7ff

def lastByte : Nat := 0xff

structure CharSet where
  ranges : List (Nat × Nat)
  /-- Whether the set is known to hold every character in both cases. -/
  caseless : Bool

/-! ## Ranges -/

/-- Puts a range in front of ascending ranges that start no earlier. -/
def joinRange (r : Nat × Nat) : List (Nat × Nat) → List (Nat × Nat)
  | [] => [r]
  | next :: rest =>
    if next.1 ≤ r.2 + 1 then (r.1, max r.2 next.2) :: rest else r :: next :: rest

/-- Ascending ranges with gaps between them that cover the same numbers. -/
def normalRanges (ranges : List (Nat × Nat)) : List (Nat × Nat) :=
  (ranges.mergeSort fun a b => a.1 < b.1 || a.1 == b.1 && b.2 ≤ a.2).foldr joinRange []

/-- The numbers from `next` up to `last` that ascending ranges leave out. -/
def gaps (next last : Nat) : List (Nat × Nat) → List (Nat × Nat)
  | [] => if next ≤ last then [(next, last)] else []
  | r :: rest => (if next < r.1 then [(next, r.1 - 1)] else []) ++ gaps (r.2 + 1) last rest

/-- The range of the letters of the other case that belong to some of the letters in a range. -/
def otherCase (r : Nat × Nat) : List (Nat × Nat) :=
  let low := (max r.1 0x61, min r.2 0x7a)
  let high := (max r.1 0x41, min r.2 0x5a)
  (if low.1 ≤ low.2 then [(low.1 - 32, low.2 - 32)] else []) ++
    (if high.1 ≤ high.2 then [(high.1 + 32, high.2 + 32)] else [])

/-! ## Operations -/

namespace CharSet

def empty : CharSet := ⟨[], true⟩

def ofRanges (ranges : List (Nat × Nat)) : CharSet := ⟨normalRanges ranges, ranges.isEmpty⟩

def isEmpty (s : CharSet) : Bool := s.ranges.isEmpty

def isAscii (s : CharSet) : Bool := s.ranges.all fun r => r.2 < 0x80

def contains (s : CharSet) (c : Char) : Bool :=
  s.ranges.any fun r => r.1 ≤ ordinal c && ordinal c ≤ r.2

def single? (s : CharSet) : Option Char :=
  match s.ranges with
  | [(first, last)] => if first == last then some (charAt first) else none
  | _ => none

def add (s : CharSet) (first last : Nat) : CharSet :=
  ⟨normalRanges ((first, last) :: s.ranges), false⟩

def union (s t : CharSet) : CharSet :=
  if t.isEmpty || s.ranges == t.ranges then s
  else ⟨normalRanges (s.ranges ++ t.ranges), s.caseless && t.caseless⟩

def complement (last : Nat) (s : CharSet) : CharSet :=
  ⟨gaps 0 last s.ranges, s.isEmpty || s.caseless⟩

def inter (last : Nat) (s t : CharSet) : CharSet :=
  let outside := normalRanges (gaps 0 last s.ranges ++ gaps 0 last t.ranges)
  let shared := gaps 0 last outside
  if s.isEmpty then s
  else if t.isEmpty then empty
  else ⟨shared, s.caseless && t.caseless⟩

/-- The characters of a set that another does not hold. -/
def diff (last : Nat) (s t : CharSet) : CharSet :=
  if s.isEmpty || t.isEmpty then s
  else ⟨(s.inter last (t.complement last)).ranges, s.caseless && t.caseless⟩

def symmDiff (last : Nat) (s t : CharSet) : CharSet := (s.union t).diff last (s.inter last t)

/-- A set with the letters of ASCII in both cases for each that it holds in one. -/
def withCases (s : CharSet) : CharSet :=
  ⟨normalRanges (s.ranges ++ s.ranges.flatMap otherCase), true⟩

end CharSet

end Arith.Pattern
