/-
# Sets of characters between brackets

Between the brackets stand characters, ranges, escapes, named sets and
further sets in brackets, which are united; doubled signs combine what
stands on their two sides, from left to right.  A bracket that closes right
behind the one that opens stands for itself, and so do hyphens at the
beginning.

What stands left of an operator is complete when the operator is met, so a
reader keeps only one left side (`LeftSide`) and the parts since then
(`Parts`).  Sets in brackets are read by recursion; its fuel is the number
of characters left, of which every turn takes at least one.
-/
import Arith.Pattern.Escape

namespace Arith.Pattern

open Read

/-- Some parts of a set that are to be united, the latest first, and the stretch that they cover. -/
structure Parts where
  place : Stretch
  items : List SetForm

namespace Parts

def empty (place : Location) : Parts := ⟨.point place, []⟩

def add (p : Parts) (item : SetForm) : Parts :=
  let start := if p.items.isEmpty then item.place.start else p.place.start
  ⟨⟨start, item.place.stop⟩, item :: p.items⟩

def union (p : Parts) : SetForm :=
  match p.items with
  | [] => .empty p.place
  | [item] => item
  | items => .union p.place items.reverse

end Parts

/-- What stands on the left of an operator, and the operator. -/
abbrev LeftSide := Option (SetForm × SetOperator)

def combine (left : LeftSide) (right : SetForm) : SetForm :=
  match left with
  | none => right
  | some (l, op) => .combined ⟨l.place.start, right.place.stop⟩ op l right

/-! ## Items and ranges -/

/-- What an escape or a character means between brackets. -/
def toSet (form : Form) : Read SetForm :=
  match form with
  | .letter l => return .letter l
  | .set s => return s
  | form => failAt form.place .escapeInSet

/-- What an escape or a character means at an end of a range. -/
def toLetter (form : Form) : Read Letter :=
  match form with
  | .letter l => return l
  | form => failAt form.place .rangeBoundary

def readVerbatim (c : Char) : Read Form := do
  let stretch ← charStretch
  bump
  return .letter ⟨c, stretch, false⟩

/-- Reads an escape or a character; `opening` is what stands in front of the set. -/
def readSetItem (opening : Stretch) : Read Form := do
  match ← peek with
  | none => failAt opening .unclosedSet
  | some '\\' => readEscape
  | some c => readVerbatim c

/-- Whether a hyphen that comes next stands between the ends of a range. -/
def rangeFollows : Read Bool := do
  let r ← get
  match r.rest with
  | '-' :: cs =>
    let next := if r.spaced then nextSpaced cs else cs.head?
    return next != some ']' && next != some '-'
  | _ => return false

def readRange (opening : Stretch) : Read SetForm := do
  let first ← readSetItem opening
  skip
  if ← atEnd then failAt opening .unclosedSet
  if ← rangeFollows then
    bumpSkip
    let last ← readSetItem opening
    let place : Stretch := ⟨first.place.start, last.place.stop⟩
    let low ← toLetter first
    let high ← toLetter last
    if high.char < low.char then failAt place .rangeOrder
    return .range place low high
  else toSet first

/-- The named set at the beginning of a text that starts with a bracket, whether it is negated,
and how many characters it takes. -/
def namedSet? (cs : List Char) : Option (NamedSet × Bool × Nat) := do
  let inner ← match cs with
    | '[' :: ':' :: inner => some inner
    | _ => none
  let negated := inner.head? == some '^'
  let name := (inner.drop negated.toNat).takeWhile (· != ':')
  let length := 2 + negated.toNat + name.length + 2
  guard ([':', ']'].isPrefixOf (cs.drop (length - 2)))
  return (← NamedSet.named? (String.ofList name), negated, length)

def readNamed : Read (Option SetForm) := do
  let start ← here
  match namedSet? (← get).rest with
  | none => return none
  | some (kind, negated, length) => do
    (List.range length).forM fun _ => bump
    return some (.named ⟨start, ← here⟩ negated kind)

/-- Moves on behind a bracket or a sign that belongs to it. -/
def passOpening (start : Location) : Read Unit := do
  bumpSkip
  if ← atEnd then failSince start .unclosedSet

def nextHyphen (start : Location) : Read (Option SetForm) := do
  if (← peek) == some '-' then
    let stretch ← charStretch
    bumpSkip
    if ← atEnd then failAt (.point start) .unclosedSet
    return some (.letter ⟨'-', stretch, false⟩)
  else return none

/-! ## Whole sets -/

/-- Reads the signs that open a set: whether it is negated, the stretch of these signs, and the
parts that may only stand at the beginning. -/
def readOpening : Read (Bool × Stretch × Parts) := do
  let start ← here
  passOpening start
  let negated := (← peek) == some '^'
  if negated then passOpening start
  let none := Parts.empty (← here)
  let hyphens := (← collect (nextHyphen start)).foldl Parts.add none
  if hyphens.items.isEmpty && (← peek) == some ']' then
    let stretch ← charStretch
    passOpening start
    return (negated, ⟨start, ← here⟩, none.add (.letter ⟨']', stretch, false⟩))
  else return (negated, ⟨start, ← here⟩, hyphens)

/-- The operator that comes next, if one does. -/
def operator? (cs : List Char) : Option SetOperator :=
  match cs with
  | '&' :: '&' :: _ => some .intersection
  | '-' :: '-' :: _ => some .difference
  | '~' :: '~' :: _ => some .symmetricDifference
  | _ => none

/-- Reads what stands between brackets behind some parts, and the closing bracket. -/
def readParts (opening : Stretch) (left : LeftSide) (parts : Parts) : Nat → Read SetForm
  | 0 => failAt opening .unclosedSet
  | fuel + 1 => do
    skip
    match ← peek with
    | none => failAt opening .unclosedSet
    | some ']' => do
      bump
      return combine left parts.union
    | some '[' => do
      match ← readNamed with
      | some named => readParts opening left (parts.add named) fuel
      | none => do
        let (negated, inner, first) ← readOpening
        let parted ← readParts inner none first fuel
        let place : Stretch := ⟨inner.start, ← here⟩
        readParts opening left (parts.add (.bracketed place negated parted)) fuel
    | some _ => do
      match operator? (← get).rest with
      | some op => do
        bump
        bump
        readParts opening (some (combine left parts.union, op)) (.empty (← here)) fuel
      | none => do
        let item ← readRange opening
        readParts opening left (parts.add item) fuel

def readBrackets : Read Form := do
  let fuel := (← get).rest.length
  let (negated, opening, first) ← readOpening
  let parted ← readParts opening none first fuel
  return .set (.bracketed ⟨opening.start, ← here⟩ negated parted)

end Arith.Pattern
