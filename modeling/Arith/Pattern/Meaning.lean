/-
# What a written pattern means

Flags say how a pattern is meant: they hold from where they stand to the end
of the group around them.  So the meaning of a form comes with the modes in
which what follows it is meant (`Form.meaning`).

By default all scripts are known, but without tables of them; so a set that
would need a table is refused, and so is the neglect of case, except where a
pattern is confined to ASCII.  There a set must not reach beyond ASCII,
because its members would then be bytes that are no characters.

A text is a pattern that can be searched for if it can be read, has a
meaning, does not take too much room, and asks nothing about the words of
all scripts (`Pattern.ofText`); the reasons against it are given in that
order.
-/
import Arith.Pattern
import Arith.Pattern.Fault
import Arith.Pattern.Group
import Arith.Pattern.Room

namespace Arith.Pattern

structure Modes where
  ignoreCase : Bool
  multipleLines : Bool
  dotMeetsAll : Bool
  allScripts : Bool
  carriageReturns : Bool

namespace Modes

def initial : Modes := ⟨false, false, false, true, false⟩

/-- How a pattern is meant behind some flags. -/
def obey (m : Modes) (signs : List FlagSign) : Modes :=
  { ignoreCase := (settingOf .ignoreCase signs).getD m.ignoreCase
    multipleLines := (settingOf .multipleLines signs).getD m.multipleLines
    dotMeetsAll := (settingOf .dotMeetsAll signs).getD m.dotMeetsAll
    allScripts := (settingOf .allScripts signs).getD m.allScripts
    carriageReturns := (settingOf .carriageReturns signs).getD m.carriageReturns }

/-- The last number in a set. -/
def last (m : Modes) : Nat := if m.allScripts then lastOrdinal else lastByte

end Modes

def refuse {α : Type} (place : Stretch) (fault : Fault) : Except Error α :=
  .error ⟨fault, place, none⟩

/-- A character, or the byte that its digits stand for where only ASCII is known. -/
def letterMeaning (m : Modes) (l : Letter) : Except Error Char :=
  if !m.allScripts && l.isByte && 0x80 ≤ l.char.toNat then refuse l.stretch .beyondText
  else .ok l.char

/-- The number of a character in a set. -/
def memberMeaning (m : Modes) (l : Letter) : Except Error Nat := do
  let c ← letterMeaning m l
  if !m.allScripts && 0x80 ≤ c.toNat then refuse l.stretch .beyondAscii
  else return ordinal c

/-- A set with the other case of its letters, if case is neglected. -/
def neglectCase (m : Modes) (place : Stretch) (s : CharSet) : Except Error CharSet :=
  if !m.ignoreCase then .ok s
  else if !m.allScripts then .ok s.withCases
  else if s.caseless || s.isEmpty then .ok { s with caseless := true }
  else refuse place .unknownCases

/-- A set or its complement, which has to be one of characters. -/
def negate (m : Modes) (place : Stretch) (negated : Bool) (s : CharSet) : Except Error CharSet :=
  let result := if negated then s.complement m.last else s
  if m.allScripts || result.isAscii then .ok result else refuse place .beyondText

/-- Text without the signs that do not count in the names of properties, and in small letters. -/
def propertyKey (name : List Char) : List Char :=
  let isPrefixed := (name.take 2).map Char.toLower == ['i', 's']
  let shown := (if isPrefixed then name.drop 2 else name).filter fun c =>
    c.toNat < 0x80 && c != ' ' && c != '_' && c != '-'
  let key := shown.map Char.toLower
  if isPrefixed && key == ['c'] then ['i', 's', 'c'] else key

/-- Why a property is refused: there is no table of properties, and for the names that are known
to be those of values of the general category there is no table of values. -/
def propertyFault (name : List Char) (valued : Bool) : Fault :=
  let key := String.ofList (propertyKey name)
  if !valued && (key == "cf" || key == "sc" || key == "lc") then .unknownPropertyValue
  else .unknownProperty

mutual

/-- A set together with the characters of another. -/
def addMeaning (m : Modes) (s : CharSet) : SetForm → Except Error CharSet
  | .empty _ => return s
  | .letter l => do
    let n ← memberMeaning m l
    return s.add n n
  | .range _ first last => do
    let low ← memberMeaning m first
    let high ← memberMeaning m last
    return s.add low high
  | .named place negated kind => do
    let named ← neglectCase m place (.ofRanges kind.ranges)
    return s.union (← negate m place negated named)
  | .shorthand place negated kind => do
    if m.allScripts then refuse place .unknownShorthand
    else return s.union (← negate m place negated (.ofRanges kind.named.ranges))
  | .property place name valued =>
    if m.allScripts then refuse place (propertyFault name valued) else refuse place .beyondAscii
  | .bracketed place negated inner => do
    let t ← addMeaning m .empty inner
    return s.union (← negate m place negated (← neglectCase m place t))
  | .union _ items => addMeanings m s items
  | .combined _ op left right => do
    let l ← addMeaning m .empty left
    let r ← addMeaning m .empty right
    let r ← neglectCase m right.place r
    let l ← neglectCase m left.place l
    return s.union <| match op with
      | .intersection => l.inter m.last r
      | .difference => l.diff m.last r
      | .symmetricDifference => l.symmDiff m.last r

def addMeanings (m : Modes) (s : CharSet) : List SetForm → Except Error CharSet
  | [] => return s
  | t :: ts => do addMeanings m (← addMeaning m s t) ts

end

def charMeaning (m : Modes) (l : Letter) : Except Error Pattern := do
  let c ← letterMeaning m l
  if !m.ignoreCase then return .char c
  else if m.allScripts then refuse l.stretch .unknownCases
  else if isSmallLetter c || isCapitalLetter c then
    return .oneOf (CharSet.withCases (.ofRanges [(ordinal c, ordinal c)]))
  else return .char c

/-- The characters that a dot leaves out. -/
def dotExceptions (m : Modes) : List (Nat × Nat) :=
  if m.dotMeetsAll then []
  else if m.carriageReturns then [(0xa, 0xa), (0xd, 0xd)]
  else [(0xa, 0xa)]

def dotMeaning (m : Modes) (place : Stretch) : Except Error Pattern :=
  if m.allScripts then .ok (.oneOf (CharSet.complement lastOrdinal (.ofRanges (dotExceptions m))))
  else refuse place .beyondText

/-- What an assertion demands. -/
def assertionMeaning (m : Modes) : Assertion → Look
  | .lineStart =>
    if !m.multipleLines then .textStart
    else if m.carriageReturns then .returnLineStart
    else .lineStart
  | .lineEnd =>
    if !m.multipleLines then .textEnd
    else if m.carriageReturns then .returnLineEnd
    else .lineEnd
  | .textStart => .textStart
  | .textEnd => .textEnd
  | .word boundary => .word m.allScripts boundary

mutual

/-- The meaning of a form, and how what follows it is meant. -/
def Form.meaning (m : Modes) : Form → Except Error (Pattern × Modes)
  | .empty _ => return (.empty, m)
  | .letter l => do return (← charMeaning m l, m)
  | .dot place => do return (← dotMeaning m place, m)
  | .set s => do return (.ofSet (← addMeaning m .empty s), m)
  | .assertion _ kind => return (.look (assertionMeaning m kind), m)
  | .flags _ signs => return (.empty, m.obey signs)
  | .repeated _ least most body => do
    let (p, m) ← body.meaning m
    return (p.times least most, m)
  | .group _ captures signs body => do
    let (p, _) ← body.meaning (m.obey signs)
    return (if captures then .group p else p, m)
  | .chain _ items => do
    let (ps, m) ← meanings m items
    return (.chain ps, m)
  | .choice _ branches => do
    let (ps, m) ← meanings m branches
    return (.ofChoice ps, m)

/-- The meanings of forms, each meant as the one before leaves it. -/
def meanings (m : Modes) : List Form → Except Error (List Pattern × Modes)
  | [] => return ([], m)
  | f :: fs => do
    let (p, m) ← f.meaning m
    let (ps, m) ← meanings m fs
    return (p :: ps, m)

end

end Arith.Pattern

namespace Arith

/-- Why a text is no pattern that can be searched for. -/
inductive PatternError where
  | invalid (error : Pattern.Error)
  /-- The machines that would search for it would be too large. -/
  | tooLarge
  /-- It asks for the edges of words of all scripts. -/
  | wordsUnknown

namespace Pattern

/-- The pattern that a text is written for. -/
def ofText (text : List Char) : Except PatternError Pattern := do
  let form ← (Form.ofChars text).mapError .invalid
  let (p, _) ← (form.meaning .initial).mapError .invalid
  if p.isTooLarge then .error .tooLarge
  else if p.knowsAllScripts then .error .wordsUnknown
  else return p

end Pattern

def PatternError.message (text : List Char) : PatternError → String
  | .invalid e => e.text text
  | .tooLarge => s!"Compiled regex exceeds size limit of {Pattern.roomBound} bytes."
  | .wordsUnknown => "error building NFA"

end Arith
