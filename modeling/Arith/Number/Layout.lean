/-
# Writing numbers

The fewest digits that name a double, and the two ways in which they are
laid out.

For one, two, … seventeen significant digits the decimals with that many
digits form a grid.  The first grid with a point that reads back as the
double gives the answer (`shortest`); it is enough to try the double's two
neighbours on the grid (`neighbours`).  Where both read back the nearer one
is taken, and of two that are equally near the one that the layout at hand
prefers.  Should no grid have such a point, all digits of the double are
written, so that what is written always reads back: that is a property of
the definition, not of seventeen digits being enough.

A layout says which numbers are written without an exponent, what follows
the digits of a whole number, and which of two equally short and equally
near decimals is written.  There are two: the plain layout of expressions,
results and messages, which never has an exponent (`Layout.plain`), and the
layout of numbers in JSON (`Layout.json`).
-/
import Arith.Number.Binary64

namespace Arith

/-- Which of two decimals that are equally near to a double is written. -/
inductive Tie where
  | up
  | even
deriving DecidableEq

/-! ## Digits

All of this is exact arithmetic on naturals: a number of units is compared
with powers of ten as quotients, and no logarithm is rounded. -/

def fivePow (n : Nat) : Nat := Nat.pow 5 n

/-- The exact decimal fraction of a number of units of the smallest double. -/
def exactDecimal (units : Nat) : Decimal := ⟨units * fivePow 1074, -1074⟩

def tenPowQuotient (e : Int) : Nat × Nat :=
  if 0 ≤ e then (tenPow e.toNat, 1) else (1, tenPow (-e).toNat)

/-- Whether a number of units is at least `10 ^ e`. -/
def atLeastTenPower (units : Nat) (e : Int) : Bool :=
  let (num, den) := tenPowQuotient e
  num * unitsPerOne ≤ units * den

/-- The exponent of the first digit of a number of units: an estimate from its length in bits,
which is never too large and at most one too small, corrected by a comparison. -/
def leadingExponent (units : Nat) : Int :=
  let binary : Int := (units.log2 : Int) - 1074
  let estimate := binary * 30103 / 100000
  if atLeastTenPower units (estimate + 1) then estimate + 1 else estimate

/-- The two neighbours of a number of units on the grid of multiples of `10 ^ e`, the preferred one
first. -/
def neighbours (tie : Tie) (units : Nat) (e : Int) : List Decimal :=
  let (num, den) := tenPowQuotient e
  let step := num * unitsPerOne
  let below := units * den / step
  let twice := 2 * (units * den % step)
  let lower : Decimal := ⟨below, e⟩
  let upper : Decimal := ⟨below + 1, e⟩
  let preferUpper := step < twice ||
    step == twice && (match tie with | .up => true | .even => below % 2 == 1)
  if preferUpper then [upper, lower] else [lower, upper]

/-- The preferred decimal with `n` significant digits that reads back as the double with this
encoding. -/
def withDigits? (tie : Tie) (bits n : Nat) : Option Decimal :=
  let units := unitsOf bits
  (neighbours tie units (leadingExponent units + 1 - n)).find? fun d => d.roundedBits == bits

/-- Moves trailing zeros into the exponent, as many as `fuel` allows. -/
def Decimal.stripZeros : Nat → Decimal → Decimal
  | 0, d => d
  | fuel + 1, d =>
    if d.digits % 10 == 0 && d.digits != 0 then stripZeros fuel ⟨d.digits / 10, d.exponent + 1⟩
    else d

/-- The shortest decimal that reads back as the double with this encoding. -/
def shortest (tie : Tie) (bits : Nat) : Decimal :=
  if bits == 0 then ⟨0, 0⟩
  else
    let found := (List.range 17).findSome? fun n => withDigits? tie bits (n + 1)
    (found.getD (exactDecimal (unitsOf bits))).stripZeros 1100

/-! ## Layouts -/

/-- The decisions that a way of writing numbers makes. -/
structure Layout where
  tie : Tie
  /-- Whether a number whose first digit has this exponent is written without an exponent. -/
  positional : Int → Bool
  /-- What follows the digits of a whole number. -/
  wholeSuffix : List Char

namespace Layout

/-- All digits and no exponent, a whole number without a point. -/
def plain : Layout := ⟨.up, fun _ => true, []⟩

/-- No exponent for numbers from `0.00001` up to sixteen whole digits, and a point in each of
these. -/
def json : Layout := ⟨.even, fun e => -5 ≤ e && e ≤ 15, ['.', '0']⟩

/-- The digits with a point where the exponent puts it. -/
def positionalText (layout : Layout) (digits : List Char) (exponent : Int) : List Char :=
  if 0 ≤ exponent then digits ++ List.replicate exponent.toNat '0' ++ layout.wholeSuffix
  else
    let places := (-exponent).toNat
    let padded := List.replicate (places + 1 - digits.length) '0' ++ digits
    let whole := padded.length - places
    padded.take whole ++ '.' :: padded.drop whole

/-- The digits with a point after the first, and the exponent of that one. -/
def scientificText (digits : List Char) (leading : Int) : List Char :=
  let fraction := digits.drop 1
  digits.take 1 ++ (if fraction.isEmpty then [] else '.' :: fraction) ++
    'e' :: (if leading < 0 then '-' else '+') :: Nat.toDigits 10 leading.natAbs

def decimalText (layout : Layout) (d : Decimal) : List Char :=
  let digits := Nat.toDigits 10 d.digits
  let leading := d.exponent + digits.length - 1
  if layout.positional leading then layout.positionalText digits d.exponent
  else scientificText digits leading

def finiteText (layout : Layout) (negative : Bool) (bits : Nat) : List Char :=
  (if negative then ['-'] else []) ++ layout.decimalText (shortest layout.tie bits)

end Layout

/-- A double in the plain layout, as characters. -/
def floatChars (x : Float) : List Char :=
  match magnitude x with
  | .undefined => "NaN".toList
  | .infinite => if isNegative x then "-inf".toList else "inf".toList
  | .finite bits => Layout.plain.finiteText (isNegative x) bits

def floatText (x : Float) : String := String.ofList (floatChars x)

end Arith
