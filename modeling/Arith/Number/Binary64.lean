/-
# Double-precision numbers, exactly

A finite double is a sign and a magnitude `significand * 2 ^ quantum`
counted in units of `2 ^ (-1074)`, the distance between the smallest
doubles.  In these units every magnitude is a natural number, and its
encoding without the sign bit is `quantum * 2 ^ 52 + significand`.  Rounding
a quotient of naturals to the nearest double is therefore integer division,
and a carry out of the significand lands in the exponent by itself
(`roundQuotient`).

Three things are built on that, and none of them computes with doubles:

* the integer part of a double, cut off at the ends of the range of 64-bit
  integers (`truncate`), the double nearest to an integer (`floatOfInt`),
  and from the two the remainder of truncated operands
  (`truncatedRemainder?`);
* decimal fractions and the doubles nearest to them (`Decimal.roundedBits`),
  which is how numerals are read;
* the test whether a double is negative and whether it is finite
  (`isNegative`, `magnitude`), which is how they are written.

`twoPow` and `tenPow` are the powers of `Nat` under names of their own: an
exponent of 1074 is never meant to be evaluated by a tactic that meets it.
-/

namespace Arith

def twoPow (n : Nat) : Nat := Nat.pow 2 n

/-- The encoding of infinity, and the first one that is not the encoding of a finite magnitude. -/
def infinityBits : Nat := 0x7ff0000000000000

/-- The encoding of an undefined number. -/
def undefinedBits : Nat := 0x7ff8000000000000

def signBit : Nat := 0x8000000000000000

/-! ## Units -/

/-- How many units of the smallest double make one. -/
def unitsPerOne : Nat := twoPow 1074

/-- The weight of the first significant bit of a normal magnitude, and the distance between the
encodings of two magnitudes with the same significand and neighbouring quanta. -/
def leadingBit : Nat := 0x10000000000000

/-- The integer significand of the magnitude with this encoding. -/
def significandOf (bits : Nat) : Nat :=
  if bits < leadingBit then bits else leadingBit + bits % leadingBit

/-- The power of two by which the significand is scaled. -/
def quantumOf (bits : Nat) : Nat := bits / leadingBit - 1

/-- The magnitude with this encoding, in units of the smallest double. -/
def unitsOf (bits : Nat) : Nat := significandOf bits * twoPow (quantumOf bits)

/-- The integer nearest to a quotient, the even one of two that are equally near. -/
def divNearest (num den : Nat) : Nat :=
  let q := num / den
  let twice := 2 * (num % den)
  if twice < den then q
  else if den < twice then q + 1
  else if q % 2 == 0 then q else q + 1

/-- The encoding of the double nearest to `num / den`, the one with the even significand of two that
are equally near; infinity if the quotient lies half a step or more beyond the largest double. -/
def roundQuotient (num den : Nat) : Nat :=
  let units := num * unitsPerOne
  let quantum := (units / den).log2 - 52
  let bits := quantum * leadingBit + divNearest units (den * twoPow quantum)
  min bits infinityBits

/-! ## Encodings -/

/-- The double with this sign and this encoding of its magnitude. -/
def floatOfBits (negative : Bool) (bits : Nat) : Float :=
  Float.ofBits (UInt64.ofNat (if negative then signBit + bits else bits))

/-- What a double stands for. -/
inductive Magnitude where
  | undefined
  | infinite
  /-- The finite magnitude with this encoding. -/
  | finite (bits : Nat)

def isNegative (x : Float) : Bool := signBit ≤ x.toBits.toNat

def magnitude (x : Float) : Magnitude :=
  let bits := x.toBits.toNat % signBit
  if infinityBits < bits then .undefined
  else if bits == infinityBits then .infinite
  else .finite bits

/-! ## Whole numbers

Truncation saturates: what lies beyond the range of 64-bit integers becomes
the end of the range on its side.  The remainder is that of integers, so it
is exact, and its double is the nearest one to an integer of at most 63
bits. -/

def leastWhole : Int := -9223372036854775808

def greatestWhole : Int := 9223372036854775807

def clampWhole (n : Int) : Int := max leastWhole (min greatestWhole n)

/-- The integer part of a double, the end of the range on its side if it lies outside the range of
64-bit integers, and zero if it is not a number. -/
def truncate (x : Float) : Int :=
  match magnitude x with
  | .undefined => 0
  | .infinite => if isNegative x then leastWhole else greatestWhole
  | .finite bits =>
    let n : Int := (unitsOf bits / unitsPerOne : Nat)
    clampWhole (if isNegative x then -n else n)

def floatOfInt (n : Int) : Float := floatOfBits (n < 0) (roundQuotient n.natAbs 1)

/-- The remainder of the truncated operands, with the sign of the first; none if the second
truncates to zero. -/
def truncatedRemainder? (left right : Float) : Option Float :=
  if truncate right == 0 then none
  else some (floatOfInt ((truncate left).tmod (truncate right)))

/-! ## Decimal fractions -/

def tenPow (n : Nat) : Nat := Nat.pow 10 n

/-- The fraction `digits * 10 ^ exponent`. -/
structure Decimal where
  digits : Nat
  exponent : Int
deriving DecidableEq

namespace Decimal

/-- The encoding of the double nearest to a fraction.  A fraction of at least `10 ^ 310` is beyond
all doubles, and one below `10 ^ (-330)` is nearest to zero; neither needs its power of ten. -/
def roundedBits (d : Decimal) : Nat :=
  if d.digits == 0 then 0
  else if 310 ≤ d.exponent then infinityBits
  else if 0 ≤ d.exponent then roundQuotient (d.digits * tenPow d.exponent.toNat) 1
  else if d.exponent + d.digits.log2 + 1 ≤ -330 then 0
  else roundQuotient d.digits (tenPow (-d.exponent).toNat)

end Decimal

end Arith
