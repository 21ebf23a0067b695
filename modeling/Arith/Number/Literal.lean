/-
# Reading numbers

A number is an optional sign and then either one of the words `inf`,
`infinity` and `nan` in any mixture of cases, or digits with at most one
point among them and an optional exponent.  There has to be a digit before
or after the point, and one in the exponent if there is an exponent.

The same reader serves the numerals of an expression, which are lexemes of
digits and points and so never have a sign, a word or an exponent, and the
values that the command line binds to variables, which may have all of them.
The digits denote a decimal fraction exactly, and the number read is the
double nearest to it.
-/
import Arith.Text.Character
import Arith.Number.Binary64

namespace Arith

inductive LiteralError where
  | empty
  | malformed
deriving DecidableEq

def LiteralError.message : LiteralError → String
  | .empty => "cannot parse float from empty string"
  | .malformed => "invalid float literal"

/-- The number that a run of digits is the decimal notation of. -/
def digitsValue (cs : List Char) : Nat :=
  cs.foldl (fun n c => 10 * n + (c.toNat - '0'.toNat)) 0

/-- Takes the sign off a text: whether it was a minus, and the rest. -/
def takeSign : List Char → Bool × List Char
  | '-' :: cs => (true, cs)
  | '+' :: cs => (false, cs)
  | cs => (false, cs)

/-- The exponent that a run of digits stands for.  Digits behind a number of at least 65536, which
no double comes near, add nothing to it. -/
def exponentValue (cs : List Char) : Nat :=
  cs.foldl (fun n c => if n < 65536 then 10 * n + (c.toNat - '0'.toNat) else n) 0

/-- The exponent that the end of a number stands for: zero if nothing is left, else the letter
`e`, an optional sign and digits. -/
def readExponent : List Char → Option Int
  | [] => some 0
  | c :: cs =>
    let (negative, digits) := takeSign cs
    if (c == 'e' || c == 'E') && !digits.isEmpty && digits.all isDecimalDigit then
      let n : Int := exponentValue digits
      some (if negative then -n else n)
    else none

/-- The digits after the point, and what stands behind them; a text that does not go on with a
point has no such digits. -/
def takeFraction : List Char → List Char × List Char
  | '.' :: cs => (cs.takeWhile isDecimalDigit, cs.dropWhile isDecimalDigit)
  | cs => ([], cs)

def readDecimal (cs : List Char) : Option Decimal :=
  let whole := cs.takeWhile isDecimalDigit
  let (fraction, rest) := takeFraction (cs.dropWhile isDecimalDigit)
  if whole.isEmpty && fraction.isEmpty then none
  else (readExponent rest).map fun e =>
    ⟨digitsValue (whole ++ fraction), e - fraction.length⟩

/-- The unsigned numbers that are written as a word. -/
def readWord (cs : List Char) : Option Nat :=
  match String.ofList (cs.map Char.toLower) with
  | "inf" => some infinityBits
  | "infinity" => some infinityBits
  | "nan" => some (undefinedBits)
  | _ => none

/-- The encoding of the unsigned number that is nearest to what a text stands for. -/
def readMagnitude (cs : List Char) : Option Nat :=
  (readWord cs).or ((readDecimal cs).map Decimal.roundedBits)

def readFloat (cs : List Char) : Except LiteralError Float :=
  if cs.isEmpty then .error .empty
  else
    let (negative, rest) := takeSign cs
    match readMagnitude rest with
    | some bits => .ok (floatOfBits negative bits)
    | none => .error .malformed

end Arith
