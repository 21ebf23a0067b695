/-
# Characters

What the program asks of single characters, and how a text is cut at some of
them.

* The letters and digits of ASCII are the only ones that the language of
  expressions knows.
* White space is meant in the sense of the Unicode property `White_Space`:
  the characters that may stand between two tokens, and that are cut from
  both ends of a name or a value given on the command line.
* A set of code points is given by ranges, and a text is split at each
  occurrence of a character; both serve the tables of characters and the
  patterns that follow.
-/

namespace Arith

/-- Whether a character is one of `0` to `9`. -/
def isDecimalDigit (c : Char) : Bool := '0' ≤ c && c ≤ '9'

def isSmallLetter (c : Char) : Bool := 'a' ≤ c && c ≤ 'z'

def isCapitalLetter (c : Char) : Bool := 'A' ≤ c && c ≤ 'Z'

/-! ## White space -/

def isBlank (c : Char) : Bool :=
  let n := c.toNat
  (0x9 ≤ n && n ≤ 0xd) || n == 0x20 || n == 0x85 || n == 0xa0 || n == 0x1680 ||
    (0x2000 ≤ n && n ≤ 0x200a) || n == 0x2028 || n == 0x2029 || n == 0x202f || n == 0x205f ||
    n == 0x3000

/-- What is left after the trailing characters that satisfy `p` are cut off. -/
def dropTrailing (p : Char → Bool) (cs : List Char) : List Char :=
  (cs.reverse.dropWhile p).reverse

def trimBlanks (cs : List Char) : List Char := dropTrailing isBlank (cs.dropWhile isBlank)

/-! ## Ranges and pieces -/

/-- Whether a code point lies in one of some ranges, whose ends both belong to them. -/
def inRanges (ranges : Array (Nat × Nat)) (n : Nat) : Bool :=
  ranges.any fun (lo, hi) => lo ≤ n && n ≤ hi

/-- Splits a text at each occurrence of a character. -/
def splitAtEach (separator : Char) : List Char → List (List Char)
  | [] => [[]]
  | c :: cs =>
    if c == separator then [] :: splitAtEach separator cs
    else
      match splitAtEach separator cs with
      | [] => [[c]]
      | first :: rest => (c :: first) :: rest

/-- A line that a line feed ends, without the carriage return before it. -/
def withoutReturn (line : List Char) : List Char :=
  if line.getLast? == some '\r' then line.dropLast else line

/-- The lines of a text.  A text that ends in a line feed has no empty line behind it. -/
def linesOf (cs : List Char) : List (List Char) :=
  let pieces := splitAtEach '\n' cs
  let last := pieces.getLastD []
  pieces.dropLast.map withoutReturn ++ if last.isEmpty then [] else [last]

end Arith
