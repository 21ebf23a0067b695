/-
# Byte ranges, and messages with the place they are about

Positions in an expression are counted in bytes of its UTF-8 encoding, so
that a range can be cut out of the encoded text without looking at what
stands before it.  Columns, which a reader counts in characters, appear only
where a place is shown.

A snippet is a message, the line and column where a byte range starts, that
line of the text, and a mark under the characters of the range:

    error: unexpected token ')'
     --> line 1, col 5
      |
    1 | 1 + )
      |     ^

Offsets may lie outside the text or inside a character.  Each is moved back
to the nearest boundary between characters (`splitAtByte`), so a snippet
exists for every range, and a range that covers nothing still gets a mark of
one character.  The mark is counted in the text as it is, and the line is
shown without the carriage returns at its end; where the range goes on into
these the mark is wider than what is shown above it.
-/
import Arith.Text.Character

namespace Arith

/-- The range of byte offsets from `start` up to, but not including, `stop`. -/
structure Span where
  start : Nat
  stop : Nat
deriving DecidableEq, Inhabited

namespace Span

def point (offset : Nat) : Span := ⟨offset, offset⟩

def length (s : Span) : Nat := s.stop - s.start

def isEmpty (s : Span) : Bool := s.start == s.stop

def text (s : Span) : String := s!"{s.start}..{s.stop}"

end Span

/-! ## Lengths and cuts -/

/-- How many bytes the UTF-8 encoding of some characters takes. -/
def byteLength (cs : List Char) : Nat := cs.foldl (fun n c => n + c.utf8Size) 0

theorem foldl_utf8Size (n : Nat) (cs : List Char) :
    cs.foldl (fun n c => n + c.utf8Size) n = n + byteLength cs := by
  induction cs generalizing n with
  | nil => rfl
  | cons c cs ih =>
    rw [byteLength, List.foldl_cons, List.foldl_cons, ih, ih (0 + c.utf8Size)]
    omega

@[simp] theorem byteLength_nil : byteLength [] = 0 := rfl

@[simp] theorem byteLength_cons (c : Char) (cs : List Char) :
    byteLength (c :: cs) = c.utf8Size + byteLength cs := by
  rw [byteLength, List.foldl_cons, foldl_utf8Size, Nat.zero_add]

@[simp] theorem byteLength_append (as bs : List Char) :
    byteLength (as ++ bs) = byteLength as + byteLength bs := by
  rw [byteLength, List.foldl_append, foldl_utf8Size]
  rfl

/-- Cuts a text at the last boundary between characters that lies no more than `offset` bytes in. -/
def splitAtByte : List Char → Nat → List Char × List Char
  | [], _ => ([], [])
  | c :: cs, offset =>
    if c.utf8Size ≤ offset then
      ((c :: (splitAtByte cs (offset - c.utf8Size)).1), (splitAtByte cs (offset - c.utf8Size)).2)
    else ([], c :: cs)

/-- Cutting loses nothing. -/
theorem splitAtByte_append (cs : List Char) (offset : Nat) :
    (splitAtByte cs offset).1 ++ (splitAtByte cs offset).2 = cs := by
  induction cs generalizing offset with
  | nil => rfl
  | cons c cs ih => by_cases h : c.utf8Size ≤ offset <;> simp [splitAtByte, h, ih]

theorem byteLength_splitAtByte_le (cs : List Char) (offset : Nat) :
    byteLength (splitAtByte cs offset).1 ≤ offset := by
  induction cs generalizing offset with
  | nil => simp [splitAtByte]
  | cons c cs ih =>
    by_cases h : c.utf8Size ≤ offset
    · have := ih (offset - c.utf8Size)
      simp only [splitAtByte, h, if_true, byteLength_cons]
      omega
    · simp [splitAtByte, h]

/-! ## Lines and places -/

/-- Whether a character does not end a line. -/
def insideLine (c : Char) : Bool := c != '\n'

/-- The part of a text after its last line feed. -/
def lastLine (cs : List Char) : List Char := (cs.reverse.takeWhile insideLine).reverse

/-- A place in a text, both numbers counting from one and `column` counting characters. -/
structure Location where
  line : Nat
  column : Nat
deriving DecidableEq

def Location.after (before : List Char) : Location :=
  ⟨before.count '\n' + 1, (lastLine before).length + 1⟩

/-! ## Snippets -/

/-- What a snippet shows of a text. -/
structure Excerpt where
  place : Location
  line : List Char
  width : Nat

namespace Excerpt

/-- The excerpt at a byte range: the whole line in which the range starts, without the carriage
returns at its end, and as many marked characters as the range has before that line ends, at least
one. -/
def ofSpan (source : List Char) (span : Span) : Excerpt :=
  let (before, after) := splitAtByte source span.start
  let (marked, _) := splitAtByte after (span.stop - byteLength before)
  { place := Location.after before
    line := dropTrailing (· == '\r') (lastLine before ++ after.takeWhile insideLine)
    width := max (marked.takeWhile insideLine).length 1 }

def lines (e : Excerpt) : List String :=
  let gutter := toString e.place.line
  let pad := String.ofList (List.replicate gutter.length ' ')
  let indent := String.ofList (List.replicate (e.place.column - 1) ' ')
  let mark := String.ofList ('^' :: List.replicate (e.width - 1) '~')
  [ s!"{pad}--> line {e.place.line}, col {e.place.column}",
    s!"{pad} |",
    s!"{gutter} | {String.ofList e.line}",
    s!"{pad} | {indent}{mark}" ]

end Excerpt

/-- A message with the excerpt of `source` that it is about, or alone if it is about no place. -/
def snippet (message : String) (span : Option Span) (source : String) : String :=
  let excerpt := (span.map fun s => (Excerpt.ofSpan source.toList s).lines).getD []
  "\n".intercalate (s!"error: {message}" :: excerpt)

end Arith
