/-
# JSON values and their text

The text is spread over lines: the members of a list or an object stand on
lines of their own, two blanks deeper than the value, and an empty list or
object is written in two signs.  Members of an object keep their order, and
nothing checks that their keys differ.

Every writer takes the text that comes behind what it writes, so that a
value is written from its end to its start without appending.  That the text
denotes the value is proved against a grammar of JSON in
`Arith.Proofs.Json`.
-/
import Arith.Number.Layout

namespace Arith

/-- A JSON value.  A number is a finite double, given by its sign and the encoding of its
magnitude. -/
inductive Json where
  | null
  | number (negative : Bool) (bits : Nat)
  | string (text : String)
  | list (items : List Json)
  | object (members : List (String × Json))
deriving Inhabited

namespace Json

/-- The value that stands for a double: there is none for infinities and undefined numbers. -/
def ofFloat (x : Float) : Json :=
  match magnitude x with
  | .finite bits => .number (isNegative x) bits
  | _ => .null

def hexDigit (n : Nat) : Char := (Nat.toDigits 16 (n % 16)).headD '0'

def escapeChar (c : Char) : List Char :=
  match c with
  | '"' => ['\\', '"']
  | '\\' => ['\\', '\\']
  | '\n' => ['\\', 'n']
  | '\r' => ['\\', 'r']
  | '\t' => ['\\', 't']
  | '\x08' => ['\\', 'b']
  | '\x0c' => ['\\', 'f']
  | c =>
    if c.toNat < 0x20 then ['\\', 'u', '0', '0', hexDigit (c.toNat / 16), hexDigit c.toNat]
    else [c]

/-- Writes a string in quotes in front of `rest`. -/
def writeString (text : String) (rest : List Char) : List Char :=
  '"' :: text.toList.flatMap escapeChar ++ '"' :: rest

/-- Ends a line and indents the next one, in front of `rest`. -/
def writeBreak (depth : Nat) (rest : List Char) : List Char :=
  '\n' :: List.replicate (2 * depth) ' ' ++ rest

mutual

/-- Writes a value whose first line is indented for `depth` in front of `rest`. -/
def write (depth : Nat) : Json → List Char → List Char
  | .null, rest => 'n' :: 'u' :: 'l' :: 'l' :: rest
  | .number negative bits, rest => Layout.json.finiteText negative bits ++ rest
  | .string text, rest => writeString text rest
  | .list [], rest => '[' :: ']' :: rest
  | .list (item :: items), rest =>
    '[' :: writeBreak (depth + 1) (item.write (depth + 1)
      (writeItems (depth + 1) items (writeBreak depth (']' :: rest))))
  | .object [], rest => '{' :: '}' :: rest
  | .object ((key, value) :: members), rest =>
    '{' :: writeBreak (depth + 1) (writeString key (':' :: ' ' :: value.write (depth + 1)
      (writeMembers (depth + 1) members (writeBreak depth ('}' :: rest)))))

/-- Writes the items of a list after the first in front of `rest`. -/
def writeItems (depth : Nat) : List Json → List Char → List Char
  | [], rest => rest
  | item :: items, rest =>
    ',' :: writeBreak depth (item.write depth (writeItems depth items rest))

/-- Writes the members of an object after the first in front of `rest`. -/
def writeMembers (depth : Nat) : List (String × Json) → List Char → List Char
  | [], rest => rest
  | (key, value) :: members, rest =>
    ',' :: writeBreak depth (writeString key (':' :: ' ' :: value.write depth
      (writeMembers depth members rest)))

end

def text (j : Json) : String := String.ofList (j.write 0 [])

end Json

end Arith
