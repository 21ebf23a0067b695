/-
# Control sequences

The commands to a terminal that may stand in a text, and how a text is
written without them.

A sequence starts with the escape character; what follows says where it
ends.  A text that is not written to a terminal is written without its
sequences, and without the control characters that are not white space.
White space is kept even inside a command: from there on all is kept, until
the next control character takes the command up again.

A message about the command line quotes what was given, and what was given
may hold such sequences, so the message is composed with its own sequences
first (`stressed`) and then stripped of all of them (`withoutControls`).
-/
import Arith.Text.Character

namespace Arith

/-- How far a control sequence has been read. -/
inductive ControlSequence where
  | idle
  | escape
  /-- Behind the escape character and signs that announce a last one. -/
  | announced
  /-- A command with numbers before the letter that ends it. -/
  | command
  /-- The head of a message to a device, up to the letter before its body. -/
  | device
  /-- The body of a message. -/
  | body
  /-- A text for the window, such as its title, which also ends with the bell. -/
  | title
deriving DecidableEq

def escapeCode : Char := '\x1b'

def isShownAscii (c : Char) : Bool := 0x20 ≤ c.toNat && c.toNat < 0x7f

/-- Whether a character moves the place at which a terminal writes. -/
def isLayout (c : Char) : Bool := c == '\t' || c == '\n' || c == '\x0c' || c == '\r'

/-- Whether the encoding of a character has the byte that ends the body of a message. -/
def endsBody (c : Char) : Bool := (String.utf8EncodeChar c).contains 0x9c

namespace ControlSequence

/-- Whether layout characters count in the middle of a sequence. -/
def obeysLayout : ControlSequence → Bool
  | .escape | .announced | .command => true
  | _ => false

/-- The kind of sequence that a character behind the escape character starts. -/
def ofSecond (c : Char) : ControlSequence :=
  if 0x20 ≤ c.toNat && c.toNat ≤ 0x2f then .announced
  else
    match c with
    | '[' => .command
    | ']' => .title
    | 'P' => .device
    | 'X' | '^' | '_' => .body
    | c => if isShownAscii c then .idle else .escape

/-- How far a sequence has been read behind a character. -/
def next (s : ControlSequence) (c : Char) : ControlSequence :=
  if c == escapeCode then .escape
  else if c == '\x18' || c == '\x1a' then .idle
  else
    match s with
    | .idle => .idle
    | .escape => ofSecond c
    | .announced => if 0x30 ≤ c.toNat && c.toNat ≤ 0x7e then .idle else .announced
    | .command => if 0x40 ≤ c.toNat && c.toNat ≤ 0x7e then .idle else .command
    | .device => if 0x40 ≤ c.toNat && c.toNat ≤ 0x7e then .body else .device
    | .body => if endsBody c then .idle else .body
    | .title => if c == '\x07' then .idle else .title

end ControlSequence

/-- The characters that are left without control sequences, behind a part of `s`; `kept` says that
layout in the middle of it has made the characters behind it count. -/
def dropControlsFrom (s : ControlSequence) (kept : Bool) : List Char → List Char
  | [] => []
  | c :: cs =>
    if kept || s == .idle then
      if isShownAscii c || isLayout c then c :: dropControlsFrom s kept cs
      else if 0x80 ≤ c.toNat then c :: dropControlsFrom .idle false cs
      else dropControlsFrom (s.next c) false cs
    else if isLayout c && s.obeysLayout then c :: dropControlsFrom s true cs
    else dropControlsFrom (s.next c) false cs

def withoutControls (text : String) : String :=
  String.ofList (dropControlsFrom .idle false text.toList)

/-- A text between control sequences that make a terminal stress it. -/
def stressed (text : String) : String := s!"\x1b[1m{text}\x1b[0m"

end Arith
