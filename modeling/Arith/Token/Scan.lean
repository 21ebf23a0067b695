/-
# From characters to tokens

At every place the longest lexeme is taken: a run of digits and points that
starts with a digit, a run of small or of capital letters, one of the two
spellings of exponentiation, or a single sign (`lexemeAt`).  Blanks separate
lexemes and are dropped.  The first character that starts no lexeme ends the
scan.

Before any of this the whole text is refused if it is empty or holds a
fullwidth character, even where a scan would have stopped earlier
(`refusal`).

A scan keeps the tokens before an error beside the error.  A caller who asks
for the list of tokens gets the error alone (`Scan.result`), and one who
asks for one token at a time gets the tokens first (`Scan.pulls`).
-/
import Arith.Text.Character
import Arith.Token
import Arith.Log

namespace Arith

/-- Why a text has no list of tokens; offsets count bytes. -/
inductive ScanError where
  | emptyInput
  | unsupportedCharset (char : Char) (offset : Nat)
  | unsupportedToken (char : Char) (offset : Nat)
deriving DecidableEq

namespace ScanError

def message : ScanError → String
  | .emptyInput => "the expression is empty"
  | .unsupportedCharset char offset =>
    s!"unsupported character '{char}' at offset {offset}, only ASCII expressions are accepted"
  | .unsupportedToken char _ => s!"'{char}' is not supported"

def span : ScanError → Option Span
  | .emptyInput => none
  | .unsupportedCharset char offset => some ⟨offset, offset + char.utf8Size⟩
  | .unsupportedToken char offset => some ⟨offset, offset + char.utf8Size⟩

end ScanError

/-! ## Lexemes -/

/-- Whether a character is a fullwidth form of a sign, letter or digit, or the ideographic space. -/
def isFullwidth (c : Char) : Bool :=
  (0xff01 ≤ c.toNat && c.toNat ≤ 0xff5e) || c.toNat == 0x3000

def isNumberPart (c : Char) : Bool := isDecimalDigit c || c == '.'

/-- The kind of the lexeme that starts with `c` before `rest`, and the characters of `rest` that
belong to it; none if no lexeme starts with `c`. -/
def lexemeAt (c : Char) (rest : List Char) : Option (TokenKind × List Char) :=
  match c with
  | '(' => some (.leftParen, [])
  | ')' => some (.rightParen, [])
  | '{' => some (.leftBrace, [])
  | '}' => some (.rightBrace, [])
  | ',' => some (.comma, [])
  | '+' => some (.add, [])
  | '-' => some (.sub, [])
  | '/' => some (.quo, [])
  | '%' => some (.rem, [])
  | '^' => some (.pow, [])
  | '*' => if rest.head? == some '*' then some (.pow, ['*']) else some (.mul, [])
  | c =>
    if isDecimalDigit c then some (.number, rest.takeWhile isNumberPart)
    else if isSmallLetter c then some (.functionName, rest.takeWhile isSmallLetter)
    else if isCapitalLetter c then some (.variableName, rest.takeWhile isCapitalLetter)
    else none

/-! ## Scans -/

/-- What a scan found: the tokens up to its end, and the error that ended it before the text did. -/
structure Scan where
  tokens : List Token
  error : Option ScanError

def Scan.cons (t : Token) (s : Scan) : Scan := { s with tokens := t :: s.tokens }

/-- Scans characters of which the first stands at `offset`. -/
def scanFrom (offset : Nat) : List Char → Scan
  | [] => ⟨[], none⟩
  | c :: rest =>
    if isBlank c then scanFrom (offset + c.utf8Size) rest
    else
      match lexemeAt c rest with
      | none => ⟨[], some (.unsupportedToken c offset)⟩
      | some (kind, more) =>
        let stop := offset + byteLength (c :: more)
        (scanFrom stop (rest.drop more.length)).cons
          ⟨kind, String.ofList (c :: more), ⟨offset, stop⟩⟩
termination_by cs => cs.length
decreasing_by all_goals simp only [List.length_cons, List.length_drop]; omega

/-- The first fullwidth character of a text whose first character stands at `offset`. -/
def findFullwidth (offset : Nat) : List Char → Option ScanError
  | [] => none
  | c :: rest =>
    if isFullwidth c then some (.unsupportedCharset c offset)
    else findFullwidth (offset + c.utf8Size) rest

/-- Why a text is refused before it is scanned. -/
def refusal (cs : List Char) : Option ScanError :=
  if cs.isEmpty then some .emptyInput else findFullwidth 0 cs

/-- Scans a whole text. -/
def scan (source : String) : Scan :=
  match refusal source.toList with
  | some e => ⟨[], some e⟩
  | none => scanFrom 0 source.toList

namespace Scan

/-- All tokens of the text, or the error: there is no list of the tokens before an error. -/
def result (s : Scan) : Except ScanError (List Token) :=
  match s.error with
  | some e => .error e
  | none => .ok s.tokens

/-- The answers of a reader that hands out one token at a time: the tokens, then the error if
there is one; after that the reader has nothing more. -/
def pulls (s : Scan) : List (Except ScanError Token) :=
  s.tokens.map .ok ++ (s.error.map .error).toList

/-- What is told of the end of a scan. -/
def endRecord : ScanError → Record
  | .unsupportedToken char offset =>
    let token : Token :=
      ⟨.illegal, String.singleton char, ⟨offset, offset + char.utf8Size⟩⟩
    ⟨.debug, .scanner, s!"illegal token {token.display}, aborting"⟩
  | e => ⟨.debug, .scanner, s!"rejecting expression: {e.message}"⟩

/-- What is told of a scan: every token as it is found, and the error. -/
def records (s : Scan) : List Record :=
  s.tokens.map (fun t => ⟨.trace, .scanner, s!"scanned {t.display}"⟩) ++
    (s.error.map endRecord).toList

end Scan

def tokenize (source : String) : Except ScanError (List Token) := (scan source).result

end Arith
