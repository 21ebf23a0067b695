/-
# The options of the command line

Arguments are read from left to right.  One that starts with two hyphens is
a long option, one that starts with a single hyphen and goes on is a group
of short ones, and any other is the expression, unless an option before it
waits for its value; behind a lone `--` every argument is the expression, of
which there is at most one.  So an expression that starts with a hyphen is
taken for options unless it stands behind `--`.

The value of `--var` in an argument of its own is checked only when the next
argument that is known is met, so that an unknown argument right behind it
is reported in its place.  That is why a value is kept as pending, with its
text, until something settles it (`Progress.settle`).

An assignment is written `NAME=VALUE`, with blanks allowed around both
parts.  The name is everything before the first equals sign.
-/
import Arith.Text.Character
import Arith.Number.Literal
import Arith.Text.Control

namespace Arith

inductive AssignmentError where
  | missingEquals (text : String)
  | invalidName (name : String)
  | invalidValue (name : String) (reason : LiteralError)
deriving DecidableEq

def AssignmentError.message : AssignmentError → String
  | .missingEquals text => s!"expected NAME=VALUE, got '{text}'"
  | .invalidName name => s!"variable names are uppercase letters, got '{name}'"
  | .invalidValue name reason => s!"invalid value for {name}: {reason.message}"

/-- Whether a text may name a variable. -/
def isVariableName (cs : List Char) : Bool := !cs.isEmpty && cs.all isCapitalLetter

/-- Reads an assignment. -/
def readAssignment (text : String) : Except AssignmentError (String × Float) :=
  match text.toList.span (· != '=') with
  | (_, []) => .error (.missingEquals text)
  | (before, _ :: after) =>
    let name := String.ofList (trimBlanks before)
    if isVariableName name.toList then
      match readFloat (trimBlanks after) with
      | .ok value => .ok (name, value)
      | .error reason => .error (.invalidValue name reason)
    else .error (.invalidName name)

/-! ## Requests and complaints -/

/-- What the command line asks for. -/
structure Options where
  /-- How often more detail was asked for. -/
  verbosity : Nat
  assignments : List (String × Float)
  showTokens : Bool
  showTree : Bool
  asJson : Bool
  expression : Option String

/-- The option that binds a variable, with a name for its value. -/
def valueOption : String := "--var <NAME=VALUE>"

inductive UsageError where
  | unexpectedArgument (argument : String)
  | unexpectedValue (value option : String)
  | repeatedOption (option : String)
  | invalidAssignment (argument : String) (reason : AssignmentError)
  | missingValue
deriving DecidableEq

/-- The wording of an error for a terminal, which stresses what was given. -/
def UsageError.message : UsageError → String
  | .unexpectedArgument argument => s!"unexpected argument '{stressed argument}' found"
  | .unexpectedValue value option =>
    s!"unexpected value '{stressed value}' for '{stressed option}' found; no more were expected"
  | .repeatedOption option => s!"the argument '{stressed option}' cannot be used multiple times"
  | .invalidAssignment argument reason =>
    s!"invalid value '{stressed argument}' for '{stressed valueOption}': {reason.message}"
  | .missingValue => s!"a value is required for '{stressed valueOption}' but none was supplied"

/-- What is written about an error where no terminal shows it: what is wrong, and where help is to
be found.  Between the two there may stand a tip, such as how to pass an argument that starts with
a hyphen, and a line about the usage; both depend on nothing but the error and are left out. -/
def UsageError.text (e : UsageError) : String :=
  let label := stressed "error:"
  let help := stressed "--help"
  withoutControls s!"{label} {e.message}\n\nFor more information, try '{help}'.\n"

inductive Halt where
  | help
  | version
  | usage (error : UsageError)

/-! ## Switches -/

/-- The options that take no value. -/
inductive Switch where
  | verbose
  | tokens
  | ast
  | json
  | help
  | version
deriving DecidableEq

namespace Switch

/-- The long name of a switch. -/
def name : Switch → String
  | .verbose => "--verbose"
  | .tokens => "--tokens"
  | .ast => "--ast"
  | .json => "--json"
  | .help => "--help"
  | .version => "--version"

def shown : Switch → String
  | .verbose => "--verbose..."
  | switch => switch.name

def named? (text : String) : Option Switch :=
  [verbose, tokens, ast, json, help, version].find? (·.name == text)

/-- The switch with a short name. -/
def ofShort? : Char → Option Switch
  | 'v' => some .verbose
  | 'h' => some .help
  | 'V' => some .version
  | _ => none

end Switch

/-! ## Reading arguments -/

namespace Options

def initial : Options := ⟨0, [], false, false, false, none⟩

/-- An assignment that has been announced. -/
inductive Pending where
  | nothing
  /-- The next argument is its text, if it can be. -/
  | awaited
  /-- Its text, not yet checked. -/
  | given (text : String)

/-- How far the arguments have been read. -/
structure Progress where
  options : Options
  pending : Pending
  /-- Whether options have been ended by a lone `--`. -/
  ended : Bool

namespace Progress

def start : Progress := ⟨.initial, .nothing, false⟩

/-- Adds an assignment. -/
def assign (p : Progress) (text : String) : Except Halt Progress :=
  match readAssignment text with
  | .ok pair =>
    .ok { p with options := { p.options with assignments := p.options.assignments ++ [pair] } }
  | .error reason => .error (.usage (.invalidAssignment text reason))

/-- Checks the assignment that is pending. -/
def settle (p : Progress) : Except Halt Progress :=
  match p.pending with
  | .nothing => .ok p
  | .awaited => .error (.usage .missingValue)
  | .given text => { p with pending := .nothing }.assign text

/-- Sets a switch that must not be set already. -/
def setOnce (p : Progress) (switch : Switch) (isSet : Bool) (options : Options) :
    Except Halt Progress :=
  if isSet then .error (.usage (.repeatedOption switch.shown)) else .ok { p with options }

def set (p : Progress) (switch : Switch) : Except Halt Progress := do
  let p ← p.settle
  let o := p.options
  match switch with
  | .verbose => .ok { p with options := { o with verbosity := o.verbosity + 1 } }
  | .tokens => p.setOnce switch o.showTokens { o with showTokens := true }
  | .ast => p.setOnce switch o.showTree { o with showTree := true }
  | .json => p.setOnce switch o.asJson { o with asJson := true }
  | .help => .error .help
  | .version => .error .version

def short (p : Progress) : List Char → Except Halt Progress
  | [] => .ok p
  | c :: cs =>
    match Switch.ofShort? c with
    | some switch => do short (← p.set switch) cs
    | none => .error (.usage (.unexpectedArgument (String.ofList ['-', c])))

/-- Reads a long option, of which `value` stands behind an equals sign. -/
def long (p : Progress) (name : String) (value : Option String) : Except Halt Progress :=
  if name == "--var" then do
    let p ← p.settle
    match value with
    | some text => p.assign text
    | none => .ok { p with pending := .awaited }
  else
    match Switch.named? name, value with
    | some switch, none => p.set switch
    | some switch, some value => .error (.usage (.unexpectedValue value switch.shown))
    | none, _ => .error (.usage (.unexpectedArgument name))

/-- Takes an argument as the expression. -/
def positional (p : Progress) (argument : String) : Except Halt Progress :=
  if p.options.expression.isSome then .error (.usage (.unexpectedArgument argument))
  else do
    let p ← p.settle
    .ok { p with options := { p.options with expression := some argument } }

def plain (p : Progress) (argument : String) : Except Halt Progress :=
  match p.pending with
  | .awaited => .ok { p with pending := .given argument }
  | _ => p.positional argument

/-- Splits a long option at its first equals sign. -/
def splitLong (cs : List Char) : String × Option String :=
  match cs.span (· != '=') with
  | (name, []) => (String.ofList name, none)
  | (name, _ :: value) => (String.ofList name, some (String.ofList value))

def read (p : Progress) (argument : String) : Except Halt Progress :=
  if p.ended then p.positional argument
  else
    match argument.toList with
    | ['-', '-'] => .ok { p with ended := true }
    | '-' :: '-' :: cs =>
      let (name, value) := splitLong ('-' :: '-' :: cs)
      p.long name value
    | '-' :: c :: cs => p.short (c :: cs)
    | _ => p.plain argument

def readAll (p : Progress) : List String → Except Halt Options
  | [] => do return (← p.settle).options
  | argument :: rest => do readAll (← p.read argument) rest

end Progress

/-- Reads a command line. -/
def ofArguments (arguments : List String) : Except Halt Options :=
  Progress.start.readAll arguments

end Options

end Arith
