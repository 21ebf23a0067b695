/-
# The program behind the command line

The program evaluates one expression, from its arguments or from its input,
and writes the value.  What it is asked to show besides does not change what
it evaluates: the tokens come before anything can go wrong with the tree,
the tree before the value, or both in one JSON object.

A run is a function from the arguments, the text in the environment that
says which records are shown, and the bytes of the input, to an exit code
and the two texts that are written (`Program.respond`).  The exit code is 0
if there is a value, 1 if the expression has an error, and 2 if the command
line or the input cannot be read.  Records and errors go to one text, and
what was asked for to the other.
-/
import Arith.Evaluator
import Arith.Expr.Printer
import Arith.Host.Catalog
import Arith.Command.Options
import Arith.Command.Filter

namespace Arith

structure Transcript where
  exit : Nat
  stdout : String
  stderr : String

namespace Program

def versionText : String := "mev 0.1.0\n"

/-- What the program says about its use. -/
def helpText : String :=
  "Evaluate arithmetic expressions with variables and functions\n\n" ++
  "Usage: mev [OPTIONS] [EXPR]\n\n" ++
  "Arguments:\n" ++
  "  [EXPR]  Expression to evaluate (reads from stdin if not provided)\n\n" ++
  "Options:\n" ++
  "  -v, --verbose...        Increase verbosity level (-v, -vv, -vvv)\n" ++
  "      --var <NAME=VALUE>  Bind a variable, e.g. --var FOUR=4 (repeatable)\n" ++
  "      --tokens            Print the token list before evaluating\n" ++
  "      --ast               Print the parsed tree before evaluating\n" ++
  "      --json              Print the result, and the tree, as JSON\n" ++
  "  -h, --help              Print help\n" ++
  "  -V, --version           Print version\n"

def halted : Halt → Transcript
  | .help => ⟨0, helpText, ""⟩
  | .version => ⟨0, versionText, ""⟩
  | .usage e => ⟨2, "", e.text⟩

/-- The functions of the program: those that are there from the start, and random numbers. -/
def functions : FunctionTable × Host :=
  let (table, host) := FunctionTable.withBuiltins .empty
  (table.insert "random" host.fresh, host.register Recipe.random.function)

/-- The scope in which the expression is read; of two values for one variable the later one
holds. -/
def scope (options : Options) : Scope := ⟨.ofList options.assignments, functions.1⟩

def unlines (lines : List String) : String := String.join (lines.map (· ++ "\n"))

/-- The shown records, one a line. -/
def recordText (filter : LogFilter) (records : List Record) : String :=
  unlines ((records.filter filter.shows).map fun r => s!"[{r.level.label}] {r.message}")

def report (source : String) (tree : Expr) (value : Float) : Json :=
  .object [("expression", .string source), ("value", .ofFloat value), ("tree", tree.json)]

/-- What is written of a tree and its value. -/
def valueText (options : Options) (source : String) (tree : Expr) (value : Float) : String :=
  if options.asJson then unlines [(report source tree value).text]
  else if options.showTree then unlines [tree.text, floatText value]
  else unlines [floatText value]

/-- What a run leaves behind of which the expression has an error. -/
def failed (filter : LogFilter) (records : List Record) (stdout source : String)
    (e : ExpressionError) : Transcript :=
  ⟨1, stdout, recordText filter records ++ unlines [e.render source]⟩

/-! ## Runs -/

/-- Parses and evaluates the expression; `stdout` and `records` are what came before. -/
def evaluate (options : Options) (filter : LogFilter) (source stdout : String)
    (records : List Record) : Transcript :=
  match (scope options).parse source with
  | (.error e, parsing) => failed filter (records ++ parsing) stdout source e
  | (.ok tree, parsing) =>
    let announced : Record := ⟨.debug, .commandLine, s!"evaluating {tree.text}"⟩
    let (value, warnings, _) := tree.run functions.2.dispatch .initial
    ⟨0, stdout ++ valueText options source tree value,
      recordText filter (records ++ parsing ++ announced :: warnings)⟩

/-- Runs the program on an expression. -/
def run (options : Options) (filter : LogFilter) (source : String) : Transcript :=
  if options.showTokens then
    let scanned := scan source
    match scanned.result with
    | .error e => failed filter scanned.records "" source (.scan e)
    | .ok tokens =>
      evaluate options filter source (unlines (tokens.map Token.display)) scanned.records
  else evaluate options filter source "" []

/-- The expression in the input, which ends before the line ends at its end. -/
def inputExpression (input : ByteArray) : Option String :=
  (String.fromUTF8? input).map fun text =>
    String.ofList (dropTrailing (fun c => c == '\n' || c == '\r') text.toList)

/-- The expression that is evaluated: the one among the options or else the one in the input. -/
def expression? (options : Options) (input : ByteArray) : Option String :=
  match options.expression with
  | some source => some source
  | none => inputExpression input

def runWith (options : Options) (logSpec : Option String) (input : ByteArray) : Transcript :=
  let (filter, warnings) := LogFilter.choose logSpec options.verbosity
  let outcome := match expression? options input with
    | some source => run options filter source
    | none => ⟨2, "", "error: stream did not contain valid UTF-8\n"⟩
  { outcome with stderr := unlines warnings ++ outcome.stderr }

/-- Runs the program: `logSpec` is the text in the environment that says which records are shown. -/
def respond (arguments : List String) (logSpec : Option String) (input : ByteArray) : Transcript :=
  match Options.ofArguments arguments with
  | .error halt => halted halt
  | .ok options => runWith options logSpec input

end Program

end Arith
