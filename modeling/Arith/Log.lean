/-
# Records of the work

What the program tells about its work while it does it: records with a
level, the part of the program that made them, and a message.  A record is a
value like any other.  A function that tells something returns its records
together with its result, in the order in which they are made, so nothing
that is shown depends on when it is written.

Whether a record is shown is decided by whoever reads it.  The command line
does it by origin, level and message (`Arith.Command.Filter`); where only the
level counts it is enough to compare details (`Record.within`).
-/
namespace Arith

/-- How much a record matters, from the most to the least. -/
inductive Level where
  | error
  | warn
  | info
  | debug
  | trace
deriving DecidableEq, Inhabited

namespace Level

/-- The place of a level in the order of growing detail. -/
def detail : Level → Nat
  | .error => 1
  | .warn => 2
  | .info => 3
  | .debug => 4
  | .trace => 5

def label : Level → String
  | .error => "ERROR"
  | .warn => "WARN"
  | .info => "INFO"
  | .debug => "DEBUG"
  | .trace => "TRACE"

end Level

/-- The parts of the program that make records. -/
inductive Origin where
  | scanner
  | parser
  | parserErrors
  | evaluation
  | functionTable
  | builtins
  | commandLine
deriving DecidableEq

structure Record where
  level : Level
  origin : Origin
  message : String

namespace Record

/-- Whether the record is at least as severe as `level`. -/
def within (r : Record) (level : Level) : Bool := r.level.detail ≤ level.detail

/-- The record as its level and its message. -/
def text (r : Record) : String := s!"{r.level.label} {r.message}"

end Record

end Arith
