/-
# Which records are shown

A filter is a list of rules.  A rule admits records up to a level, either
all of them or those of which the channel starts with some text.  For each
record the rule with the longest such text decides, and a record that no
rule is about is not shown.

A filter is written as rules with commas between them, `info` or
`channel=info` each, and may end in a slash and a pattern that has to occur
in every shown message.  What cannot be read is left out and warned of, so
there is a filter for every text (`LogFilter.read`).

The text comes from the environment.  Asking for more detail on the command
line changes the filter in one place only: the bound for records that no
rule with a channel is about (`LogFilter.choose`).
-/
import Arith.Log
import Arith.Pattern.Meaning
import Arith.Text.Character

namespace Arith

/-! ## Rules -/

/-- The names of the channels on which the parts of the program make their records. -/
def Origin.channel : Origin → String
  | .scanner => "mev_lexer::lexer"
  | .parser => "mev_parser::parser"
  | .parserErrors => "mev_parser::parser::error"
  | .evaluation => "mev_ast::eval"
  | .functionTable => "mev_env::env"
  | .builtins => "mev_env::builtins"
  | .commandLine => "mev"

/-- A bound on the level of the shown records; none shows nothing. -/
abbrev Threshold := Option Level

/-- The bound with a name, in any mixture of cases. -/
def Threshold.named? (cs : List Char) : Option Threshold :=
  match String.ofList (cs.map Char.toLower) with
  | "off" => some none
  | "error" => some (some .error)
  | "warn" => some (some .warn)
  | "info" => some (some .info)
  | "debug" => some (some .debug)
  | "trace" => some (some .trace)
  | _ => none

/-- Which records a rule is about, and up to which level it shows them. -/
structure FilterRule where
  /-- What the channel starts with, or none for a rule about all records. -/
  channel : Option (List Char)
  threshold : Threshold

namespace FilterRule

def weight (r : FilterRule) : Nat :=
  match r.channel with
  | none => 0
  | some cs => (String.ofList cs).utf8ByteSize

def covers (r : FilterRule) (channel : List Char) : Bool :=
  match r.channel with
  | none => true
  | some cs => cs.isPrefixOf channel

def admits (r : FilterRule) (level : Level) : Bool :=
  match r.threshold with
  | none => false
  | some bound => level.detail ≤ bound.detail

end FilterRule

/-! ## Filters -/

structure LogFilter where
  rules : List FilterRule
  /-- What has to occur in a message. -/
  required : Option Pattern

namespace LogFilter

def empty : LogFilter := ⟨[], none⟩

/-- Adds a rule, in the place of the one that is about the same records if there is one. -/
def insert (f : LogFilter) (rule : FilterRule) : LogFilter :=
  if f.rules.any (·.channel == rule.channel) then
    { f with rules := f.rules.map fun r => if r.channel == rule.channel then rule else r }
  else { f with rules := f.rules ++ [rule] }

/-- The rule that decides about a channel: of the rules about it the last of those with the longest
start. -/
def deciding? (f : LogFilter) (channel : List Char) : Option FilterRule :=
  (f.rules.filter (·.covers channel)).foldl
    (fun best r =>
      match best with
      | none => some r
      | some b => if b.weight ≤ r.weight then some r else some b)
    none

/-- Whether a record is shown.  Without any rule errors are shown. -/
def shows (f : LogFilter) (r : Record) : Bool :=
  let admitted :=
    if f.rules.isEmpty then r.level == .error
    else (f.deciding? r.origin.channel.toList).any (·.admits r.level)
  admitted && f.required.all (·.occursIn r.message.toList)

/-- Reads one rule; an error carries the text that cannot be read. -/
def readRule (cs : List Char) : Except (List Char) FilterRule :=
  match splitAtEach '=' cs with
  | [single] =>
    match Threshold.named? single with
    | some threshold => .ok ⟨none, threshold⟩
    | none => .ok ⟨some single, some .trace⟩
  | [channel, level] =>
    let level := trimBlanks level
    if level.isEmpty then .ok ⟨some channel, some .trace⟩
    else
      match Threshold.named? level with
      | some threshold => .ok ⟨some channel, threshold⟩
      | none => .error level
  | _ => .error cs

/-- A warning about a part of a filter that cannot be read. -/
def ignored (cs : List Char) (reason : String) : String :=
  s!"warning: invalid logging spec '{String.ofList cs}'{reason}, ignoring it"

/-- Reads rules with commas between them, together with warnings about those that cannot be read. -/
def readRules (f : LogFilter) : List (List Char) → LogFilter × List String
  | [] => (f, [])
  | part :: parts =>
    let part := trimBlanks part
    if part.isEmpty then readRules f parts
    else
      match readRule part with
      | .ok rule => readRules (f.insert rule) parts
      | .error bad =>
        let (f, warnings) := readRules f parts
        (f, ignored bad "" :: warnings)

/-- Reads the pattern that has to occur in messages, together with a warning if it cannot be
read. -/
def readRequired (cs : List Char) : Option Pattern × List String :=
  match Pattern.ofText cs with
  | .ok p => (some p, [])
  | .error e => (none, [s!"warning: invalid regex filter - {e.message cs}, ignoring it"])

/-- Reads a filter, together with warnings about what cannot be read. -/
def read (text : String) : LogFilter × List String :=
  match splitAtEach '/' text.toList with
  | [rules] => empty.readRules (splitAtEach ',' rules)
  | [rules, pattern] =>
    let (f, warnings) := empty.readRules (splitAtEach ',' rules)
    let (required, complaints) := readRequired pattern
    ({ f with required }, warnings ++ complaints)
  | _ => (empty, [ignored text.toList " (too many '/'s)"])

/-- The bound for records that no other rule is about, by how often more detail was asked for. -/
def ofVerbosity : Nat → Threshold
  | 0 => some .warn
  | 1 => some .info
  | 2 => some .debug
  | _ => some .trace

/-- The filter that a text from the environment and the command line ask for: warnings and errors,
unless the text says otherwise; if more detail was asked for, that decides about all records that
no rule with a channel is about. -/
def choose (spec : Option String) (verbosity : Nat) : LogFilter × List String :=
  let (f, warnings) := read (spec.getD "warn")
  (if verbosity == 0 then f else f.insert ⟨none, ofVerbosity verbosity⟩, warnings)

end LogFilter

end Arith
