import Arith.Command.Filter
import Arith.Command.Options
import Arith.Command.Program
import Arith.Evaluator
import Arith.Expr
import Arith.Expr.Eval
import Arith.Expr.Printer
import Arith.Host
import Arith.Host.Catalog
import Arith.Json
import Arith.Log
import Arith.Main
import Arith.Number.Binary64
import Arith.Number.Layout
import Arith.Number.Literal
import Arith.Parse
import Arith.Parse.Journal
import Arith.Parse.State
import Arith.Pattern
import Arith.Pattern.Brackets
import Arith.Pattern.CharSet
import Arith.Pattern.Escape
import Arith.Pattern.Fault
import Arith.Pattern.Form
import Arith.Pattern.Group
import Arith.Pattern.Meaning
import Arith.Pattern.Reading
import Arith.Pattern.Room
import Arith.Proofs.Command.Arguments
import Arith.Proofs.Command.Input
import Arith.Proofs.Command.Names
import Arith.Proofs.Command.Output
import Arith.Proofs.Expr.Nodes
import Arith.Proofs.Expr.Same
import Arith.Proofs.Expr.Visits
import Arith.Proofs.Grammar.Complete
import Arith.Proofs.Grammar.Exact
import Arith.Proofs.Grammar.Grouping
import Arith.Proofs.Grammar.Lookups
import Arith.Proofs.Grammar.Phrase
import Arith.Proofs.Grammar.Respelling
import Arith.Proofs.Grammar.Rewriting
import Arith.Proofs.Grammar.Sound
import Arith.Proofs.Grammar.Takes
import Arith.Proofs.Grammar.Unambiguous
import Arith.Proofs.Grammar.Unresolved
import Arith.Proofs.Json.Grammar
import Arith.Proofs.Json.Trees
import Arith.Proofs.Json.Writing
import Arith.Proofs.Number.Bits
import Arith.Proofs.Number.Numerals
import Arith.Proofs.Number.Reading
import Arith.Proofs.Number.Remainder
import Arith.Proofs.Number.Rounding
import Arith.Proofs.Parse.Agreement
import Arith.Proofs.Parse.Bindings
import Arith.Proofs.Parse.Budget
import Arith.Proofs.Parse.Built
import Arith.Proofs.Parse.Depth
import Arith.Proofs.Parse.FirstError
import Arith.Proofs.Parse.Located
import Arith.Proofs.Parse.Machine
import Arith.Proofs.Parse.Malformed
import Arith.Proofs.Parse.Mentions
import Arith.Proofs.Parse.Notes
import Arith.Proofs.Parse.Outcome
import Arith.Proofs.Parse.Places
import Arith.Proofs.Parse.Pointing
import Arith.Proofs.Parse.Prefix
import Arith.Proofs.Parse.Progress
import Arith.Proofs.Parse.Reads
import Arith.Proofs.Parse.Silent
import Arith.Proofs.Parse.Transport
import Arith.Proofs.Print.Leaves
import Arith.Proofs.Print.Reparse
import Arith.Proofs.Print.Spelling
import Arith.Proofs.Print.Words
import Arith.Proofs.Session.Answers
import Arith.Proofs.Session.Copies
import Arith.Proofs.Session.Identity
import Arith.Proofs.Session.Lineage
import Arith.Proofs.Session.Writes
import Arith.Proofs.Text.Boundary
import Arith.Proofs.Text.Excerpt
import Arith.Proofs.Text.Trimming
import Arith.Proofs.Text.Underline
import Arith.Proofs.Token.Alphabet
import Arith.Proofs.Token.Lexeme
import Arith.Proofs.Token.Patching
import Arith.Proofs.Token.Spacing
import Arith.Proofs.Token.Tiling
import Arith.Session
import Arith.Table
import Arith.Text.Alphabet
import Arith.Text.Character
import Arith.Text.Control
import Arith.Text.Quoted
import Arith.Text.Span
import Arith.Token
import Arith.Token.Scan
