/-
# How a part of an expression is read, as rules

`Reads scope part s yield next`: reading `part` from the state `s` on yields
`yield` and ends in `next`.  There is one rule for each way through a reader
of the grammar, with the conditions of that way as premises; the rules of an
operand, a chain, a climb and the arguments of a call are one relation, so
that what holds of every reading is proved by one induction.

    operand    tooDeep | operand
    primary    tooLarge | number | negation | emptyParentheses | group
               | braced | variableName | call | missingParenthesis
               | unexpectedEnd | unexpectedToken
    chain      noChain | chain
    climb      climbStop | climbTooLarge | climbNoOperand | climb
    tighten    tightenStop | tightenTighter | tightenTooDeep | tightenSame
    arguments  argumentsEnd | comma | argument | failedArgument | skippedArgument

The readers follow the rules (`yields`): whatever they return is read by
some rule.

Each rule is named for the way it stands for.  The states it speaks of are
made by the small steps of `Arith.Parse.State`, so that a fact about all
readings is, rule by rule, a fact about these steps.  `rightLevel` is the
least precedence that an operator leaves to its right operand; with it the
two loops over operators, the one that folds them and the one that extends a
right operand, are `climb` and `tighten`.

The rules do not say which of them applies: two rules for the same part
exclude each other by their premises, and that the readings are unique
follows from the machine (`Arith.Proofs.Parse.Machine`).
-/
import Arith.Proofs.Parse.Outcome

namespace Arith.Parse

open ParseState

/-- A part of an expression that is read, with what has been read of it before. -/
inductive Part where
  | operand
  | primary
  | chain
  | climb (least : Nat) (left : Expr)
  | tighten (op : Operator) (right : Expr)
  | arguments

/-- What comes out of reading a part. -/
def Part.Yield : Part → Type
  | .operand | .primary | .chain => Option Expr
  | .climb _ _ | .tighten _ _ => Expr
  | .arguments => Option (List Expr)

/-- How many nodes are claimed before an operand that starts with such a token is read. -/
def claimOf? : TokenKind → Option Nat
  | .number | .variableName | .functionName => some 1
  | .sub => some 2
  | _ => none

/-- `op` lets its right operand take operators of at least this precedence. -/
def rightLevel (op : Operator) : Nat :=
  if op.isRightAssociative then op.precedence else op.precedence + 1

/-- Reading a part from a state on yields something and ends in a state. -/
inductive Reads (scope : Scope) : (part : Part) → ParseState → part.Yield → ParseState → Prop where
  | tooDeep {s : ParseState} (deep : s.tooDeep) : Reads scope .operand s none s.faultTooDeep
  | operand {s next : ParseState} {tree : Option Expr} (deep : ¬ s.tooDeep)
      (body : Reads scope .primary s.enter tree next) : Reads scope .operand s tree next.leave
  | tooLarge {s : ParseState} {count : Nat} (claims : claimOf? s.kind = some count)
      (large : s.tooLarge count) : Reads scope .primary s none s.faultTooLarge
  | number {s : ParseState} (kind : s.kind = .number) (large : ¬ s.tooLarge 1) :
      Reads scope .primary s (some (s.claim 1).readNumber.1) (s.claim 1).readNumber.2
  | negation {s next : ParseState} {tree : Option Expr} (kind : s.kind = .sub)
      (large : ¬ s.tooLarge 2) (body : Reads scope .operand (s.claim 2).advance tree next) :
      Reads scope .primary s (tree.map .negate) next
  | emptyParentheses {s : ParseState} (kind : s.kind = .leftParen)
      (closing : s.advance.kind = .rightParen) :
      Reads scope .primary s none (s.advance.closeEmptyParentheses s.current)
  | group {s next : ParseState} {tree : Option Expr} (kind : s.kind = .leftParen)
      (closing : s.advance.kind ≠ .rightParen) (body : Reads scope .chain s.advance tree next) :
      Reads scope .primary s (next.closeGroup tree).1 (next.closeGroup tree).2
  | braced {s : ParseState} (kind : s.kind = .leftBrace) :
      Reads scope .primary s (s.readBraced scope).1 (s.readBraced scope).2
  | variableName {s : ParseState} (kind : s.kind = .variableName) (large : ¬ s.tooLarge 1) :
      Reads scope .primary s (some ((s.claim 1).readVariable scope).1)
        ((s.claim 1).readVariable scope).2
  | call {s next : ParseState} {trees : Option (List Expr)} (kind : s.kind = .functionName)
      (large : ¬ s.tooLarge 1) (opening : (s.claim 1).advance.kind = .leftParen)
      (body : Reads scope .arguments (s.claim 1).advance.advance trees next) :
      Reads scope .primary s (next.closeCall scope s.current trees).1
        (next.closeCall scope s.current trees).2
  | missingParenthesis {s : ParseState} (kind : s.kind = .functionName) (large : ¬ s.tooLarge 1)
      (opening : (s.claim 1).advance.kind ≠ .leftParen) :
      Reads scope .primary s none ((s.claim 1).advance.fault
        (.missingCallParenthesis s.current.text (s.claim 1).advance.current.text))
  | unexpectedEnd {s : ParseState} (kind : s.kind = .eof) :
      Reads scope .primary s none (s.fault .unexpectedEnd)
  | unexpectedToken {s : ParseState} (claims : claimOf? s.kind = none) (paren : s.kind ≠ .leftParen)
      (brace : s.kind ≠ .leftBrace) (eof : s.kind ≠ .eof) :
      Reads scope .primary s none (s.fault (.unexpectedToken s.current.text))
  | noChain {s next : ParseState} (first : Reads scope .operand s none next) :
      Reads scope .chain s none next
  | chain {s next after : ParseState} {left tree : Expr}
      (first : Reads scope .operand s (some left) next)
      (more : Reads scope (.climb 1 left) next tree after) : Reads scope .chain s (some tree) after
  | climbStop {s : ParseState} {least : Nat} {left : Expr}
      (stop : ∀ op, s.operator? = some op → op.precedence < least) :
      Reads scope (.climb least left) s left s
  | climbTooLarge {s : ParseState} {least : Nat} {left : Expr} {op : Operator}
      (operator : s.operator? = some op) (tight : least ≤ op.precedence) (large : s.tooLarge 1) :
      Reads scope (.climb least left) s left s.faultTooLarge
  | climbNoOperand {s next : ParseState} {least : Nat} {left : Expr} {op : Operator}
      (operator : s.operator? = some op) (tight : least ≤ op.precedence) (large : ¬ s.tooLarge 1)
      (body : Reads scope .operand (s.claim 1).advance none next) :
      Reads scope (.climb least left) s left next
  | climb {s next after final : ParseState} {least : Nat} {left right tightened tree : Expr}
      {op : Operator} (operator : s.operator? = some op) (tight : least ≤ op.precedence)
      (large : ¬ s.tooLarge 1) (body : Reads scope .operand (s.claim 1).advance (some right) next)
      (tighter : Reads scope (.tighten op right) next tightened after)
      (more : Reads scope (.climb least (.binary op left tightened)) after tree final) :
      Reads scope (.climb least left) s tree final
  | tightenStop {s : ParseState} {op : Operator} {right : Expr}
      (stop : ∀ next, s.operator? = some next → next.precedence < rightLevel op) :
      Reads scope (.tighten op right) s right s
  | tightenTighter {s after : ParseState} {op next : Operator} {right tree : Expr}
      (operator : s.operator? = some next) (tight : op.precedence < next.precedence)
      (more : Reads scope (.climb (op.precedence + 1) right) s tree after) :
      Reads scope (.tighten op right) s tree after
  | tightenTooDeep {s : ParseState} {op next : Operator} {right : Expr}
      (operator : s.operator? = some next) (same : next.precedence = op.precedence)
      (rightward : op.isRightAssociative) (deep : s.tooDeep) :
      Reads scope (.tighten op right) s right s.faultTooDeep
  | tightenSame {s after : ParseState} {op next : Operator} {right tree : Expr}
      (operator : s.operator? = some next) (same : next.precedence = op.precedence)
      (rightward : op.isRightAssociative) (deep : ¬ s.tooDeep)
      (more : Reads scope (.climb op.precedence right) s.enter tree after) :
      Reads scope (.tighten op right) s tree after.leave
  | argumentsEnd {s : ParseState} (closing : s.kind = .rightParen ∨ s.kind = .eof) :
      Reads scope .arguments s (some []) s
  | comma {s next : ParseState} {trees : Option (List Expr)} (kind : s.kind = .comma)
      (more : Reads scope .arguments s.advance trees next) : Reads scope .arguments s trees next
  | argument {s next after : ParseState} {tree : Expr} {trees : Option (List Expr)}
      (closing : ¬ (s.kind = .rightParen ∨ s.kind = .eof)) (comma : s.kind ≠ .comma)
      (first : Reads scope .chain s (some tree) next)
      (more : Reads scope .arguments next trees after) :
      Reads scope .arguments s (trees.map (tree :: ·)) after
  | failedArgument {s next after : ParseState} {trees : Option (List Expr)}
      (closing : ¬ (s.kind = .rightParen ∨ s.kind = .eof)) (comma : s.kind ≠ .comma)
      (first : Reads scope .chain s none next) (moved : s.position < next.position)
      (more : Reads scope .arguments next trees after) : Reads scope .arguments s none after
  | skippedArgument {s next after : ParseState} {trees : Option (List Expr)}
      (closing : ¬ (s.kind = .rightParen ∨ s.kind = .eof)) (comma : s.kind ≠ .comma)
      (first : Reads scope .chain s none next) (moved : ¬ s.position < next.position)
      (more : Reads scope .arguments next.advance trees after) : Reads scope .arguments s none after

/-- The same with what is yielded and the state behind it as a pair. -/
def Yields (scope : Scope) (part : Part) (s : ParseState) (r : part.Yield × ParseState) : Prop :=
  Reads scope part s r.1 r.2

/-! ## The readers follow the rules

By induction along the recursion of the readers, one case for each way through one of them. -/

theorem yields (scope : Scope) :
    (∀ s, Yields scope .operand s (operand scope s).outcome) ∧
      (∀ s, Yields scope .primary s (primary scope s).outcome) ∧
      (∀ s, Yields scope .arguments s (arguments scope s).outcome) ∧
      (∀ s, Yields scope .chain s (chain scope s).outcome) ∧
      (∀ least left s, Yields scope (.climb least left) s (climb scope least left s).outcome) ∧
      (∀ op right s, Yields scope (.tighten op right) s (tighten scope op right s).outcome) := by
  refine operand.mutual_induct scope (fun s => Yields scope .operand s (operand scope s).outcome)
    (fun s => Yields scope .primary s (primary scope s).outcome)
    (fun s => Yields scope .arguments s (arguments scope s).outcome)
    (fun s => Yields scope .chain s (chain scope s).outcome)
    (fun least left s => Yields scope (.climb least left) s (climb scope least left s).outcome)
    (fun op right s => Yields scope (.tighten op right) s (tighten scope op right s).outcome)
    ?tooDeep ?operand ?numberTooLarge ?number ?negationTooLarge ?negation ?emptyParentheses ?group
    ?braced ?variableTooLarge ?variableName ?callTooLarge ?call ?missingParenthesis ?unexpectedEnd
    ?unexpectedToken ?argumentsEnd ?comma ?argument ?failedArgument ?skippedArgument ?noChain ?chain
    ?climbNoOperator ?climbLooser ?climbTooLarge ?climbNoOperand ?climb ?tightenNoOperator
    ?tightenTighter ?tightenTooDeep ?tightenSame ?tightenLooser
  case tooDeep =>
    intro s deep
    rw [outcome_operand, if_pos deep]
    exact .tooDeep deep
  case operand =>
    intro s deep _ _ _ _ _ _ body
    rw [outcome_operand, if_neg deep]
    exact .operand deep body
  case numberTooLarge | negationTooLarge | variableTooLarge | callTooLarge =>
    intro s kind _ large
    simp only [outcome_primary, kind, if_pos large]
    exact .tooLarge (by rw [kind]; rfl) large
  case number =>
    intro s kind _ large
    simp only [outcome_primary, kind, if_neg large]
    exact .number kind large
  case negation =>
    intro s kind _ large _ _ _ _ _ _ body
    simp only [outcome_primary, kind, if_neg large]
    exact .negation kind large body
  case emptyParentheses =>
    intro s kind _ closing
    simp only [outcome_primary, kind, if_pos closing]
    exact .emptyParentheses kind closing
  case group =>
    intro s kind _ closing _ _ _ _ _ _ body
    simp only [outcome_primary, kind, if_neg closing]
    exact .group kind closing body
  case braced =>
    intro s kind _
    simp only [outcome_primary, kind]
    exact .braced kind
  case variableName =>
    intro s kind _ large
    simp only [outcome_primary, kind, if_neg large]
    exact .variableName kind large
  case call =>
    intro s kind _ large _ opening _ _ _ _ _ body
    simp only [outcome_primary, kind, if_neg large]
    rw [if_pos opening]
    exact .call kind large opening body
  case missingParenthesis =>
    intro s kind _ large _ opening
    simp only [outcome_primary, kind, if_neg large]
    rw [if_neg opening]
    exact .missingParenthesis kind large opening
  case unexpectedEnd =>
    intro s kind
    simp only [outcome_primary, kind]
    exact .unexpectedEnd kind
  case unexpectedToken =>
    intro s number sub paren brace word function eof
    simp only [outcome_primary]
    -- No other kind of token claims a node: the cases that do have been excluded one by one.
    refine .unexpectedToken ?_ paren brace eof
    unfold claimOf?
    split <;> first | contradiction | rfl
  case argumentsEnd =>
    intro s closing
    rw [outcome_arguments, if_pos closing]
    exact .argumentsEnd closing
  case comma =>
    intro s closing _ kind _ _ _ _ _ more
    rw [outcome_arguments, if_neg closing, if_pos kind]
    exact .comma kind more
  -- The induction gives a call as the record that it returns, `e`; the equations speak of pairs.
  case argument =>
    intro s closing _ comma tree next _ _ _ e _ _ _ _ _ _ first more
    have o : (chain scope s).outcome = (some tree, next) := by rw [e]; rfl
    rw [o] at first
    rw [outcome_arguments, if_neg closing, if_neg comma, o]
    exact .argument closing comma first more
  case failedArgument =>
    intro s closing _ comma next _ _ _ e moved _ _ _ _ _ _ first more
    have o : (chain scope s).outcome = (none, next) := by rw [e]; rfl
    rw [o] at first
    rw [outcome_arguments, if_neg closing, if_neg comma, o]
    simp only [if_pos moved]
    exact .failedArgument closing comma first moved more
  case skippedArgument =>
    intro s closing _ comma next _ _ _ e moved _ _ _ _ _ first more
    have o : (chain scope s).outcome = (none, next) := by rw [e]; rfl
    rw [o] at first
    rw [outcome_arguments, if_neg closing, if_neg comma, o]
    simp only [if_neg moved]
    exact .skippedArgument closing comma first moved more
  case noChain =>
    intro s next _ _ _ e first
    have o : (operand scope s).outcome = (none, next) := by rw [e]; rfl
    rw [o] at first
    rw [outcome_chain, o]
    exact .noChain first
  case chain =>
    intro s left next _ _ _ e _ _ _ _ _ _ first more
    have o : (operand scope s).outcome = (some left, next) := by rw [e]; rfl
    rw [o] at first
    rw [outcome_chain, o]
    exact .chain first more
  case climbNoOperator =>
    intro least left s operator
    rw [outcome_climb, operator]
    exact .climbStop fun _ h => absurd (operator.symm.trans h) (by simp)
  case climbLooser =>
    intro least left s op operator loose
    rw [outcome_climb]
    simp only [operator, if_pos loose]
    refine .climbStop fun op' h => ?_
    rw [operator] at h
    exact Option.some.inj h ▸ loose
  case climbTooLarge =>
    intro least left s op operator tight large
    rw [outcome_climb]
    simp only [operator, if_neg tight, if_pos large]
    exact .climbTooLarge operator (Nat.le_of_not_lt tight) large
  case climbNoOperand =>
    intro least left s op operator tight large _ next _ _ _ e body
    have o : (operand scope (s.claim 1).advance).outcome = (none, next) := by rw [e]; rfl
    rw [o] at body
    rw [outcome_climb]
    simp only [operator, if_neg tight, if_neg large, o]
    exact .climbNoOperand operator (Nat.le_of_not_lt tight) large body
  case climb =>
    intro least left s op operator tight large _ right next _ _ _ e _ tightened after _ _ e' _ _ _ _
      _ _ body tighter more
    have o : (operand scope (s.claim 1).advance).outcome = (some right, next) := by rw [e]; rfl
    have o' : (tighten scope op right next).outcome = (tightened, after) := by rw [e']; rfl
    rw [o] at body
    rw [o'] at tighter
    rw [outcome_climb]
    simp only [operator, if_neg tight, if_neg large, o]
    rw [o']
    exact .climb operator (Nat.le_of_not_lt tight) large body tighter more
  case tightenNoOperator =>
    intro op right s operator
    rw [outcome_tighten, operator]
    exact .tightenStop fun _ h => absurd (operator.symm.trans h) (by simp)
  case tightenTighter =>
    intro op right s next operator tight more
    simp only [outcome_tighten, operator, if_pos tight]
    exact .tightenTighter operator tight more
  case tightenTooDeep =>
    intro op right s next operator tight same deep
    simp only [outcome_tighten, operator, if_neg tight, if_pos same, if_pos deep]
    exact .tightenTooDeep operator same.1 same.2 deep
  case tightenSame =>
    intro op right s next operator tight same deep _ _ _ _ _ more
    simp only [outcome_tighten, operator, if_neg tight, if_pos same, if_neg deep]
    exact .tightenSame operator same.1 same.2 deep more
  case tightenLooser =>
    intro op right s next operator tight same
    simp only [outcome_tighten, operator, if_neg tight, if_neg same]
    refine .tightenStop fun next' h => ?_
    rw [operator] at h
    cases h
    unfold rightLevel
    split
    · exact Nat.lt_of_le_of_ne (Nat.le_of_not_lt tight) fun e => same ⟨e, ‹_›⟩
    · omega

end Arith.Parse
