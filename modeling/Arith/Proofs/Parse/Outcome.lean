/-
# What each reader of the grammar returns

The readers of `Arith.Parse` return their answer together with the facts by
which the recursion ends: that no token is given back, and that a chain or
an operand that was read takes at least one.  They are needed where the
readers are defined, and nowhere else.

Here the answer stands alone, a tree and a state, and each reader gets one
equation between plain pairs.  The right hand sides say what the readers do,
branch by branch, in terms of the small steps of `Arith.Parse.State` and of
the outcomes of the readers that are called.  What is proved about readings
starts from these six equations (`Arith.Proofs.Parse.Reads`) and does not
unfold a reader again.
-/
import Arith.Parse

namespace Arith

/-- The tree of a reading and the state behind it. -/
def Reading.outcome {s : ParseState} (r : Reading s) : Option Expr × ParseState := (r.tree, r.next)

def Extension.outcome {s : ParseState} (r : Extension s) : Expr × ParseState := (r.tree, r.next)

def ArgumentsReading.outcome {s : ParseState} (r : ArgumentsReading s) :
    Option (List Expr) × ParseState :=
  (r.trees, r.next)

namespace Parse

open ParseState

theorem outcome_operand (scope : Scope) (s : ParseState) :
    (operand scope s).outcome =
      if s.tooDeep then (none, s.faultTooDeep)
      else
        let r := (primary scope s.enter).outcome
        (r.1, r.2.leave) := by
  rw [operand]
  split <;> rfl

theorem outcome_primary (scope : Scope) (s : ParseState) :
    (primary scope s).outcome =
      match s.kind with
      | .number => if s.tooLarge 1 then (none, s.faultTooLarge)
          else
            let r := (s.claim 1).readNumber
            (some r.1, r.2)
      | .sub => if s.tooLarge 2 then (none, s.faultTooLarge)
          else
            let r := (operand scope (s.claim 2).advance).outcome
            (r.1.map .negate, r.2)
      | .leftParen => if s.advance.kind = .rightParen then
            (none, s.advance.closeEmptyParentheses s.current)
          else
            let r := (chain scope s.advance).outcome
            r.2.closeGroup r.1
      | .leftBrace => s.readBraced scope
      | .variableName => if s.tooLarge 1 then (none, s.faultTooLarge)
          else
            let r := (s.claim 1).readVariable scope
            (some r.1, r.2)
      | .functionName => if s.tooLarge 1 then (none, s.faultTooLarge)
          else
            let opening := (s.claim 1).advance
            if opening.kind = .leftParen then
              let r := (arguments scope opening.advance).outcome
              r.2.closeCall scope s.current r.1
            else
              (none, opening.fault (.missingCallParenthesis s.current.text opening.current.text))
      | .eof => (none, s.fault .unexpectedEnd)
      | _ => (none, s.fault (.unexpectedToken s.current.text)) := by
  rw [primary]
  split <;> rename_i kind <;> simp only [kind]
  case h_1 | h_2 | h_3 | h_5 => split <;> rfl
  case h_4 | h_7 | h_8 => rfl
  case h_6 =>
    split
    · rfl
    · split <;> rfl

theorem outcome_chain (scope : Scope) (s : ParseState) :
    (chain scope s).outcome =
      match (operand scope s).outcome with
      | (none, next) => (none, next)
      | (some left, next) =>
        let r := (climb scope 1 left next).outcome
        (some r.1, r.2) := by
  rw [chain]
  split <;> rename_i e <;> simp only [Reading.outcome, e] <;> rfl

theorem outcome_climb (scope : Scope) (least : Nat) (left : Expr) (s : ParseState) :
    (climb scope least left s).outcome =
      match s.operator? with
      | none => (left, s)
      | some op =>
        if op.precedence < least then (left, s)
        else if s.tooLarge 1 then (left, s.faultTooLarge)
        else
          match (operand scope (s.claim 1).advance).outcome with
          | (none, next) => (left, next)
          | (some right, next) =>
            let r := (tighten scope op right next).outcome
            (climb scope least (.binary op left r.1) r.2).outcome := by
  rw [climb]
  split <;> rename_i operator <;> simp only [operator]
  · rfl
  · split
    · rfl
    · split
      · rfl
      · split <;> rename_i e <;> simp only [Reading.outcome, e] <;> rfl

theorem outcome_tighten (scope : Scope) (op : Operator) (right : Expr) (s : ParseState) :
    (tighten scope op right s).outcome =
      match s.operator? with
      | none => (right, s)
      | some next =>
        if op.precedence < next.precedence then (climb scope (op.precedence + 1) right s).outcome
        else if next.precedence = op.precedence ∧ op.isRightAssociative then
          if s.tooDeep then (right, s.faultTooDeep)
          else
            let r := (climb scope op.precedence right s.enter).outcome
            (r.1, r.2.leave)
        else (right, s) := by
  rw [tighten]
  cases s.operator? with
  | none => rfl
  | some next =>
    dsimp only
    split
    · rfl
    · split
      · split <;> rfl
      · rfl

theorem outcome_arguments (scope : Scope) (s : ParseState) :
    (arguments scope s).outcome =
      if s.kind = .rightParen ∨ s.kind = .eof then (some [], s)
      else if s.kind = .comma then (arguments scope s.advance).outcome
      else
        match (chain scope s).outcome with
        | (some tree, next) =>
          let r := (arguments scope next).outcome
          (r.1.map (tree :: ·), r.2)
        | (none, next) =>
          if s.position < next.position then (none, (arguments scope next).outcome.2)
          else (none, (arguments scope next.advance).outcome.2) := by
  rw [arguments]
  split
  · rfl
  · split
    · rfl
    · split <;> rename_i e <;> simp only [Reading.outcome, e]
      · rfl
      · split <;> rfl

end Parse

end Arith
