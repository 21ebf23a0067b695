/-
# What is read without an error is a phrase

`Phrased scope s next part yield`: between `s` and `next` stands a phrase of
which `yield` is the tree, with all its names known and within the limits.
Behind an operand anything may follow, but a climb goes on as long as an
operator binds tightly enough, and this decides which operators belong to a
phrase.

For a climb the phrase is a tail, and its tree is said relative to the tree
on the left: it is what grouping makes of that tree and the operands of the
tail.  The step that folds an operator is then an equation about groupings
(`phrased_climb`), and no statement about the climb mentions the operators
that were read before it.

**Proved here.** A reading that notes no error has covered a phrase
(`phrased_of_reads`).  The proof is by induction on the rules; the rules
that note an error are ruled out since no error is ever taken back.
-/
import Arith.Proofs.Grammar.Takes

namespace Arith

namespace Grammar

open Parse ParseState Grouping

/-- What has been read from `s` to `next` is a phrase, and `yield` is its tree. -/
def Phrased (scope : Scope) (s next : ParseState) : (part : Part) → part.Yield → Prop
  | .operand, tree => ∃ x : Operand, tree = some (x.tree scope) ∧ x.Separated ∧
      Covers scope s x.tokens x.size x.nesting next
  | .primary, tree => ∃ x : Operand, tree = some (x.tree scope) ∧ x.Separated ∧
      ∃ inside, x.nesting = inside + 1 ∧ Covers scope s x.tokens x.size inside next
  | .chain, tree => ∃ c : Chain, tree = some (c.tree scope) ∧ c.Separated ∧
      Covers scope s c.tokens c.size c.nesting next ∧ next.operator? = none
  | .climb least left, tree => ∃ m : Tail, tree = group left (m.operands scope) ∧ m.Separated ∧
      Covers scope s m.tokens m.size (m.nesting 0) next ∧
      (∀ p ∈ m.operands scope, least ≤ p.1.precedence) ∧ Stops least next.cursor.rest
  | .tighten op right, tree => ∃ m : Tail, tree = group right (m.operands scope) ∧ m.Separated ∧
      Covers scope s m.tokens m.size (m.nesting (runBehind op)) next ∧
      (∀ p ∈ m.operands scope, rightLevel op ≤ p.1.precedence) ∧
        Stops (rightLevel op) next.cursor.rest
  | .arguments, trees => ∃ a : Arguments, trees = some (a.trees scope) ∧
      Covers scope s a.tokens a.size a.nesting next ∧
      ∀ behind : Bool, (behind → s.operator? = none) → a.Separated behind

variable {scope : Scope} {s : ParseState}

def currentOf (s : ParseState) {kind : TokenKind} (h : s.kind = kind) : TokenOf kind :=
  ⟨s.current, h⟩

def signOf (s : ParseState) {op : Operator} (h : s.operator? = some op) : Sign :=
  ⟨s.current, op, Operator.eq_kind_of_ofKind? h⟩

/-- What follows where no operator stands does not start with `-`. -/
theorem noMinus_of_rest {tokens rest : List Token} (h : s.cursor.rest = tokens ++ rest)
    (operator : s.operator? = none) : NoMinus tokens := by
  intro t ht sub
  obtain ⟨more, rfl⟩ := List.head?_eq_some_iff.mp ht
  have : s.kind = .sub := (congrArg Token.kind (current_of_rest h)).trans sub
  rw [operator?, this] at operator
  cases operator

theorem known_current_of_variable {value : Float}
    (h : scope.bindings.get? s.current.text = some value)
    (kind : s.kind = .variableName) : Known scope [s.current] := by
  intro t ht
  rw [List.mem_singleton.mp ht]
  refine ⟨fun _ => by rw [h]; rfl, fun e => ?_⟩
  exact absurd (e.symm.trans kind) (by decide)

theorem known_current_of_function {name : Token} {callee : Handle}
    (h : scope.functions.get? name.text = some callee) (kind : name.kind = .functionName) :
    Known scope [name] := by
  intro t ht
  rw [List.mem_singleton.mp ht]
  refine ⟨fun e => ?_, fun _ => by rw [h]; rfl⟩
  exact absurd (e.symm.trans kind) (by decide)

/-- The current token as a name that is read into a node. -/
theorem Covers.variableName {value : Float} (kind : s.kind = .variableName)
    (bound : scope.bindings.get? s.current.text = some value) :
    Covers scope (s.claim 1) [s.current] 0 0 (s.claim 1).advance :=
  .advance (remaining_pos (s := s.claim 1) (by rw [kind_claim, kind]; decide))
    (known_current_of_variable bound kind)

theorem Covers.functionName {callee : Handle} (kind : s.kind = .functionName)
    (found : scope.functions.get? s.current.text = some callee) :
    Covers scope (s.claim 1) [s.current] 0 0 (s.claim 1).advance :=
  .advance (remaining_pos (s := s.claim 1) (by rw [kind_claim, kind]; decide))
    (known_current_of_function found kind)

/-! ## The rules that read a node -/

section

open Covers

variable {next after final : ParseState}

theorem phrased_number (kind : s.kind = .number) (large : ¬ s.tooLarge 1) :
    Phrased scope s (s.claim 1).readNumber.2 .primary (some (s.claim 1).readNumber.1) := by
  have taken : Takes (s.claim 1) [s.current] 0 (s.claim 1).readNumber.2 :=
    .readNumber (remaining_pos (s := s) (by rw [kind]; decide))
  refine ⟨.number (currentOf s kind), congrArg some (fst_readNumber _), trivial, 0, rfl, ?_⟩
  exact (claim large).trans ⟨taken, .zero _, known_of_kind kind (by decide)⟩

theorem phrased_negation {tree : Option Expr} (kind : s.kind = .sub) (large : ¬ s.tooLarge 2)
    (body : Phrased scope (s.claim 2).advance next .operand tree) :
    Phrased scope s next .primary (tree.map .negate) := by
  obtain ⟨x, rfl, separated, covers⟩ := body
  refine ⟨.negation (currentOf s kind) x, rfl, separated, x.nesting, Nat.add_comm _ _, ?_⟩
  have minus : Covers scope (s.claim 2) [s.current] 0 0 (s.claim 2).advance :=
    plain (s := s.claim 2) kind (by decide)
  exact ((claim large).trans (minus.trans covers)).congr rfl (by simp [Operand.size]) (by simp)

theorem phrased_group {tree : Option Expr} (kind : s.kind = .leftParen)
    (silent : (next.closeGroup tree).2.errors = [])
    (body : next.errors = [] → Phrased scope s.advance next .chain tree) :
    Phrased scope s (next.closeGroup tree).2 .primary (next.closeGroup tree).1 := by
  obtain ⟨closed, e⟩ := closeGroup_silent silent
  rw [e] at silent ⊢
  obtain ⟨c, rfl, separated, covers, -⟩ := body silent
  refine ⟨.group (currentOf s kind) c (currentOf next closed), rfl, separated, c.nesting,
    Nat.add_comm _ _, ?_⟩
  exact ((plain kind (by decide)).trans (covers.trans (plain closed (by decide)))).congr rfl
    (by simp [Operand.size]) (by simp)

theorem phrased_braced (kind : s.kind = .leftBrace) (silent : (s.readBraced scope).2.errors = []) :
    Phrased scope s (s.readBraced scope).2 .primary (s.readBraced scope).1 := by
  obtain ⟨kind', large, closed, value, bound, e⟩ := readBraced_silent silent
  rw [e]
  refine ⟨.braced (currentOf s kind) (currentOf s.advance kind') (currentOf _ closed), ?_, trivial,
    0, rfl, ?_⟩
  · exact congrArg some (variableOf_of_bound bound).symm
  · exact (plain kind (by decide)).trans
      ((claim large).trans ((Covers.variableName kind' bound).trans (plain closed (by decide))))

theorem phrased_variableName (kind : s.kind = .variableName) (large : ¬ s.tooLarge 1)
    (silent : ((s.claim 1).readVariable scope).2.errors = []) :
    Phrased scope s ((s.claim 1).readVariable scope).2 .primary
      (some ((s.claim 1).readVariable scope).1) := by
  obtain ⟨value, bound, e⟩ := readVariable_silent silent
  rw [e]
  refine ⟨.name (currentOf s kind), ?_, trivial, 0, rfl, ?_⟩
  · exact congrArg some (variableOf_of_bound bound).symm
  · exact (claim large).trans (Covers.variableName kind bound)

theorem phrased_call {trees : Option (List Expr)} (kind : s.kind = .functionName)
    (large : ¬ s.tooLarge 1) (opening : (s.claim 1).advance.kind = .leftParen)
    (silent : (next.closeCall scope s.current trees).2.errors = [])
    (body : next.errors = [] → Phrased scope (s.claim 1).advance.advance next .arguments trees) :
    Phrased scope s (next.closeCall scope s.current trees).2 .primary
      (next.closeCall scope s.current trees).1 := by
  obtain ⟨closed, callee, found, e⟩ := closeCall_silent silent
  rw [e] at silent ⊢
  obtain ⟨a, rfl, covers, separated⟩ := body silent
  have fresh : false = true → (s.claim 1).advance.advance.operator? = none := by rintro ⟨⟩
  refine ⟨.call (currentOf s kind) (currentOf _ opening) a (currentOf next closed), ?_,
    separated false fresh, a.nesting, Nat.add_comm _ _, ?_⟩
  · exact congrArg some (callOf_of_found _ found).symm
  · have inside := (plain opening (by decide)).trans (covers.trans (plain closed (by decide)))
    exact ((claim large).trans ((Covers.functionName kind found).trans inside)).congr rfl
      (by simp [Operand.size]) (by simp)

/-- An operator is put in front of what its right operand takes and of what the climb takes behind
it: together these are one tail. -/
theorem phrased_climb {least : Nat} {left right tightened tree : Expr} {op : Operator}
    (operator : s.operator? = some op) (tight : least ≤ op.precedence) (large : ¬ s.tooLarge 1)
    (body : Phrased scope (s.claim 1).advance next .operand (some right))
    (tighter : Phrased scope next after (.tighten op right) tightened)
    (more : Phrased scope after final (.climb least (.binary op left tightened)) tree) :
    Phrased scope s final (.climb least left) tree := by
  obtain ⟨x, e, separated, covers⟩ := body
  cases e
  obtain ⟨inner, rfl, separated₁, covers₁, above₁, stops₁⟩ := tighter
  obtain ⟨outer, rfl, separated₂, covers₂, above₂, stops₂⟩ := more
  have loose : ∀ p ∈ (outer.operands scope).head?, p.1.precedence < rightLevel op :=
    fun p hp => stops_rest.mp stops₁ _ (operator?_of_tail covers₂.rest p hp)
  refine ⟨.cons (signOf s operator) x (inner.append outer), ?_,
    ⟨separated, Tail.separated_append.mpr ⟨separated₁, separated₂⟩⟩, ?_, ?_, stops₂⟩
  · rw [Tail.operands, Tail.operands_append, signOf, group_cons_append op left _ above₁ loose]
  · have sign : Covers scope (s.claim 1) [s.current] 0 0 (s.claim 1).advance :=
      Covers.operator (s := s.claim 1) operator
    refine ((claim large).trans (sign.trans (covers.trans (covers₁.trans covers₂)))).congr ?_ ?_ ?_
    · rw [Tail.tokens, Tail.tokens_append]
      rfl
    · rw [Tail.size, Tail.size_append]
      omega
    · rw [Tail.nesting_cons_append x loose]
      simp [signOf]
  · intro p hp
    rw [Tail.operands, Tail.operands_append, List.mem_cons, List.mem_append] at hp
    rcases hp with rfl | hp | hp
    · exact tight
    · exact Nat.le_trans (Nat.le_trans tight (precedence_le_rightLevel op)) (above₁ p hp)
    · exact above₂ p hp

theorem phrased_tightenTighter {op op' : Operator} {right tree : Expr}
    (tight : op.precedence < op'.precedence)
    (more : Phrased scope s next (.climb (op.precedence + 1) right) tree) :
    Phrased scope s next (.tighten op right) tree := by
  have ne : op ≠ .pow := by
    rintro rfl
    exact absurd (precedence_le op') (Nat.not_le.mpr tight)
  obtain ⟨m, rfl, separated, covers, above, stops⟩ := more
  rw [← rightLevel_of_ne_pow ne] at above stops
  refine ⟨m, rfl, separated, ?_, above, stops⟩
  rw [runBehind, if_neg ne]
  exact covers

/-- What a `^` lets its right operand take lies one deeper. -/
theorem phrased_tightenSame {op : Operator} {right tree : Expr} (rightward : op.isRightAssociative)
    (deep : ¬ s.tooDeep) (more : Phrased scope s.enter next (.climb op.precedence right) tree) :
    Phrased scope s next.leave (.tighten op right) tree := by
  obtain rfl : op = .pow := by cases op <;> first | rfl | exact absurd rightward (by decide)
  obtain ⟨m, rfl, separated, covers, above, stops⟩ := more
  refine ⟨m, rfl, separated, ?_, above, stops⟩
  have inside := covers.leave deep
  exact ⟨inside.toTakes, inside.toFits.mono (Nat.le_refl _) (Tail.nesting_succ_le m 0),
    inside.known⟩

end

/-! ## All rules -/

open Covers in
theorem phrased_of_reads {part : Part} {s next : ParseState} {yield : part.Yield}
    (h : Reads scope part s yield next) (silent : next.errors = []) :
    Phrased scope s next part yield := by
  induction h with
  | tooDeep | tooLarge | missingParenthesis | unexpectedEnd | unexpectedToken | climbTooLarge |
      tightenTooDeep =>
    exact absurd silent (errors_fault_ne _ _)
  | emptyParentheses => exact absurd silent (errors_faultAt_ne _ _ _)
  | operand deep body ih =>
    obtain ⟨x, rfl, separated, inside, nesting, covers⟩ := ih silent
    exact ⟨x, rfl, separated, nesting ▸ covers.leave deep⟩
  | number kind large => exact phrased_number kind large
  | negation kind large body ih => exact phrased_negation kind large (ih silent)
  | group kind closing body ih => exact phrased_group kind silent ih
  | braced kind => exact phrased_braced kind silent
  | variableName kind large => exact phrased_variableName kind large silent
  | call kind large opening body ih => exact phrased_call kind large opening silent ih
  | noChain first ih =>
    obtain ⟨x, e, -⟩ := ih silent
    cases e
  | chain first more ihFirst ihMore =>
    obtain ⟨m, rfl, separated, covers, -, stops⟩ := ihMore silent
    obtain ⟨x, e, separated', covers'⟩ := ihFirst (more.silent silent)
    cases e
    exact ⟨.mk x m, rfl, ⟨separated', separated⟩, covers'.trans covers, stops_one.mp stops⟩
  | climbStop stop =>
      exact ⟨.nil, rfl, trivial, .refl scope _, List.forall_mem_nil _, stops_rest.mpr stop⟩
  | climbNoOperand operator tight large body ih =>
    obtain ⟨x, e, -⟩ := ih silent
    cases e
  | climb operator tight large body tighter more ihBody ihTighter ihMore =>
    have silent' := more.silent silent
    exact phrased_climb operator tight large (ihBody (tighter.silent silent')) (ihTighter silent')
      (ihMore silent)
  | tightenStop stop =>
      exact ⟨.nil, rfl, trivial, .refl scope _, List.forall_mem_nil _, stops_rest.mpr stop⟩
  | tightenTighter operator tight more ih => exact phrased_tightenTighter tight (ih silent)
  | tightenSame operator same rightward deep more ih =>
      exact phrased_tightenSame rightward deep (ih silent)
  | argumentsEnd closing => exact ⟨.nil, rfl, .refl scope _, fun _ _ => trivial⟩
  | @comma s next trees kind more ih =>
    obtain ⟨a, rfl, covers, separated⟩ := ih silent
    -- Behind a comma an argument may start with `-`, so nothing need be known of the token there.
    have fresh : false = true → s.advance.operator? = none := by rintro ⟨⟩
    refine ⟨.comma (currentOf s kind) a, rfl, ?_, fun _ _ => separated false fresh⟩
    exact ((plain kind (by decide)).trans covers).congr rfl (Nat.zero_add _) (Nat.zero_max _)
  | argument closing comma first more ihFirst ihMore =>
    obtain ⟨a, rfl, covers, separated⟩ := ihMore silent
    obtain ⟨c, e, separated', covers', operator⟩ := ihFirst (more.silent silent)
    cases e
    refine ⟨.cons c a, rfl, covers'.trans covers, fun behind before => ?_⟩
    -- No operator follows the first argument, or its chain would have taken it.
    exact ⟨fun h => noMinus_of_rest covers'.rest (before h), separated',
      separated true fun _ => operator⟩
  | failedArgument closing comma first moved more ihFirst ihMore =>
    obtain ⟨c, e, -⟩ := ihFirst (more.silent silent)
    cases e
  | skippedArgument closing comma first moved more ihFirst ihMore =>
    obtain ⟨c, e, -⟩ := ihFirst (more.silent silent)
    cases e

end Grammar

end Arith
