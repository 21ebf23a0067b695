/-
# Which unresolved name is reported

A name that is looked up in vain does not end a parse.  A variable that is
not bound counts as zero; a call of a missing function has no tree, and what
is read behind it may be taken for something else, so that more errors are
noted that the expression does not deserve.  None of them is noted before
the name is: up to there the phrase is read as if all names were known.

`Reports` says of a phrase that `e` is the first error noted wherever the
phrase stands and fits.  The proof follows `Arith.Proofs.Grammar.Complete`.
Of the parts of a phrase those in front of the first failing lookup are read
as there; then comes the part that holds it; and for what follows it is
enough that every reading goes on somehow (`exists_reads`) and takes no
error back (`Reads.errors_prefix`).

The one place where the argument is not that of a complete reading is the
tail of a chain.  Its operands are looked up from left to right, but they
are not read as one list: an operator that binds more tightly takes a part
of the tail into its right operand.  So the tail is cut where the next
operator reaches, and the error is met in the operand, or in the part that
the operand takes, or behind it (`reportsTail_cons`).  Either way the
phrases that are left have fewer operands, and that is what the induction is
on.

**Proved here.** Of an expression within the limits the unresolved name that
is looked up first is reported (`parseTokens_unresolved`).
-/
import Arith.Proofs.Grammar.Exact
import Arith.Proofs.Grammar.Lookups

namespace Arith

namespace Grammar

open Parse ParseState Grouping

variable {scope : Scope}

/-! ## Noting an error first -/

/-- Some reading of a part from a state on notes `e` before all other errors. -/
def Meets (scope : Scope) (part : Part) (s : ParseState) (e : ParseError) : Prop :=
  ∃ yield next, Reads scope part s yield next ∧ s.errors ++ [e] <+: next.errors

theorem exists_reads (scope : Scope) (part : Part) (s : ParseState) :
    ∃ yield next, Reads scope part s yield next := by
  obtain ⟨operand, primary, arguments, chain, climb, tighten⟩ := yields scope
  cases part with
  | operand => exact ⟨_, _, operand s⟩
  | primary => exact ⟨_, _, primary s⟩
  | arguments => exact ⟨_, _, arguments s⟩
  | chain => exact ⟨_, _, chain s⟩
  | climb least left => exact ⟨_, _, climb least left s⟩
  | tighten op right => exact ⟨_, _, tighten op right s⟩

/-- Wherever the operand stands and fits, `e` is the first error noted in it. -/
def Reports (scope : Scope) (x : Operand) (e : ParseError) : Prop :=
  ∀ (s : ParseState) (rest : List Token), s.cursor.rest = x.tokens ++ rest →
    Fits s x.size x.nesting → Meets scope .operand s e

def ReportsChain (scope : Scope) (c : Chain) (e : ParseError) : Prop :=
  ∀ (s : ParseState) (rest : List Token), s.cursor.rest = c.tokens ++ rest → Stops 1 rest →
    Fits s c.size c.nesting → Meets scope .chain s e

def ReportsArguments (scope : Scope) (a : Arguments) (e : ParseError) : Prop :=
  ∀ (s : ParseState) (closing : TokenOf .rightParen) (rest : List Token),
    s.cursor.rest = a.tokens ++ closing.token :: rest → Fits s a.size a.nesting →
      Meets scope .arguments s e

/-- Wherever the tail is folded onto what stands left of it, `e` is the first error noted. -/
def ReportsTail (scope : Scope) (m : Tail) (e : ParseError) : Prop :=
  ∀ (least : Nat) (left : Expr) (s : ParseState) (rest : List Token),
    s.cursor.rest = m.tokens ++ rest → Stops least rest → Fits s m.size (m.nesting 0) →
      (∀ p ∈ m.operands scope, least ≤ p.1.precedence) → Meets scope (.climb least left) s e

/-! ## Looking a name up in vain

What is noted when nothing is found under a name, after everything that had
been noted before. -/

theorem errors_readVariable (scope : Scope) {s : ParseState}
    (unbound : scope.bindings.get? s.current.text = none) :
    (s.readVariable scope).2.errors =
      s.errors ++ [⟨.unboundVariable s.current.text, some s.current.span⟩] := by
  simp only [readVariable, unbound]
  exact s.errors_faultAt _ _

theorem prefix_readBraced (scope : Scope) {s : ParseState} (kind : s.advance.kind = .variableName)
    (large : ¬ s.advance.tooLarge 1)
    (unbound : scope.bindings.get? s.advance.current.text = none) :
    s.errors ++ [⟨.unboundVariable s.advance.current.text, some s.advance.current.span⟩] <+:
      (s.readBraced scope).2.errors := by
  have noted : ((s.advance.claim 1).readVariable scope).2.errors = s.errors ++ _ :=
    errors_readVariable scope (s := s.advance.claim 1) unbound
  have closed := (Grows.closeBrace (s := ((s.advance.claim 1).readVariable scope).2)
    s.advance.current.text (Nat.zero_le _)).errors
  rw [noted] at closed
  simp only [readBraced, if_neg (not_not_intro kind), if_neg large]
  exact closed

theorem errors_closeCall (scope : Scope) {s : ParseState} (name : Token)
    (trees : Option (List Expr))
    (closing : s.kind = .rightParen) (missing : scope.functions.get? name.text = none) :
    (s.closeCall scope name trees).2.errors =
      s.errors ++ [⟨.undefinedFunction name.text, some name.span⟩] := by
  simp only [closeCall, if_pos closing, missing]
  exact s.advance.errors_faultAt _ _

/-! ## Operands

One lemma for each way an operand is written, up to the parts whose readings
are assumed. -/

theorem reports_of_primary {x : Operand} {e : ParseError} (inside : Nat)
    (nesting : x.nesting = inside + 1)
    (primary : ∀ (s : ParseState) (rest : List Token), s.cursor.rest = x.tokens ++ rest →
      Fits s x.size inside → Meets scope .primary s e) : Reports scope x e := by
  intro s rest stands fits
  rw [nesting] at fits
  obtain ⟨tree, next, reads, noted⟩ := primary s.enter rest stands fits.enter
  exact ⟨tree, next.leave, .operand fits.not_tooDeep reads, noted⟩

theorem reports_negation (minus : TokenOf .sub) {x : Operand} {e : ParseError}
    (reports : Reports scope x e) : Reports scope (.negation minus x) e := by
  refine reports_of_primary _ (Nat.add_comm 1 _) fun s rest stands fits => ?_
  have kind : s.kind = .sub := (kind_of_rest stands).trans minus.kind_eq
  have large : ¬ s.tooLarge 2 :=
    fits.not_tooLarge (Nat.le_add_right _ _) (Nat.add_pos_left (by decide) _)
  have taken : Takes s [minus.token] 2 (s.claim 2).advance :=
    (Takes.claim s 2).trans (takes_first (s := s.claim 2) stands)
  obtain ⟨tree, next, reads, noted⟩ := reports _ rest (taken.rest_eq stands) (fits.behind taken)
  rw [taken.errors] at noted
  exact ⟨_, next, .negation kind large reads, noted⟩

theorem reports_group (opening : TokenOf .leftParen) {c : Chain} (closing : TokenOf .rightParen)
    {e : ParseError} (reports : ReportsChain scope c e) :
    Reports scope (.group opening c closing) e := by
  refine reports_of_primary _ (Nat.add_comm 1 _) fun s rest stands fits => ?_
  rw [Operand.tokens_group_append] at stands
  have kind : s.kind = .leftParen := (kind_of_rest stands).trans opening.kind_eq
  have taken : Takes s [opening.token] 0 s.advance := takes_first stands
  have stands₁ : s.advance.cursor.rest = c.tokens ++ closing.token :: rest := taken.rest_eq stands
  obtain ⟨tree, next, reads, noted⟩ := reports s.advance (closing.token :: rest) stands₁
    (stops_of_kind closing.kind_eq rfl) (fits.past taken)
  exact ⟨_, _, .group kind (Chain.ne_closing stands₁).1 reads,
    noted.trans (Grows.closeGroup tree (Nat.zero_le _)).errors⟩

theorem reports_name {word : TokenOf .variableName}
    (unbound : scope.bindings.get? word.token.text = none) (place : Nat) :
    Reports scope (.name word) (Lookup.name word place).error := by
  refine reports_of_primary 0 rfl fun s rest stands fits => ?_
  have kind : s.kind = .variableName := (kind_of_rest stands).trans word.kind_eq
  have large : ¬ s.tooLarge 1 := fits.not_tooLarge (Nat.le_refl 1) Nat.one_pos
  have current : (s.claim 1).current = word.token := current_of_rest (s := s.claim 1) stands
  have noted := errors_readVariable scope (s := s.claim 1) (by rw [current]; exact unbound)
  rw [current] at noted
  exact ⟨_, _, .variableName kind large, noted ▸ List.prefix_refl _⟩

theorem reports_braced (opening : TokenOf .leftBrace) {word : TokenOf .variableName}
    (closing : TokenOf .rightBrace) (unbound : scope.bindings.get? word.token.text = none)
    (place : Nat) :
    Reports scope (.braced opening word closing) (Lookup.name word place).error := by
  refine reports_of_primary 0 rfl fun s rest stands fits => ?_
  have kind : s.kind = .leftBrace := (kind_of_rest stands).trans opening.kind_eq
  have taken : Takes s [opening.token] 0 s.advance := takes_first stands
  have stands₁ : s.advance.cursor.rest = word.token :: closing.token :: rest := taken.rest_eq stands
  have current := current_of_rest stands₁
  have noted := prefix_readBraced scope ((kind_of_rest stands₁).trans word.kind_eq)
    (fits.not_tooLarge (Nat.le_refl 1) Nat.one_pos) (by rw [current]; exact unbound)
  rw [current] at noted
  exact ⟨_, _, .braced kind, noted⟩

section Call

variable {callee : TokenOf .functionName} (opening : TokenOf .leftParen) {a : Arguments}
  (closing : TokenOf .rightParen)

theorem reports_argument {e : ParseError} (reports : ReportsArguments scope a e) :
    Reports scope (.call callee opening a closing) e := by
  refine reports_of_primary _ (Nat.add_comm 1 _) fun s rest stands fits => ?_
  rw [Operand.tokens_call_append] at stands
  obtain ⟨kind, large, opens, taken⟩ := takes_opening stands fits
  obtain ⟨trees, next, reads, noted⟩ := reports _ closing rest (taken.rest_eq stands)
    (fits.behind taken)
  rw [taken.errors] at noted
  exact ⟨_, _, .call kind large opens reads,
    noted.trans (Grows.closeCall scope s.current trees (Nat.zero_le _)).errors⟩

/-- A missing function is reported if all of its arguments can be read. -/
theorem reports_call (missing : scope.functions.get? callee.token.text = none) (place : Nat)
    (readable : ReadableArguments scope a) :
    Reports scope (.call callee opening a closing) (Lookup.call callee place).error := by
  refine reports_of_primary _ (Nat.add_comm 1 _) fun s rest stands fits => ?_
  rw [Operand.tokens_call_append] at stands
  obtain ⟨kind, large, opens, taken⟩ := takes_opening stands fits
  have stands₁ : (s.claim 1).advance.advance.cursor.rest = a.tokens ++ closing.token :: rest :=
    taken.rest_eq stands
  obtain ⟨next, reads, takes⟩ := readable _ closing rest stands₁ (fits.behind taken)
  have closes : next.kind = .rightParen :=
    (kind_of_rest (takes.rest_eq stands₁)).trans closing.kind_eq
  have current : s.current = callee.token := current_of_rest stands
  have noted := errors_closeCall scope callee.token (some (a.trees scope)) closes missing
  rw [takes.errors, taken.errors, ← current] at noted
  refine ⟨_, _, .call kind large opens reads, ?_⟩
  rw [noted, current]
  exact List.prefix_refl _

end Call

/-! ## Climbing

The claims about a tail are proved by its length, those about its operands
by the recursion over phrases.  So an operand comes with both facts that are
needed of it. -/

/-- What the proof for a tail needs of each of its operands. -/
structure Handled (scope : Scope) (x : Operand) : Prop where
  readable : Known scope x.tokens → Readable scope x
  reports : ∀ {start : Nat} {l : Lookup}, (x.lookups start).find? (Lookup.fails scope) = some l →
    Reports scope x l.error

theorem Tail.All.readable : ∀ {m : Tail}, m.All (Handled scope) → Known scope m.tokens →
    m.All (Readable scope)
  | .nil, _, _ => trivial
  | .cons _ _ _, all, known =>
    ⟨all.1.readable (known_append.mp (known_cons.mp known).2).1,
      readable all.2 (known_append.mp (known_cons.mp known).2).2⟩

/-- A tail in which all names are known is folded, wherever it fits. -/
theorem climbs_of_resolved {m : Tail} {start : Nat} (all : m.All (Handled scope))
    (resolved : Resolved scope (m.lookups start)) : Climbs scope m :=
  climbs_of_length m.length m (Nat.le_refl _) (all.readable (m.known_of_lookups start resolved))

/-- The right operand of an operator takes what binds tightly enough, and with it the error. -/
theorem meets_tighten {m : Tail} {e : ParseError} (reports : ReportsTail scope m e) (ne : m ≠ .nil)
    {op : Operator} (right : Expr) {s : ParseState} {rest : List Token}
    (stands : s.cursor.rest = m.tokens ++ rest) (stops : Stops (rightLevel op) rest)
    (fits : Fits s m.size (m.nesting (runBehind op)))
    (above : ∀ p ∈ m.operands scope, rightLevel op ≤ p.1.precedence) :
    Meets scope (.tighten op right) s e := by
  have first : ∀ p ∈ (m.operands scope).head?, s.operator? = some p.1 := operator?_of_tail stands
  cases m with
  | nil => exact absurd rfl ne
  | cons sign operand more =>
    have operator : s.operator? = some sign.operator := first _ rfl
    have tight : rightLevel op ≤ sign.operator.precedence := above _ List.mem_cons_self
    by_cases pow : op = .pow
    · subst pow
      have all : ∀ p ∈ (Tail.cons sign operand more).operands scope, p.1 = .pow :=
        fun p hp => eq_pow_of_precedence (above p hp)
      have same : sign.operator = .pow := all _ List.mem_cons_self
      rw [runBehind, if_pos rfl, Tail.nesting_succ ne all 0] at fits
      obtain ⟨tree, next, reads, noted⟩ :=
        reports 3 right s.enter rest stands stops fits.enter above
      refine ⟨tree, next.leave, .tightenSame operator ?_ rfl fits.not_tooDeep reads, noted⟩
      rw [same]
    · rw [rightLevel_of_ne_pow pow] at tight stops above
      rw [runBehind, if_neg pow] at fits
      obtain ⟨tree, next, reads, noted⟩ :=
        reports (op.precedence + 1) right s rest stands stops fits above
      exact ⟨tree, next, .tightenTighter operator tight reads, noted⟩

/-- The error is met in the operand, or else in what the operand takes, or else behind that. -/
theorem reportsTail_cons {sign : Sign} {x : Operand} {inner outer : Tail} {e : ParseError}
    (aboveInner : ∀ p ∈ inner.operands scope, rightLevel sign.operator ≤ p.1.precedence)
    (loose : ∀ p ∈ (outer.operands scope).head?, p.1.precedence < rightLevel sign.operator)
    (h : Reports scope x e ∨ Readable scope x ∧ (inner ≠ .nil ∧ ReportsTail scope inner e ∨
      Climbs scope inner ∧ ReportsTail scope outer e)) :
    ReportsTail scope (.cons sign x (inner.append outer)) e := by
  intro least left s rest stands stops fits above
  rw [Tail.operands, Tail.operands_append, List.forall_mem_cons, List.forall_mem_append] at above
  obtain ⟨tight, -, aboveOuter⟩ := above
  rw [Tail.size, Tail.size_append, Tail.nesting_cons_append x loose, Nat.add_assoc] at fits
  rw [Tail.tokens, Tail.tokens_append] at stands
  have large : ¬ s.tooLarge 1 := fits.not_tooLarge (by omega) (by omega)
  obtain ⟨operator, taken⟩ := takes_sign stands
  have stands₁ :
      (s.claim 1).advance.cursor.rest = x.tokens ++ (inner.tokens ++ (outer.tokens ++ rest)) := by
    simpa using taken.rest_eq stands
  have fits₁ := fits.behind taken
  have fitsOperand := fits₁.mono (Nat.le_add_right _ _) (Nat.le_max_left _ _)
  rcases h with reports | ⟨readable, h⟩
  -- In the operand: the rest may be read in any way, since no error is taken back.
  · obtain ⟨operand, next, reads, noted⟩ := reports _ _ stands₁ fitsOperand
    rw [taken.errors] at noted
    cases operand with
    | none => exact ⟨left, next, .climbNoOperand operator tight large reads, noted⟩
    | some right =>
      obtain ⟨tightened, after, tighter⟩ := exists_reads scope (.tighten sign.operator right) next
      obtain ⟨tree, final, more⟩ :=
        exists_reads scope (.climb least (.binary sign.operator left tightened)) after
      exact ⟨tree, final, .climb operator tight large reads tighter more,
        noted.trans (tighter.errors_prefix.trans more.errors_prefix)⟩
  · obtain ⟨next₁, reads₁, takes₁⟩ := readable _ _ stands₁ fitsOperand
    have stands₂ := takes₁.rest_eq stands₁
    have fits₂ := fits₁.behind takes₁
    have stops₂ : Stops (rightLevel sign.operator) (outer.tokens ++ rest) :=
      Tail.stops_append loose (stops.mono (Nat.le_trans tight (precedence_le_rightLevel _)))
    have fitsInner := fits₂.mono (Nat.le_add_right _ _)
      (Nat.le_trans (Nat.le_max_left _ _) (Nat.le_max_right _ _))
    -- In what the operand takes, or else behind it, where the operator has been folded.
    rcases h with ⟨ne, reports⟩ | ⟨climbs, reports⟩
    · obtain ⟨tightened, after, tighter, noted⟩ :=
        meets_tighten reports ne (x.tree scope) stands₂ stops₂ fitsInner aboveInner
      rw [takes₁.errors, taken.errors] at noted
      obtain ⟨tree, final, more⟩ :=
        exists_reads scope (.climb least (.binary sign.operator left tightened)) after
      exact ⟨tree, final, .climb operator tight large reads₁ tighter more,
        noted.trans more.errors_prefix⟩
    · obtain ⟨next₂, reads₂, takes₂⟩ :=
        reads_tighten climbs (x.tree scope) stands₂ stops₂ fitsInner aboveInner
      obtain ⟨tree, final, more, noted⟩ := reports least
        (.binary sign.operator left (group (x.tree scope) (inner.operands scope))) next₂ rest
        (takes₂.rest_eq stands₂) stops ((fits₂.behind takes₂).mono (Nat.le_refl _)
          (Nat.le_trans (Nat.le_max_right _ _) (Nat.le_max_right _ _))) aboveOuter
      rw [takes₂.errors, takes₁.errors, taken.errors] at noted
      exact ⟨tree, final, .climb operator tight large reads₁ reads₂ more, noted⟩

theorem reportsTail_of_length (n : Nat) : ∀ m : Tail, m.length ≤ n → m.All (Handled scope) →
    ∀ {start : Nat} {l : Lookup}, (m.lookups start).find? (Lookup.fails scope) = some l →
      ReportsTail scope m l.error := by
  induction n with
  | zero =>
    intro m short _ start l first
    cases m with
    | nil => cases first
    | cons => exact absurd short (Nat.not_succ_le_zero _)
  | succ n ih =>
    intro m short all start l first
    cases m with
    | nil => cases first
    | cons sign x more =>
      obtain ⟨inner, outer, rfl, aboveInner, loose⟩ :=
        Tail.exists_append scope (rightLevel sign.operator) more
      obtain ⟨handled, all⟩ := all
      obtain ⟨allInner, allOuter⟩ := Tail.all_append.mp all
      rw [Tail.length, Tail.length_append] at short
      refine reportsTail_cons aboveInner loose ?_
      rw [Tail.lookups, Tail.lookups_append, find?_append_eq_some, find?_append_eq_some] at first
      rcases first with first | ⟨resolved, first | ⟨resolvedInner, first⟩⟩
      · exact .inl (handled.reports first)
      · refine .inr ⟨handled.readable (x.known_of_lookups _ resolved), .inl ⟨?_, ?_⟩⟩
        · rintro rfl
          cases first
        · exact ih inner (by omega) allInner first
      · exact .inr ⟨handled.readable (x.known_of_lookups _ resolved),
          .inr ⟨climbs_of_resolved allInner resolvedInner, ih outer (by omega) allOuter first⟩⟩

/-! ## Chains and arguments

A chain reports what its first operand or its tail reports, and arguments
report what the first argument does, or else what those behind it do. -/

theorem reportsChain_mk {first : Operand} {more : Tail} (handled : Handled scope first)
    (all : more.All (Handled scope)) {start : Nat} {l : Lookup}
    (failure : ((Chain.mk first more).lookups start).find? (Lookup.fails scope) = some l) :
    ReportsChain scope (.mk first more) l.error := by
  intro s rest stands stops fits
  rw [Chain.tokens, List.append_assoc] at stands
  rw [Chain.lookups, find?_append_eq_some] at failure
  have fitsFirst := fits.mono (Nat.le_add_right _ _) (Nat.le_max_left _ _)
  rcases failure with failure | ⟨resolved, failure⟩
  · obtain ⟨operand, next, reads, noted⟩ := handled.reports failure s _ stands fitsFirst
    cases operand with
    | none => exact ⟨none, next, .noChain reads, noted⟩
    | some left =>
      obtain ⟨tree, after, climbs⟩ := exists_reads scope (.climb 1 left) next
      exact ⟨_, after, .chain reads climbs, noted.trans climbs.errors_prefix⟩
  · obtain ⟨next, reads, takes⟩ := handled.readable (first.known_of_lookups _ resolved) s _ stands
      fitsFirst
    have above : ∀ p ∈ more.operands scope, 1 ≤ p.1.precedence := fun p _ => precedence_pos p.1
    obtain ⟨tree, after, climbs, noted⟩ :=
      reportsTail_of_length more.length more (Nat.le_refl _) all
      failure 1 (first.tree scope) next rest (takes.rest_eq stands) stops
      ((fits.behind takes).mono (Nat.le_refl _) (Nat.le_max_right _ _)) above
    rw [takes.errors] at noted
    exact ⟨_, after, .chain reads climbs, noted⟩

theorem reportsArguments_comma (comma : TokenOf .comma) {more : Arguments} {e : ParseError}
    (reports : ReportsArguments scope more e) : ReportsArguments scope (.comma comma more) e := by
  intro s closing rest stands fits
  have taken : Takes s [comma.token] 0 s.advance := takes_first stands
  obtain ⟨trees, next, reads, noted⟩ := reports s.advance closing rest (taken.rest_eq stands)
    (fits.past taken)
  exact ⟨trees, next, .comma ((kind_of_rest stands).trans comma.kind_eq) reads, noted⟩

/-- The error is met in the first argument, or else behind it. -/
theorem reportsArguments_cons {c : Chain} {more : Arguments} {e : ParseError}
    (separated : more.Separated true)
    (h : ReportsChain scope c e ∨ ReadableChain scope c ∧ ReportsArguments scope more e) :
    ReportsArguments scope (.cons c more) e := by
  intro s closing rest stands fits
  rw [Arguments.tokens, List.append_assoc] at stands
  obtain ⟨paren, eof, comma⟩ := Chain.ne_closing stands
  have inside : ¬ (s.kind = .rightParen ∨ s.kind = .eof) := fun h => h.elim paren eof
  have stops := stops_arguments separated closing rest
  have fitsFirst := fits.mono (Nat.le_add_right _ _) (Nat.le_max_left _ _)
  rcases h with reports | ⟨readable, reports⟩
  · obtain ⟨tree, next, reads, noted⟩ := reports s _ stands stops fitsFirst
    cases tree with
    | some tree =>
      obtain ⟨trees, after, others⟩ := exists_reads scope .arguments next
      exact ⟨_, after, .argument inside comma reads others, noted.trans others.errors_prefix⟩
    | none =>
      by_cases moved : s.position < next.position
      · obtain ⟨trees, after, others⟩ := exists_reads scope .arguments next
        exact ⟨_, after, .failedArgument inside comma reads moved others,
          noted.trans others.errors_prefix⟩
      · obtain ⟨trees, after, others⟩ := exists_reads scope .arguments next.advance
        exact ⟨_, after, .skippedArgument inside comma reads moved others,
          noted.trans others.errors_prefix⟩
  · obtain ⟨next, reads, takes⟩ := readable s _ stands stops fitsFirst
    obtain ⟨trees, after, others, noted⟩ := reports next closing rest (takes.rest_eq stands)
      ((fits.behind takes).mono (Nat.le_refl _) (Nat.le_max_right _ _))
    rw [takes.errors] at noted
    exact ⟨_, after, .argument inside comma reads others, noted⟩

/-! ## All phrases

The four claims at once, by recursion over the phrase.  The induction
carries the place at which the lookups start to be counted, since the same
phrase may stand anywhere. -/

theorem eq_none_of_find? {α : Type} {o : Option α} {l l' : Lookup}
    (fails : l.fails scope = o.isNone)
    (first : [l].find? (Lookup.fails scope) = some l') : l' = l ∧ o = none := by
  have hit := List.find?_some first
  obtain rfl := List.mem_singleton.mp (List.mem_of_find?_eq_some first)
  exact ⟨rfl, Option.isNone_iff_eq_none.mp (fails ▸ hit)⟩

mutual

theorem Operand.reports (scope : Scope) :
    ∀ (x : Operand), x.Separated → ∀ {start : Nat} {l : Lookup},
      (x.lookups start).find? (Lookup.fails scope) = some l → Reports scope x l.error
  | .number _, _, _, _, first => by cases first
  | .negation minus inner, separated, _, _, first =>
    reports_negation minus (inner.reports scope separated first)
  | .group opening inner closing, separated, _, _, first =>
    reports_group opening closing (inner.reports scope separated first)
  | .name word, _, _, _, first => by
    obtain ⟨rfl, unbound⟩ := eq_none_of_find? rfl first
    exact reports_name unbound _
  | .braced opening word closing, _, _, _, first => by
    obtain ⟨rfl, unbound⟩ := eq_none_of_find? rfl first
    exact reports_braced opening closing unbound _
  | .call callee opening inner closing, separated, _, _, first => by
    rw [Operand.lookups, find?_append_eq_some] at first
    rcases first with first | ⟨resolved, first⟩
    · exact reports_argument opening closing (inner.reports scope separated first)
    · obtain ⟨rfl, missing⟩ := eq_none_of_find? rfl first
      exact reports_call opening closing missing _
        (inner.readable scope separated (inner.known_of_lookups _ resolved))

theorem Chain.reports (scope : Scope) : ∀ (c : Chain), c.Separated → ∀ {start : Nat} {l : Lookup},
    (c.lookups start).find? (Lookup.fails scope) = some l → ReportsChain scope c l.error
  | .mk first more, separated, _, _, failure =>
    reportsChain_mk ⟨first.readable scope separated.1, first.reports scope separated.1⟩
      (more.handled scope separated.2) failure

theorem Tail.handled (scope : Scope) : ∀ (m : Tail), m.Separated → m.All (Handled scope)
  | .nil, _ => trivial
  | .cons _ operand more, separated =>
    ⟨⟨operand.readable scope separated.1, operand.reports scope separated.1⟩,
      more.handled scope separated.2⟩

theorem Arguments.reports (scope : Scope) : ∀ (a : Arguments) {behind : Bool}, a.Separated behind →
    ∀ {start : Nat} {l : Lookup}, (a.lookups start).find? (Lookup.fails scope) = some l →
      ReportsArguments scope a l.error
  | .nil, _, _, _, _, first => by cases first
  | .comma comma more, _, separated, _, _, first =>
    reportsArguments_comma comma (more.reports scope separated first)
  | .cons c more, _, separated, _, _, first => by
    rw [Arguments.lookups, find?_append_eq_some] at first
    refine reportsArguments_cons separated.2.2 ?_
    rcases first with first | ⟨resolved, first⟩
    · exact .inl (c.reports scope separated.2.1 first)
    · exact .inr ⟨c.readable scope separated.2.1 (c.known_of_lookups _ resolved),
        more.reports scope separated.2.2 first⟩

end

end Grammar

open Parse ParseState Grammar

/-- What is left over is noted last. -/
theorem ParseState.prefix_finish (s : ParseState) : s.errors <+: s.finish.errors := by
  unfold finish
  split
  · exact List.prefix_refl _
  · rw [fault, errors_faultAt]
    exact List.prefix_append _ _

/-- An expression within the limits in which not all names are known is refused for the name that is
looked up first of those under which nothing is found. -/
theorem parseTokens_unresolved (scope : Scope) (c : Chain) (separated : c.Separated)
    (space : (c.tree scope).nodes.length ≤ nodeLimit) (room : c.nesting ≤ nestingLimit)
    (unknown : ¬ Known scope c.tokens) :
    (∀ l ∈ c.lookups 0, l.StandsIn 0 c.tokens) ∧
      ∃ l ∈ c.lookups 0, l.fails scope ∧
        (∀ l' ∈ c.lookups 0, l'.fails scope → l.place ≤ l'.place) ∧
          (parseTokens scope c.tokens).1.result = .error l.error := by
  refine ⟨(c.ascending 0).stands, ?_⟩
  cases first : (c.lookups 0).find? (Lookup.fails scope) with
  | none => exact absurd (c.known_of_lookups 0 (List.find?_eq_none.mp first)) unknown
  | some l =>
    refine ⟨l, List.mem_of_find?_eq_some first, List.find?_some first,
      fun l' => (c.ascending 0).find?_least first, ?_⟩
    rw [← c.size_eq scope] at space
    obtain ⟨tree, next, reads, noted⟩ := c.reports scope separated first (.start c.tokens) []
      (List.append_nil _).symm (stops_nil 1) ⟨space, room⟩
    obtain ⟨more, final⟩ := noted.trans next.prefix_finish
    obtain ⟨t, ts, nonempty, -⟩ := c.exists_tokens
    rw [result_eq_error_iff, parseTokens, if_neg (by rw [nonempty]; exact Bool.false_ne_true)]
    show (run scope c.tokens).2.errors.head? = some l.error
    rw [run, (chain_of_reads reads).2, ← final]
    rfl

/-- In `f(g(1),X)`, where no name is known, the call of `g` is complete first. -/
theorem parseTokens_unresolved_inner_call :
    let token (kind : TokenKind) (text : String) (start : Nat) : TokenOf kind :=
      ⟨⟨kind, text, ⟨start, start + 1⟩⟩, rfl⟩
    let inner : Operand := .call (token _ "g" 2) (token _ "(" 3)
      (.cons (.mk (.number (token _ "1" 4)) .nil) .nil) (token _ ")" 5)
    let arguments : Arguments := .cons (.mk inner .nil)
      (.comma (token _ "," 6) (.cons (.mk (.name (token _ "X" 7)) .nil) .nil))
    let c : Chain := .mk (.call (token _ "f" 0) (token _ "(" 1) arguments (token _ ")" 8)) .nil
    let scope : Scope := ⟨.empty, .empty⟩
    c.Separated ∧ (c.tree scope).nodes.length ≤ nodeLimit ∧ c.nesting ≤ nestingLimit ∧
      ¬ Known scope c.tokens ∧
        (parseTokens scope c.tokens).1.result = .error ⟨.undefinedFunction "g", some ⟨2, 3⟩⟩ := by
  intro token inner arguments c scope
  have separated : c.Separated := by
    simp [c, arguments, inner, Chain.Separated, Operand.Separated, Arguments.Separated,
      Tail.Separated]
  have space : (c.tree scope).nodes.length ≤ nodeLimit := by
    rw [← c.size_eq scope]
    decide
  have room : c.nesting ≤ nestingLimit := by decide
  have unknown : ¬ Known scope c.tokens := by
    intro known
    have found := (known (token .functionName "f" 0).token List.mem_cons_self).2 rfl
    cases found
  refine ⟨separated, space, room, unknown, ?_⟩
  obtain ⟨-, l, mem, -, least, refused⟩ :=
    parseTokens_unresolved scope c separated space room unknown
  have lookups : c.lookups 0 = [.call (token _ "g" 2) 5, .name (token _ "X" 7) 7,
      .call (token _ "f" 0) 8] := rfl
  rw [lookups] at mem least
  have early : l.place ≤ 5 := least _ List.mem_cons_self rfl
  simp only [List.mem_cons, List.not_mem_nil, or_false] at mem
  rcases mem with rfl | rfl | rfl
  · exact refused
  · exact absurd early (by decide)
  · exact absurd early (by decide)

end Arith
