/-
# Every phrase within the limits is read

`Readable scope x`: wherever the operand `x` stands, and whatever follows
it, it is read as such if it fits.  Whether a chain is read as such depends
on what follows: an operator behind it would be taken for one more of its
own (`Stops`).

The precedence climber does not follow the phrase.  It hands the operators
behind an operand on to the operator in front, as far as they bind tightly
enough, so a tail is cut in two (`Tail.exists_append`) and both halves are
read by induction on the length.

So there are two inductions.  The one on phrases goes from an operand to
what is inside it, and is the one that a reader would expect; within a chain
the one on the length of a tail follows the climber (`climbs_of_length`).

**Proved here.** Every phrase whose names are known and whose arguments are
separated is read, and its tree made, where it fits (`Operand.readable`,
`Chain.reads`, `Arguments.reads`).
-/
import Arith.Proofs.Grammar.Takes

namespace Arith.Grammar

open Parse ParseState Grouping

/-! ## The first token of an operand -/

/-- The kinds of token that an operand starts with. -/
def StartsOperand (kind : TokenKind) : Prop :=
  kind = .number ∨ kind = .sub ∨ kind = .leftParen ∨ kind = .variableName ∨ kind = .leftBrace ∨
    kind = .functionName

theorem Operand.exists_tokens (x : Operand) :
    ∃ t ts, x.tokens = t :: ts ∧ StartsOperand t.kind := by
  cases x with
  | number digits => exact ⟨_, _, rfl, by simp [StartsOperand, digits.kind_eq]⟩
  | negation minus inner => exact ⟨_, _, rfl, by simp [StartsOperand, minus.kind_eq]⟩
  | group opening inner closing => exact ⟨_, _, rfl, by simp [StartsOperand, opening.kind_eq]⟩
  | name word => exact ⟨_, _, rfl, by simp [StartsOperand, word.kind_eq]⟩
  | braced opening word closing => exact ⟨_, _, rfl, by simp [StartsOperand, opening.kind_eq]⟩
  | call callee opening inner closing => exact ⟨_, _, rfl, by simp [StartsOperand, callee.kind_eq]⟩

theorem Chain.exists_tokens (c : Chain) : ∃ t ts, c.tokens = t :: ts ∧ StartsOperand t.kind := by
  cases c with
  | mk first more =>
    obtain ⟨t, ts, e, starts⟩ := first.exists_tokens
    exact ⟨t, ts ++ more.tokens, by rw [Chain.tokens, e]; rfl, starts⟩

/-- Of the kinds that an operand starts with only `-` is an operator. -/
theorem StartsOperand.operator {kind : TokenKind} (h : StartsOperand kind) (ne : kind ≠ .sub) :
    Operator.ofKind? kind = none := by
  rcases h with rfl | rfl | rfl | rfl | rfl | rfl <;> first | rfl | exact absurd rfl ne

theorem StartsOperand.ne_closing {kind : TokenKind} (h : StartsOperand kind) :
    kind ≠ .rightParen ∧ kind ≠ .eof ∧ kind ≠ .comma := by
  rcases h with rfl | rfl | rfl | rfl | rfl | rfl <;> decide

theorem Chain.ne_closing {c : Chain} {s : ParseState} {rest : List Token}
    (e : s.cursor.rest = c.tokens ++ rest) :
    s.kind ≠ .rightParen ∧ s.kind ≠ .eof ∧ s.kind ≠ .comma := by
  obtain ⟨t, ts, e', starts⟩ := c.exists_tokens
  rw [e'] at e
  rw [kind_of_rest e]
  exact starts.ne_closing

/-! ## Tails -/

namespace Tail

/-- How many operators a tail has. -/
def length : Tail → Nat
  | .nil => 0
  | .cons _ _ more => more.length + 1

/-- Every operand of a tail has the property. -/
def All (p : Operand → Prop) : Tail → Prop
  | .nil => True
  | .cons _ operand more => p operand ∧ more.All p

theorem length_append : ∀ m n : Tail, (m.append n).length = m.length + n.length
  | .nil, _ => (Nat.zero_add _).symm
  | .cons _ _ more, n => by
    simp only [append, length, length_append more n]
    omega

theorem all_append {p : Operand → Prop} : ∀ {m n : Tail}, (m.append n).All p ↔ m.All p ∧ n.All p
  | .nil, _ => (iff_of_eq (true_and _)).symm
  | .cons _ _ _, n => by
    simp only [append, All, all_append (n := n), and_assoc]

/-- A tail is cut in front of the first operator that binds looser than some level. -/
theorem exists_append (scope : Scope) (level : Nat) (m : Tail) : ∃ inner outer : Tail,
    m = inner.append outer ∧ (∀ p ∈ inner.operands scope, level ≤ p.1.precedence) ∧
      ∀ p ∈ (outer.operands scope).head?, p.1.precedence < level := by
  cases m with
  | nil =>
    refine ⟨.nil, .nil, rfl, List.forall_mem_nil _, ?_⟩
    rintro p ⟨⟩
  | cons sign operand more =>
    by_cases tight : level ≤ sign.operator.precedence
    · obtain ⟨inner, outer, rfl, above, loose⟩ := exists_append scope level more
      refine ⟨.cons sign operand inner, outer, rfl, ?_, loose⟩
      exact List.forall_mem_cons.mpr ⟨tight, above⟩
    · refine ⟨.nil, .cons sign operand more, rfl, List.forall_mem_nil _, ?_⟩
      intro p hp
      cases hp
      exact Nat.not_le.mp tight

/-- Behind a tail that starts with a loose operator, or with none, a climb stops. -/
theorem stops_append {scope : Scope} {level : Nat} {m : Tail} {rest : List Token}
    (loose : ∀ p ∈ (m.operands scope).head?, p.1.precedence < level) (stops : Stops level rest) :
    Stops level (m.tokens ++ rest) := by
  cases m with
  | nil => exact stops
  | cons sign operand more =>
    intro t ht op e
    cases ht
    rw [sign.operator_eq] at e
    cases e
    exact loose _ rfl

end Tail

variable {scope : Scope}

/-- An operand is read as such wherever it fits. -/
def Readable (scope : Scope) (x : Operand) : Prop :=
  ∀ (s : ParseState) (rest : List Token), s.cursor.rest = x.tokens ++ rest →
    Fits s x.size x.nesting → ∃ next, Reads scope .operand s (some (x.tree scope)) next ∧
      Takes s x.tokens x.size next

theorem Takes.rest_eq {s next : ParseState} {tokens rest : List Token} {size : Nat}
    (h : Takes s tokens size next) (e : s.cursor.rest = tokens ++ rest) : next.cursor.rest = rest :=
  List.append_cancel_left (h.rest.symm.trans e)

/-! ## Climbing

`Climbs` is about every state, every precedence and every tree to the left,
since the same tail is met with different ones: as what an operand takes,
and as what is left behind it. -/

/-- A tail is folded onto what stands left of it wherever it fits. -/
def Climbs (scope : Scope) (m : Tail) : Prop :=
  ∀ (least : Nat) (left : Expr) (s : ParseState) (rest : List Token),
    s.cursor.rest = m.tokens ++ rest → Stops least rest → Fits s m.size (m.nesting 0) →
      (∀ p ∈ m.operands scope, least ≤ p.1.precedence) →
        ∃ next, Reads scope (.climb least left) s (group left (m.operands scope)) next ∧
          Takes s m.tokens m.size next

/-- The right operand of an operator takes what binds tightly enough. -/
theorem reads_tighten {m : Tail} (climbs : Climbs scope m) {op : Operator} (right : Expr)
    {s : ParseState} {rest : List Token} (e : s.cursor.rest = m.tokens ++ rest)
    (stops : Stops (rightLevel op) rest) (fits : Fits s m.size (m.nesting (runBehind op)))
    (above : ∀ p ∈ m.operands scope, rightLevel op ≤ p.1.precedence) :
    ∃ next, Reads scope (.tighten op right) s (group right (m.operands scope)) next ∧
      Takes s m.tokens m.size next := by
  have first : ∀ p ∈ (m.operands scope).head?, s.operator? = some p.1 := operator?_of_tail e
  cases m with
  | nil => exact ⟨s, .tightenStop (stops_rest.mp (e ▸ stops)), .refl s⟩
  | cons sign operand more =>
    have operator : s.operator? = some sign.operator := first _ rfl
    have tight : rightLevel op ≤ sign.operator.precedence := above _ List.mem_cons_self
    by_cases pow : op = .pow
    · -- all of the tail are `^`, and the climb goes on one deeper
      subst pow
      have all : ∀ p ∈ (Tail.cons sign operand more).operands scope, p.1 = .pow :=
        fun p hp => eq_pow_of_precedence (above p hp)
      have same : sign.operator = .pow := all _ List.mem_cons_self
      rw [runBehind, if_pos rfl, Tail.nesting_succ (m := .cons sign operand more) (by simp)
          all 0] at fits
      obtain ⟨next, reads, takes⟩ := climbs 3 right s.enter rest e stops fits.enter above
      refine ⟨next.leave, .tightenSame operator ?_ rfl fits.not_tooDeep reads, takes.leave⟩
      rw [same]
    · rw [rightLevel_of_ne_pow pow] at tight stops above
      rw [runBehind, if_neg pow] at fits
      obtain ⟨next, reads, takes⟩ := climbs (op.precedence + 1) right s rest e stops fits above
      exact ⟨next, .tightenTighter operator tight reads, takes⟩

theorem takes_sign {s : ParseState} {sign : Sign} {rest : List Token}
    (e : s.cursor.rest = sign.token :: rest) :
    s.operator? = some sign.operator ∧ Takes s [sign.token] 1 (s.claim 1).advance := by
  have operator : s.operator? = some sign.operator := by
    rw [← sign.operator_eq]
    exact congrArg Operator.ofKind? (kind_of_rest e)
  refine ⟨operator, ?_⟩
  rw [← current_of_rest e]
  exact (Takes.claim s 1).trans (.advance (remaining_pos_of_operator operator))

/-- An operator is folded with what its right operand takes, and the climb goes on behind that. -/
theorem climbs_cons {sign : Sign} {x : Operand} {inner outer : Tail} (readable : Readable scope x)
    (climbsInner : Climbs scope inner) (climbsOuter : Climbs scope outer)
    (aboveInner : ∀ p ∈ inner.operands scope, rightLevel sign.operator ≤ p.1.precedence)
    (loose : ∀ p ∈ (outer.operands scope).head?, p.1.precedence < rightLevel sign.operator) :
    Climbs scope (.cons sign x (inner.append outer)) := by
  intro least left s rest e stops fits above
  rw [Tail.operands, Tail.operands_append, List.forall_mem_cons, List.forall_mem_append] at above
  obtain ⟨tight, -, aboveOuter⟩ := above
  rw [Tail.size, Tail.size_append, Tail.nesting_cons_append x loose, Nat.add_assoc] at fits
  rw [Tail.tokens, Tail.tokens_append] at e
  -- the operator, its operand, what the operand takes, and the rest
  have large : ¬ s.tooLarge 1 := fits.not_tooLarge (by omega) (by omega)
  obtain ⟨operator, taken⟩ := takes_sign e
  have e₁ :
      (s.claim 1).advance.cursor.rest = x.tokens ++ (inner.tokens ++ (outer.tokens ++ rest)) := by
    simpa using taken.rest_eq e
  have fits₁ := fits.behind taken
  obtain ⟨next₁, reads₁, takes₁⟩ := readable _ _ e₁
    (fits₁.mono (Nat.le_add_right _ _) (Nat.le_max_left _ _))
  have fits₂ := fits₁.behind takes₁
  have stops₂ : Stops (rightLevel sign.operator) (outer.tokens ++ rest) :=
    Tail.stops_append loose (stops.mono (Nat.le_trans tight (precedence_le_rightLevel _)))
  obtain ⟨next₂, reads₂, takes₂⟩ := reads_tighten climbsInner (x.tree scope)
    (takes₁.rest_eq e₁) stops₂
    (fits₂.mono (Nat.le_add_right _ _) (Nat.le_trans (Nat.le_max_left _ _) (Nat.le_max_right _ _)))
    aboveInner
  have fits₃ := fits₂.behind takes₂
  obtain ⟨next₃, reads₃, takes₃⟩ := climbsOuter least
    (.binary sign.operator left (group (x.tree scope) (inner.operands scope))) next₂ rest
    (takes₂.rest_eq (takes₁.rest_eq e₁)) stops
    (fits₃.mono (Nat.le_refl _) (Nat.le_trans (Nat.le_max_right _ _) (Nat.le_max_right _ _)))
    aboveOuter
  refine ⟨next₃, ?_, ?_⟩
  · rw [Tail.operands, Tail.operands_append, group_cons_append _ _ _ aboveInner loose]
    exact .climb operator tight large reads₁ reads₂ reads₃
  · rw [Tail.tokens, Tail.tokens_append, Tail.size, Tail.size_append, Nat.add_assoc]
    exact taken.trans (takes₁.trans (takes₂.trans takes₃))

theorem climbs_nil : Climbs scope .nil := fun _ _ s _ e stops _ _ =>
  ⟨s, .climbStop (stops_rest.mp (e ▸ stops)), .refl s⟩

theorem climbs_of_length (n : Nat) : ∀ m : Tail, m.length ≤ n → m.All (Readable scope) →
    Climbs scope m := by
  induction n with
  | zero =>
    intro m short _
    cases m with
    | nil => exact climbs_nil
    | cons => exact absurd short (Nat.not_succ_le_zero _)
  | succ n ih =>
    intro m short all
    cases m with
    | nil => exact climbs_nil
    | cons sign x more =>
      obtain ⟨inner, outer, rfl, aboveInner, loose⟩ :=
        Tail.exists_append scope (rightLevel sign.operator) more
      obtain ⟨readable, all⟩ := all
      obtain ⟨allInner, allOuter⟩ := Tail.all_append.mp all
      rw [Tail.length, Tail.length_append] at short
      exact climbs_cons readable (ih inner (by omega) allInner) (ih outer (by omega) allOuter)
        aboveInner
        loose

/-! ## Operands -/

/-- A chain is read as such wherever it fits and no operator follows it. -/
def ReadableChain (scope : Scope) (c : Chain) : Prop :=
  ∀ (s : ParseState) (rest : List Token), s.cursor.rest = c.tokens ++ rest → Stops 1 rest →
    Fits s c.size c.nesting → ∃ next, Reads scope .chain s (some (c.tree scope)) next ∧
      Takes s c.tokens c.size next

/-- Arguments are read as such wherever they fit and a closing parenthesis follows them. -/
def ReadableArguments (scope : Scope) (a : Arguments) : Prop :=
  ∀ (s : ParseState) (closing : TokenOf .rightParen) (rest : List Token),
    s.cursor.rest = a.tokens ++ closing.token :: rest →
      Fits s a.size a.nesting → ∃ next, Reads scope .arguments s (some (a.trees scope)) next ∧
        Takes s a.tokens a.size next

/-- The inside of an operand lies one deeper. -/
theorem readable_of_primary {x : Operand} (inside : Nat) (nesting : x.nesting = inside + 1)
    (primary : ∀ (s : ParseState) (rest : List Token), s.cursor.rest = x.tokens ++ rest →
      Fits s x.size inside → ∃ next, Reads scope .primary s (some (x.tree scope)) next ∧
        Takes s x.tokens x.size next) : Readable scope x := by
  intro s rest e fits
  rw [nesting] at fits
  obtain ⟨next, reads, takes⟩ := primary s.enter rest e fits.enter
  exact ⟨next.leave, .operand fits.not_tooDeep reads, takes.leave⟩

theorem takes_first {s : ParseState} {t : Token} {rest : List Token}
    (e : s.cursor.rest = t :: rest) :
    Takes s [t] 0 s.advance := by
  have pos : 0 < s.remaining := by rw [remaining, e]; exact Nat.succ_pos _
  rw [← current_of_rest e]
  exact .advance pos

theorem readable_number (digits : TokenOf .number) : Readable scope (.number digits) := by
  refine readable_of_primary 0 rfl fun s rest e fits => ?_
  have kind : s.kind = .number := (kind_of_rest e).trans digits.kind_eq
  have large : ¬ s.tooLarge 1 := fits.not_tooLarge (Nat.le_refl 1) Nat.one_pos
  have tree : (s.claim 1).readNumber.1 = .number (numberOf digits.token.text) := by
    rw [fst_readNumber, current_of_rest (s := s.claim 1) e]
  have takes : Takes (s.claim 1) [digits.token] 0 (s.claim 1).readNumber.2 := by
    rw [← current_of_rest (s := s.claim 1) e]
    exact .readNumber (remaining_pos (by rw [kind_claim, kind]; decide))
  have reads : Reads scope .primary s _ (s.claim 1).readNumber.2 := .number kind large
  rw [tree] at reads
  exact ⟨_, reads, (Takes.claim s 1).trans takes⟩

theorem readable_negation (minus : TokenOf .sub) {x : Operand} (readable : Readable scope x) :
    Readable scope (.negation minus x) := by
  refine readable_of_primary _ (Nat.add_comm 1 _) fun s rest e fits => ?_
  have kind : s.kind = .sub := (kind_of_rest e).trans minus.kind_eq
  have large : ¬ s.tooLarge 2 :=
    fits.not_tooLarge (Nat.le_add_right _ _) (Nat.add_pos_left (by decide) _)
  have taken : Takes s [minus.token] 2 (s.claim 2).advance :=
    (Takes.claim s 2).trans (takes_first (s := s.claim 2) e)
  obtain ⟨next, reads, takes⟩ := readable _ rest (taken.rest_eq e) (fits.behind taken)
  exact ⟨next, .negation kind large reads, taken.trans takes⟩

theorem Operand.tokens_group_append (opening : TokenOf .leftParen) (c : Chain)
    (closing : TokenOf .rightParen) (rest : List Token) :
    (Operand.group opening c closing).tokens ++ rest =
      opening.token :: (c.tokens ++ closing.token :: rest) := by
  rw [Operand.tokens, List.cons_append, List.append_assoc, List.singleton_append]

theorem Operand.tokens_call_append (callee : TokenOf .functionName) (opening : TokenOf .leftParen)
    (a : Arguments) (closing : TokenOf .rightParen) (rest : List Token) :
    (Operand.call callee opening a closing).tokens ++ rest =
      callee.token :: opening.token :: (a.tokens ++ closing.token :: rest) := by
  rw [Operand.tokens, List.cons_append, List.cons_append, List.append_assoc, List.singleton_append]

theorem readable_group (opening : TokenOf .leftParen) {c : Chain} (closing : TokenOf .rightParen)
    (readable : ReadableChain scope c) : Readable scope (.group opening c closing) := by
  refine readable_of_primary _ (Nat.add_comm 1 _) fun s rest e fits => ?_
  rw [Operand.tokens_group_append] at e
  have kind : s.kind = .leftParen := (kind_of_rest e).trans opening.kind_eq
  have taken : Takes s [opening.token] 0 s.advance := takes_first e
  have e₁ : s.advance.cursor.rest = c.tokens ++ closing.token :: rest := taken.rest_eq e
  have inside : s.advance.kind ≠ .rightParen := (Chain.ne_closing e₁).1
  obtain ⟨next, reads, takes⟩ := readable s.advance (closing.token :: rest) e₁
    (stops_of_kind closing.kind_eq rfl) (fits.past taken)
  have e₂ : next.cursor.rest = closing.token :: rest := takes.rest_eq e₁
  have reads' := Reads.group kind inside reads
  rw [closeGroup, if_pos ((kind_of_rest e₂).trans closing.kind_eq)] at reads'
  refine ⟨next.advance, reads', ?_⟩
  have all := taken.trans (takes.trans (takes_first e₂))
  rw [Nat.add_zero, Nat.zero_add] at all
  exact all

theorem readable_name {word : TokenOf .variableName} (known : Known scope [word.token]) :
    Readable scope (.name word) := by
  refine readable_of_primary 0 rfl fun s rest e fits => ?_
  have kind : s.kind = .variableName := (kind_of_rest e).trans word.kind_eq
  have large : ¬ s.tooLarge 1 := fits.not_tooLarge (Nat.le_refl 1) Nat.one_pos
  obtain ⟨value, bound⟩ := known_variable known
  have current : (s.claim 1).current = word.token := current_of_rest (s := s.claim 1) e
  have read :
      (s.claim 1).readVariable scope = (.var word.token.text value, (s.claim 1).advance) := by
    rw [readVariable_of_bound (by rw [current]; exact bound), current]
  have reads : Reads scope .primary s _ _ := .variableName kind large
  rw [read] at reads
  rw [Operand.tree, variableOf_of_bound bound]
  exact ⟨_, reads, (Takes.claim s 1).trans (takes_first (s := s.claim 1) e)⟩

theorem readable_braced (opening : TokenOf .leftBrace) {word : TokenOf .variableName}
    (closing : TokenOf .rightBrace) (known : Known scope [word.token]) :
    Readable scope (.braced opening word closing) := by
  refine readable_of_primary 0 rfl fun s rest e fits => ?_
  have kind : s.kind = .leftBrace := (kind_of_rest e).trans opening.kind_eq
  have taken : Takes s [opening.token] 0 s.advance := takes_first e
  have e₁ : s.advance.cursor.rest = word.token :: closing.token :: rest := taken.rest_eq e
  have kind₁ : s.advance.kind = .variableName := (kind_of_rest e₁).trans word.kind_eq
  have large : ¬ s.advance.tooLarge 1 := fits.not_tooLarge (Nat.le_refl 1) Nat.one_pos
  have taken₁ : Takes s.advance [word.token] 1 (s.advance.claim 1).advance :=
    (Takes.claim s.advance 1).trans (takes_first (s := s.advance.claim 1) e₁)
  have e₂ : (s.advance.claim 1).advance.cursor.rest = closing.token :: rest := taken₁.rest_eq e₁
  obtain ⟨value, bound⟩ := known_variable known
  have bound₁ : scope.bindings.get? s.advance.current.text = some value := by
    rw [current_of_rest e₁]
    exact bound
  have read := readBraced_of_bound kind₁ large ((kind_of_rest e₂).trans closing.kind_eq) bound₁
  have reads : Reads scope .primary s _ _ := .braced kind
  rw [read, current_of_rest e₁] at reads
  rw [Operand.tree, variableOf_of_bound bound]
  exact ⟨_, reads, taken.trans (taken₁.trans (takes_first e₂))⟩

theorem takes_opening {s : ParseState} {callee : TokenOf .functionName}
    {opening : TokenOf .leftParen} {rest : List Token} {size nesting : Nat}
    (e : s.cursor.rest = callee.token :: opening.token :: rest) (fits : Fits s (1 + size) nesting) :
    s.kind = .functionName ∧ ¬ s.tooLarge 1 ∧ (s.claim 1).advance.kind = .leftParen ∧
      Takes s [callee.token, opening.token] 1 (s.claim 1).advance.advance := by
  have kind : s.kind = .functionName := (kind_of_rest e).trans callee.kind_eq
  have large : ¬ s.tooLarge 1 :=
    fits.not_tooLarge (Nat.le_add_right _ _) (Nat.add_pos_left (by decide) _)
  have taken : Takes s [callee.token] 1 (s.claim 1).advance :=
    (Takes.claim s 1).trans (takes_first (s := s.claim 1) e)
  have e₁ : (s.claim 1).advance.cursor.rest = opening.token :: rest := taken.rest_eq e
  exact ⟨kind, large, (kind_of_rest e₁).trans opening.kind_eq, taken.trans (takes_first e₁)⟩

theorem readable_call {callee : TokenOf .functionName} (opening : TokenOf .leftParen)
    {a : Arguments} (closing : TokenOf .rightParen) (known : Known scope [callee.token])
    (readable : ReadableArguments scope a) : Readable scope (.call callee opening a closing) := by
  refine readable_of_primary _ (Nat.add_comm 1 _) fun s rest e fits => ?_
  rw [Operand.tokens_call_append] at e
  obtain ⟨kind, large, opens, taken⟩ := takes_opening e fits
  have e₁ : (s.claim 1).advance.advance.cursor.rest = a.tokens ++ closing.token :: rest :=
    taken.rest_eq e
  obtain ⟨next, reads, takes⟩ := readable _ closing rest e₁ (fits.behind taken)
  have e₂ : next.cursor.rest = closing.token :: rest := takes.rest_eq e₁
  obtain ⟨handle, found⟩ := known_function known
  have reads' := Reads.call kind large opens reads
  rw [current_of_rest e,
    closeCall_of_found _ ((kind_of_rest e₂).trans closing.kind_eq) found] at reads'
  rw [Operand.tree, callOf_of_found _ found]
  exact ⟨next.advance, reads', taken.trans (takes.trans (takes_first e₂))⟩

/-! ## Chains and arguments -/

theorem readableChain_mk {first : Operand} {more : Tail} (readable : Readable scope first)
    (all : more.All (Readable scope)) : ReadableChain scope (.mk first more) := by
  intro s rest e stops fits
  rw [Chain.tokens, List.append_assoc] at e
  obtain ⟨next, reads, takes⟩ := readable s _ e
    (fits.mono (Nat.le_add_right _ _) (Nat.le_max_left _ _))
  have above : ∀ p ∈ more.operands scope, 1 ≤ p.1.precedence := fun p _ => precedence_pos p.1
  obtain ⟨after, reads', takes'⟩ := climbs_of_length more.length more (Nat.le_refl _) all 1
    (first.tree scope) next rest (takes.rest_eq e) stops
    ((fits.behind takes).mono (Nat.le_refl _) (Nat.le_max_right _ _)) above
  exact ⟨after, .chain reads reads', takes.trans takes'⟩

theorem readableArguments_nil : ReadableArguments scope .nil := by
  intro s closing rest e fits
  exact ⟨s, .argumentsEnd (.inl ((kind_of_rest e).trans closing.kind_eq)), .refl s⟩

theorem readableArguments_comma (comma : TokenOf .comma) {more : Arguments}
    (readable : ReadableArguments scope more) : ReadableArguments scope (.comma comma more) := by
  intro s closing rest e fits
  have taken : Takes s [comma.token] 0 s.advance := takes_first e
  obtain ⟨next, reads, takes⟩ := readable s.advance closing rest (taken.rest_eq e) (fits.past taken)
  refine ⟨next, .comma ((kind_of_rest e).trans comma.kind_eq) reads, ?_⟩
  have all := taken.trans takes
  rw [Nat.zero_add] at all
  exact all

/-- Behind an argument no operator follows. -/
theorem stops_arguments {a : Arguments} (separated : a.Separated true)
    (closing : TokenOf .rightParen)
    (rest : List Token) : Stops 1 (a.tokens ++ closing.token :: rest) := by
  cases a with
  | nil => exact stops_of_kind closing.kind_eq rfl
  | comma comma more => exact stops_of_kind comma.kind_eq rfl
  | cons c more =>
    obtain ⟨t, ts, e, starts⟩ := c.exists_tokens
    have ne : t.kind ≠ .sub := separated.1 rfl t (by rw [e]; rfl)
    rw [Arguments.tokens, e]
    exact stops_of_kind rfl (starts.operator ne)

theorem readableArguments_cons {c : Chain} {more : Arguments} (separated : more.Separated true)
    (readable : ReadableChain scope c) (readable' : ReadableArguments scope more) :
    ReadableArguments scope (.cons c more) := by
  intro s closing rest e fits
  rw [Arguments.tokens, List.append_assoc] at e
  obtain ⟨next, reads, takes⟩ := readable s _ e (stops_arguments separated closing rest)
    (fits.mono (Nat.le_add_right _ _) (Nat.le_max_left _ _))
  obtain ⟨after, reads', takes'⟩ := readable' next closing rest (takes.rest_eq e)
    ((fits.behind takes).mono (Nat.le_refl _) (Nat.le_max_right _ _))
  obtain ⟨paren, eof, comma⟩ := Chain.ne_closing e
  exact ⟨after, .argument (fun h => h.elim paren eof) comma reads reads', takes.trans takes'⟩

/-! ## All phrases -/

mutual

theorem Operand.readable (scope : Scope) : ∀ x : Operand, x.Separated → Known scope x.tokens →
    Readable scope x
  | .number digits, _, _ => readable_number digits
  | .negation minus inner, separated, known =>
    readable_negation minus (inner.readable scope separated (known_cons.mp known).2)
  | .group opening inner closing, separated, known =>
    readable_group opening closing
      (inner.readable scope separated (known_append.mp (known_cons.mp known).2).1)
  | .name _, _, known => readable_name known
  | .braced opening _ closing, _, known =>
    readable_braced opening closing (known_cons.mp (known_cons.mp known).2).1
  | .call _ opening inner closing, separated, known =>
    readable_call opening closing (known_cons.mp known).1
      (inner.readable scope separated (known_append.mp (known_cons.mp (known_cons.mp known).2).2).1)

theorem Chain.readable (scope : Scope) : ∀ c : Chain, c.Separated → Known scope c.tokens →
    ReadableChain scope c
  | .mk first more, separated, known =>
    readableChain_mk (first.readable scope separated.1 (known_append.mp known).1)
      (more.readable scope separated.2 (known_append.mp known).2)

theorem Tail.readable (scope : Scope) : ∀ m : Tail, m.Separated → Known scope m.tokens →
    m.All (Readable scope)
  | .nil, _, _ => trivial
  | .cons _ operand more, separated, known =>
    ⟨operand.readable scope separated.1 (known_append.mp (known_cons.mp known).2).1,
      more.readable scope separated.2 (known_append.mp (known_cons.mp known).2).2⟩

theorem Arguments.readable (scope : Scope) : ∀ (a : Arguments) {behind : Bool}, a.Separated behind →
    Known scope a.tokens → ReadableArguments scope a
  | .nil, _, _, _ => readableArguments_nil
  | .comma comma more, _, separated, known =>
    readableArguments_comma comma (more.readable scope separated (known_cons.mp known).2)
  | .cons first more, _, separated, known =>
    readableArguments_cons separated.2.2
      (first.readable scope separated.2.1 (known_append.mp known).1)
      (more.readable scope separated.2.2 (known_append.mp known).2)

end

end Arith.Grammar
