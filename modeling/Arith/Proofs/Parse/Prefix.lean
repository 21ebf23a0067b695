/-
# The first error is decided by the tokens read so far

Two parses over lists that agree on their first `b` tokens go step by step
through the same configurations, apart from the tokens that lie at `b` or
beyond (`Agree`), for as long as the cursor stands in front of `b`
(`agree_step`).  When it arrives at `b`, both have made the same notes, and
from there on each only adds notes made at `b` or later (`Grows`).  So a
first error found in front of `b` is the first error of both.

A missing function is noted when its closing parenthesis has just been
passed, before the token behind it is looked at; that is why `Note.MadeIn`
has it found strictly later than `b`.

The two states are compared by their fields: place, depth, claimed nodes and
notes are the same, and so are the tokens that are left, as many as there
are up to `b`.  Every small step that is made in front of `b` looks at the
current token at most, which is the same for both.  The step that arrives at
`b` may be in the middle of a reader, which is why the machine is compared
and not the readers.
-/
import Arith.Proofs.Parse.Notes

namespace Arith

/-- The error in a note, and where it was found. -/
def Note.placed? : Note → Option (ParseError × Nat)
  | .error e position => some (e, position)
  | .malformedNumber _ => none

namespace Journal

/-- The errors and where they were found, the first one first. -/
def placed (j : Journal) : List (ParseError × Nat) := j.notes.reverse.filterMap Note.placed?

theorem map_placed (j : Journal) : j.placed.map (·.1) = j.errors := by
  rw [placed, errors, List.map_filterMap]
  congr 1
  funext n
  cases n <;> rfl

theorem first?_eq (j : Journal) : j.first? = j.placed.head?.map (·.1) := by
  rw [first?, ← map_placed, List.head?_map]

/-- A note that was not made at `b` or later stands in the part of a journal to which only such
notes were added. -/
theorem head?_placed_of_append {j k : Journal} {new : List Note} {b stop : Nat} {e : ParseError}
    {c : Nat} (notes : j.notes = new ++ k.notes) (made : ∀ n ∈ new, n.MadeIn b stop)
    (early : ¬ (Note.error e c).MadeIn b stop) (head : j.placed.head? = some (e, c)) :
    k.placed.head? = some (e, c) := by
  have split : j.placed = k.placed ++ new.reverse.filterMap Note.placed? := by
    rw [placed, placed, notes, List.reverse_append, List.filterMap_append]
  rw [split] at head
  cases first : k.placed with
  | cons _ _ =>
    rw [first] at head
    exact head
  | nil =>
    rw [first, List.nil_append] at head
    obtain ⟨n, hn, e'⟩ := List.mem_filterMap.mp (List.mem_of_mem_head? head)
    cases n with
    | error e' c' =>
      cases e'
      exact absurd (made _ (List.mem_reverse.mp hn)) early
    | malformedNumber _ => cases e'

end Journal

namespace Parse

open ParseState

/-! ## Agreement up to a place

One lemma for each small step: what comes out is the same, and the states
behind it agree again. -/

/-- Two states of parses over lists that agree up to `b`, which neither has passed. -/
structure Agree (b : Nat) (s t : ParseState) : Prop where
  position : t.position = s.position
  depth : t.depth = s.depth
  claimed : t.claimed = s.claimed
  journal : t.journal = s.journal
  le : s.position ≤ b
  ahead : t.cursor.rest.take (b - s.position) = s.cursor.rest.take (b - s.position)
  left : b - s.position ≤ s.remaining
  right : b - s.position ≤ t.remaining

namespace Agree

variable {b : Nat} {s t : ParseState}

/-- In front of `b` both stand at the same token. -/
theorem exists_cons (h : Agree b s t) (inside : s.position < b) :
    ∃ x xs ys, s.cursor.rest = x :: xs ∧ t.cursor.rest = x :: ys ∧
      ys.take (b - s.position - 1) = xs.take (b - s.position - 1) := by
  obtain ⟨k, hk⟩ : ∃ k, b - s.position = k + 1 := ⟨b - s.position - 1, by omega⟩
  have left := h.left
  have right := h.right
  have ahead := h.ahead
  rw [hk] at ahead
  cases hs : s.cursor.rest with
  | nil => rw [remaining, hs, List.length_nil] at left; omega
  | cons x xs =>
    cases ht : t.cursor.rest with
    | nil => rw [remaining, ht, List.length_nil] at right; omega
    | cons y ys =>
      rw [hs, ht, List.take_succ_cons, List.take_succ_cons, List.cons.injEq] at ahead
      obtain ⟨rfl, ahead⟩ := ahead
      exact ⟨y, xs, ys, rfl, rfl, by rw [hk]; exact ahead⟩

theorem current (h : Agree b s t) (inside : s.position < b) : t.current = s.current := by
  obtain ⟨x, xs, ys, hs, ht, -⟩ := h.exists_cons inside
  rw [ParseState.current, ParseState.current, Cursor.current, Cursor.current, hs, ht]
  rfl

theorem kind (h : Agree b s t) (inside : s.position < b) : t.kind = s.kind :=
  congrArg Token.kind (h.current inside)

theorem operator? (h : Agree b s t) (inside : s.position < b) : t.operator? = s.operator? :=
  congrArg Operator.ofKind? (h.kind inside)

theorem tooDeep (h : Agree b s t) : t.tooDeep = s.tooDeep := by
  rw [ParseState.tooDeep, ParseState.tooDeep, h.depth]

theorem tooLarge (h : Agree b s t) (count : Nat) : t.tooLarge count = s.tooLarge count := by
  rw [ParseState.tooLarge, ParseState.tooLarge, h.claimed]

/-- Both may move past their current token. -/
theorem advance (h : Agree b s t) (inside : s.position < b) : Agree b s.advance t.advance := by
  obtain ⟨x, xs, ys, hs, ht, tails⟩ := h.exists_cons inside
  have ps : s.advance.position = s.position + 1 :=
    position_advance (by rw [remaining, hs]; exact Nat.succ_pos _)
  have pt : t.advance.position = t.position + 1 :=
    position_advance (by rw [remaining, ht]; exact Nat.succ_pos _)
  have left := h.left
  have right := h.right
  refine ⟨by rw [ps, pt, h.position], h.depth, h.claimed, h.journal, by omega, ?_, ?_, ?_⟩
  · rw [ps, ParseState.advance, ParseState.advance, Cursor.rest_advance, Cursor.rest_advance, hs,
      ht, ← Nat.sub_sub]
    exact tails
  · rw [ps, remaining_advance]; omega
  · rw [ps, remaining_advance]; omega

theorem note (h : Agree b s t) (n : Note) : Agree b (s.note n) (t.note n) :=
  ⟨h.position, h.depth, h.claimed, congrArg (·.note n) h.journal, h.le, h.ahead, h.left, h.right⟩

theorem claim (h : Agree b s t) (count : Nat) : Agree b (s.claim count) (t.claim count) :=
  ⟨h.position, h.depth, congrArg (· + count) h.claimed, h.journal, h.le, h.ahead, h.left, h.right⟩

theorem enter (h : Agree b s t) : Agree b s.enter t.enter :=
  ⟨h.position, congrArg (· + 1) h.depth, h.claimed, h.journal, h.le, h.ahead, h.left, h.right⟩

theorem leave (h : Agree b s t) : Agree b s.leave t.leave :=
  ⟨h.position, congrArg (· - 1) h.depth, h.claimed, h.journal, h.le, h.ahead, h.left, h.right⟩

theorem faultAt (h : Agree b s t) (span : Span) (f : ParseFault) :
    Agree b (s.faultAt span f) (t.faultAt span f) := by
  rw [ParseState.faultAt, ParseState.faultAt, h.position]
  exact h.note _

theorem fault (h : Agree b s t) (inside : s.position < b) (f : ParseFault) :
    Agree b (s.fault f) (t.fault f) := by
  rw [ParseState.fault, ParseState.fault, h.current inside]
  exact h.faultAt _ f

theorem readNumber (h : Agree b s t) (inside : s.position < b) :
    t.readNumber.1 = s.readNumber.1 ∧ Agree b s.readNumber.2 t.readNumber.2 := by
  unfold ParseState.readNumber
  rw [h.current inside]
  split
  · exact ⟨rfl, h.advance inside⟩
  · exact ⟨rfl, (h.note _).advance inside⟩

theorem readVariable (h : Agree b s t) (scope : Scope) (inside : s.position < b) :
    (t.readVariable scope).1 = (s.readVariable scope).1 ∧
      Agree b (s.readVariable scope).2 (t.readVariable scope).2 := by
  unfold ParseState.readVariable
  rw [h.current inside]
  dsimp only
  split
  · exact ⟨rfl, h.advance inside⟩
  · exact ⟨rfl, (h.fault inside _).advance inside⟩

theorem closeBrace (h : Agree b s t) (name : String) (inside : s.position < b) :
    Agree b (s.closeBrace name) (t.closeBrace name) := by
  unfold ParseState.closeBrace
  rw [h.kind inside, h.current inside]
  split
  · exact h.advance inside
  · exact h.fault inside _

theorem closeEmptyParentheses (h : Agree b s t) (opening : Token) (inside : s.position < b) :
    Agree b (s.closeEmptyParentheses opening) (t.closeEmptyParentheses opening) := by
  unfold ParseState.closeEmptyParentheses
  rw [h.current inside]
  exact (h.faultAt _ _).advance inside

theorem closeGroup (h : Agree b s t) (tree : Option Expr) (inside : s.position < b) :
    (t.closeGroup tree).1 = (s.closeGroup tree).1 ∧
      Agree b (s.closeGroup tree).2 (t.closeGroup tree).2 := by
  unfold ParseState.closeGroup
  rw [h.kind inside, h.current inside]
  split
  · exact ⟨rfl, h.advance inside⟩
  · exact ⟨rfl, h.fault inside _⟩

theorem closeCall (h : Agree b s t) (scope : Scope) (name : Token) (trees : Option (List Expr))
    (inside : s.position < b) :
    (t.closeCall scope name trees).1 = (s.closeCall scope name trees).1 ∧
      Agree b (s.closeCall scope name trees).2 (t.closeCall scope name trees).2 := by
  unfold ParseState.closeCall
  rw [h.kind inside, h.current inside]
  split
  · split
    · exact ⟨rfl, h.advance inside⟩
    · exact ⟨rfl, (h.advance inside).faultAt _ _⟩
  · exact ⟨rfl, h.fault inside _⟩

end Agree

/-- The same is to be done, or the same answer is given, in states that agree up to `b`. -/
inductive ConfigAgree (b : Nat) : Config → Config → Prop where
  | enter {s t : ParseState} (task : Task) (stack : List Frame) (states : Agree b s t) :
      ConfigAgree b (.enter task s stack) (.enter task t stack)
  | exit {s t : ParseState} (tree : Option Expr) (stack : List Frame) (states : Agree b s t) :
      ConfigAgree b (.exit tree s stack) (.exit tree t stack)

/-! ## One step in front of the place

Task by task and frame by frame.  Both machines take the same branch, since
it depends on nothing but the current token, the depth and the claimed
nodes. -/

section Steps

variable {scope : Scope} {b : Nat} {s t : ParseState}

theorem agree_startPrimary (h : Agree b s t) (inside : s.position < b) (stack : List Frame) :
    ConfigAgree b (startPrimary scope s stack) (startPrimary scope t stack) := by
  have tooLarge :
      ConfigAgree b (.exit none s.faultTooLarge stack) (.exit none t.faultTooLarge stack) :=
    .exit _ _ (h.fault inside _)
  unfold startPrimary
  simp only [h.kind inside, h.tooLarge, h.current inside]
  cases s.kind with
  | number =>
    dsimp only
    split
    · exact tooLarge
    · obtain ⟨tree, next⟩ := (h.claim 1).readNumber inside
      rw [tree]
      exact .exit _ _ next
  | sub =>
    dsimp only
    split
    · exact tooLarge
    · exact .enter _ _ ((h.claim 2).advance inside)
  | leftParen | leftBrace => exact .enter _ _ (h.advance inside)
  | variableName =>
    dsimp only
    split
    · exact tooLarge
    · obtain ⟨tree, next⟩ := (h.claim 1).readVariable scope inside
      rw [tree]
      exact .exit _ _ next
  | functionName =>
    dsimp only
    split
    · exact tooLarge
    · exact .enter _ _ ((h.claim 1).advance inside)
  | _ => exact .exit _ _ (h.fault inside _)

theorem agree_start (h : Agree b s t) (inside : s.position < b) (stack : List Frame) (task : Task) :
    ConfigAgree b (start scope s stack task) (start scope t stack task) := by
  cases task with
  | operand =>
    simp only [start, h.tooDeep]
    split
    · exact .exit _ _ (h.fault inside _)
    · exact .enter _ _ h.enter
  | primary => exact agree_startPrimary h inside stack
  | groupBody opening =>
    simp only [start, h.kind inside]
    split
    · exact .exit _ _ (h.closeEmptyParentheses opening inside)
    · exact .enter _ _ h
  | braceName =>
    simp only [start, h.kind inside, h.tooLarge, h.current inside]
    split
    · exact .exit _ _ (h.fault inside _)
    · split
      · exact .exit _ _ (h.fault inside _)
      · obtain ⟨tree, next⟩ := (h.claim 1).readVariable scope inside
        rw [tree]
        exact .enter _ _ next
  | closeBrace name tree => exact .exit _ _ (h.closeBrace name inside)
  | callOpening name =>
    simp only [start, h.kind inside, h.current inside]
    split
    · exact .enter _ _ (h.advance inside)
    · exact .exit _ _ (h.fault inside _)
  | argument name trees =>
    simp only [start, h.kind inside, h.position]
    split
    · obtain ⟨tree, next⟩ := h.closeCall scope name trees inside
      rw [tree]
      exact .exit _ _ next
    · split
      · exact .enter _ _ (h.advance inside)
      · exact .enter _ _ h
  | chain => exact .enter _ _ h
  | climb least left =>
    simp only [start, h.operator? inside, h.tooLarge]
    split
    · exact .exit _ _ h
    · split
      · exact .exit _ _ h
      · split
        · exact .exit _ _ (h.fault inside _)
        · exact .enter _ _ ((h.claim 1).advance inside)
  | tighten op right =>
    simp only [start, h.operator? inside, h.tooDeep]
    split
    · exact .exit _ _ h
    · split
      · exact .enter _ _ h
      · split
        · split
          · exact .exit _ _ (h.fault inside _)
          · exact .enter _ _ h.enter
        · exact .exit _ _ h

theorem agree_resume (h : Agree b s t) (inside : s.position < b) (tree : Option Expr)
    (stack : List Frame) (frame : Frame) :
    ConfigAgree b (resume tree s stack frame) (resume tree t stack frame) := by
  cases frame with
  | operand | samePrecedence => exact .exit _ _ h.leave
  | negation | climbing => exact .exit _ _ h
  | group =>
    obtain ⟨tree', next⟩ := h.closeGroup tree inside
    simp only [resume, tree']
    exact .exit _ _ next
  | chain =>
    cases tree with
    | none => exact .exit _ _ h
    | some left => exact .enter _ _ h
  | rightOperand least op left | tightened least op left =>
    cases tree with
    | none => exact .exit _ _ h
    | some right => exact .enter _ _ h
  | argument name trees before =>
    cases tree with
    | some tree => exact .enter _ _ h
    | none =>
      simp only [resume, h.position]
      split
      · exact .enter _ _ h
      · exact .enter _ _ (h.advance inside)

/-- As long as the cursor stands in front of the place, one step leads from agreement to
agreement. -/
theorem agree_step {c d : Config} (h : ConfigAgree b c d) (inside : c.state.position < b) :
    ConfigAgree b (step scope c) (step scope d) := by
  cases h with
  | enter task stack states => exact agree_start states inside stack task
  | exit tree stack states =>
    cases stack with
    | nil => exact .exit _ _ states
    | cons frame stack => exact agree_resume states inside tree stack frame

/-! ## A whole run -/

/-- After any number of steps the two runs still agree, or there was a moment at which they agreed
and the cursor had arrived at the place. -/
theorem agree_steps (n : Nat) {c d : Config} (h : ConfigAgree b c d) :
    ConfigAgree b (steps scope n c) (steps scope n d) ∨
      ∃ m ≤ n, ConfigAgree b (steps scope m c) (steps scope m d) ∧
        b ≤ (steps scope m c).state.position := by
  induction n generalizing c d with
  | zero => exact .inl h
  | succ n ih =>
    by_cases inside : c.state.position < b
    · obtain next | ⟨m, le, moment⟩ := ih (agree_step h inside)
      · exact .inl next
      · exact .inr ⟨m + 1, Nat.succ_le_succ le, moment⟩
    · exact .inr ⟨0, Nat.zero_le _, h, Nat.le_of_not_lt inside⟩

end Steps

/-! ## What two parses have in common -/

/-- A journal to which only notes made at `b` or later were added. -/
def ExtendedFrom (b : Nat) (j k : Journal) : Prop :=
  ∃ new stop, k.notes = new ++ j.notes ∧ ∀ n ∈ new, n.MadeIn b stop

theorem Grows.extendedFrom {b : Nat} {s t : ParseState} (h : Grows b s t) :
    ExtendedFrom b s.journal t.journal := by
  obtain ⟨new, notes, made⟩ := h.notes
  exact ⟨new, t.position, notes, made⟩

theorem ExtendedFrom.refl (b : Nat) (j : Journal) : ExtendedFrom b j j :=
  ⟨[], 0, rfl, List.forall_mem_nil _⟩

theorem grows_finish {b : Nat} (s : ParseState) (le : b ≤ s.position) : Grows b s s.finish := by
  unfold ParseState.finish
  split
  · exact .refl s
  · exact .fault le (by simp)

/-- Behind a run that never arrived at the place, both find the same tokens left over. -/
theorem Agree.finish {b : Nat} {s t : ParseState} (h : Agree b s t) (inside : s.position < b) :
    t.finish.journal = s.finish.journal := by
  obtain ⟨x, xs, ys, hs, ht, -⟩ := h.exists_cons inside
  have es : s.cursor.atEnd = false := by rw [Cursor.atEnd, hs]; rfl
  have et : t.cursor.atEnd = false := by rw [Cursor.atEnd, ht]; rfl
  rw [ParseState.finish, ParseState.finish, es, et, h.current inside]
  exact (h.fault inside _).journal

theorem agree_start_of_take {b : Nat} {xs ys : List Token} (agree : ys.take b = xs.take b)
    (left : b ≤ xs.length) : Agree b (.start xs) (.start ys) := by
  have right : b ≤ ys.length := by
    have lengths := congrArg List.length agree
    rw [List.length_take, List.length_take] at lengths
    omega
  exact ⟨rfl, rfl, rfl, rfl, Nat.zero_le _, agree, left, right⟩

/-- Parses over lists that agree on their first `b` tokens have a journal in common, to which each
adds only notes made at `b` or later. -/
theorem exists_common_journal (scope : Scope) {b : Nat} {xs ys : List Token}
    (agree : ys.take b = xs.take b) (left : b ≤ xs.length) :
    ∃ j, ExtendedFrom b j (run scope xs).2.journal ∧ ExtendedFrom b j (run scope ys).2.journal := by
  obtain ⟨m, hm⟩ := reaches_halt scope (.start xs)
  obtain ⟨n, hn⟩ := reaches_halt scope (.start ys)
  have hx : steps scope (m + n) (.enter .chain (.start xs) []) =
      .exit (chain scope (.start xs)).tree (chain scope (.start xs)).next [] := by
    rw [steps_add, hm, steps_halted]
  have hy : steps scope (m + n) (.enter .chain (.start ys) []) =
      .exit (chain scope (.start ys)).tree (chain scope (.start ys)).next [] := by
    rw [Nat.add_comm, steps_add, hn, steps_halted]
  obtain halted | ⟨k, le, moment, arrived⟩ :=
    @agree_steps scope b (m + n) _ _ (.enter .chain [] (agree_start_of_take agree left))
  -- Neither run has arrived at `b`, so they end alike, and what is left over may still be noted.
  · rw [hx, hy] at halted
    simp only [run]
    generalize (chain scope (.start xs)).next = s, (chain scope (.start xs)).tree = tree at *
    generalize (chain scope (.start ys)).next = t, (chain scope (.start ys)).tree = tree' at *
    cases halted with
    | exit _ _ states =>
      by_cases inside : s.position < b
      · refine ⟨s.finish.journal, .refl b _, ?_⟩
        rw [states.finish inside]
        exact .refl b _
      · have le : b ≤ s.position := Nat.le_of_not_lt inside
        refine ⟨s.journal, (grows_finish s le).extendedFrom, ?_⟩
        rw [← states.journal]
        exact (grows_finish t (by rw [states.position]; exact le)).extendedFrom
  -- Both have arrived, with the same notes; what they add from there on is made at `b` or later.
  · obtain ⟨r, hr⟩ := Nat.exists_eq_add_of_le le
    rw [hr, steps_add] at hx hy
    have growsX : Grows b _ (steps scope r _).state := grows_steps r _ arrived
    rw [hx] at growsX
    generalize steps scope k (.enter .chain (.start xs) []) = c at *
    generalize steps scope k (.enter .chain (.start ys) []) = d at *
    have states : Agree b c.state d.state := by cases moment <;> assumption
    have arrived' : b ≤ d.state.position := by rw [states.position]; exact arrived
    have growsY : Grows b _ (steps scope r _).state := grows_steps r _ arrived'
    rw [hy] at growsY
    refine ⟨c.state.journal, (growsX.trans (grows_finish _ ?_)).extendedFrom, ?_⟩
    · exact Nat.le_trans arrived growsX.position
    · rw [← states.journal]
      exact (growsY.trans (grows_finish _ (Nat.le_trans arrived' growsY.position))).extendedFrom

theorem error_eq_head?_placed (scope : Scope) {tokens : List Token} (nonempty : tokens ≠ []) :
    (parseTokens scope tokens).1.error = (run scope tokens).2.journal.placed.head?.map (·.1) := by
  rw [← Journal.first?_eq, parseTokens, if_neg (by simpa using nonempty)]

theorem result_of_error {p : Parsed} {e : ParseError} (h : p.error = some e) :
    p.result = .error e := by
  rw [Parsed.result, h]

/-- Where the first error of a parse was found, as the number of tokens read by then. -/
def firstErrorPlace? (scope : Scope) (tokens : List Token) : Option Nat :=
  (run scope tokens).2.journal.placed.head?.map (·.2)

/-- The first error of a parse, if it was not made at `b` or later, is the first error of every
parse that agrees on the first `b` tokens. -/
theorem head?_placed_of_take {scope : Scope} {b : Nat} {xs ys : List Token} {e : ParseError}
    {c : Nat} (agree : ys.take b = xs.take b) (left : b ≤ xs.length)
    (early : ∀ stop, ¬ (Note.error e c).MadeIn b stop)
    (head : (run scope xs).2.journal.placed.head? = some (e, c)) :
    (run scope ys).2.journal.placed.head? = some (e, c) := by
  obtain ⟨j, ⟨new, stop, notes, made⟩, ⟨new', _, notes', _⟩⟩ :=
    exists_common_journal scope agree left
  have common := Journal.head?_placed_of_append notes made (early stop) head
  obtain ⟨more, hmore⟩ := List.head?_eq_some_iff.mp common
  have split :
      (run scope ys).2.journal.placed = j.placed ++ new'.reverse.filterMap Note.placed? := by
    rw [Journal.placed, Journal.placed, notes', List.reverse_append, List.filterMap_append]
  rw [split, hmore]
  rfl

/-- Errors are found between the first token and the end of the list; a missing function is not
found in front of the first token. -/
theorem place_le_length {scope : Scope} {tokens : List Token} {e : ParseError} {c : Nat}
    (head : (run scope tokens).2.journal.placed.head? = some (e, c)) :
    c ≤ tokens.length ∧ ∀ name, e.fault = .undefinedFunction name → 0 < c := by
  have grows : Grows 0 (.start tokens) (run scope tokens).2 :=
    ((reaches_halt scope (.start tokens)).grows (Nat.zero_le _)).trans
      (grows_finish _ (Nat.zero_le _))
  have bound : (run scope tokens).2.position ≤ tokens.length := by
    have total := (chain scope (.start tokens)).total
    have same : (run scope tokens).2.position = (chain scope (.start tokens)).next.position := by
      simp only [run, ParseState.finish]
      split <;> rfl
    rw [total_eq, total_eq] at total
    have zero : (ParseState.start tokens).position = 0 := rfl
    have all : (ParseState.start tokens).remaining = tokens.length := rfl
    omega
  obtain ⟨new, notes, made⟩ := grows.notes
  obtain ⟨n, hn, e'⟩ := List.mem_filterMap.mp (List.mem_of_mem_head? head)
  have fresh : n ∈ new := by
    rw [List.mem_reverse, notes, List.mem_append] at hn
    exact hn.resolve_right (List.not_mem_nil)
  cases n with
  | malformedNumber _ => cases e'
  | error _ _ =>
    cases e'
    obtain ⟨-, le, missing⟩ := made _ fresh
    exact ⟨Nat.le_trans le bound, missing⟩

end Parse

open Parse in
/-- What a parse found wrong first, at the place `c`, every parse finds wrong that goes on
differently behind the token at `c`; what a missing function is, is decided even without that
token. -/
theorem parseTokens_error_of_take (scope : Scope) (xs : List Token) (e : ParseError)
    (error : (parseTokens scope xs).1.error = some e) (found : e ≠ .emptyTokenList) :
    ∃ c, firstErrorPlace? scope xs = some c ∧ c ≤ xs.length ∧
      (c < xs.length → ∀ ys : List Token, ys.take (c + 1) = xs.take (c + 1) →
        (parseTokens scope ys).1.error = some e ∧ (parseTokens scope ys).1.result = .error e) ∧
      ((∃ name, e.fault = .undefinedFunction name) → ∀ ys : List Token, ys.take c = xs.take c →
        (parseTokens scope ys).1.error = some e ∧ (parseTokens scope ys).1.result = .error e) := by
  have nonempty : xs ≠ [] := by
    rintro rfl
    exact found (Option.some.inj error).symm
  rw [error_eq_head?_placed scope nonempty] at error
  obtain ⟨⟨e', c⟩, head, rfl⟩ := Option.map_eq_some_iff.mp error
  obtain ⟨le, missing⟩ := place_le_length head
  have transfer : ∀ b, b ≤ xs.length → 0 < b → (∀ stop, ¬ (Note.error e' c).MadeIn b stop) →
      ∀ ys : List Token, ys.take b = xs.take b →
        (parseTokens scope ys).1.error = some e' ∧ (parseTokens scope ys).1.result = .error e' := by
    intro b left pos early ys agree
    have nonempty' : ys ≠ [] := by
      rintro rfl
      rw [List.take_nil, eq_comm, List.take_eq_nil_iff] at agree
      exact agree.elim (Nat.ne_of_gt pos) nonempty
    have same : (parseTokens scope ys).1.error = some e' := by
      rw [error_eq_head?_placed scope nonempty', head?_placed_of_take agree left early head]
      rfl
    exact ⟨same, result_of_error same⟩
  refine ⟨c, by rw [firstErrorPlace?, head]; rfl, le, fun inside => ?_, ?_⟩
  · exact transfer (c + 1) inside (Nat.succ_pos c) fun _ made => Nat.not_succ_le_self c made.1
  · rintro ⟨name, fault⟩
    exact transfer c le (missing name fault) fun _ made => Nat.lt_irrefl c (made.2.2 name fault)

/-- `f() 1`, where no function is known: the call is refused when `1` has not been looked at. -/
theorem parseTokens_error_of_take_missing_function :
    let scope : Scope := ⟨.empty, .empty⟩
    let xs : List Token := [⟨.functionName, "f", ⟨0, 1⟩⟩, ⟨.leftParen, "(", ⟨1, 2⟩⟩,
      ⟨.rightParen, ")", ⟨2, 3⟩⟩, ⟨.number, "1", ⟨4, 5⟩⟩]
    let e : ParseError := ⟨.undefinedFunction "f", some ⟨0, 1⟩⟩
    (parseTokens scope xs).1.error = some e ∧ e ≠ .emptyTokenList ∧
      ∃ c, Parse.firstErrorPlace? scope xs = some c ∧ c ≤ xs.length ∧
        (c < xs.length → ∀ ys : List Token, ys.take (c + 1) = xs.take (c + 1) →
          (parseTokens scope ys).1.error = some e ∧ (parseTokens scope ys).1.result = .error e) ∧
        ((∃ name, e.fault = .undefinedFunction name) → ∀ ys : List Token, ys.take c = xs.take c →
          (parseTokens scope ys).1.error = some e ∧
            (parseTokens scope ys).1.result = .error e) := by
  intro scope xs e
  have error : (parseTokens scope xs).1.error = some e := by
    rw [parseTokens, if_neg (by decide), Parse.run_of_steps (n := 12) rfl]
    decide
  exact ⟨error, by decide, parseTokens_error_of_take scope xs e error (by decide)⟩

end Arith
