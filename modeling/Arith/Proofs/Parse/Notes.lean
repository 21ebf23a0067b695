/-
# What a parse notes, and where

A parse never moves back and never takes a note back.  `Grows b s t` says so
of two of its moments, and of every error noted between them that it was
found at `b` or later and no later than `t` stands; a missing function,
which is noted when its closing parenthesis has just been passed, is found
strictly later than `b`.  If the parse stands at `b` or later this holds of
one step, and by induction of a whole run (`grows_step`, `grows_steps`).

The errors noted so far are therefore a prefix of all errors
(`Grows.errors`).

The bound on a missing function is the one that is needed later: of two
parses that agree up to a cursor, both note the same up to there, and a
missing function whose closing parenthesis lies behind the cursor was not
noted by the first one (`Arith.Proofs.Parse.Prefix`).

Malformed numbers are noted as well, but they are no errors, and nothing is
said of when they were noted.
-/
import Arith.Proofs.Parse.Machine

namespace Arith

/-- A note that is made at the place `b` or later, and at `stop` at the latest. -/
def Note.MadeIn (b stop : Nat) : Note → Prop
  | .error e position => b ≤ position ∧ position ≤ stop ∧
      ∀ name, e.fault = .undefinedFunction name → b < position
  | .malformedNumber _ => True

theorem Note.MadeIn.mono {b stop stop' : Nat} (le : stop ≤ stop') {n : Note} (h : n.MadeIn b stop) :
    n.MadeIn b stop' := by
  cases n with
  | error e place => exact ⟨h.1, Nat.le_trans h.2.1 le, h.2.2⟩
  | malformedNumber t => trivial

namespace ParseState

/-- The errors noted so far, the first one first. -/
def errors (s : ParseState) : List ParseError := s.journal.errors

theorem errors_note (s : ParseState) (n : Note) :
    (s.note n).errors = s.errors ++ n.error?.toList := by
  rw [errors, errors, Journal.errors, Journal.errors, note, Journal.note, List.reverse_cons,
    List.filterMap_append]
  cases n <;> rfl

theorem errors_faultAt (s : ParseState) (span : Span) (f : ParseFault) :
    (s.faultAt span f).errors = s.errors ++ [⟨f, some span⟩] :=
  s.errors_note _

/-! ## Small steps

How far a step moves the cursor. -/

theorem position_le_advance (s : ParseState) : s.position ≤ s.advance.position := by
  obtain ⟨⟨position, rest, stop⟩, _, _, _⟩ := s
  cases rest
  · exact Nat.le_refl _
  · exact Nat.le_succ _

/-- Where the current token is not the end of the expression, the cursor moves. -/
theorem position_advance {s : ParseState} (pos : 0 < s.remaining) :
    s.advance.position = s.position + 1 := by
  obtain ⟨⟨position, rest, stop⟩, _, _, _⟩ := s
  cases rest
  · exact absurd pos (Nat.lt_irrefl 0)
  · rfl

end ParseState

namespace Parse

open ParseState

/-- What may have happened to a state `s` when it has become `t`: see the head of this file. -/
structure Grows (b : Nat) (s t : ParseState) : Prop where
  position : s.position ≤ t.position
  notes : ∃ new, t.journal.notes = new ++ s.journal.notes ∧ ∀ n ∈ new, n.MadeIn b t.position

namespace Grows

variable {b : Nat} {s t u : ParseState}

theorem refl (s : ParseState) : Grows b s s := ⟨Nat.le_refl _, [], rfl, List.forall_mem_nil _⟩

theorem trans (h : Grows b s t) (h' : Grows b t u) : Grows b s u := by
  obtain ⟨new, e, late⟩ := h.notes
  obtain ⟨new', e', late'⟩ := h'.notes
  refine ⟨Nat.le_trans h.position h'.position, new' ++ new, ?_, fun n hn => ?_⟩
  · rw [e', e, List.append_assoc]
  · exact (List.mem_append.mp hn).elim (late' n) fun hn => (late n hn).mono h'.position

/-- Nothing need be noted. -/
theorem silent (position : s.position ≤ t.position) (journal : t.journal = s.journal) :
    Grows b s t := ⟨position, [], by rw [journal]; rfl, List.forall_mem_nil _⟩

theorem note {n : Note} (made : n.MadeIn b s.position) : Grows b s (s.note n) :=
  ⟨Nat.le_refl _, [n], rfl, fun _ hn => List.mem_singleton.mp hn ▸ made⟩

theorem errors (h : Grows b s t) : s.errors <+: t.errors := by
  obtain ⟨new, e, -⟩ := h.notes
  refine ⟨new.reverse.filterMap Note.error?, ?_⟩
  rw [ParseState.errors, ParseState.errors, Journal.errors, Journal.errors, e, List.reverse_append,
    List.filterMap_append]

theorem advance (s : ParseState) : Grows b s s.advance := silent (position_le_advance s) rfl

/-- Every fault but a missing function may be noted where the parse stands. -/
theorem faultAt (le : b ≤ s.position) (span : Span) {f : ParseFault}
    (f_ne : ∀ name, f ≠ .undefinedFunction name) : Grows b s (s.faultAt span f) :=
  note ⟨le, Nat.le_refl _, fun name e => absurd e (f_ne name)⟩

theorem fault (le : b ≤ s.position) {f : ParseFault} (f_ne : ∀ name, f ≠ .undefinedFunction name) :
    Grows b s (s.fault f) := faultAt le _ f_ne

theorem faultTooDeep (le : b ≤ s.position) : Grows b s s.faultTooDeep := fault le (by simp)

theorem faultTooLarge (le : b ≤ s.position) : Grows b s s.faultTooLarge := fault le (by simp)

theorem readNumber (s : ParseState) : Grows b s s.readNumber.2 := by
  unfold ParseState.readNumber
  split
  · exact advance s
  · exact (note (n := .malformedNumber s.current) trivial).trans (advance _)

theorem readVariable (scope : Scope) (le : b ≤ s.position) :
    Grows b s (s.readVariable scope).2 := by
  unfold ParseState.readVariable
  dsimp only
  split
  · exact advance s
  · exact (fault le (by simp)).trans (advance _)

theorem closeBrace (name : String) (le : b ≤ s.position) : Grows b s (s.closeBrace name) := by
  unfold ParseState.closeBrace
  split
  · exact advance s
  · exact fault le (by simp)

theorem closeEmptyParentheses (opening : Token) (le : b ≤ s.position) :
    Grows b s (s.closeEmptyParentheses opening) :=
  (faultAt (f := .emptyParentheses) le _ (by simp)).trans (advance _)

theorem closeGroup (tree : Option Expr) (le : b ≤ s.position) :
    Grows b s (s.closeGroup tree).2 := by
  unfold ParseState.closeGroup
  split
  · exact advance s
  · exact fault le (by simp)

/-- A missing function is found when the cursor has just moved. -/
theorem closeCall (scope : Scope) (name : Token) (trees : Option (List Expr))
    (le : b ≤ s.position) :
    Grows b s (s.closeCall scope name trees).2 := by
  unfold ParseState.closeCall
  split
  next closing =>
    have moved : s.advance.position = s.position + 1 :=
      position_advance (remaining_pos (by rw [closing]; decide))
    split
    · exact advance s
    · refine (advance s).trans (note ⟨?_, Nat.le_refl _, fun _ _ => ?_⟩) <;> rw [moved] <;> omega
  · exact fault le (by simp)

end Grows

/-! ## One step

A step of the machine is a few small ones, and what holds of these is put
together. -/

variable {scope : Scope} {b : Nat}

theorem grows_startPrimary (s : ParseState) (stack : List Frame) (le : b ≤ s.position) :
    Grows b s (startPrimary scope s stack).state := by
  have claim : ∀ count, Grows b s (s.claim count) := fun _ => .silent (Nat.le_refl _) rfl
  unfold startPrimary
  split
  · split
    · exact .faultTooLarge le
    · exact (claim 1).trans (.readNumber _)
  · split
    · exact .faultTooLarge le
    · exact (claim 2).trans (.advance _)
  · exact .advance s
  · exact .advance s
  · split
    · exact .faultTooLarge le
    · exact (claim 1).trans (.readVariable scope le)
  · split
    · exact .faultTooLarge le
    · exact (claim 1).trans (.advance _)
  · exact .fault le (by simp)
  · exact .fault le (by simp)

theorem grows_start (s : ParseState) (stack : List Frame) (task : Task) (le : b ≤ s.position) :
    Grows b s (start scope s stack task).state := by
  have claim : ∀ count, Grows b s (s.claim count) := fun _ => .silent (Nat.le_refl _) rfl
  have enter : Grows b s s.enter := .silent (Nat.le_refl _) rfl
  cases task with
  | operand =>
    simp only [start]
    split
    · exact .faultTooDeep le
    · exact enter
  | primary => exact grows_startPrimary s stack le
  | groupBody opening =>
    simp only [start]
    split
    · exact .closeEmptyParentheses opening le
    · exact .refl s
  | braceName =>
    simp only [start]
    split
    · exact .fault le (by simp)
    · split
      · exact .faultTooLarge le
      · exact (claim 1).trans (.readVariable scope le)
  | closeBrace name tree => exact .closeBrace name le
  | callOpening name =>
    simp only [start]
    split
    · exact .advance s
    · exact .fault le (by simp)
  | argument name trees =>
    simp only [start]
    split
    · exact .closeCall scope name trees le
    · split
      · exact .advance s
      · exact .refl s
  | chain => exact .refl s
  | climb least left =>
    simp only [start]
    split
    · exact .refl s
    · split
      · exact .refl s
      · split
        · exact .faultTooLarge le
        · exact (claim 1).trans (.advance _)
  | tighten op right =>
    simp only [start]
    split
    · exact .refl s
    · split
      · exact .refl s
      · split
        · split
          · exact .faultTooDeep le
          · exact enter
        · exact .refl s

theorem grows_resume (tree : Option Expr) (s : ParseState) (stack : List Frame) (frame : Frame)
    (le : b ≤ s.position) : Grows b s (resume tree s stack frame).state := by
  have leave : Grows b s s.leave := .silent (Nat.le_refl _) rfl
  cases frame with
  | operand | samePrecedence => exact leave
  | negation | climbing => exact .refl s
  | group => exact .closeGroup tree le
  | chain | rightOperand | tightened => cases tree <;> exact .refl s
  | argument name trees before =>
    cases tree with
    | some tree => exact .refl s
    | none =>
      simp only [resume, Config.state]
      split
      · exact .refl s
      · exact .advance s

theorem grows_step (c : Config) (le : b ≤ c.state.position) :
    Grows b c.state (step scope c).state := by
  cases c with
  | enter task s stack => exact grows_start s stack task le
  | exit tree s stack =>
    cases stack with
    | nil => exact .refl s
    | cons frame stack => exact grows_resume tree s stack frame le

/-! ## A whole run -/

theorem grows_steps (n : Nat) (c : Config) (le : b ≤ c.state.position) :
    Grows b c.state (steps scope n c).state := by
  induction n generalizing c with
  | zero => exact .refl _
  | succ n ih =>
    have one : Grows b c.state (step scope c).state := grows_step c le
    exact one.trans (ih _ (Nat.le_trans le one.position))

theorem Reaches.grows {c d : Config} (h : Reaches scope c d) (le : b ≤ c.state.position) :
    Grows b c.state d.state := by
  obtain ⟨n, rfl⟩ := h
  exact grows_steps n c le

end Parse

end Arith
