/-
# A parse makes progress and ends

The readers of the grammar call each other and loop, and nothing that they
hand on decreases by itself: an operand where the nesting is too deep takes
no token, a chain without an operand may have taken some or none, and at the
end of the expression moving on does nothing.  What decreases is the number
of tokens that are left, and at one place of the cursor the order in which
readers can call each other at all:

    arguments  →  chain  →  operand  →  primary

Everything else moves the cursor first.  So the same reader is entered
again, above its own call or in the next round of a loop, only with the
cursor further on.

A call is over when the machine gives an answer to the stack that it was
entered above; until then it runs (`Running`).  Two moments of the same run
are compared, the one at which a reader is entered and a later one, and what
is between them is described by the calls that have been entered since
without moving the cursor (`Descends`).  Since their ranks fall, there are
three of them at the most, and the reader that was entered first cannot be
among them.

The loop over operators is the one reader that may be entered with its
answer already there.  It is left out where a tree means that a token was
taken, and treated by itself where it goes round.

**Proved here.**

    a step leads down, back without a tree, or on            (`Unmoved.step`)
    and so does any number of steps while a call runs        (`unmoved_or_moved`)
    a parse ends, and moves between entering a reader twice  (`parseTokens_progress`)
-/
import Arith.Proofs.Grammar.Exact

namespace Arith

namespace Parse

open ParseState

variable {scope : Scope}

/-! ## Calls that run

A reader is entered by a task.  The other tasks are steps inside a reader. -/

/-- A reader that may be entered while it runs. -/
inductive Reader where
  | operand
  | primary
  | chain
  /-- A round of the loop over the operators of a chain. -/
  | climb
  /-- A round of the loop over the arguments of a call. -/
  | arguments
deriving DecidableEq

/-- The reader that a task enters. -/
def Task.reader? : Task → Option Reader
  | .operand => some .operand
  | .primary => some .primary
  | .chain => some .chain
  | .climb _ _ => some .climb
  | .argument _ _ => some .arguments
  | _ => none

/-- The reader that is entered at a moment. -/
def Config.reader? : Config → Option Reader
  | .enter task _ _ => task.reader?
  | .exit _ _ _ => none

/-- At a moment the call above some stack is over. -/
def Config.Answers (stack : List Frame) : Config → Prop
  | .enter _ _ _ => False
  | .exit _ _ stack' => stack' = stack

/-- From the moment `m` to the moment `n`, the call entered at `m` is not over. -/
def Running (scope : Scope) (tokens : List Token) (m n : Nat) : Prop :=
  ∀ k, m ≤ k → k ≤ n → ¬ (configAt scope tokens k).Answers (configAt scope tokens m).stack

theorem Running.le {tokens : List Token} {m n k : Nat} (h : Running scope tokens m n) (le : k ≤ n) :
    Running scope tokens m k := fun i lower upper => h i lower (Nat.le_trans upper le)

/-! ## The tokens of a parse, and what waits

What holds at all moments, before anything is said about the cursor. -/

theorem total_startPrimary (s : ParseState) (stack : List Frame) :
    (startPrimary scope s stack).state.total = s.total := by
  have number := (passes_readNumber (s.claim 1)).of_advance.total
  have bound := (passes_readVariable (s.claim 1) scope).of_advance.total
  unfold startPrimary
  split <;> try split
  all_goals simp [Config.state, number, bound]

theorem total_start (s : ParseState) (stack : List Frame) (task : Task) :
    (start scope s stack task).state.total = s.total := by
  cases task with
  | primary => exact total_startPrimary s stack
  | closeBrace name tree => exact (passes_closeBrace s name).total
  | chain => rfl
  | _ =>
    simp only [start]
    repeat' split
    all_goals simp [Config.state, (passes_readVariable _ scope).of_advance.total,
      (passes_closeEmptyParentheses _ _).total, (passes_closeCall _ _ _ _).total]

theorem total_resume (tree : Option Expr) (s : ParseState) (stack : List Frame) (frame : Frame) :
    (resume tree s stack frame).state.total = s.total := by
  cases frame with
  | argument name trees before =>
    cases tree with
    | some tree => rfl
    | none =>
      simp only [resume, Config.state]
      split
      · rfl
      · exact total_advance s
  | group => exact (passes_closeGroup s tree).total
  | _ => cases tree <;> rfl

theorem total_step (c : Config) : (step scope c).state.total = c.state.total := by
  cases c with
  | enter task s stack => exact total_start s stack task
  | exit tree s stack =>
    cases stack with
    | nil => rfl
    | cons frame stack => exact total_resume tree s stack frame

theorem total_configAt (scope : Scope) (tokens : List Token) (n : Nat) :
    (configAt scope tokens n).state.total = tokens.length := by
  induction n with
  | zero => exact Nat.zero_add _
  | succ n ih => rw [configAt_succ, total_step, ih]

theorem position_le_step (c : Config) : c.state.position ≤ (step scope c).state.position :=
  (grows_step c (Nat.zero_le _)).position

/-- What waits below a task goes on waiting: a step leaves the calls below alone, adds one above
them or answers the innermost. -/
theorem suffix_stack_startPrimary (s : ParseState) (stack : List Frame) :
    stack <:+ (startPrimary scope s stack).stack := by
  unfold startPrimary
  split <;> try split
  all_goals first
    | exact List.suffix_refl _
    | exact List.suffix_cons _ _

theorem suffix_stack_start (s : ParseState) (stack : List Frame) (task : Task) :
    stack <:+ (start scope s stack task).stack := by
  cases task with
  | primary => exact suffix_stack_startPrimary s stack
  | _ =>
    simp only [start]
    repeat' split
    all_goals first
      | exact List.suffix_refl _
      | exact List.suffix_cons _ _

theorem suffix_stack_resume (tree : Option Expr) (s : ParseState) (stack : List Frame)
    (frame : Frame) :
    stack <:+ (resume tree s stack frame).stack := by
  cases frame with
  | chain | rightOperand | tightened | argument =>
    cases tree <;> first
      | exact List.suffix_refl _
      | exact List.suffix_cons _ _
  | _ => exact List.suffix_refl _

/-- The calls that wait when a call is entered wait until it is over. -/
theorem suffix_stack_of_running {tokens : List Token} {m n : Nat} (le : m ≤ n)
    (running : Running scope tokens m n) :
    (configAt scope tokens m).stack <:+ (configAt scope tokens n).stack := by
  induction le with
  | refl => exact List.suffix_refl _
  | @step n le ih =>
    have before := ih (running.le (Nat.le_succ n))
    have pending := running n le (Nat.le_succ n)
    rw [configAt_succ]
    cases config : configAt scope tokens n with
    | enter task s stack =>
      rw [config] at before
      exact before.trans (suffix_stack_start s stack task)
    | exit tree s stack =>
      rw [config] at before pending
      cases stack with
      | nil => exact before
      | cons frame stack =>
        rcases List.suffix_cons_iff.mp before with whole | inner
        · exact absurd whole.symm pending
        · exact inner.trans (suffix_stack_resume tree s stack frame)

/-! ## Where the cursor stays

The cursor may stay while an argument, a chain and an operand are entered
one inside the other. -/

/-- The order in which readers call each other without moving the cursor. -/
def Reader.rank : Reader → Nat
  | .arguments => 3
  | .chain => 2
  | .operand => 1
  | .primary | .climb => 0

/-- At the place `p` of `total` tokens, the calls between a task above `base` and a task above
some stack that the cursor has not moved under. -/
inductive Descends (p total : Nat) (task : Task) (base : List Frame) :
    Reader → Task → List Frame → Prop
  | here {r : Reader} (reader : task.reader? = some r) : Descends p total task base r task base
  | argument {name : Token} {trees : Option (List Expr)} {stack : List Frame} (left : p < total)
      (above : Descends p total task base .arguments (.argument name trees) stack) :
      Descends p total task base .chain .chain (.argument name trees p :: stack)
  | chain {stack : List Frame} (above : Descends p total task base .chain .chain stack) :
      Descends p total task base .operand .operand (.chain :: stack)
  | operand {stack : List Frame} (above : Descends p total task base .operand .operand stack) :
      Descends p total task base .primary .primary (.operand :: stack)

theorem Descends.reader {p total : Nat} {task task' : Task} {base stack : List Frame} {r : Reader}
    (h : Descends p total task base r task' stack) : task'.reader? = some r := by
  cases h with
  | here reader => exact reader
  | argument | chain | operand => rfl

/-- After the task above `base` that enters the reader `r`, the cursor stands at `p` still: a
reader of a lower rank has been entered, or a call has come back without a tree. -/
inductive Unmoved (p total : Nat) (task : Task) (base : List Frame) (r : Reader) : Config → Prop
  | enter {r' : Reader} {task' : Task} {s : ParseState} {stack : List Frame}
      (below : Descends p total task base r' task' stack) (lower : r'.rank < r.rank)
      (position : s.position = p) : Unmoved p total task base r (.enter task' s stack)
  | exit {r' : Reader} {task' : Task} {s : ParseState} {stack : List Frame}
      (below : Descends p total task base r' task' stack) (position : s.position = p) :
      Unmoved p total task base r (.exit none s stack)

/-! ## One step at a cursor that stays

Which readers may be entered next, what comes back without a tree, and which
steps move on. -/

theorem position_lt_advance {s : ParseState} (pos : 0 < s.remaining) :
    s.position < s.advance.position := by
  rw [position_advance pos]
  exact Nat.lt_succ_self _

/-- An operand takes a token or comes to nothing where it stands. -/
theorem startPrimary_moves (s : ParseState) (stack : List Frame) :
    (∃ t, startPrimary scope s stack = .exit none t stack ∧ t.position = s.position) ∨
      s.position < (startPrimary scope s stack).state.position := by
  have failed : ∀ f : ParseFault, ∃ t, Config.exit none (s.fault f) stack = .exit none t stack ∧
      t.position = s.position := fun f => ⟨_, rfl, rfl⟩
  unfold startPrimary
  cases kind : s.kind with
  | leftParen | leftBrace => exact .inr (position_lt_advance (remaining_pos (by rw [kind]; decide)))
  | sub | functionName =>
    dsimp only
    split
    · exact .inl (failed _)
    · exact .inr (position_lt_advance (remaining_pos (by rw [kind]; decide)))
  | number =>
    dsimp only
    split
    · exact .inl (failed _)
    · exact .inr ((passes_readNumber (s.claim 1)).position_lt
        (remaining_pos (by rw [kind_claim, kind]; decide)))
  | variableName =>
    dsimp only
    split
    · exact .inl (failed _)
    · exact .inr ((passes_readVariable (s.claim 1) scope).position_lt
        (remaining_pos (by rw [kind_claim, kind]; decide)))
  | _ => exact .inl (failed _)

theorem step_climb_moves (s : ParseState) (stack : List Frame) (least : Nat) (left : Expr) :
    (step scope (.enter (.climb least left) s stack)).Answers stack ∨
      s.position < (step scope (.enter (.climb least left) s stack)).state.position := by
  simp only [step, start]
  split
  · exact .inl rfl
  next op operator =>
    split
    · exact .inl rfl
    · split
      · exact .inl rfl
      · exact .inr (position_lt_advance (s := s.claim 1) (remaining_pos_of_operator operator))

/-- A round over the arguments of a call ends the call or takes a comma, or else there is a token
left that an argument may start with. -/
theorem step_argument_moves (s : ParseState) (stack : List Frame) (name : Token)
    (trees : Option (List Expr)) :
    (∃ t, step scope (.enter (.argument name trees) s stack) = .exit none t stack ∧
        t.position = s.position) ∨
      s.position < (step scope (.enter (.argument name trees) s stack)).state.position ∨
      0 < s.remaining ∧ step scope (.enter (.argument name trees) s stack) =
        .enter .chain s (.argument name trees s.position :: stack) := by
  simp only [step, start]
  split
  next closing =>
    unfold closeCall
    split
    next paren =>
      have moved := position_lt_advance (s := s) (remaining_pos (by rw [paren]; decide))
      split <;> exact .inr (.inl moved)
    · exact .inl ⟨_, rfl, rfl⟩
  next closing =>
    have pos : 0 < s.remaining := remaining_pos fun eof => closing (.inr eof)
    split
    · exact .inr (.inl (position_lt_advance pos))
    · exact .inr (.inr ⟨pos, rfl⟩)

section

variable {p total : Nat} {task : Task} {base : List Frame} {r : Reader}

/-- A reader that is entered at a cursor that has not moved goes down, comes to nothing or moves
on. -/
theorem Descends.step {r' : Reader} {task' : Task} {s : ParseState} {stack : List Frame}
    (below : Descends p total task base r' task' stack) (climb : r' ≠ .climb)
    (le : r'.rank ≤ r.rank) (position : s.position = p) (tokens : s.total = total) :
    Unmoved p total task base r (step scope (.enter task' s stack)) ∨
      p < (step scope (.enter task' s stack)).state.position := by
  have reader := below.reader
  cases task' with
  | operand =>
    cases reader
    simp only [Parse.step, start]
    split
    · exact .inl (.exit below position)
    · exact .inl (.enter (.operand below) (Nat.lt_of_lt_of_le (by decide) le) position)
  | chain =>
    cases reader
    exact .inl (.enter (.chain below) (Nat.lt_of_lt_of_le (by decide) le) position)
  | primary =>
    cases reader
    rcases @startPrimary_moves scope s stack with ⟨t, e, still⟩ | moved
    · refine .inl ?_
      rw [Parse.step, start, e]
      exact .exit below (still.trans position)
    · exact .inr (position ▸ moved)
  | argument name trees =>
    cases reader
    rcases @step_argument_moves scope s stack name trees with ⟨t, e, still⟩ | moved | ⟨pos, e⟩
    · rw [e]
      exact .inl (.exit below (still.trans position))
    · exact .inr (position ▸ moved)
    · subst position
      have left : s.position < total := by
        rw [total_eq] at tokens
        omega
      rw [e]
      exact .inl (.enter (.argument left below) (Nat.lt_of_lt_of_le (by decide) le) rfl)
  | climb least left =>
    cases reader
    exact absurd rfl climb
  | _ => cases reader

/-- A step at a cursor that has not moved goes down, comes back without a tree, moves on or has
ended the call. -/
theorem Unmoved.step {c : Config} (h : Unmoved p total task base r c)
    (first : task.reader? = some r) (tokens : c.state.total = total) (pending : ¬ c.Answers base) :
    Unmoved p total task base r (step scope c) ∨ p < (step scope c).state.position := by
  cases h with
  | @enter r' task' s stack below lower position =>
    have climb : r' ≠ .climb := by
      rintro rfl
      cases below with
      | here reader =>
        cases first.symm.trans reader
        exact absurd lower (Nat.lt_irrefl _)
    exact below.step climb (Nat.le_of_lt lower) position tokens
  | @exit r' task' s stack below position =>
    cases below with
    | here => exact absurd rfl pending
    | operand above => exact .inl (.exit above position)
    | chain above => exact .inl (.exit above position)
    | @argument name trees stack left above =>
      refine .inr ?_
      subst position
      have stay : ¬ s.position < s.position := Nat.lt_irrefl _
      have pos : 0 < s.remaining := by
        have tokens : s.total = total := tokens
        rw [total_eq] at tokens
        omega
      simp only [Parse.step, resume, if_neg stay]
      exact position_lt_advance pos

end

/-! ## A whole call

By induction on the number of steps since the call was entered. -/

section

variable {tokens : List Token} {m n : Nat} {task : Task} {s : ParseState} {base : List Frame}
  {r : Reader}

/-- While a call runs, and at its end, the cursor stays and readers of lower rank are entered, or
it has moved. -/
theorem unmoved_or_moved (entry : configAt scope tokens m = .enter task s base)
    (first : task.reader? = some r) (climb : r ≠ .climb) (le : m ≤ n)
    (running : Running scope tokens m n) :
    Unmoved s.position tokens.length task base r (configAt scope tokens (n + 1)) ∨
      s.position < (configAt scope tokens (n + 1)).state.position := by
  induction le with
  | refl =>
    have total := total_configAt scope tokens m
    rw [entry] at total
    rw [configAt_succ, entry]
    exact Descends.step (.here first) climb (Nat.le_refl _) rfl total
  | @step n le ih =>
    rw [configAt_succ]
    rcases ih (running.le (Nat.le_succ n)) with still | moved
    · have pending := running (n + 1) (Nat.le_succ_of_le le) (Nat.le_refl _)
      rw [entry] at pending
      exact still.step first (total_configAt scope tokens (n + 1)) pending
    · exact .inr (Nat.lt_of_lt_of_le moved (position_le_step _))

/-- The loop over the operators of a chain goes round only with the cursor further on. -/
theorem moved_of_climb {least : Nat} {left : Expr}
    (entry : configAt scope tokens m = .enter (.climb least left) s base) (lt : m < n)
    (running : Running scope tokens m n) :
    s.position < (configAt scope tokens n).state.position := by
  induction lt with
  | refl =>
    have pending := running (m + 1) (Nat.le_succ m) (Nat.le_refl _)
    rw [configAt_succ, entry] at pending ⊢
    exact (step_climb_moves s base least left).resolve_left pending
  | @step n le ih =>
    rw [configAt_succ]
    exact Nat.lt_of_lt_of_le (ih (running.le (Nat.le_succ n))) (position_le_step _)

theorem Config.exists_enter {c : Config} (h : c.reader? = some r) :
    ∃ task s, c = .enter task s c.stack ∧ task.reader? = some r ∧ c.state = s := by
  cases c with
  | enter task s stack => exact ⟨task, s, rfl, h, rfl⟩
  | exit tree s stack => cases h

/-- A reader is entered again while it runs only with the cursor further on. -/
theorem position_lt_of_reader (lt : m < n) (running : Running scope tokens m n)
    (first : (configAt scope tokens m).reader? = some r)
    (again : (configAt scope tokens n).reader? = some r) :
    (configAt scope tokens m).state.position < (configAt scope tokens n).state.position := by
  obtain ⟨task, s, entry, reader, e⟩ := Config.exists_enter first
  rw [e]
  by_cases climb : r = .climb
  · subst climb
    cases task with
    | climb least left => exact moved_of_climb entry lt running
    | _ => cases reader
  · obtain ⟨n, rfl⟩ := Nat.exists_eq_add_of_lt lt
    have le : m ≤ m + n := Nat.le_add_right m n
    rcases unmoved_or_moved entry reader climb le (running.le (Nat.le_succ _)) with still | moved
    · generalize configAt scope tokens (m + n + 1) = c at still again
      cases still with
      | @enter r' task' s' stack below lower position =>
        have same : r' = r := Option.some.inj (below.reader.symm.trans again)
        exact absurd lower (same ▸ Nat.lt_irrefl _)
      | exit => cases again
    · exact moved

/-- A call that ends with a tree has taken a token. -/
theorem position_lt_of_tree {tree : Expr} {t : ParseState} (le : m ≤ n)
    (running : Running scope tokens m n) (first : (configAt scope tokens m).reader? = some r)
    (climb : r ≠ .climb) (answer : configAt scope tokens (n + 1) = .exit (some tree) t base) :
    (configAt scope tokens m).state.position < t.position := by
  obtain ⟨task, s, entry, reader, e⟩ := Config.exists_enter first
  rw [e]
  rcases unmoved_or_moved entry reader climb le running with still | moved
  · rw [answer] at still
    cases still
  · rw [answer] at moved
    exact moved

end

/-- The machine runs to the tree of a parse, and without tokens there is none. -/
theorem tree_eq_run (scope : Scope) (tokens : List Token) :
    (parseTokens scope tokens).1.tree = (run scope tokens).1 := by
  cases tokens with
  | nil => exact (congrArg Prod.fst (@run_of_steps scope 6 [] _ rfl)).symm
  | cons t ts => rw [parseTokens_of_ne scope (List.cons_ne_nil t ts)]

end Parse

open Parse ParseState

/-- A parse ends.  On its way the cursor never moves back, nor past the last token; a call of a
reader that is running keeps all that waits for it, enters the same reader again only with the
cursor further on, be it in a call of its own or in the next round of its loop, and takes a token
if it yields a tree. -/
theorem parseTokens_progress (scope : Scope) (tokens : List Token) :
    (∃ n last, configAt scope tokens n = .exit (parseTokens scope tokens).1.tree last [] ∧
        (tokens ≠ [] → (parseTokens scope tokens).1.error = last.finish.errors.head?)) ∧
      (∀ n, (configAt scope tokens n).state.position ≤
          (configAt scope tokens (n + 1)).state.position ∧
        (configAt scope tokens n).state.position ≤ tokens.length) ∧
      ∀ m n r, m ≤ n → Running scope tokens m n → (configAt scope tokens m).reader? = some r →
        (configAt scope tokens m).stack <:+ (configAt scope tokens n).stack ∧
          (m < n → (configAt scope tokens n).reader? = some r →
            (configAt scope tokens m).state.position < (configAt scope tokens n).state.position) ∧
          ∀ tree last, r ≠ .climb →
            configAt scope tokens (n + 1) = .exit (some tree) last (configAt scope tokens m).stack →
              (configAt scope tokens m).state.position < last.position := by
  refine ⟨?_, fun n => ⟨?_, ?_⟩, fun m n r le running first => ⟨?_, fun lt => ?_, ?_⟩⟩
  · obtain ⟨n, halted⟩ := reaches_halt scope (.start tokens)
    refine ⟨n, (chain scope (.start tokens)).next, halted.trans ?_, fun nonempty => ?_⟩
    · rw [tree_eq_run]
      rfl
    · rw [parseTokens_of_ne scope nonempty]
      rfl
  · rw [configAt_succ]
    exact position_le_step _
  · rw [← total_configAt scope tokens n, total_eq]
    exact Nat.le_add_right _ _
  · exact suffix_stack_of_running le running
  · exact position_lt_of_reader lt running first
  · intro tree last climb answer
    exact position_lt_of_tree le running first climb answer

/-- In `f(*0)`, where no argument can start at the star, the second round over the arguments starts
behind it, and the chain that is read there takes the number. -/
theorem parseTokens_progress_skipped_argument :
    let scope : Scope := ⟨.empty, .empty⟩
    let tokens : List Token := [⟨.functionName, "f", ⟨0, 1⟩⟩, ⟨.leftParen, "(", ⟨1, 2⟩⟩,
      ⟨.mul, "*", ⟨2, 3⟩⟩, ⟨.number, "", ⟨3, 3⟩⟩, ⟨.rightParen, ")", ⟨3, 4⟩⟩]
    Running scope tokens 4 11 ∧ (configAt scope tokens 4).state.position = 2 ∧
      (configAt scope tokens 11).state.position = 3 ∧
      (configAt scope tokens 4).state.position < (configAt scope tokens 11).state.position ∧
      Running scope tokens 12 18 ∧
      ∃ last, configAt scope tokens 19 =
          .exit (some (.number 0)) last (configAt scope tokens 12).stack ∧
        (configAt scope tokens 12).state.position < last.position := by
  intro scope tokens
  have loop : Running scope tokens 4 11 := by
    intro k lower upper
    obtain rfl | rfl | rfl | rfl | rfl | rfl | rfl | rfl :
        k = 4 ∨ k = 5 ∨ k = 6 ∨ k = 7 ∨ k = 8 ∨ k = 9 ∨ k = 10 ∨ k = 11 := by omega
    all_goals rintro ⟨⟩
  have chain : Running scope tokens 12 18 := by
    intro k lower upper
    obtain rfl | rfl | rfl | rfl | rfl | rfl | rfl :
        k = 12 ∨ k = 13 ∨ k = 14 ∨ k = 15 ∨ k = 16 ∨ k = 17 ∨ k = 18 := by omega
    all_goals rintro ⟨⟩
  obtain ⟨-, -, always⟩ := parseTokens_progress scope tokens
  obtain ⟨-, again, -⟩ := always 4 11 .arguments (by decide) loop rfl
  obtain ⟨-, -, taken⟩ := always 12 18 .chain (by decide) chain rfl
  exact ⟨loop, rfl, rfl, again (by decide) rfl, chain, _, rfl, taken _ _ (by rintro ⟨⟩) rfl⟩

end Arith
