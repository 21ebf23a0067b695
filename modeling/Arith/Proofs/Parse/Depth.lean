/-
# How deep a parse calls

A parse counts how deep it is: an operand is entered if the count allows it,
and so is the right operand of a power that another power follows.  Nothing
else is counted, so the count bounds the calls only because few calls fit
between two that are counted.  `Waits stack part d` says for which part a
stack of calls can wait, with the count `d`:

    chain       below all, or of a group or an argument of a counted operand
    operand     of a negation of a counted operand, a chain or an operator
    climb 1     of a chain
    climb n     of an operator that binds looser than `n`
    climb n     of a power, counted

Along uncounted calls the least precedence of a climb rises, and there are
three of them.

A count that has been raised is lowered on every way back, so it is the same
before and behind a reading (`Reads.depth`), and an operand that was read
has left room for one more (`Waits.tighten_room`).

The calls themselves are not kept anywhere, so they are read off the stack:
each frame says which call waits in it (`waitingCalls`), and the task which
call goes on (`Task.call`).  The statement about a whole parse speaks of
these calls, the proofs of what waits.

**Proved here.**

    one step keeps the calls in order                      (`Config.Fits.step`)
    the calls of a parse at every moment, and their count  (`parseTokens_depth`)
-/
import Arith.Proofs.Grammar.Grouping
import Arith.Proofs.Parse.Machine

namespace Arith

namespace Parse

open ParseState

variable {scope : Scope}

/-! ## What readers leave of the count

By induction over the rules.  The two that raise the count lower it again,
and no small step touches it. -/

theorem Reads.depth {part : Part} {s next : ParseState} {yield : part.Yield}
    (h : Reads scope part s yield next) : next.depth = s.depth := by
  induction h with
  | tooDeep | tightenTooDeep | tooLarge | climbTooLarge => rfl
  | @operand s next tree _ _ ih | @tightenSame s next _ _ _ tree _ _ _ _ _ ih =>
    calc next.leave.depth = next.depth - 1 := rfl
      _ = s.depth + 1 - 1 := congrArg (· - 1) ih
      _ = s.depth := Nat.add_sub_cancel _ _
  | number => exact (passes_readNumber _).depth
  | negation _ _ _ ih => exact ih
  | emptyParentheses => rfl
  | group _ _ _ ih => exact (passes_closeGroup _ _).depth.trans ih
  | braced => exact (onward_readBraced _ _).depth
  | variableName => exact (passes_readVariable _ _).depth
  | call _ _ _ _ ih => exact (passes_closeCall _ _ _ _).depth.trans ih
  | missingParenthesis | unexpectedEnd | unexpectedToken => rfl
  | climbStop | tightenStop | argumentsEnd => rfl
  | noChain _ ih | tightenTighter _ _ _ ih => exact ih
  | chain _ _ ihFirst ihMore => exact ihMore.trans ihFirst
  | climbNoOperand _ _ _ _ ih => exact ih
  | climb _ _ _ _ _ _ ihBody ihTighter ihMore => exact ihMore.trans (ihTighter.trans ihBody)
  | comma _ _ ih => exact ih
  | argument _ _ _ _ ihFirst ihMore
  | failedArgument _ _ _ _ _ ihFirst ihMore
  | skippedArgument _ _ _ _ _ ihFirst ihMore => exact ihMore.trans ihFirst

/-! ## Which calls can wait

The invariant says of a stack for which part it can wait and how far the
count has been raised; each step of the machine keeps it. -/

/-- What a call waits for. -/
inductive Awaited where
  | chain
  | operand
  | primary
  | climb (least : Nat)
  | tighten (op : Operator)

/-- What is waited for while a task is done. -/
def Task.awaited : Task → Awaited
  | .chain => .chain
  | .operand => .operand
  | .climb least _ => .climb least
  | .tighten op _ => .tighten op
  | _ => .primary

/-- A stack of calls waits for some part, with the count `d`. -/
inductive Waits : List Frame → Awaited → Nat → Prop
  | whole : Waits [] .chain 0
  | operand {stack : List Frame} {d : Nat} (room : d < nestingLimit)
      (below : Waits stack .operand d) : Waits (.operand :: stack) .primary (d + 1)
  | negation {stack : List Frame} {d : Nat} (below : Waits stack .primary d) :
      Waits (.negation :: stack) .operand d
  | group {stack : List Frame} {d : Nat} (below : Waits stack .primary d) :
      Waits (.group :: stack) .chain d
  | argument {stack : List Frame} {d : Nat} (name : Token) (trees : Option (List Expr))
      (before : Nat) (below : Waits stack .primary d) :
      Waits (.argument name trees before :: stack) .chain d
  | chain {stack : List Frame} {d : Nat} (below : Waits stack .chain d) :
      Waits (.chain :: stack) .operand d
  | climbing {stack : List Frame} {d : Nat} (below : Waits stack .chain d) :
      Waits (.climbing :: stack) (.climb 1) d
  | rightOperand {stack : List Frame} {d least : Nat} {op : Operator} (left : Expr)
      (tight : least ≤ op.precedence) (below : Waits stack (.climb least) d) :
      Waits (.rightOperand least op left :: stack) .operand d
  | tightened {stack : List Frame} {d least : Nat} {op : Operator} (left : Expr)
      (tight : least ≤ op.precedence) (room : d < nestingLimit)
      (below : Waits stack (.climb least) d) :
      Waits (.tightened least op left :: stack) (.tighten op) d
  /-- A climb over operators that bind tighter than `op` is not counted. -/
  | tighter {stack : List Frame} {d least : Nat} {op next : Operator} (left : Expr)
      (tight : least ≤ op.precedence) (tighter : op.precedence < next.precedence)
      (below : Waits stack (.climb least) d) :
      Waits (.tightened least op left :: stack) (.climb (op.precedence + 1)) d
  /-- A climb over operators that bind like `op`, and group to the right, is. -/
  | same {stack : List Frame} {d : Nat} {op : Operator} (rightward : op.isRightAssociative)
      (room : d < nestingLimit) (below : Waits stack (.tighten op) d) :
      Waits (.samePrecedence :: stack) (.climb op.precedence) (d + 1)

/-- A right operand that may be extended was read where one more operand had room. -/
theorem Waits.tighten_room {stack : List Frame} {op : Operator} {d : Nat}
    (h : Waits stack (.tighten op) d) : d < nestingLimit := by
  cases h with
  | tightened _ _ room _ => exact room

theorem Waits.depth_le {stack : List Frame} {part : Awaited} {d : Nat} (h : Waits stack part d) :
    d ≤ nestingLimit := by
  induction h with
  | whole => exact Nat.zero_le _
  | operand room | same _ room => exact room
  | negation _ ih | group _ ih | argument _ _ _ _ ih | chain _ ih | climbing _ ih => exact ih
  | rightOperand _ _ _ ih | tightened _ _ _ _ ih | tighter _ _ _ _ ih => exact ih

/-- The calls of a configuration are in order.  An answer that stands for an operand leaves room
for one more. -/
def Config.Fits : Config → Prop
  | .enter task s stack => Waits stack task.awaited s.depth
  | .exit tree s stack => ∃ part, Waits stack part s.depth ∧
      (part = .operand → tree.isSome → s.depth < nestingLimit)

theorem Config.Fits.exists_waits {c : Config} (h : c.Fits) :
    ∃ part, Waits c.stack part c.state.depth := by
  cases c with
  | enter task s stack => exact ⟨_, h⟩
  | exit tree s stack =>
    obtain ⟨part, waits, -⟩ := h
    exact ⟨part, waits⟩

section

variable {s t : ParseState} {stack : List Frame} {part : Awaited} {tree : Option Expr}

theorem fits_none (h : Waits stack part s.depth) (depth : t.depth = s.depth) :
    (Config.exit none t stack).Fits :=
  ⟨part, depth ▸ h, fun _ some => by cases some⟩

theorem fits_exit (h : Waits stack part s.depth) (depth : t.depth = s.depth)
    (ne : part ≠ .operand) :
    (Config.exit tree t stack).Fits :=
  ⟨part, depth ▸ h, fun e => absurd e ne⟩

theorem fits_primary (h : Waits stack .primary s.depth) (depth : t.depth = s.depth) :
    (Config.exit tree t stack).Fits :=
  fits_exit h depth (by rintro ⟨⟩)

theorem fits_startPrimary (h : Waits stack .primary s.depth) :
    (startPrimary scope s stack).Fits := by
  unfold startPrimary
  split
  · split
    · exact fits_primary h rfl
    · exact fits_primary h (passes_readNumber _).depth
  · split
    · exact fits_primary h rfl
    · exact .negation h
  · exact h
  · exact h
  · split
    · exact fits_primary h rfl
    · exact fits_primary h (passes_readVariable _ _).depth
  · split
    · exact fits_primary h rfl
    · exact h
  · exact fits_primary h rfl
  · exact fits_primary h rfl

theorem fits_start {task : Task} (h : Waits stack task.awaited s.depth) :
    (start scope s stack task).Fits := by
  cases task with
  | operand =>
    simp only [start]
    split
    · exact fits_none h rfl
    next deep =>
      rw [tooDeep, decide_eq_true_eq, Nat.not_le] at deep
      exact .operand deep h
  | primary => exact fits_startPrimary h
  | groupBody opening =>
    simp only [start]
    split
    · exact fits_primary h rfl
    · exact .group h
  | braceName =>
    simp only [start]
    split
    · exact fits_primary h rfl
    · split
      · exact fits_primary h rfl
      · have depth : ((s.claim 1).readVariable scope).2.depth = s.depth :=
          (passes_readVariable (s.claim 1) scope).depth
        show Waits stack .primary _
        rw [depth]
        exact h
  | closeBrace name tree => exact fits_primary h (passes_closeBrace s name).depth
  | callOpening name =>
    simp only [start]
    split
    · exact h
    · exact fits_primary h rfl
  | argument name trees =>
    simp only [start]
    split
    · exact fits_primary h (passes_closeCall s scope name trees).depth
    · split
      · exact h
      · exact .argument name trees s.position h
  | chain => exact .chain h
  | climb least left =>
    simp only [start]
    split
    · exact fits_exit h rfl (by rintro ⟨⟩)
    next op _ =>
      split
      · exact fits_exit h rfl (by rintro ⟨⟩)
      next loose =>
        split
        · exact fits_exit h rfl (by rintro ⟨⟩)
        · exact .rightOperand left (Nat.le_of_not_lt loose) h
  | tighten op right =>
    simp only [start]
    split
    · exact fits_exit h rfl (by rintro ⟨⟩)
    next next _ =>
      split
      -- A tighter climb is not counted, so what it waits above is told by the frame below it.
      next tighter =>
        generalize e : s.depth = d at h
        cases h with
        | tightened left tight room below =>
          subst e
          exact .tighter left tight tighter below
      · split
        next same =>
          split
          · exact fits_exit h rfl (by rintro ⟨⟩)
          · exact .same same.2 h.tighten_room h
        · exact fits_exit h rfl (by rintro ⟨⟩)

theorem fits_resume {frame : Frame} (h : (Config.exit tree s (frame :: stack)).Fits) :
    (resume tree s stack frame).Fits := by
  obtain ⟨part, waits, room⟩ := h
  generalize e : s.depth = d at waits room
  cases waits with
  -- The count that was raised for the frame is lowered again, and what waits below sees its own.
  | @operand _ d free below =>
    have depth : s.leave.depth = d := congrArg (· - 1) e
    exact ⟨.operand, depth ▸ below, fun _ _ => depth ▸ free⟩
  | @same _ d op _ _ below =>
    have depth : s.leave.depth = d := congrArg (· - 1) e
    exact ⟨.tighten op, depth ▸ below, by rintro ⟨⟩⟩
  | negation below => exact fits_primary (e ▸ below) rfl
  | group below => exact fits_primary (e ▸ below) (passes_closeGroup s tree).depth
  | argument name trees before below =>
    subst e
    cases tree with
    | some tree => exact below
    | none =>
      simp only [resume]
      split <;> exact below
  | chain below =>
    subst e
    cases tree with
    | none => exact fits_none below rfl
    | some tree => exact .climbing below
  | climbing below =>
    subst e
    exact fits_exit below rfl (by rintro ⟨⟩)
  | rightOperand left tight below =>
    subst e
    cases tree with
    | none => exact fits_exit below rfl (by rintro ⟨⟩)
    | some right => exact .tightened left tight (room rfl rfl) below
  | tightened left _ _ below | tighter left _ _ below =>
    subst e
    cases tree with
    | none => exact fits_exit below rfl (by rintro ⟨⟩)
    | some right => exact below

theorem Config.Fits.step {c : Config} (h : c.Fits) : (step scope c).Fits := by
  cases c with
  | enter task s stack => exact fits_start h
  | exit tree s stack =>
    cases stack with
    | nil => exact h
    | cons frame stack => exact fits_resume h

theorem fits_configAt (scope : Scope) (tokens : List Token) (n : Nat) :
    (configAt scope tokens n).Fits := by
  induction n with
  | zero => exact .whole
  | succ n ih =>
    rw [configAt_succ]
    exact ih.step

end

/-! ## The calls of readers

A frame of the machine is not a call: one call may have several frames one
after the other, and a call that only hands its answer on has none. -/

/-- A call of a reader that has not returned. -/
inductive Call where
  | chain
  | operand
  /-- An operand that the count has been raised for. -/
  | primary
  | group
  | braces
  | arguments
  /-- A loop over the operators of at least the precedence `least`. -/
  | climb (least : Nat)
  /-- A loop over powers right of a power, that the count has been raised for. -/
  | power
deriving DecidableEq

/-- Whether the count has been raised for a call. -/
def Call.counted : Call → Bool
  | .primary | .power => true
  | _ => false

/-- The least precedence of a climb that is not counted. -/
def Call.least? : Call → Option Nat
  | .climb least => some least
  | _ => none

/-- The call of a climb above some stack, unless the topmost frame already stands for it. -/
def climbCall (least : Nat) : List Frame → List Call
  | .samePrecedence :: _ => []
  | _ => [.climb least]

/-- The calls of readers that wait on a stack, the innermost first.  A call that is counted is
there until the count has been lowered. -/
def waitingCalls : List Frame → List Call
  | [] => []
  | .operand :: stack => .primary :: .operand :: waitingCalls stack
  | .negation :: stack => waitingCalls stack
  | .group :: stack => .group :: waitingCalls stack
  | .argument _ _ _ :: stack => .arguments :: waitingCalls stack
  | .chain :: stack | .climbing :: stack => .chain :: waitingCalls stack
  | .rightOperand least _ _ :: stack | .tightened least _ _ :: stack =>
    climbCall least stack ++ waitingCalls stack
  | .samePrecedence :: stack => .power :: waitingCalls stack

/-- The call that does a task, where no frame stands for it. -/
def Task.call (stack : List Frame) : Task → List Call
  | .chain => [.chain]
  | .operand => [.operand]
  | .groupBody _ => [.group]
  | .braceName | .closeBrace _ _ => [.braces]
  | .callOpening _ | .argument _ _ => [.arguments]
  | .climb least _ => climbCall least stack
  | .primary | .tighten _ _ => []

/-- The call that goes on at a moment, where no frame stands for it. -/
def Config.call : Config → List Call
  | .enter task _ stack => task.call stack
  | .exit _ _ _ => []

/-- The calls of readers at a moment, the innermost first. -/
def Config.calls (c : Config) : List Call := c.call ++ waitingCalls c.stack

/-! ## Counted calls -/

theorem countP_climbCall (least : Nat) (stack : List Frame) :
    (climbCall least stack).countP Call.counted = 0 := by
  unfold climbCall
  split <;> rfl

theorem countP_call (c : Config) : c.call.countP Call.counted = 0 := by
  cases c with
  | exit => rfl
  | enter task s stack =>
    cases task with
    | climb least left => exact countP_climbCall least stack
    | _ => rfl

theorem Waits.countP_waitingCalls {stack : List Frame} {part : Awaited} {d : Nat}
    (h : Waits stack part d) : (waitingCalls stack).countP Call.counted = d := by
  induction h with
  | whole => rfl
  | operand _ _ ih =>
    rw [waitingCalls, List.countP_cons_of_pos rfl, List.countP_cons_of_neg (by decide), ih]
  | same _ _ _ ih => rw [waitingCalls, List.countP_cons_of_pos rfl, ih]
  | negation _ ih => exact ih
  | group _ ih | argument _ _ _ _ ih | chain _ ih | climbing _ ih =>
    rw [waitingCalls, List.countP_cons_of_neg (by decide), ih]
  | rightOperand _ _ _ ih | tightened _ _ _ _ ih | tighter _ _ _ _ ih =>
    rw [waitingCalls, List.countP_append, countP_climbCall, Nat.zero_add, ih]

theorem Config.Fits.countP_calls {c : Config} (h : c.Fits) :
    c.calls.countP Call.counted = c.state.depth := by
  obtain ⟨part, waits⟩ := h.exists_waits
  rw [Config.calls, List.countP_append, countP_call, Nat.zero_add, waits.countP_waitingCalls]

/-! ## Climbs that are not counted

A climb is called with a least precedence between one and three.  Above it,
up to the next counted call, there are climbs of higher ones only. -/

/-- Up to the next counted call, the climbs among some calls have least precedences that fall from
below `bound`; from a counted call on, from below four. -/
def Falls (bound : Nat) : List Call → Prop
  | [] => True
  | .climb least :: calls => 0 < least ∧ least < bound ∧ Falls least calls
  | .primary :: calls | .power :: calls => Falls 4 calls
  | .chain :: calls | .operand :: calls | .group :: calls | .braces :: calls
  | .arguments :: calls =>
    Falls bound calls

theorem Falls.mono {bound bound' : Nat} {calls : List Call} (h : Falls bound calls)
    (le : bound ≤ bound') : Falls bound' calls := by
  induction calls with
  | nil => trivial
  | cons call calls ih =>
    cases call with
    | climb least => exact ⟨h.1, Nat.lt_of_lt_of_le h.2.1 le, h.2.2⟩
    | primary | power => exact h
    | _ => exact ih h

/-- The calls below some of them fall from below four at the most. -/
theorem Falls.below {bound : Nat} {above calls : List Call} (h : Falls bound (above ++ calls))
    (le : bound ≤ 4) : Falls 4 calls := by
  induction above generalizing bound with
  | nil => exact h.mono le
  | cons call above ih =>
    cases call with
    | climb least => exact ih h.2.2 (Nat.le_trans (Nat.le_of_lt h.2.1) le)
    | primary | power => exact ih h (Nat.le_refl 4)
    | _ => exact ih h le

/-- Of a stretch of calls that are not counted, the climbs fall one after the other. -/
theorem Falls.stretch {bound : Nat} {mid calls : List Call} (h : Falls bound (mid ++ calls))
    (uncounted : ∀ call ∈ mid, call.counted = false) (pos : 0 < bound) :
    (mid.filterMap Call.least?).Pairwise (· > ·) ∧ (∀ l ∈ mid.filterMap Call.least?, l < bound) ∧
      (mid.filterMap Call.least?).length < bound := by
  induction mid generalizing bound with
  | nil => exact ⟨.nil, List.forall_mem_nil _, pos⟩
  | cons call mid ih =>
    obtain ⟨first, rest⟩ := List.forall_mem_cons.mp uncounted
    cases call with
    | climb least =>
      obtain ⟨pos', lt, h⟩ := h
      obtain ⟨pairwise, small, length⟩ := ih h rest pos'
      refine ⟨.cons small pairwise, List.forall_mem_cons.mpr ⟨lt, fun l hl => ?_⟩, ?_⟩
      · exact Nat.lt_trans (small l hl) lt
      · exact Nat.lt_of_le_of_lt length lt
    | primary | power => cases first
    | _ => exact ih h rest pos

/-- From below which precedence the climbs fall that wait for a part. -/
def Awaited.bound : Awaited → Nat
  | .chain | .primary => 1
  | .operand => 4
  | .climb least => least
  | .tighten op => op.precedence + 1

theorem Waits.climb_bounds {stack : List Frame} {least d : Nat} (h : Waits stack (.climb least) d) :
    0 < least ∧ least < 4 := by
  cases h with
  | climbing => decide
  | @tighter _ _ _ op next _ _ tighter =>
    have := Grouping.precedence_le next
    omega
  | @same _ _ op =>
    have := Grouping.precedence_pos op
    have := Grouping.precedence_le op
    omega

theorem Falls.climbCall {bound least : Nat} {stack : List Frame}
    (h : Falls least (waitingCalls stack)) (pos : 0 < least) (lt : least < bound) :
    Falls bound (climbCall least stack ++ waitingCalls stack) := by
  unfold Parse.climbCall
  split
  · exact h.mono (Nat.le_of_lt lt)
  · exact ⟨pos, lt, h⟩

theorem Waits.falls {stack : List Frame} {part : Awaited} {d : Nat} (h : Waits stack part d) :
    Falls part.bound (waitingCalls stack) := by
  induction h with
  | whole => trivial
  | operand _ _ ih | group _ ih | argument _ _ _ _ ih | climbing _ ih => exact ih
  | negation _ ih | chain _ ih => exact Falls.mono ih (by decide)
  | rightOperand _ _ below ih => exact Falls.climbCall ih below.climb_bounds.1 below.climb_bounds.2
  | tightened _ tight _ below ih | tighter _ tight _ below ih =>
    exact Falls.climbCall ih below.climb_bounds.1 (Nat.lt_succ_of_le tight)
  | @same _ _ op _ _ _ ih =>
    have below : Falls 4 (waitingCalls _) :=
      Falls.mono ih (Nat.succ_le_succ (Grouping.precedence_le op))
    exact below

theorem Waits.bound_le {stack : List Frame} {part : Awaited} {d : Nat} (h : Waits stack part d) :
    part.bound ≤ 4 := by
  cases part with
  | climb least => exact Nat.le_of_lt h.climb_bounds.2
  | tighten op => exact Nat.succ_le_succ (Grouping.precedence_le op)
  | _ => exact Nat.le_of_ble_eq_true rfl

theorem Config.Fits.falls {c : Config} (h : c.Fits) : Falls 4 c.calls := by
  obtain ⟨part, waits⟩ := h.exists_waits
  have below : Falls 4 (waitingCalls c.stack) := waits.falls.mono waits.bound_le
  cases c with
  | exit tree s stack => exact below
  | enter task s stack =>
    cases task with
    | climb least left =>
      have climb : Waits stack (.climb least) s.depth := h
      exact climb.falls.climbCall climb.climb_bounds.1 climb.climb_bounds.2
    | _ => exact below

/-! ## How many calls there are

Between two counted calls there are an operand, at most three climbs, a
chain, and the call of the group or of the arguments in which the chain
stands. -/

/-- How many calls at most are open above the last that is counted while some part is waited for. -/
def Awaited.room : Awaited → Nat
  | .primary => 0
  | .chain => 1
  | .operand => 5
  | .climb least => least + 1
  | .tighten op => op.precedence + 2

theorem Waits.room_le {stack : List Frame} {part : Awaited} {d : Nat} (h : Waits stack part d) :
    part.room ≤ 5 := by
  cases part with
  | climb least => exact Nat.succ_le_succ (Nat.le_of_lt h.climb_bounds.2)
  | tighten op => exact Nat.add_le_add_right (Grouping.precedence_le op) 2
  | _ => exact Nat.le_of_ble_eq_true rfl

theorem length_climbCall_le (least : Nat) (stack : List Frame) :
    (climbCall least stack).length ≤ 1 := by
  unfold climbCall
  split
  · exact Nat.zero_le _
  · exact Nat.le_refl _

theorem length_call_le (c : Config) : c.call.length ≤ 1 := by
  cases c with
  | exit => exact Nat.zero_le _
  | enter task s stack =>
    cases task with
    | climb least left => exact length_climbCall_le least stack
    | _ => exact Nat.le_of_ble_eq_true rfl

/-- For each call that is counted seven are open at most, and few above the last. -/
theorem Waits.length_waitingCalls_le {stack : List Frame} {part : Awaited} {d : Nat}
    (h : Waits stack part d) : (waitingCalls stack).length ≤ 7 * d + part.room := by
  induction h with
  | whole => decide
  | operand _ _ ih | negation _ ih | group _ ih | argument _ _ _ _ ih | chain _ ih | climbing _ ih
  | same _ _ _ ih =>
    simp only [waitingCalls, List.length_cons, Awaited.room] at ih ⊢
    omega
  | @rightOperand stack d least op left tight below ih
  | @tightened stack d least op left tight _ below ih
  | @tighter stack d least op _ left tight _ below ih =>
    have one := length_climbCall_le least stack
    have := below.climb_bounds
    simp only [waitingCalls, List.length_append, Awaited.room] at ih ⊢
    omega

theorem Config.Fits.length_calls_le {c : Config} (h : c.Fits) :
    c.calls.length ≤ 7 * c.state.depth + 6 := by
  obtain ⟨part, waits⟩ := h.exists_waits
  have below := waits.length_waitingCalls_le
  have room := waits.room_le
  have one := length_call_le c
  rw [Config.calls, List.length_append]
  omega

end Parse

open Parse ParseState

/-- At every moment of a parse the count is the number of operands that are being read and of
climbs right of a power, and keeps the limit.  Among calls that are not counted, the least
precedences of the climbs rise towards the innermost, so that there are three at most between two
counted calls and seven calls at most for each; no right operand that may be extended stands where
the nesting is too deep.  Behind whatever is read the count is what it was before. -/
theorem parseTokens_depth (scope : Scope) (tokens : List Token) :
    (∀ n, let c := configAt scope tokens n
      c.state.depth = c.calls.countP Call.counted ∧ c.state.depth ≤ nestingLimit ∧
        c.calls.length ≤ 7 * nestingLimit + 6 ∧
        (∀ above mid below, c.calls = above ++ (mid ++ below) →
          (∀ call ∈ mid, call.counted = false) →
            (mid.filterMap Call.least?).Pairwise (· > ·) ∧
              (mid.filterMap Call.least?).length ≤ 3) ∧
        ∀ op right s stack, c = .enter (.tighten op right) s stack → s.tooDeep = false) ∧
      ∀ s, (operand scope s).next.depth = s.depth ∧ (primary scope s).next.depth = s.depth ∧
        (chain scope s).next.depth = s.depth ∧ (arguments scope s).next.depth = s.depth ∧
        (∀ least left, (climb scope least left s).next.depth = s.depth) ∧
        ∀ op right, (tighten scope op right s).next.depth = s.depth := by
  refine ⟨fun n => ?_, fun s => ?_⟩
  · have fits := fits_configAt scope tokens n
    obtain ⟨part, waits⟩ := fits.exists_waits
    refine ⟨fits.countP_calls.symm, waits.depth_le, ?_, ?_, ?_⟩
    · have length := fits.length_calls_le
      have limit := waits.depth_le
      omega
    · intro above mid below split uncounted
      have falls : Falls 4 (above ++ (mid ++ below)) := split ▸ fits.falls
      obtain ⟨pairwise, -, length⟩ := (falls.below (Nat.le_refl 4)).stretch uncounted (by decide)
      exact ⟨pairwise, Nat.le_of_lt_succ length⟩
    · intro op right s stack config
      rw [config] at fits
      have waits : Waits stack (.tighten op) s.depth := fits
      exact decide_eq_false (Nat.not_le_of_lt waits.tighten_room)
  · obtain ⟨operand, primary, arguments, chain, climb, tighten⟩ := yields scope
    exact ⟨(operand s).depth, (primary s).depth, (chain s).depth, (arguments s).depth,
      fun least left => (climb least left s).depth, fun op right => (tighten op right s).depth⟩

/-- When the last operand of `X+X*X^X^X` is read, three climbs wait for the first power and the
count is two; behind it there is still room for an extension. -/
theorem parseTokens_depth_powers :
    let scope : Scope := ⟨.empty, .empty⟩
    let tokens : List Token := [⟨.variableName, "X", ⟨0, 1⟩⟩, ⟨.add, "+", ⟨1, 2⟩⟩,
      ⟨.variableName, "X", ⟨2, 3⟩⟩, ⟨.mul, "*", ⟨3, 4⟩⟩, ⟨.variableName, "X", ⟨4, 5⟩⟩,
      ⟨.pow, "^", ⟨5, 6⟩⟩, ⟨.variableName, "X", ⟨6, 7⟩⟩, ⟨.pow, "^", ⟨7, 8⟩⟩,
      ⟨.variableName, "X", ⟨8, 9⟩⟩]
    let climbs : List Call := [.climb 3, .climb 2, .climb 1, .chain]
    (configAt scope tokens 25).calls = [.primary, .operand, .power] ++ (climbs ++ []) ∧
      (configAt scope tokens 25).state.depth = 2 ∧
      (climbs.filterMap Call.least?).Pairwise (· > ·) ∧ (climbs.filterMap Call.least?).length ≤ 3 ∧
      ∃ op right s stack, configAt scope tokens 28 = .enter (.tighten op right) s stack ∧
        s.tooDeep = false := by
  intro scope tokens climbs
  obtain ⟨always, -⟩ := parseTokens_depth scope tokens
  obtain ⟨-, -, -, stretches, -⟩ := always 25
  obtain ⟨pairwise, length⟩ := stretches [.primary, .operand, .power] climbs [] rfl (by decide)
  obtain ⟨-, -, -, -, room⟩ := always 28
  exact ⟨rfl, rfl, pairwise, length, _, _, _, _, rfl, room _ _ _ _ rfl⟩

end Arith
