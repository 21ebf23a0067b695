/-
# A parse as a machine with an explicit stack

The readers of the grammar call each other.  Here the calls that wait for an
answer are frames on a stack, and a parse goes on one step at a time:

    enter task s stack    `task` is to be done at the current token of `s`
    exit tree s stack     the topmost frame gets the answer `tree`

A step looks at no token but the current one and moves past at most that
one.  Loops keep what they have made so far in the task: `climb` its left
operand, `argument` the arguments in front of the cursor.

A step calls nothing that recurs.  So what a step does is a case analysis,
and what holds of every moment of a parse, also of those in the middle of a
reader, is shown for one step and then for any number of them.  The bounds
on the cursor, the node budget and the depth are stated about `configAt`,
the moment of a parse after so many steps.

A machine that has halted stays as it is (`steps_halted`).  It follows that
the result is unique (`halt_unique`), and with it that the rules admit one
reading of a chain only (`chain_of_reads`).

**Proved here.**

    what a reader returns is where its task exits, above any stack       (`Reads.reaches`)
    the configuration in which a whole parse halts                       (`reaches_halt`)
-/
import Arith.Proofs.Parse.Reads

namespace Arith.Parse

open ParseState

/-! ## Configurations

A frame keeps what the reader that waits has in its variables, and nothing
else. -/

/-- What is to be done at the current token. -/
inductive Task where
  | operand
  | primary
  /-- Behind the parenthesis `opening` of a group. -/
  | groupBody (opening : Token)
  /-- Behind the brace in front of a variable. -/
  | braceName
  | closeBrace (name : String) (tree : Expr)
  /-- Behind the name of a function. -/
  | callOpening (name : Token)
  /-- In front of an argument, a comma or the end of a call; without `trees` one argument failed. -/
  | argument (name : Token) (trees : Option (List Expr))
  | chain
  | climb (least : Nat) (left : Expr)
  | tighten (op : Operator) (right : Expr)

/-- A call that waits for an answer. -/
inductive Frame where
  /-- An operand waits for its inside and is left then. -/
  | operand
  | negation
  | group
  /-- A chain waits for its first operand. -/
  | chain
  /-- A chain waits for its operators being folded. -/
  | climbing
  /-- `left op` waits for the operand right of `op`. -/
  | rightOperand (least : Nat) (op : Operator) (left : Expr)
  /-- `left op` waits for its right operand being extended. -/
  | tightened (least : Nat) (op : Operator) (left : Expr)
  /-- An extension by operators of the same precedence is left. -/
  | samePrecedence
  /-- A call waits for an argument that starts at `before`. -/
  | argument (name : Token) (trees : Option (List Expr)) (before : Nat)

/-- A moment of a parse. -/
inductive Config where
  | enter (task : Task) (s : ParseState) (stack : List Frame)
  | exit (tree : Option Expr) (s : ParseState) (stack : List Frame)

namespace Config

/-- The state of the parse at a moment. -/
def state : Config → ParseState
  | .enter _ s _ | .exit _ s _ => s

/-- The calls that wait at a moment, the innermost first. -/
def stack : Config → List Frame
  | .enter _ _ stack | .exit _ _ stack => stack

end Config

/-! ## Steps -/

/-- Starts to read an operand in which the cursor stands. -/
def startPrimary (scope : Scope) (s : ParseState) (stack : List Frame) : Config :=
  match s.kind with
  | .number => if s.tooLarge 1 then .exit none s.faultTooLarge stack
      else .exit (some (s.claim 1).readNumber.1) (s.claim 1).readNumber.2 stack
  | .sub => if s.tooLarge 2 then .exit none s.faultTooLarge stack
      else .enter .operand (s.claim 2).advance (.negation :: stack)
  | .leftParen => .enter (.groupBody s.current) s.advance stack
  | .leftBrace => .enter .braceName s.advance stack
  | .variableName => if s.tooLarge 1 then .exit none s.faultTooLarge stack
      else .exit (some ((s.claim 1).readVariable scope).1) ((s.claim 1).readVariable scope).2 stack
  | .functionName => if s.tooLarge 1 then .exit none s.faultTooLarge stack
      else .enter (.callOpening s.current) (s.claim 1).advance stack
  | .eof => .exit none (s.fault .unexpectedEnd) stack
  | _ => .exit none (s.fault (.unexpectedToken s.current.text)) stack

/-- Does what is to be done at the current token. -/
def start (scope : Scope) (s : ParseState) (stack : List Frame) : Task → Config
  | .operand => if s.tooDeep then .exit none s.faultTooDeep stack
      else .enter .primary s.enter (.operand :: stack)
  | .primary => startPrimary scope s stack
  | .groupBody opening => if s.kind = .rightParen then
        .exit none (s.closeEmptyParentheses opening) stack
      else .enter .chain s (.group :: stack)
  | .braceName => if s.kind ≠ .variableName then
        .exit none (s.fault (.expectedVariableName s.current.text)) stack
      else if s.tooLarge 1 then .exit none s.faultTooLarge stack
      else .enter (.closeBrace s.current.text ((s.claim 1).readVariable scope).1)
        ((s.claim 1).readVariable scope).2 stack
  | .closeBrace name tree => .exit (some tree) (s.closeBrace name) stack
  | .callOpening name => if s.kind = .leftParen then
        .enter (.argument name (some [])) s.advance stack
      else .exit none (s.fault (.missingCallParenthesis name.text s.current.text)) stack
  | .argument name trees => if s.kind = .rightParen ∨ s.kind = .eof then
        .exit (s.closeCall scope name trees).1 (s.closeCall scope name trees).2 stack
      else if s.kind = .comma then .enter (.argument name trees) s.advance stack
      else .enter .chain s (.argument name trees s.position :: stack)
  | .chain => .enter .operand s (.chain :: stack)
  | .climb least left =>
    match s.operator? with
    | none => .exit (some left) s stack
    | some op => if op.precedence < least then .exit (some left) s stack
        else if s.tooLarge 1 then .exit (some left) s.faultTooLarge stack
        else .enter .operand (s.claim 1).advance (.rightOperand least op left :: stack)
  | .tighten op right =>
    match s.operator? with
    | none => .exit (some right) s stack
    | some next => if op.precedence < next.precedence then
          .enter (.climb (op.precedence + 1) right) s stack
        else if next.precedence = op.precedence ∧ op.isRightAssociative then
          if s.tooDeep then .exit (some right) s.faultTooDeep stack
          else .enter (.climb op.precedence right) s.enter (.samePrecedence :: stack)
        else .exit (some right) s stack

/-- Gives a frame the answer that it waits for. -/
def resume (tree : Option Expr) (s : ParseState) (stack : List Frame) : Frame → Config
  | .operand => .exit tree s.leave stack
  | .negation => .exit (tree.map .negate) s stack
  | .group => .exit (s.closeGroup tree).1 (s.closeGroup tree).2 stack
  | .chain =>
    match tree with
    | none => .exit none s stack
    | some left => .enter (.climb 1 left) s (.climbing :: stack)
  | .climbing => .exit tree s stack
  | .rightOperand least op left =>
    match tree with
    | none => .exit (some left) s stack
    | some right => .enter (.tighten op right) s (.tightened least op left :: stack)
  | .tightened least op left =>
    match tree with
    | none => .exit none s stack
    | some right => .enter (.climb least (.binary op left right)) s stack
  | .samePrecedence => .exit tree s.leave stack
  | .argument name trees before =>
    match tree with
    | some tree => .enter (.argument name (trees.map (· ++ [tree]))) s stack
    | none => .enter (.argument name none) (if before < s.position then s else s.advance) stack

/-- One step of a parse; one that has halted stays as it is. -/
def step (scope : Scope) : Config → Config
  | .enter task s stack => start scope s stack task
  | .exit tree s [] => .exit tree s []
  | .exit tree s (frame :: stack) => resume tree s stack frame

def steps (scope : Scope) : Nat → Config → Config
  | 0, c => c
  | n + 1, c => steps scope n (step scope c)

/-- A parse of some tokens after a number of steps. -/
def configAt (scope : Scope) (tokens : List Token) (n : Nat) : Config :=
  steps scope n (.enter .chain (.start tokens) [])

/-- Some number of steps leads from one configuration to another. -/
def Reaches (scope : Scope) (c c' : Config) : Prop := ∃ n, steps scope n c = c'

variable {scope : Scope}

theorem steps_add (m n : Nat) (c : Config) :
    steps scope (m + n) c = steps scope n (steps scope m c) := by
  induction m generalizing c with
  | zero => rw [Nat.zero_add]; rfl
  | succ m ih => rw [Nat.succ_add]; exact ih _

theorem configAt_succ (tokens : List Token) (n : Nat) :
    configAt scope tokens (n + 1) = step scope (configAt scope tokens n) := by
  rw [configAt, steps_add n 1]
  rfl

theorem steps_halted (n : Nat) (tree : Option Expr) (s : ParseState) :
    steps scope n (.exit tree s []) = .exit tree s [] := by
  induction n with
  | zero => rfl
  | succ n ih => exact ih

namespace Reaches

theorem refl (c : Config) : Reaches scope c c := ⟨0, rfl⟩

theorem trans {c d e : Config} : Reaches scope c d → Reaches scope d e → Reaches scope c e
  | ⟨m, h⟩, ⟨n, h'⟩ => ⟨m + n, by rw [steps_add, h, h']⟩

/-- One step, and then some more. -/
theorem head {c d e : Config} (h : step scope c = d) : Reaches scope d e → Reaches scope c e
  | ⟨n, h'⟩ => ⟨n + 1, by rw [steps, h, h']⟩

theorem single {c d : Config} (h : step scope c = d) : Reaches scope c d := .head h (.refl d)

instance : Trans (Reaches scope) (Reaches scope) (Reaches scope) := ⟨Reaches.trans⟩

end Reaches

/-! ## What a reader returns is where its task exits

By induction over the rules.  What a rule has as premises are runs of the
machine, and they are put together, with the steps in between, into the run
of its conclusion. -/

/-- The trees of some arguments behind those in front of them, none if one is missing. -/
def appendTrees (trees more : Option (List Expr)) : Option (List Expr) :=
  trees.bind fun ts => more.map (ts ++ ·)

@[simp] theorem appendTrees_nil (more : Option (List Expr)) :
    appendTrees (some []) more = more := by
  cases more <;> rfl

@[simp] theorem appendTrees_empty (trees : Option (List Expr)) :
    appendTrees trees (some []) = trees := by
  cases trees <;> simp [appendTrees]

@[simp] theorem appendTrees_none (trees : Option (List Expr)) : appendTrees trees none = none := by
  cases trees <;> rfl

/-- A tree may be put behind the trees in front or in front of those behind. -/
theorem appendTrees_cons (trees : Option (List Expr)) (tree : Expr) (more : Option (List Expr)) :
    appendTrees (trees.map (· ++ [tree])) more = appendTrees trees (more.map (tree :: ·)) := by
  cases trees <;> cases more <;> simp [appendTrees]

/-- The task of a part exits with what the part yields, above any stack.  The arguments of a call
end in front of what closes them, with those read before in front. -/
def Exits (scope : Scope) (s next : ParseState) : (part : Part) → part.Yield → Prop
  | .operand, tree => ∀ stack, Reaches scope (.enter .operand s stack) (.exit tree next stack)
  | .primary, tree => ∀ stack, Reaches scope (.enter .primary s stack) (.exit tree next stack)
  | .chain, tree => ∀ stack, Reaches scope (.enter .chain s stack) (.exit tree next stack)
  | .climb least left, (tree : Expr) =>
    ∀ stack, Reaches scope (.enter (.climb least left) s stack) (.exit (some tree) next stack)
  | .tighten op right, (tree : Expr) =>
    ∀ stack, Reaches scope (.enter (.tighten op right) s stack) (.exit (some tree) next stack)
  | .arguments, trees => (next.kind = .rightParen ∨ next.kind = .eof) ∧
      ∀ name before stack, Reaches scope (.enter (.argument name before) s stack)
        (.enter (.argument name (appendTrees before trees)) next stack)

theorem step_primary_tooLarge {s : ParseState} {count : Nat} (stack : List Frame)
    (claims : claimOf? s.kind = some count) (large : s.tooLarge count) :
    step scope (.enter .primary s stack) = .exit none s.faultTooLarge stack := by
  cases kind : s.kind <;> rw [kind] at claims <;> cases claims <;>
    simp only [step, start, startPrimary, kind, if_pos large]

theorem step_primary_unexpected {s : ParseState} (stack : List Frame)
    (claims : claimOf? s.kind = none) (paren : s.kind ≠ .leftParen) (brace : s.kind ≠ .leftBrace)
    (eof : s.kind ≠ .eof) :
    step scope (.enter .primary s stack) =
      .exit none (s.fault (.unexpectedToken s.current.text)) stack := by
  cases kind : s.kind <;> rw [kind] at claims <;> first
    | contradiction
    | simp only [step, start, startPrimary, kind]

theorem step_climb_stop {s : ParseState} {least : Nat} (left : Expr) (stack : List Frame)
    (stop : ∀ op, s.operator? = some op → op.precedence < least) :
    step scope (.enter (.climb least left) s stack) = .exit (some left) s stack := by
  cases operator : s.operator? with
  | none => simp only [step, start, operator]
  | some op => simp only [step, start, operator, if_pos (stop op operator)]

theorem step_tighten_stop {s : ParseState} {op : Operator} (right : Expr) (stack : List Frame)
    (stop : ∀ next, s.operator? = some next → next.precedence < rightLevel op) :
    step scope (.enter (.tighten op right) s stack) = .exit (some right) s stack := by
  cases operator : s.operator? with
  | none => simp only [step, start, operator]
  | some next =>
    have loose := stop next operator
    unfold rightLevel at loose
    have tight : ¬ op.precedence < next.precedence := by split at loose <;> omega
    have same : ¬ (next.precedence = op.precedence ∧ op.isRightAssociative = true) := by
      rintro ⟨same, rightward⟩
      rw [if_pos rightward, same] at loose
      omega
    simp only [step, start, operator, if_neg tight, if_neg same]

/-- Reading a brace, a name and what closes the brace takes three steps. -/
theorem reaches_braced {s : ParseState} (stack : List Frame) (kind : s.kind = .leftBrace) :
    Reaches scope (.enter .primary s stack)
      (.exit (s.readBraced scope).1 (s.readBraced scope).2 stack) := by
  refine .head (d := .enter .braceName s.advance stack) ?_ ?_
  · simp only [step, start, startPrimary, kind]
  · by_cases name : s.advance.kind = .variableName
    · by_cases large : s.advance.tooLarge 1
      · refine .single ?_
        simp only [step, start, readBraced, name, ne_eq, not_true, if_false, if_pos large]
      · refine .head (d := .enter (.closeBrace s.advance.current.text
          ((s.advance.claim 1).readVariable scope).1) ((s.advance.claim 1).readVariable scope).2
          stack) ?_ (.single ?_)
        · simp only [step, start, name, ne_eq, not_true, if_false, if_neg large]
        · simp only [step, start, readBraced, name, ne_eq, not_true, if_false, if_neg large]
    · refine .single ?_
      simp only [step, start, readBraced, ne_eq, name, not_false_iff, if_true]

theorem Reads.reaches {part : Part} {s next : ParseState} {yield : part.Yield}
    (h : Reads scope part s yield next) : Exits scope s next part yield := by
  induction h with
  | tooDeep deep =>
    intro stack
    exact .single (if_pos deep)
  | @operand s next tree deep _ body =>
    intro stack
    exact .head (if_neg deep) ((body (.operand :: stack)).trans (.single rfl))
  | tooLarge claims large =>
    intro stack
    exact .single (step_primary_tooLarge stack claims large)
  | number kind large =>
    intro stack
    refine .single ?_
    simp only [step, start, startPrimary, kind, if_neg large]
  | negation kind large _ body =>
    intro stack
    refine .head ?_ ((body (.negation :: stack)).trans (.single rfl))
    simp only [step, start, startPrimary, kind, if_neg large]
  | @emptyParentheses s kind closing =>
    intro stack
    refine .head (d := .enter (.groupBody s.current) s.advance stack) ?_ (.single (if_pos closing))
    simp only [step, start, startPrimary, kind]
  | @group s next tree kind closing _ body =>
    intro stack
    refine .head (d := .enter (.groupBody s.current) s.advance stack) ?_
      (.head (if_neg closing) ((body (.group :: stack)).trans (.single rfl)))
    simp only [step, start, startPrimary, kind]
  | braced kind =>
    intro stack
    exact reaches_braced stack kind
  | variableName kind large =>
    intro stack
    refine .single ?_
    simp only [step, start, startPrimary, kind, if_neg large]
  | @call s next trees kind large opening _ body =>
    intro stack
    refine .head (d := .enter (.callOpening s.current) (s.claim 1).advance stack) ?_
      (.head (if_pos opening) ((body.2 s.current (some []) stack).trans (.single ?_)))
    · simp only [step, start, startPrimary, kind, if_neg large]
    · rw [appendTrees_nil]
      exact if_pos body.1
  | @missingParenthesis s kind large opening =>
    intro stack
    refine .head (d := .enter (.callOpening s.current) (s.claim 1).advance stack) ?_
      (.single (if_neg opening))
    simp only [step, start, startPrimary, kind, if_neg large]
  | unexpectedEnd kind =>
    intro stack
    refine .single ?_
    simp only [step, start, startPrimary, kind]
  | unexpectedToken claims paren brace eof =>
    intro stack
    exact .single (step_primary_unexpected stack claims paren brace eof)
  | noChain _ first =>
    intro stack
    exact .head rfl ((first (.chain :: stack)).trans (.single rfl))
  | chain _ _ first more =>
    intro stack
    exact .head rfl ((first (.chain :: stack)).trans
      (.head rfl ((more (.climbing :: stack)).trans (.single rfl))))
  | climbStop stop =>
    intro stack
    exact .single (step_climb_stop _ stack stop)
  | climbTooLarge operator tight large =>
    intro stack
    refine .single ?_
    simp only [step, start, operator, if_neg (Nat.not_lt.mpr tight), if_pos large]
  | @climbNoOperand s next least left op operator tight large _ body =>
    intro stack
    refine .head ?_ ((body (.rightOperand least op left :: stack)).trans (.single rfl))
    simp only [step, start, operator, if_neg (Nat.not_lt.mpr tight), if_neg large]
  | @climb s next after final least left right tightened tree op operator tight large _ _ _ body
      tighter more =>
    intro stack
    refine .head ?_ ((body (.rightOperand least op left :: stack)).trans
      (.head rfl ((tighter (.tightened least op left :: stack)).trans (.head rfl (more stack)))))
    simp only [step, start, operator, if_neg (Nat.not_lt.mpr tight), if_neg large]
  | tightenStop stop =>
    intro stack
    exact .single (step_tighten_stop _ stack stop)
  | tightenTighter operator tight _ more =>
    intro stack
    refine .head ?_ (more stack)
    simp only [step, start, operator, if_pos tight]
  | tightenTooDeep operator same rightward deep =>
    intro stack
    refine .single ?_
    simp only [step, start, operator, same, Nat.lt_irrefl, if_false, rightward, and_self, if_true,
      deep]
  | tightenSame operator same rightward deep _ more =>
    intro stack
    refine .head ?_ ((more (.samePrecedence :: stack)).trans (.single rfl))
    simp only [step, start, operator, same, Nat.lt_irrefl, if_false, rightward, and_self, if_true,
      if_neg deep]
  -- The task of the arguments has those `before` it in hand, so the claim is about what is added.
  | argumentsEnd closing =>
    refine ⟨closing, fun name before stack => ?_⟩
    rw [appendTrees_empty]
    exact .refl _
  | comma kind _ more =>
    refine ⟨more.1, fun name before stack => .head ?_ (more.2 name before stack)⟩
    simp [step, start, kind]
  | @argument s next after tree trees closing comma _ _ first more =>
    refine ⟨more.1, fun name before stack => ?_⟩
    refine .head ?_ ((first (.argument name before s.position :: stack)).trans (.head rfl ?_))
    · simp only [step, start, if_neg closing, if_neg comma]
    · rw [← appendTrees_cons]
      exact more.2 name _ stack
  | @failedArgument s next after trees closing comma _ moved _ first more =>
    refine ⟨more.1, fun name before stack => ?_⟩
    refine .head ?_ ((first (.argument name before s.position :: stack)).trans (.head rfl ?_))
    · simp only [step, start, if_neg closing, if_neg comma]
    · simp only [step, resume, if_pos moved, appendTrees_none]
      exact more.2 name none stack
  | @skippedArgument s next after trees closing comma _ moved _ first more =>
    refine ⟨more.1, fun name before stack => ?_⟩
    refine .head ?_ ((first (.argument name before s.position :: stack)).trans (.head rfl ?_))
    · simp only [step, start, if_neg closing, if_neg comma]
    · simp only [step, resume, if_neg moved, appendTrees_none]
      exact more.2 name none stack

theorem reaches_halt (scope : Scope) (s : ParseState) :
    Reaches scope (.enter .chain s []) (.exit (chain scope s).tree (chain scope s).next []) :=
  ((yields scope).2.2.2.1 s).reaches []

theorem halt_unique {c : Config} {tree tree' : Option Expr} {s s' : ParseState}
    (h : Reaches scope c (.exit tree s [])) (h' : Reaches scope c (.exit tree' s' [])) :
    tree = tree' ∧ s = s' := by
  obtain ⟨m, hm⟩ := h
  obtain ⟨n, hn⟩ := h'
  have same : Config.exit tree s [] = .exit tree' s' [] := by
    rw [← steps_halted n, ← hm, ← steps_add, Nat.add_comm, steps_add, hn, steps_halted]
  cases same
  exact ⟨rfl, rfl⟩

/-- Whatever may be read as a chain is what the reader of chains returns. -/
theorem chain_of_reads {s next : ParseState} {tree : Option Expr}
    (h : Reads scope .chain s tree next) :
    (chain scope s).tree = tree ∧ (chain scope s).next = next :=
  halt_unique (reaches_halt scope s) (h.reaches [])

/-- What a configuration has come to, if it has halted. -/
def Config.result? : Config → Option (Option Expr × ParseState)
  | .exit tree s [] => some (tree, s)
  | _ => none

/-- The machine may be run to evaluate a parse. -/
theorem run_of_steps {n : Nat} {tokens : List Token} {r : Option Expr × ParseState}
    (halted : (steps scope n (.enter .chain (.start tokens) [])).result? = some r) :
    run scope tokens = (r.1, r.2.finish) := by
  generalize hc : steps scope n (.enter .chain (.start tokens) []) = c at halted
  unfold Config.result? at halted
  split at halted
  next tree s =>
    cases halted
    obtain ⟨rfl, rfl⟩ := halt_unique (reaches_halt scope (.start tokens)) ⟨n, hc⟩
    rfl
  · cases halted

end Arith.Parse
