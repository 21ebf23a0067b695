/-
# What is held has been claimed

A parse claims nodes before it makes them and never gives any back.  At
every moment it holds trees that are finished or wait for being finished --
the answer on its way, left operands, the arguments that open calls have
collected -- and operators, negations and calls that are nodes as soon as
their operands are there.  All these together are never more nodes than have
been claimed (`Moment.Sound`), and what has been claimed is within the
limit.

The machine of `Arith.Proofs.Parse.Machine` forgets the arguments of a call
once one of them has failed, since there will be no tree of the call.  They
are held all the same until the call is closed, so a `Moment` keeps them
beside the configuration.

The invariant has three parts: what has been collected is what the machine
knows of the open calls, what is held has been claimed, and what has been
claimed is within the limit.  Most steps leave the open calls alone, and for
them it is enough that the step pays for what it holds more (`Pays`); the
three steps of a call are shown one by one.

**Proved here.**

    a step holds no more than it did, but for what it has claimed    (`Moment.Sound.step`)
    what is held at every moment, and how large a tree is            (`parseTokens_budget`)
-/
import Arith.Proofs.Grammar.Exact

namespace Arith

/-! ## Sizes

A node counts one, and a negation two: the difference, and the zero on its
left. -/

namespace Expr

/-- How many nodes a tree has. -/
def size (e : Expr) : Nat := e.nodes.length

/-- How many nodes several trees have. -/
def sizeAll (es : List Expr) : Nat := (es.flatMap nodes).length

theorem size_binary (op : Operator) (left right : Expr) :
    (binary op left right).size = left.size + 1 + right.size :=
  (Grouping.length_nodes_binary op left right).trans (Nat.add_assoc _ _ _).symm

theorem size_negate (e : Expr) : e.negate.size = 2 + e.size := size_binary _ _ _

theorem size_call (name : String) (callee : Handle) (arguments : List Expr) :
    (call name callee arguments).size = 1 + sizeAll arguments := by
  rw [size, nodes_call, List.length_cons, Nat.add_comm]
  rfl

theorem sizeAll_nil : sizeAll [] = 0 := rfl

theorem sizeAll_cons (e : Expr) (es : List Expr) : sizeAll (e :: es) = e.size + sizeAll es := by
  rw [sizeAll, List.flatMap_cons, List.length_append]
  rfl

theorem sizeAll_concat (es : List Expr) (e : Expr) : sizeAll (es ++ [e]) = sizeAll es + e.size := by
  rw [sizeAll, List.flatMap_append, List.length_append, List.flatMap_singleton]
  rfl

mutual

theorem height_le_size : ∀ e : Expr, e.height ≤ e.size
  | .number _ | .var _ _ => Nat.le_refl 1
  | .binary op left right => by
    have := height_le_size left
    have := height_le_size right
    rw [height, size_binary]
    omega
  | .call name callee arguments => by
    have := heightAll_le_sizeAll arguments
    rw [height, size_call]
    omega

theorem heightAll_le_sizeAll : ∀ es : List Expr, heightAll es ≤ sizeAll es
  | [] => Nat.le_refl 0
  | e :: es => by
    have := height_le_size e
    have := heightAll_le_sizeAll es
    rw [heightAll, sizeAll_cons]
    omega

end

end Expr

namespace Parse

open ParseState

/-! ## Moments

What has been collected is not part of a configuration, but every step
determines it. -/

/-- A moment of a parse, with the arguments that the open calls have collected, the innermost call
first. -/
structure Moment where
  config : Config
  collected : List (List Expr)

/-- What has been collected when a configuration has made its step: a call starts with no
arguments, adds each that has been read, and ends with its parenthesis. -/
def Config.collect : Config → List (List Expr) → List (List Expr)
  | .enter (.callOpening _) s _, held => if s.kind = .leftParen then [] :: held else held
  | .enter (.argument _ _) s _, held =>
    if s.kind = .rightParen ∨ s.kind = .eof then held.tail else held
  | .exit (some tree) _ (.argument _ _ _ :: _), arguments :: held => (arguments ++ [tree]) :: held
  | _, held => held

namespace Moment

/-- The moment before the first of some tokens. -/
def start (tokens : List Token) : Moment := ⟨.enter .chain (.start tokens) [], []⟩

def step (scope : Scope) (m : Moment) : Moment :=
  ⟨Parse.step scope m.config, m.config.collect m.collected⟩

/-- The moment after a number of steps. -/
def after (scope : Scope) (tokens : List Token) : Nat → Moment
  | 0 => start tokens
  | n + 1 => (after scope tokens n).step scope

theorem config_after (scope : Scope) (tokens : List Token) (n : Nat) :
    (after scope tokens n).config = steps scope n (.enter .chain (.start tokens) []) := by
  induction n with
  | zero => rfl
  | succ n ih => rw [steps_add n 1, ← ih]; rfl

end Moment

/-! ## What is held

Counted as nodes of the tree that would come out if all went well. -/

/-- The nodes that a task holds.  A call that is being read is one of them. -/
def Task.held : Task → Nat
  | .closeBrace _ tree => tree.size
  | .callOpening _ | .argument _ _ => 1
  | .climb _ left => left.size
  | .tighten _ right => right.size
  | _ => 0

/-- The nodes that wait in a frame.  A negation is the difference and the zero. -/
def Frame.held : Frame → Nat
  | .negation => 2
  | .rightOperand _ _ left | .tightened _ _ left => left.size + 1
  | .argument _ _ _ => 1
  | _ => 0

/-- The nodes that wait on a stack. -/
def heldOn : List Frame → Nat
  | [] => 0
  | frame :: stack => frame.held + heldOn stack

/-- The nodes of an answer on its way. -/
def heldIn : Option Expr → Nat
  | none => 0
  | some tree => tree.size

def Config.held : Config → Nat
  | .enter task _ stack => task.held + heldOn stack
  | .exit tree _ stack => heldIn tree + heldOn stack

def heldBy : List (List Expr) → Nat
  | [] => 0
  | arguments :: held => Expr.sizeAll arguments + heldBy held

/-- The nodes that are held at a moment. -/
def Moment.held (m : Moment) : Nat := m.config.held + heldBy m.collected

/-! ## What is claimed

Nodes are claimed behind a check only, and nothing else changes the number. -/

/-- Between two states `count` nodes have been claimed, within the limit. -/
structure Claims (s : ParseState) (count : Nat) (t : ParseState) : Prop where
  claimed : t.claimed = s.claimed + count
  within : s.claimed ≤ nodeLimit → t.claimed ≤ nodeLimit

namespace Claims

variable {s t : ParseState} {count : Nat}

theorem zero (same : t.claimed = s.claimed) : Claims s 0 t := ⟨same, fun within => same ▸ within⟩

theorem some (large : ¬ s.tooLarge count) (claimed : t.claimed = s.claimed + count) :
    Claims s count t := by
  rw [tooLarge, decide_eq_true_eq] at large
  exact ⟨claimed, fun _ => by omega⟩

end Claims

theorem size_readNumber (s : ParseState) : s.readNumber.1.size = 1 := by
  unfold readNumber
  split <;> rfl

theorem size_readVariable (s : ParseState) (scope : Scope) : (s.readVariable scope).1.size = 1 := by
  unfold readVariable
  dsimp only
  split <;> rfl

theorem heldIn_closeGroup (s : ParseState) (tree : Option Expr) :
    heldIn (s.closeGroup tree).1 ≤ heldIn tree := by
  unfold closeGroup
  split
  · exact Nat.le_refl _
  · exact Nat.zero_le _

theorem heldIn_closeCall (s : ParseState) (scope : Scope) (name : Token)
    {trees : Option (List Expr)}
    {arguments : List Expr} (same : ∀ ts, trees = some ts → ts = arguments) :
    heldIn (s.closeCall scope name trees).1 ≤ 1 + Expr.sizeAll arguments := by
  unfold closeCall
  split
  · split
    · cases trees with
      | none => exact Nat.zero_le _
      | some ts =>
        rw [← same ts rfl]
        exact Nat.le_of_eq (Expr.size_call _ _ _)
    · exact Nat.zero_le _
  · exact Nat.zero_le _

/-! ## Open calls

A call for which an argument has failed has no arguments in the machine, and
has collected some all the same. -/

/-- The arguments of the calls that wait on a stack, as far as the machine knows them. -/
def openOn : List Frame → List (Option (List Expr))
  | [] => []
  | .argument _ trees _ :: stack => trees :: openOn stack
  | _ :: stack => openOn stack

def Config.openCalls : Config → List (Option (List Expr))
  | .enter (.argument _ trees) _ stack => trees :: openOn stack
  | .enter _ _ stack | .exit _ _ stack => openOn stack

/-- What has been collected is what the machine knows, where it knows it. -/
def Remembers : List (Option (List Expr)) → List (List Expr) → Prop
  | [], [] => True
  | trees :: calls, arguments :: held =>
    (∀ ts, trees = some ts → ts = arguments) ∧ Remembers calls held
  | _, _ => False

theorem Remembers.exists_cons {trees : Option (List Expr)} {calls : List (Option (List Expr))}
    {collected : List (List Expr)} (h : Remembers (trees :: calls) collected) :
    ∃ arguments held, collected = arguments :: held ∧ (∀ ts, trees = some ts → ts = arguments) ∧
      Remembers calls held := by
  cases collected with
  | nil => exact h.elim
  | cons arguments held => exact ⟨arguments, held, rfl, h⟩

/-- All that is held at a moment has been claimed, within the limit. -/
structure Moment.Sound (m : Moment) : Prop where
  remembers : Remembers m.config.openCalls m.collected
  held : m.held ≤ m.config.state.claimed
  within : m.config.state.claimed ≤ nodeLimit

/-! ## Steps that leave the open calls alone -/

/-- A step that leaves the open calls alone and pays for what is held more. -/
structure Pays (c d : Config) : Prop where
  openCalls : d.openCalls = c.openCalls
  claims : ∃ count, Claims c.state count d.state ∧ d.held ≤ c.held + count

namespace Pays

variable {c d : Config} {count : Nat}

/-- Nothing more is held. -/
theorem free (openCalls : d.openCalls = c.openCalls) (claimed : d.state.claimed = c.state.claimed)
    (held : d.held ≤ c.held) : Pays c d :=
  ⟨openCalls, 0, .zero claimed, held⟩

theorem spend (openCalls : d.openCalls = c.openCalls) (large : ¬ c.state.tooLarge count)
    (claimed : d.state.claimed = c.state.claimed + count) (held : d.held ≤ c.held + count) :
    Pays c d :=
  ⟨openCalls, count, .some large claimed, held⟩

theorem sound {m : Moment} (h : Pays m.config d) (sound : m.Sound) :
    Moment.Sound ⟨d, m.collected⟩ := by
  obtain ⟨same, count, claims, held⟩ := h
  refine ⟨same ▸ sound.remembers, ?_, claims.within sound.within⟩
  have before := sound.held
  have claimed := claims.claimed
  simp only [Moment.held] at before ⊢
  omega

end Pays

variable {scope : Scope}

theorem pays_startPrimary (s : ParseState) (stack : List Frame) :
    Pays (.enter .primary s stack) (startPrimary scope s stack) := by
  have nothing : ∀ f : ParseFault, Pays (.enter .primary s stack) (.exit none (s.fault f) stack) :=
    fun _ => .free rfl rfl (Nat.le_refl _)
  unfold startPrimary
  split
  · split
    · exact nothing _
    next large =>
      refine .spend rfl large (passes_readNumber (s.claim 1)).claimed ?_
      simp only [Config.held, Task.held, heldIn, size_readNumber]
      omega
  · split
    · exact nothing _
    next large =>
      refine .spend rfl large rfl ?_
      simp only [Config.held, Task.held, heldOn, Frame.held]
      omega
  · exact .free rfl rfl (Nat.le_refl _)
  · exact .free rfl rfl (Nat.le_refl _)
  · split
    · exact nothing _
    next large =>
      refine .spend rfl large (passes_readVariable (s.claim 1) scope).claimed ?_
      simp only [Config.held, Task.held, heldIn, size_readVariable]
      omega
  · split
    · exact nothing _
    next large =>
      refine .spend rfl large rfl ?_
      simp only [Config.held, Task.held]
      omega
  · exact nothing _
  · exact nothing _

/-- A task that is no part of a call. -/
def Task.Inside : Task → Prop
  | .callOpening _ | .argument _ _ => False
  | _ => True

theorem pays_start (scope : Scope) (s : ParseState) (stack : List Frame) {task : Task}
    (inside : task.Inside) : Pays (.enter task s stack) (start scope s stack task) := by
  cases task with
  | callOpening | argument => exact inside.elim
  | operand =>
    simp only [start]
    split
    · exact .free rfl rfl (Nat.le_refl _)
    · refine .free rfl rfl ?_
      simp only [Config.held, Task.held, heldOn, Frame.held]
      omega
  | primary => exact pays_startPrimary s stack
  | groupBody opening =>
    simp only [start]
    split
    · exact .free rfl rfl (Nat.le_refl _)
    · refine .free rfl rfl ?_
      simp only [Config.held, Task.held, heldOn, Frame.held]
      omega
  | braceName =>
    simp only [start]
    split
    · exact .free rfl rfl (Nat.le_refl _)
    · split
      · exact .free rfl rfl (Nat.le_refl _)
      next large =>
        refine .spend rfl large (passes_readVariable (s.claim 1) scope).claimed ?_
        simp only [Config.held, Task.held, size_readVariable]
        omega
  | closeBrace name tree => exact .free rfl (passes_closeBrace s name).claimed (Nat.le_refl _)
  | chain =>
    refine .free rfl rfl ?_
    simp only [start, Config.held, Task.held, heldOn, Frame.held]
    omega
  | climb least left =>
    simp only [start]
    split
    · exact .free rfl rfl (Nat.le_refl _)
    · split
      · exact .free rfl rfl (Nat.le_refl _)
      · split
        · exact .free rfl rfl (Nat.le_refl _)
        next large =>
          refine .spend rfl large rfl ?_
          simp only [Config.held, Task.held, heldOn, Frame.held]
          omega
  | tighten op right =>
    simp only [start]
    split
    · exact .free rfl rfl (Nat.le_refl _)
    · split
      · exact .free rfl rfl (Nat.le_refl _)
      · split
        · split
          · exact .free rfl rfl (Nat.le_refl _)
          · refine .free rfl rfl ?_
            simp only [Config.held, Task.held, heldOn, Frame.held]
            omega
        · exact .free rfl rfl (Nat.le_refl _)

/-- A frame that is no part of a call. -/
def Frame.Inside : Frame → Prop
  | .argument _ _ _ => False
  | _ => True

theorem pays_resume (tree : Option Expr) (s : ParseState) (stack : List Frame) {frame : Frame}
    (inside : frame.Inside) :
    Pays (.exit tree s (frame :: stack)) (resume tree s stack frame) := by
  cases frame with
  | argument => exact inside.elim
  | operand | samePrecedence | climbing =>
    refine .free rfl rfl ?_
    simp only [resume, Config.held, heldOn, Frame.held]
    omega
  | negation =>
    refine .free rfl rfl ?_
    cases tree with
    | none => simp only [resume, Config.held, heldOn, Option.map_none, heldIn]; omega
    | some tree =>
      simp only [resume, Config.held, heldOn, Frame.held, Option.map_some, heldIn, Expr.size_negate]
      omega
  | group =>
    refine .free rfl (passes_closeGroup s tree).claimed ?_
    have := heldIn_closeGroup s tree
    simp only [resume, Config.held, heldOn, Frame.held]
    omega
  | chain =>
    cases tree with
    | none => exact .free rfl rfl (by simp only [resume, Config.held, heldOn, Frame.held]; omega)
    | some left =>
      refine .free rfl rfl ?_
      simp only [resume, Config.held, Task.held, heldOn, Frame.held, heldIn]
      omega
  | rightOperand least op left =>
    cases tree with
    | none =>
      refine .free rfl rfl ?_
      simp only [resume, Config.held, heldOn, Frame.held, heldIn]
      omega
    | some right =>
      refine .free rfl rfl ?_
      simp only [resume, Config.held, Task.held, heldOn, Frame.held, heldIn]
      omega
  -- The operator was held with its left operand; now all three are one tree.
  | tightened least op left =>
    cases tree with
    | none =>
      refine .free rfl rfl ?_
      simp only [resume, Config.held, heldOn, Frame.held, heldIn]
      omega
    | some right =>
      refine .free rfl rfl ?_
      simp only [resume, Config.held, Task.held, heldOn, Frame.held, heldIn, Expr.size_binary]
      omega

/-! ## Steps of a call

Opening it, taking an argument and closing it.  Only here the collected
arguments are changed. -/

namespace Moment

variable {s : ParseState} {stack : List Frame} {collected : List (List Expr)} {name : Token}
  {trees : Option (List Expr)}

/-- A call starts with no arguments. -/
theorem Sound.callOpening (h : Sound ⟨.enter (.callOpening name) s stack, collected⟩) :
    (step scope ⟨.enter (.callOpening name) s stack, collected⟩).Sound := by
  obtain ⟨remembers, held, within⟩ := h
  simp only [step, Parse.step, Parse.start, Config.collect]
  split
  · refine ⟨⟨fun ts e => (Option.some.inj e).symm, remembers⟩, ?_, within⟩
    simp only [Moment.held, heldBy, Expr.sizeAll_nil, Nat.zero_add]
    exact held
  · refine ⟨remembers, Nat.le_trans ?_ held, within⟩
    simp only [Moment.held, Config.held, Task.held, heldIn]
    omega

/-- A call goes on with its next argument or ends as a tree of those that it has collected. -/
theorem Sound.argument (h : Sound ⟨.enter (.argument name trees) s stack, collected⟩) :
    (step scope ⟨.enter (.argument name trees) s stack, collected⟩).Sound := by
  obtain ⟨remembers, held, within⟩ := h
  obtain ⟨arguments, others, rfl, same, remembers'⟩ := Remembers.exists_cons remembers
  simp only [step, Parse.step, Parse.start, Config.collect]
  split
  · have claimed := (passes_closeCall s scope name trees).claimed
    refine ⟨remembers', ?_, Nat.le_trans (Nat.le_of_eq claimed) within⟩
    have call := heldIn_closeCall s scope name same
    simp only [Moment.held, Config.held, Task.held, heldBy, Config.state] at held ⊢
    rw [claimed, List.tail_cons]
    omega
  · split
    · exact ⟨remembers, held, within⟩
    · refine ⟨remembers, Nat.le_trans ?_ held, within⟩
      simp only [Moment.held, Config.held, Task.held, heldOn, Frame.held]
      omega

theorem Sound.collect {tree : Option Expr} {before : Nat}
    (h : Sound ⟨.exit tree s (.argument name trees before :: stack), collected⟩) :
    (step scope ⟨.exit tree s (.argument name trees before :: stack), collected⟩).Sound := by
  obtain ⟨remembers, held, within⟩ := h
  obtain ⟨arguments, others, rfl, same, remembers'⟩ := Remembers.exists_cons remembers
  cases tree with
  | none =>
    refine ⟨⟨by rintro ts ⟨⟩, remembers'⟩, Nat.le_trans ?_ (Nat.le_trans held ?_), ?_⟩
    · simp only [step, Parse.step, resume, Config.collect, Moment.held, Config.held, Task.held,
        heldOn, Frame.held, heldIn]
      omega
    · simp only [step, Parse.step, resume, Config.state]
      split <;> exact Nat.le_refl _
    · simp only [step, Parse.step, resume, Config.state]
      split <;> exact within
  | some tree =>
    refine ⟨⟨?_, remembers'⟩, Nat.le_trans ?_ held, within⟩
    · intro ts e
      obtain ⟨before, known, rfl⟩ := Option.map_eq_some_iff.mp e
      rw [same before known]
    · simp only [step, Parse.step, resume, Config.collect, Moment.held, Config.held, Task.held,
        heldOn, Frame.held, heldIn, heldBy, Expr.sizeAll_concat]
      omega

end Moment

/-! ## One step, and a whole run -/

theorem collect_of_inside {frame : Frame} (inside : frame.Inside) (tree : Option Expr)
    (s : ParseState) (stack : List Frame) (held : List (List Expr)) :
    (Config.exit tree s (frame :: stack)).collect held = held := by
  cases frame with
  | argument => exact inside.elim
  | _ => cases tree <;> rfl

namespace Moment

theorem Sound.step {m : Moment} (h : m.Sound) : (m.step scope).Sound := by
  obtain ⟨config, collected⟩ := m
  cases config with
  | enter task s stack =>
    cases task with
    | callOpening name => exact h.callOpening
    | argument name trees => exact h.argument
    | _ => exact (pays_start scope s stack (by trivial)).sound h
  | exit tree s stack =>
    cases stack with
    | nil =>
      cases tree <;> exact h
    | cons frame stack =>
      cases frame with
      | argument name trees before => exact h.collect
      | _ =>
        rw [Moment.step, collect_of_inside (by trivial)]
        exact (pays_resume tree s stack (by trivial)).sound h

theorem sound_after (scope : Scope) (tokens : List Token) (n : Nat) :
    (after scope tokens n).Sound := by
  induction n with
  | zero => exact ⟨trivial, Nat.le_refl 0, Nat.zero_le _⟩
  | succ n ih => exact ih.step

theorem exists_halt (scope : Scope) (tokens : List Token) :
    ∃ n last, (after scope tokens n).config = .exit (run scope tokens).1 last [] ∧
      last.finish = (run scope tokens).2 := by
  obtain ⟨n, halted⟩ := reaches_halt scope (.start tokens)
  exact ⟨n, _, (config_after scope tokens n).trans halted, rfl⟩

end Moment

/-- The tree of a parse has been claimed. -/
theorem size_le_claimed {tokens : List Token} {t : Expr} (made : (run scope tokens).1 = some t) :
    t.size ≤ (run scope tokens).2.claimed ∧ (run scope tokens).2.claimed ≤ nodeLimit := by
  obtain ⟨n, last, halted, finished⟩ := Moment.exists_halt scope tokens
  obtain ⟨-, held, within⟩ := Moment.sound_after scope tokens n
  rw [Moment.held, halted, made] at held
  rw [halted] at within
  rw [← finished, (passes_finish last).claimed]
  exact ⟨Nat.le_trans (Nat.le_add_right _ _) held, within⟩

open Grammar in
/-- Without an error exactly the nodes of the tree have been claimed. -/
theorem claimed_of_silent {tokens : List Token} {t : Expr} (made : (run scope tokens).1 = some t)
    (silent : (run scope tokens).2.errors = []) : (run scope tokens).2.claimed = t.size := by
  obtain ⟨-, silent⟩ := finish_silent silent
  have reads : Reads scope .chain (.start tokens) (chain scope (.start tokens)).tree
      (chain scope (.start tokens)).next := (yields scope).2.2.2.1 _
  obtain ⟨c, e, -, covers, -⟩ := phrased_of_reads reads silent
  obtain rfl : c.tree scope = t := Option.some.inj (e.symm.trans made)
  calc (run scope tokens).2.claimed = (chain scope (.start tokens)).next.claimed :=
      (passes_finish _).claimed
    _ = 0 + c.size := covers.claimed
    _ = (c.tree scope).size := (Nat.zero_add _).trans (c.size_eq scope)

end Parse

open Parse

/-- At every moment of a parse all that is held has been claimed, within the limit, and so has the
tree that the parse makes; a tree that is made without an error is all that has been claimed.  So
no tree has more nodes, nor a longer path, than nodes may be claimed. -/
theorem parseTokens_budget (scope : Scope) (tokens : List Token) :
    (∀ n, (Moment.after scope tokens n).held ≤ (Moment.after scope tokens n).config.state.claimed ∧
        (Moment.after scope tokens n).config.state.claimed ≤ nodeLimit) ∧
      (∃ n last, (Moment.after scope tokens n).config = .exit (run scope tokens).1 last [] ∧
        last.finish = (run scope tokens).2) ∧
      ∀ t, (parseTokens scope tokens).1.tree = some t →
        (run scope tokens).1 = some t ∧ t.nodes.length ≤ nodeLimit ∧ t.height ≤ nodeLimit ∧
          ((parseTokens scope tokens).1.error = none →
            (run scope tokens).2.claimed = t.nodes.length) := by
  refine ⟨fun n => ?_, Moment.exists_halt scope tokens, fun t made => ?_⟩
  · obtain ⟨-, held, within⟩ := Moment.sound_after scope tokens n
    exact ⟨held, within⟩
  · obtain ⟨made, noted⟩ := run_of_tree made
    obtain ⟨held, within⟩ := size_le_claimed made
    have size : t.size ≤ nodeLimit := Nat.le_trans held within
    refine ⟨made, size, Nat.le_trans t.height_le_size size, fun silent => ?_⟩
    exact claimed_of_silent made (List.head?_eq_none_iff.mp (noted.symm.trans silent))

/-- The minus sign stands for a difference from zero, so that four nodes are claimed for `-0+0`
before its sum is made, and five with the sum. -/
theorem parseTokens_budget_negation :
    let scope : Scope := ⟨.empty, .empty⟩
    let tokens : List Token := [⟨.sub, "-", ⟨0, 1⟩⟩, ⟨.number, "", ⟨1, 1⟩⟩, ⟨.add, "+", ⟨1, 2⟩⟩,
      ⟨.number, "", ⟨2, 2⟩⟩]
    let t : Expr := .binary .add (.negate (.number 0)) (.number 0)
    (Moment.after scope tokens 10).held = 4 ∧
      (Moment.after scope tokens 10).held ≤ (Moment.after scope tokens 10).config.state.claimed ∧
      (parseTokens scope tokens).1 = ⟨some t, none⟩ ∧ t.nodes.length ≤ nodeLimit ∧
      (run scope tokens).2.claimed = t.nodes.length := by
  intro scope tokens t
  have made : (parseTokens scope tokens).1 = ⟨some t, none⟩ := by
    rw [parseTokens_of_ne scope (List.cons_ne_nil _ _), @run_of_steps scope 30 tokens _ rfl]
    rfl
  obtain ⟨always, -, whole⟩ := parseTokens_budget scope tokens
  obtain ⟨-, bounded, -, counted⟩ := whole t (by rw [made])
  exact ⟨rfl, (always 10).1, made, bounded, counted (by rw [made])⟩

end Arith
