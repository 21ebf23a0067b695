/-
# The visits of an evaluation

A function gets its arguments unevaluated, so which nodes of a tree are
evaluated, how often and in which order is up to the functions.  To see it,
a probe is called behind every evaluation of every node, with the place of
the node and the value that it had; without a probe nothing changes
(`watch_silent`).

Where only the built-in functions are called, a whole evaluation is one
round through a list of visits, in which every visit gives the warning that
is due at its node (`CallsBuiltins.rounds`).  What carries the induction is
that a value does not depend on the world that it is computed in, so that
what an operator finds below it can be named in advance.

Which nodes are reached is defined apart from the visits, by one rule for
each way from a node to one below it (`Reached`), and the visits are proved
to be these nodes (`mem_visits_iff`), in post-order (`inPostorder_visits`),
and so each of them once.
-/
import Arith.Host
import Arith.Proofs.Expr.Nodes
import Arith.Table

namespace Arith

abbrev Path := List Nat

/-- Post-order: a node stands behind all that is below it, and what is further left stands
before. -/
inductive Path.Before : Path → Path → Prop where
  | inside (i : Nat) (p : Path) : Before (i :: p) []
  | left {i j : Nat} (p q : Path) : i < j → Before (i :: p) (j :: q)
  | under (i : Nat) {p q : Path} : Before p q → Before (i :: p) (i :: q)

theorem Path.Before.ne {p q : Path} (before : Before p q) : p ≠ q := by
  induction before with
  | inside i p => exact List.cons_ne_nil i p
  | left p q lt =>
    intro eq
    exact Nat.ne_of_lt lt (List.cons.inj eq).1
  | under i _ ih =>
    intro eq
    exact ih (List.cons.inj eq).2

/-! ## What an operator and a function do -/

/-- Gives the warning that is due, if there is one. -/
def Eval.warn : Option Warning → Eval Unit
  | none => pure ()
  | some warning => fun w => ((), w.warn warning)

/-- The warning that is due where an operator meets two values. -/
def Operator.warning? : Operator → Float → Float → Option Warning
  | .quo, l, r => if r == 0 then some (.zeroDivisor l r) else none
  | .rem, l, r => if truncate r == 0 then some (.zeroModulus l r) else none
  | _, _, _ => none

def Operator.result (op : Operator) (l r : Float) : Float := (op.apply l r .initial).1

theorem Operator.apply_eq (op : Operator) (l r : Float) :
    op.apply l r = do Eval.warn (op.warning? l r); return op.result l r := by
  cases op with
  | quo =>
    simp only [result, apply, warning?]
    split <;> rfl
  | rem =>
    simp only [result, apply, warning?, truncatedRemainder?]
    cases truncate r == 0 <;> rfl
  | _ => rfl

theorem Operator.result_of_warning {op : Operator} {l r : Float} {warning : Warning}
    (due : op.warning? l r = some warning) : op.result l r = 0 := by
  cases op with
  | quo =>
    simp only [warning?] at due
    split at due
    case isTrue zero => simp only [result, apply, zero, ↓reduceIte, Eval.zero]
    case isFalse => cases due
  | rem =>
    simp only [warning?] at due
    split at due
    case isTrue zero =>
      simp only [result, apply, truncatedRemainder?, zero, ↓reduceIte, Eval.zero]
    case isFalse => cases due
  | _ => cases due

/-- What a function makes of the values of as many arguments as it needs. -/
def Builtin.combine : Builtin → List Float → Float
  | .min, [a, b] => smaller a b
  | .max, [a, b] => larger a b
  | .floor, [a] => a.floor
  | .round, [a] => a.round
  | _, _ => 0

/-- The warning that is due where a function gets a number of arguments. -/
def Builtin.warning? (b : Builtin) (given : Nat) : Option Warning :=
  if given < b.arity then some (.missingArguments b.name b.arity given) else none

theorem Builtin.function_of_short {b : Builtin} {arguments : List Argument}
    (short : arguments.length < b.arity) (h : Handle) :
    b.function h arguments = do Eval.warn (b.warning? arguments.length); return 0 := by
  rw [function, if_pos short, warning?, if_pos short]
  rfl

/-- A function that has enough arguments evaluates as many as it needs, once each and from left to
right. -/
theorem Builtin.function_of_enough {b : Builtin} {arguments : List Argument}
    (enough : b.arity ≤ arguments.length) (h : Handle) :
    b.function h arguments = do
      let values ← (arguments.take b.arity).mapM Argument.evaluate
      return b.combine values := by
  rw [function, if_neg (Nat.not_lt.mpr enough)]
  match b, arguments, enough with
  | .min, _ :: _ :: _, _ | .max, _ :: _ :: _, _ | .floor, _ :: _, _ | .round, _ :: _, _ =>
    simp only [compute, arity, combine, List.take_succ_cons, List.take_zero, List.mapM_cons,
      List.mapM_nil, bind_assoc, pure_bind]

namespace Expr

/-! ## Watched evaluation -/

/-- Lets a probe see the value of the root. -/
def observed (probe : Path → Float → Eval Unit) (evaluation : Eval Float) : Eval Float := do
  let value ← evaluation
  probe [] value
  return value

mutual

/-- The value of a tree, where a probe is called behind every evaluation of a node. -/
def watch (host : HostFunction) (probe : Path → Float → Eval Unit) : Expr → Eval Float
  | .number value => observed probe (pure value)
  | .var _ value => observed probe (pure value)
  | .binary op left right => observed probe do
    let l ← left.watch host fun p => probe (0 :: p)
    let r ← right.watch host fun p => probe (1 :: p)
    op.apply l r
  | .call _ callee arguments => observed probe (host callee (watchAll host probe 0 arguments))

/-- Arguments that are watched once they are evaluated; the first of them is the `i`-th of its
call. -/
def watchAll (host : HostFunction) (probe : Path → Float → Eval Unit) (i : Nat) :
    List Expr → List Argument
  | [] => []
  | e :: es => ⟨e, e.watch host fun p => probe (i :: p)⟩ :: watchAll host probe (i + 1) es

end

theorem observed_silent (evaluation : Eval Float) :
    observed (fun _ _ => pure ()) evaluation = evaluation := by
  simp only [observed, pure_bind, bind_pure]

mutual

/-- A probe that does nothing changes nothing, whatever the functions do. -/
theorem watch_silent (host : HostFunction) :
    ∀ e : Expr, e.watch host (fun _ _ => pure ()) = e.evaluate host
  | .number _ | .var _ _ => by rw [watch, evaluate, observed_silent]
  | .binary op left right => by
    rw [watch, evaluate, observed_silent, watch_silent host left, watch_silent host right]
  | .call _ callee arguments => by
    rw [watch, evaluate, observed_silent, watchAll_silent host 0 arguments]

theorem watchAll_silent (host : HostFunction) :
    ∀ (i : Nat) (es : List Expr), watchAll host (fun _ _ => pure ()) i es = suspend host es
  | _, [] => rfl
  | i, e :: es => by rw [watchAll, suspend, watch_silent host e, watchAll_silent host (i + 1) es]

end

theorem length_watchAll (host : HostFunction) (probe : Path → Float → Eval Unit) (i : Nat)
    (es : List Expr) : (watchAll host probe i es).length = es.length := by
  induction es generalizing i with
  | nil => rfl
  | cons e es ih => rw [watchAll, List.length_cons, ih, List.length_cons]

/-! ## Visits -/

/-- A node of a tree at its place. -/
structure Visit where
  path : Path
  node : Expr

def Visit.under (i : Nat) (v : Visit) : Visit := ⟨i :: v.path, v.node⟩

variable (builtin : Handle → Builtin)

/-- Which nodes are evaluated with a tree: its root, what both operands of an operation reach, and
of a call that has enough arguments what as many of them as its function needs reach. -/
inductive Reached : Expr → Path → Expr → Prop where
  | root (e : Expr) : Reached e [] e
  | left (op : Operator) {left : Expr} (right : Expr) {p : Path} {node : Expr} :
    Reached left p node → Reached (.binary op left right) (0 :: p) node
  | right (op : Operator) (left : Expr) {right : Expr} {p : Path} {node : Expr} :
    Reached right p node → Reached (.binary op left right) (1 :: p) node
  | argument (name : String) {callee : Handle} {arguments : List Expr} {i : Nat} {e : Expr}
      {p : Path} {node : Expr} (enough : (builtin callee).arity ≤ arguments.length)
      (needed : i < (builtin callee).arity) (at_i : arguments[i]? = some e) :
    Reached e p node → Reached (.call name callee arguments) (i :: p) node

mutual

/-- The visits of an evaluation, in post-order. -/
def visits : Expr → List Visit
  | .number value => [⟨[], .number value⟩]
  | .var key value => [⟨[], .var key value⟩]
  | .binary op left right =>
    left.visits.map (Visit.under 0) ++ right.visits.map (Visit.under 1) ++
      [⟨[], .binary op left right⟩]
  | .call name callee arguments =>
    (if arguments.length < (builtin callee).arity then []
      else visitsAll (builtin callee).arity 0 arguments) ++ [⟨[], .call name callee arguments⟩]

/-- The visits below the first `n` arguments, the first of which is the `i`-th of its call. -/
def visitsAll (n i : Nat) : List Expr → List Visit
  | [] => []
  | e :: es =>
    match n with
    | 0 => []
    | n + 1 => e.visits.map (Visit.under i) ++ visitsAll n (i + 1) es

end

/-! ## Visits are what is reached -/

mutual

theorem reached_of_mem :
    ∀ {e : Expr} {v : Visit}, v ∈ e.visits builtin → Reached builtin e v.path v.node
  | .number _, v, mem | .var _ _, v, mem => by
    rw [visits, List.mem_singleton] at mem
    subst mem
    exact .root _
  | .binary op left right, v, mem => by
    simp only [visits, List.mem_append, List.mem_map, List.mem_singleton] at mem
    obtain (⟨u, mem, rfl⟩ | ⟨u, mem, rfl⟩) | rfl := mem
    · exact .left op right (reached_of_mem mem)
    · exact .right op left (reached_of_mem mem)
    · exact .root _
  | .call name callee arguments, v, mem => by
    rw [visits, List.mem_append, List.mem_singleton] at mem
    rcases mem with mem | rfl
    · split at mem
      case isTrue => cases mem
      case isFalse enough =>
        obtain ⟨j, e, u, needed, at_j, rfl, reached⟩ := reached_of_mem_all mem
        rw [Nat.zero_add]
        exact .argument name (Nat.not_lt.mp enough) needed at_j reached
    · exact .root _

theorem reached_of_mem_all :
    ∀ {es : List Expr} {n i : Nat} {v : Visit}, v ∈ visitsAll builtin n i es →
      ∃ (j : Nat) (e : Expr) (u : Visit), j < n ∧ es[j]? = some e ∧ v = u.under (i + j) ∧
        Reached builtin e u.path u.node
  | [], _, _, _, mem => by
    rw [visitsAll] at mem
    cases mem
  | e :: es, 0, _, _, mem => by
    rw [visitsAll] at mem
    cases mem
  | e :: es, n + 1, i, v, mem => by
    rw [visitsAll, List.mem_append, List.mem_map] at mem
    obtain ⟨u, mem, rfl⟩ | mem := mem
    · exact ⟨0, e, u, n.succ_pos, rfl, rfl, reached_of_mem mem⟩
    · obtain ⟨j, e, u, needed, at_j, rfl, reached⟩ := reached_of_mem_all mem
      refine ⟨j + 1, e, u, Nat.succ_lt_succ needed, at_j, ?_, reached⟩
      rw [Nat.add_right_comm, Nat.add_assoc]

end

theorem mem_visitsAll {e : Expr} {u : Visit} (mem : u ∈ e.visits builtin) :
    ∀ {es : List Expr} {n j : Nat} (i : Nat), j < n → es[j]? = some e →
      u.under (i + j) ∈ visitsAll builtin n i es
  | e' :: es, n + 1, 0, i, _, at_j => by
    rw [List.getElem?_cons_zero, Option.some_inj] at at_j
    subst at_j
    rw [visitsAll]
    exact List.mem_append_left _ (List.mem_map_of_mem mem)
  | e' :: es, n + 1, j + 1, i, needed, at_j => by
    rw [visitsAll]
    refine List.mem_append_right _ ?_
    have there := mem_visitsAll mem (i + 1) (Nat.lt_of_succ_lt_succ needed) at_j
    rwa [Nat.add_right_comm, Nat.add_assoc] at there

theorem mem_of_reached {e : Expr} {p : Path} {node : Expr} (reached : Reached builtin e p node) :
    ⟨p, node⟩ ∈ e.visits builtin := by
  induction reached with
  | root e =>
    cases e <;> rw [visits]
    case number | var => exact List.mem_singleton_self _
    case binary | call => exact List.mem_append_right _ (List.mem_singleton_self _)
  | left op right _ ih =>
    rw [visits]
    exact List.mem_append_left _ (List.mem_append_left _
      (List.mem_map_of_mem (f := Visit.under 0) ih))
  | right op left _ ih =>
    rw [visits]
    exact List.mem_append_left _ (List.mem_append_right _
      (List.mem_map_of_mem (f := Visit.under 1) ih))
  | argument name enough needed at_i _ ih =>
    rw [visits, if_neg (Nat.not_lt.mpr enough)]
    refine List.mem_append_left _ ?_
    have there := mem_visitsAll builtin ih 0 needed at_i
    rwa [Nat.zero_add] at there

theorem mem_visits_iff {e : Expr} {v : Visit} :
    v ∈ e.visits builtin ↔ Reached builtin e v.path v.node :=
  ⟨reached_of_mem builtin, mem_of_reached builtin⟩

/-! ## Visits are in post-order

A visit below an operand stands before all visits below the operands further
right, by the first step of their paths, and the root comes last since every
other path goes on behind it. -/

/-- Every visit stands before those that follow it. -/
def InPostorder (visits : List Visit) : Prop := visits.Pairwise fun u v => u.path.Before v.path

theorem InPostorder.under {visits : List Visit} (ordered : InPostorder visits) (i : Nat) :
    InPostorder (visits.map (Visit.under i)) :=
  List.pairwise_map.mpr (ordered.imp (Path.Before.under i))

/-- Below a node there is no visit of the node itself, so that it may come last. -/
theorem InPostorder.root {visits : List Visit} (ordered : InPostorder visits)
    (inside : ∀ v ∈ visits, ∃ i u, v = Visit.under i u) (node : Expr) :
    InPostorder (visits ++ [⟨[], node⟩]) := by
  refine List.pairwise_append.mpr ⟨ordered, List.pairwise_singleton _ _, ?_⟩
  intro v mem root at_root
  rw [List.mem_singleton] at at_root
  obtain ⟨i, u, rfl⟩ := inside v mem
  subst at_root
  exact .inside i u.path

mutual

theorem inPostorder_visits : ∀ e : Expr, InPostorder (e.visits builtin)
  | .number _ | .var _ _ => List.pairwise_singleton _ _
  | .binary op left right => by
    rw [visits]
    refine InPostorder.root (List.pairwise_append.mpr ⟨(inPostorder_visits left).under 0,
      (inPostorder_visits right).under 1, ?_⟩) ?_ _
    · intro u leftmost v rightmost
      obtain ⟨u, _, rfl⟩ := List.mem_map.mp leftmost
      obtain ⟨v, _, rfl⟩ := List.mem_map.mp rightmost
      exact .left u.path v.path Nat.zero_lt_one
    · intro v mem
      rw [List.mem_append, List.mem_map, List.mem_map] at mem
      obtain ⟨u, _, rfl⟩ | ⟨u, _, rfl⟩ := mem
      · exact ⟨0, u, rfl⟩
      · exact ⟨1, u, rfl⟩
  | .call name callee arguments => by
    rw [visits]
    split
    case isTrue => exact List.pairwise_singleton _ _
    case isFalse =>
      refine (inPostorder_visitsAll arguments _ 0).root ?_ _
      intro v mem
      obtain ⟨j, _, u, _, _, rfl, _⟩ := reached_of_mem_all builtin mem
      exact ⟨0 + j, u, rfl⟩

theorem inPostorder_visitsAll :
    ∀ (es : List Expr) (n i : Nat), InPostorder (visitsAll builtin n i es)
  | [], _, _ | _ :: _, 0, _ => List.Pairwise.nil
  | e :: es, n + 1, i => by
    rw [visitsAll]
    refine List.pairwise_append.mpr ⟨(inPostorder_visits e).under i,
      inPostorder_visitsAll es n (i + 1), ?_⟩
    intro u leftmost v rightmost
    obtain ⟨u, _, rfl⟩ := List.mem_map.mp leftmost
    obtain ⟨j, _, v, _, _, rfl, _⟩ := reached_of_mem_all builtin rightmost
    exact .left u.path v.path (by omega)

end

/-! ## An evaluation is a round of visits -/

variable (host : HostFunction)

/-- The value of a tree in a world in which nothing has happened. -/
def value (e : Expr) : Float := (e.evaluate host .initial).1

/-- The warning that is due at a node, by the values of its operands or the number of its
arguments. -/
def warning? : Expr → Option Warning
  | .number _ | .var _ _ => none
  | .binary op left right => op.warning? (left.value host) (right.value host)
  | .call _ callee arguments => (builtin callee).warning? arguments.length

def Visit.due? (v : Visit) : Option Warning := v.node.warning? builtin host

/-- What a visit does: it gives the warning that is due, and lets a probe see the value. -/
def Visit.run (probe : Path → Float → Eval Unit) (v : Visit) : Eval Unit := do
  Eval.warn (v.due? builtin host)
  probe v.path (v.node.value host)

/-- Whether all functions that a tree calls are built in: `builtin` says which of them they are. -/
def CallsBuiltins (e : Expr) : Prop :=
  ∀ name callee arguments, .call name callee arguments ∈ e.nodes →
    host callee = (builtin callee).function callee

variable {builtin host}

theorem CallsBuiltins.left {op : Operator} {left right : Expr}
    (calls : CallsBuiltins builtin host (.binary op left right)) :
    CallsBuiltins builtin host left := by
  intro name callee arguments mem
  refine calls name callee arguments ?_
  rw [nodes_binary]
  exact List.mem_cons_of_mem _ (List.mem_append_left _ mem)

theorem CallsBuiltins.right {op : Operator} {left right : Expr}
    (calls : CallsBuiltins builtin host (.binary op left right)) :
    CallsBuiltins builtin host right := by
  intro name callee arguments mem
  refine calls name callee arguments ?_
  rw [nodes_binary]
  exact List.mem_cons_of_mem _ (List.mem_append_right _ mem)

theorem CallsBuiltins.argument {name : String} {callee : Handle} {arguments : List Expr}
    (calls : CallsBuiltins builtin host (.call name callee arguments)) {e : Expr}
    (mem_e : e ∈ arguments) :
    CallsBuiltins builtin host e := by
  intro name' callee' arguments' mem
  refine calls name' callee' arguments' ?_
  rw [nodes_call]
  exact List.mem_cons_of_mem _ (List.mem_flatMap.mpr ⟨e, mem_e, mem⟩)

variable (builtin host) in
/-- A tree is evaluated by a round of visits: they say all that happens, and the value is known
before. -/
def Rounds (e : Expr) : Prop :=
  ∀ probe : Path → Float → Eval Unit,
    e.watch host probe = do
      forM (e.visits builtin) (Visit.run builtin host probe)
      return e.value host

theorem forM_under (probe : Path → Float → Eval Unit) (i : Nat) (visits : List Visit) :
    forM (visits.map (Visit.under i)) (Visit.run builtin host probe) =
      forM visits (Visit.run builtin host fun p => probe (i :: p)) := by
  induction visits with
  | nil => rfl
  | cons v visits ih =>
    rw [List.map_cons, List.forM_cons, List.forM_cons, ih]
    rfl

/-- A round of visits leaves the counters alone and gives the warnings that are due, one after the
other. -/
theorem forM_silent (visits : List Visit) (w : World) :
    forM visits (Visit.run builtin host fun _ _ => pure ()) w =
      ((), { w with
        warnings := (visits.filterMap (Visit.due? builtin host)).reverse ++ w.warnings }) := by
  induction visits generalizing w with
  | nil => rfl
  | cons v visits ih =>
    have first : forM (v :: visits) (Visit.run builtin host fun _ _ => pure ()) w =
        forM visits (Visit.run builtin host fun _ _ => pure ())
          (Eval.warn (v.due? builtin host) w).2 := rfl
    rw [first, ih]
    cases due : v.due? builtin host with
    | none => rw [List.filterMap_cons_none due, Eval.warn]; rfl
    | some warning =>
      rw [List.filterMap_cons_some due, List.reverse_cons, List.append_assoc]
      rfl

theorem Rounds.evaluate_eq {e : Expr} (rounds : Rounds builtin host e) (w : World) :
    e.evaluate host w = (e.value host, { w with
      warnings := ((e.visits builtin).filterMap (Visit.due? builtin host)).reverse ++
        w.warnings }) := by
  have silent := congrFun (rounds fun _ _ => pure ()) w
  rw [watch_silent] at silent
  rw [silent]
  exact congrArg (fun r => (e.value host, r.2)) (forM_silent (e.visits builtin) w)

/-- Behind the visits below it a node warns, yields and is seen, in this order. -/
theorem observed_round (probe : Path → Float → Eval Unit) (visits : List Visit) (node : Expr) :
    observed probe (do
      forM visits (Visit.run builtin host probe)
      Eval.warn (node.warning? builtin host)
      return node.value host) = do
      forM (visits ++ [⟨[], node⟩]) (Visit.run builtin host probe)
      return node.value host := by
  simp only [observed, bind_assoc, pure_bind, List.forM_append, List.forM_cons, List.forM_nil,
    Visit.run, Visit.due?]

theorem value_binary {left right : Expr} (op : Operator)
    (l : Rounds builtin host left)
    (r : Rounds builtin host right) :
    (binary op left right).value host = op.result (left.value host) (right.value host) := by
  have run : (binary op left right).evaluate host .initial =
      op.apply (left.evaluate host .initial).1
        (right.evaluate host (left.evaluate host .initial).2).1
        (right.evaluate host (left.evaluate host .initial).2).2 := rfl
  rw [value, run, l.evaluate_eq, r.evaluate_eq, op.apply_eq]
  rfl

theorem Rounds.binary {left right : Expr} (l : Rounds builtin host left)
    (r : Rounds builtin host right) (op : Operator) :
    Rounds builtin host (.binary op left right) := by
  intro probe
  rw [watch, l, r, visits, ← observed_round, value_binary op l r]
  simp only [bind_assoc, pure_bind, List.forM_append, forM_under, op.apply_eq]
  rfl

/-! A call with too few arguments evaluates none of them. -/

section Short

variable {callee : Handle} {arguments : List Expr}
  (is_builtin : host callee = (builtin callee).function callee)
  (short : arguments.length < (builtin callee).arity)
include is_builtin short

theorem call_of_short (probe : Path → Float → Eval Unit) :
    host callee (watchAll host probe 0 arguments) = do
      Eval.warn ((builtin callee).warning? arguments.length)
      return 0 := by
  rw [is_builtin, Builtin.function_of_short (by rwa [length_watchAll]), length_watchAll]

theorem value_of_short (name : String) : (Expr.call name callee arguments).value host = 0 := by
  rw [Expr.value, Expr.evaluate, ← watchAll_silent host 0, call_of_short is_builtin short]
  rfl

theorem Rounds.call_of_short (name : String) :
    Rounds builtin host (.call name callee arguments) := by
  intro probe
  rw [watch, Expr.call_of_short is_builtin short, visits, if_pos short, ← observed_round,
    value_of_short is_builtin short]
  rfl

end Short

/-! A call with enough arguments makes its value of those that it needs. -/

section Enough

variable {callee : Handle} {arguments : List Expr}
  (is_builtin : host callee = (builtin callee).function callee)
  (enough : (builtin callee).arity ≤ arguments.length)
  (all : ∀ (probe : Path → Float → Eval Unit) (n i : Nat),
    ((watchAll host probe i arguments).take n).mapM Argument.evaluate = do
      forM (visitsAll builtin n i arguments) (Visit.run builtin host probe)
      return (arguments.take n).map (Expr.value host))
include is_builtin enough all

theorem call_of_enough (probe : Path → Float → Eval Unit) :
    host callee (watchAll host probe 0 arguments) = do
      forM (visitsAll builtin (builtin callee).arity 0 arguments) (Visit.run builtin host probe)
      return (builtin callee).combine
        ((arguments.take (builtin callee).arity).map (value host)) := by
  rw [is_builtin, Builtin.function_of_enough (by rwa [length_watchAll]), all, bind_assoc]
  rfl

theorem value_of_enough (name : String) :
    (Expr.call name callee arguments).value host =
      (builtin callee).combine ((arguments.take (builtin callee).arity).map (value host)) := by
  rw [Expr.value, Expr.evaluate, ← watchAll_silent host 0, call_of_enough is_builtin enough all]
  rfl

theorem Rounds.call_of_enough (name : String) :
    Rounds builtin host (.call name callee arguments) := by
  intro probe
  have silent : (Expr.call name callee arguments).warning? builtin host = none := by
    rw [warning?, Builtin.warning?, if_neg (Nat.not_lt.mpr enough)]
  rw [watch, Expr.call_of_enough is_builtin enough all, visits, if_neg (Nat.not_lt.mpr enough),
    ← observed_round, value_of_enough is_builtin enough all, silent]
  rfl

end Enough

theorem CallsBuiltins.here {name : String} {callee : Handle} {arguments : List Expr}
    (calls : CallsBuiltins builtin host (.call name callee arguments)) :
    host callee = (builtin callee).function callee := by
  refine calls name callee arguments ?_
  rw [nodes_call]
  exact List.mem_cons_self

mutual

/-- Evaluation of a tree whose calls are all built in is a round of visits. -/
theorem CallsBuiltins.rounds :
    ∀ {e : Expr}, CallsBuiltins builtin host e → Rounds builtin host e
  | .number _, _ | .var _ _, _ => fun probe => by
    rw [watch, visits, ← List.nil_append [_], ← observed_round]
    rfl
  | .binary op _ _, calls => .binary calls.left.rounds calls.right.rounds op
  | .call name callee arguments, calls => by
    rcases Nat.lt_or_ge arguments.length (builtin callee).arity with short | enough
    · exact .call_of_short calls.here short name
    · exact .call_of_enough calls.here enough (mapM_watchAll fun _ mem => calls.argument mem) name

theorem mapM_watchAll : ∀ {es : List Expr}, (∀ e ∈ es, CallsBuiltins builtin host e) →
    ∀ (probe : Path → Float → Eval Unit) (n i : Nat),
      ((watchAll host probe i es).take n).mapM Argument.evaluate = do
        forM (visitsAll builtin n i es) (Visit.run builtin host probe)
        return (es.take n).map (value host)
  | [], _, _, _, _ => by
    simp only [watchAll, visitsAll, List.take_nil, List.mapM_nil, List.forM_nil, pure_bind,
      List.map_nil]
  | e :: es, _, _, 0, _ => by
    simp only [visitsAll, List.take_zero, List.mapM_nil, List.forM_nil, pure_bind, List.map_nil]
  | e :: es, calls, probe, n + 1, i => by
    have first := (calls e List.mem_cons_self).rounds
    have others :=
      mapM_watchAll (fun e' mem => calls e' (List.mem_cons_of_mem _ mem)) probe n (i + 1)
    rw [watchAll, List.take_succ_cons, List.mapM_cons, others, first, visitsAll]
    simp only [List.forM_append, forM_under, bind_assoc, pure_bind, List.take_succ_cons,
      List.map_cons]

end

/-- Where a warning is due, the node yields zero. -/
theorem value_of_warning {e : Expr} (calls : CallsBuiltins builtin host e) {warning : Warning}
    (due : e.warning? builtin host = some warning) : e.value host = 0 := by
  cases e with
  | number | var => cases due
  | binary op left right =>
    rw [value_binary op calls.left.rounds calls.right.rounds]
    exact Operator.result_of_warning due
  | call name callee arguments =>
    simp only [warning?, Builtin.warning?] at due
    split at due
    case isTrue short => exact value_of_short calls.here short name
    case isFalse => cases due

theorem CallsBuiltins.of_reached {e : Expr} (calls : CallsBuiltins builtin host e) {p : Path}
    {node : Expr} (reached : Reached builtin e p node) : CallsBuiltins builtin host node := by
  induction reached with
  | root => exact calls
  | left _ _ _ ih => exact ih calls.left
  | right _ _ _ ih => exact ih calls.right
  | argument _ _ _ at_i _ ih => exact ih (calls.argument (List.mem_of_getElem? at_i))

theorem InPostorder.nodup {visits : List Visit} (ordered : InPostorder visits) :
    (visits.map Visit.path).Nodup :=
  List.pairwise_map.mpr (ordered.imp Path.Before.ne)

/-- Where only built-in functions are called, an evaluation visits the nodes that it reaches once
each and in post-order, and warns at those visits where a warning is due, at which the node yields
zero.  Nothing else happens, whatever a probe does meanwhile. -/
theorem evaluate_builtins {e : Expr} (calls : CallsBuiltins builtin host e) :
    (∀ v, v ∈ e.visits builtin ↔ Reached builtin e v.path v.node) ∧
      InPostorder (e.visits builtin) ∧ ((e.visits builtin).map Visit.path).Nodup ∧
      (∀ probe, e.watch host probe = do
        forM (e.visits builtin) (Visit.run builtin host probe)
        return e.value host) ∧
      e.watch host (fun _ _ => pure ()) = e.evaluate host ∧
      (∀ w, e.evaluate host w = (e.value host, { w with
        warnings := ((e.visits builtin).filterMap (Visit.due? builtin host)).reverse ++
          w.warnings })) ∧
      ∀ v ∈ e.visits builtin, v.due? builtin host ≠ none → v.node.value host = 0 := by
  refine ⟨fun _ => mem_visits_iff builtin, inPostorder_visits builtin e,
    (inPostorder_visits builtin e).nodup, calls.rounds, watch_silent host e,
      calls.rounds.evaluate_eq, ?_⟩
  intro v mem due
  obtain ⟨warning, due⟩ := Option.ne_none_iff_exists'.mp due
  exact value_of_warning (calls.of_reached ((mem_visits_iff builtin).mp mem)) due

/-- A short call in front of a division by zero, and another one that is a surplus argument. -/
theorem evaluate_builtins_surplus :
    let builtin : Handle → Builtin
      | ⟨0⟩ => .min
      | ⟨1⟩ => .max
      | ⟨2⟩ => .floor
      | _ => .round
    let host := (FunctionTable.withBuiltins .empty).2.dispatch
    let short := Expr.call "max" ⟨1⟩ [.number 3]
    let zero := Expr.binary .quo (.number 2) (.number 0)
    let e := Expr.call "min" ⟨0⟩ [short, zero, zero]
    CallsBuiltins builtin host e ∧
      e.visits builtin =
        [⟨[0], short⟩, ⟨[1, 0], .number 2⟩, ⟨[1, 1], .number 0⟩, ⟨[1], zero⟩, ⟨[], e⟩] ∧
      e.evaluate host .initial = (0, ⟨[], [.zeroDivisor 2 0, .missingArguments "max" 2 1]⟩) := by
  intro builtin host short zero e
  have calls : CallsBuiltins builtin host e := by
    intro name callee arguments mem
    simp only [e, short, zero, nodes_call, nodes_binary, nodes_number, List.flatMap_cons,
      List.flatMap_nil, List.cons_append, List.nil_append, List.append_nil, List.mem_cons,
      List.not_mem_nil, or_false, reduceCtorEq, call.injEq] at mem
    rcases mem with ⟨-, rfl, -⟩ | ⟨-, rfl, -⟩ <;> rfl
  have visits : e.visits builtin =
      [⟨[0], short⟩, ⟨[1, 0], .number 2⟩, ⟨[1, 1], .number 0⟩, ⟨[1], zero⟩, ⟨[], e⟩] := rfl
  have warning : zero.warning? builtin host = some (.zeroDivisor 2 0) :=
    show Operator.quo.warning? 2 0 = _ from rfl
  have value : e.value host = 0 := rfl
  refine ⟨calls, visits, ?_⟩
  rw [(evaluate_builtins calls).2.2.2.2.2.1 .initial, value, visits]
  simp only [List.filterMap_cons, List.filterMap_nil, Visit.due?, warning]
  rfl

end Expr

end Arith
