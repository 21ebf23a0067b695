/-
# When trees are equal

Equality compares numbers as numbers are compared and functions by their
handles.  So a tree equals itself unless an undefined number is in it
(`same_self_iff`), and trees that are equal call the same functions under
the same names, in the same order (`callees_of_same`).

Both are proved from the nodes: equal trees have equal nodes at equal
places, and all that is ever asked of them is a list that is read off the
nodes.  What a tree mentions is such a list too, so that what is known of
the mentions of a parse says which variables and functions may stand in its
nodes (`variable_mem_mentions_iff`, `function_mem_mentions_iff`).
-/
import Arith.Proofs.Expr.Nodes
import Arith.Proofs.Number.Bits
import Arith.Proofs.Parse.Mentions

namespace Arith.Expr

/-- There is no undefined number in a node. -/
def Defined : Expr → Prop
  | .number value | .var _ value => ¬ value.isNaN
  | .binary _ _ _ | .call _ _ _ => True

mutual

theorem same_self_iff : ∀ e : Expr, e.same e ↔ ∀ n ∈ e.nodes, n.Defined
  | .number value => by
    rw [same, nodes_number, List.forall_mem_singleton, beq_self_iff]
    rfl
  | .var key value => by
    rw [same, nodes_var, List.forall_mem_singleton, Bool.and_eq_true, beq_self_iff]
    exact and_iff_right (beq_self_eq_true key)
  | .binary op left right => by
    rw [same, nodes_binary, List.forall_mem_cons, List.forall_mem_append, Bool.and_eq_true,
      Bool.and_eq_true, same_self_iff left, same_self_iff right, beq_self_eq_true]
    simp only [Defined, true_and]
  | .call name callee arguments => by
    rw [same, nodes_call, List.forall_mem_cons, Bool.and_eq_true, Bool.and_eq_true,
      sameAll_self_iff arguments, beq_self_eq_true, beq_self_eq_true]
    simp only [Defined, true_and]

theorem sameAll_self_iff : ∀ es : List Expr, sameAll es es ↔ ∀ n ∈ es.flatMap nodes, n.Defined
  | [] => ⟨fun _ => List.forall_mem_nil _, fun _ => rfl⟩
  | e :: es => by
    rw [sameAll, Bool.and_eq_true, same_self_iff e, sameAll_self_iff es, List.flatMap_cons,
      List.forall_mem_append]

end

/-- The functions that a node calls, under the name that it calls them by. -/
def callee? : Expr → Option (String × Handle)
  | .call name callee _ => some (name, callee)
  | _ => none

mutual

theorem callees_of_same : ∀ {a b : Expr}, a.same b →
    a.nodes.filterMap callee? = b.nodes.filterMap callee?
  | .number _, b, h => by
    cases b with
    | number => rfl
    | binary | var | call => cases h
  | .var _ _, b, h => by
    cases b with
    | var => rfl
    | number | binary | call => cases h
  | .binary op left right, b, h => by
    cases b with
    | binary op' left' right' =>
      rw [same, Bool.and_eq_true, Bool.and_eq_true] at h
      rw [nodes_binary, nodes_binary, List.filterMap_cons, List.filterMap_cons,
        List.filterMap_append, List.filterMap_append, callees_of_same h.1.2, callees_of_same h.2]
      rfl
    | number | var | call => cases h
  | .call name callee arguments, b, h => by
    cases b with
    | call name' callee' arguments' =>
      rw [same, Bool.and_eq_true, Bool.and_eq_true, beq_iff_eq, beq_iff_eq] at h
      obtain ⟨⟨rfl, rfl⟩, all⟩ := h
      rw [nodes_call, nodes_call, List.filterMap_cons, List.filterMap_cons, calleesAll_of_same all]
      rfl
    | number | var | binary => cases h

theorem calleesAll_of_same : ∀ {as bs : List Expr}, sameAll as bs →
    (as.flatMap nodes).filterMap callee? = (bs.flatMap nodes).filterMap callee?
  | [], bs, h => by
    cases bs with
    | nil => rfl
    | cons => cases h
  | a :: as, bs, h => by
    cases bs with
    | nil => cases h
    | cons b bs =>
      rw [sameAll, Bool.and_eq_true] at h
      rw [List.flatMap_cons, List.flatMap_cons, List.filterMap_append, List.filterMap_append,
        callees_of_same h.1, calleesAll_of_same h.2]

end

/-! ## What is mentioned stands in a node -/

def mention? : Expr → Option Mention
  | .number _ => none
  | .binary op _ _ => some (.operator op)
  | .var key _ => some (.variable key)
  | .call name _ _ => some (.function name)

mutual

theorem mem_mentions_iff {m : Mention} :
    ∀ e : Expr, m ∈ e.mentions ↔ ∃ n ∈ e.nodes, n.mention? = some m
  | .number value => by
    have own : (number value).mention? = none := rfl
    simp only [mentions, nodes_number, List.mem_singleton, exists_eq_left, own, List.not_mem_nil,
      reduceCtorEq]
  | .var key value => by
    have own : (var key value).mention? = some (.variable key) := rfl
    simp only [mentions, nodes_var, List.mem_singleton, exists_eq_left, own, Option.some_inj,
      eq_comm]
  | .binary op left right => by
    have own : (binary op left right).mention? = some (.operator op) := rfl
    rw [mentions, nodes_binary, List.mem_append, List.mem_cons, mem_mentions_iff left,
      mem_mentions_iff right]
    simp only [List.mem_cons, List.mem_append, or_and_right, exists_or, exists_eq_left, own,
      Option.some_inj]
    rw [or_left_comm, eq_comm]
  | .call name callee arguments => by
    have own : (call name callee arguments).mention? = some (.function name) := rfl
    rw [mentions, nodes_call, List.mem_cons, mem_mentionsAll_iff arguments]
    simp only [List.mem_cons, or_and_right, exists_or, exists_eq_left, own, Option.some_inj]
    rw [eq_comm]

theorem mem_mentionsAll_iff {m : Mention} :
    ∀ es : List Expr, m ∈ mentionsAll es ↔ ∃ n ∈ es.flatMap nodes, n.mention? = some m
  | [] => by
    simp only [mentionsAll, List.flatMap_nil, List.not_mem_nil, false_and, exists_false]
  | e :: es => by
    rw [mentionsAll, List.flatMap_cons, List.mem_append, mem_mentions_iff e, mem_mentionsAll_iff es]
    simp only [List.mem_append, or_and_right, exists_or]

end

theorem variable_mem_mentions_iff {e : Expr} {name : String} :
    .variable name ∈ e.mentions ↔ ∃ value, .var name value ∈ e.nodes := by
  rw [mem_mentions_iff]
  constructor
  · rintro ⟨n, mem, own⟩
    cases n with
    | var key value =>
      cases own
      exact ⟨value, mem⟩
    | number | binary | call => cases own
  · rintro ⟨value, mem⟩
    exact ⟨_, mem, rfl⟩

theorem function_mem_mentions_iff {e : Expr} {name : String} :
    .function name ∈ e.mentions ↔ ∃ callee, (name, callee) ∈ e.nodes.filterMap callee? := by
  rw [mem_mentions_iff]
  constructor
  · rintro ⟨n, mem, own⟩
    cases n with
    | call name' callee arguments =>
      cases own
      exact ⟨callee, List.mem_filterMap.mpr ⟨_, mem, rfl⟩⟩
    | number | binary | var => cases own
  · rintro ⟨callee, mem⟩
    obtain ⟨n, mem, called⟩ := List.mem_filterMap.mp mem
    cases n with
    | call name' callee' arguments =>
      cases called
      exact ⟨_, mem, rfl⟩
    | number | binary | var => cases called

end Arith.Expr
