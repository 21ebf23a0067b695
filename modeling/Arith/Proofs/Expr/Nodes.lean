/-
# The nodes of a tree

How deep a walk starts does not matter for which nodes it meets.  So the
nodes of a tree are its root and behind it the nodes of the trees below, in
the order in which they stand.

The height of a tree is that of its longest path (`Expr.height`).  It is
what bounds the recursion on a tree, and what the nesting of a written tree
is compared with.
-/
import Arith.Expr.Printer

namespace Arith.Expr

mutual

theorem map_preorder_eq : ∀ (e : Expr) (depth depth' : Nat),
    (e.preorder depth).map (·.2) = (e.preorder depth').map (·.2)
  | .number _, _, _ | .var _ _, _, _ => rfl
  | .binary _ left right, depth, depth' => by
    simp only [preorder, List.cons_append, List.map_cons, List.map_append,
      map_preorder_eq left (depth + 1) (depth' + 1), map_preorder_eq right (depth + 1) (depth' + 1)]
  | .call _ _ arguments, depth, depth' => by
    simp only [preorder, List.map_cons, map_preorderAll_eq arguments (depth + 1) (depth' + 1)]

theorem map_preorderAll_eq : ∀ (es : List Expr) (depth depth' : Nat),
    (preorderAll depth es).map (·.2) = (preorderAll depth' es).map (·.2)
  | [], _, _ => rfl
  | e :: es, depth, depth' => by
    simp only [preorderAll, List.map_append, map_preorder_eq e depth depth',
      map_preorderAll_eq es depth depth']

end

theorem map_preorder (e : Expr) (depth : Nat) : (e.preorder depth).map (·.2) = e.nodes :=
  map_preorder_eq e depth 1

theorem map_preorderAll (es : List Expr) (depth : Nat) :
    (preorderAll depth es).map (·.2) = es.flatMap nodes := by
  induction es with
  | nil => rfl
  | cons e es ih => rw [preorderAll, List.map_append, map_preorder, ih, List.flatMap_cons]

theorem nodes_number (value : Float) : (number value).nodes = [.number value] := rfl

theorem nodes_var (key : String) (value : Float) : (var key value).nodes = [.var key value] := rfl

theorem nodes_binary (op : Operator) (left right : Expr) :
    (binary op left right).nodes = .binary op left right :: (left.nodes ++ right.nodes) := by
  simp only [nodes, preorder, List.cons_append, List.map_cons, List.map_append]
  rw [map_preorder, map_preorder]
  rfl

theorem nodes_call (name : String) (callee : Handle) (arguments : List Expr) :
    (call name callee arguments).nodes =
      .call name callee arguments :: arguments.flatMap nodes := by
  simp only [nodes, preorder, List.map_cons]
  rw [map_preorderAll]

/-! ## Numbers -/

theorem numbers_binary (op : Operator) (left right : Expr) :
    (binary op left right).numbers = left.numbers ++ right.numbers := by
  simp only [numbers, nodes_binary, List.filterMap_cons, List.filterMap_append]

theorem numbers_call (name : String) (callee : Handle) (arguments : List Expr) :
    (call name callee arguments).numbers = arguments.flatMap numbers := by
  simp only [numbers, nodes_call, List.filterMap_cons, List.filterMap_flatMap]
  rfl

/-! ## Height -/

mutual

/-- How many nodes the longest path from the root to a leaf has. -/
def height : Expr → Nat
  | .number _ => 1
  | .binary _ left right => 1 + max left.height right.height
  | .var _ _ => 1
  | .call _ _ arguments => 1 + heightAll arguments

def heightAll : List Expr → Nat
  | [] => 0
  | e :: es => max e.height (heightAll es)

end

end Arith.Expr
