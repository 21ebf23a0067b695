/-
# How the operators of a chain group its operands

A chain is a first operand and, behind it, operators each with the operand
to its right.  Its tree is made in three passes, the tightest operators
first:

    powers      every run of `^`, from the right
    products    every run of `*`, `/` and `%`, from the left
    sums        what is left, from the left

Nothing here climbs or looks ahead.  That precedence climbing builds the
same tree comes down to one equation, `group_cons_append`: an operator whose
right operand takes all that binds tighter may be folded before the rest of
the chain.

The passes are plain folds, so what is true of a tree however its operators
are folded is proved once for all three: what the operands have and every
operator keeps (`group_induction`), and how many nodes there are
(`length_nodes_group`).
-/
import Arith.Proofs.Parse.Reads
import Arith.Proofs.Expr.Nodes

namespace Arith

/-- Operators, each with the tree to its right. -/
abbrev Operands := List (Operator × Expr)

/-! ## The operators

As which token an operator is written, and in which pass it is folded, is
written out here and not taken from the parser, which goes by a table of its
own and by numbers.  That they agree is checked operator by operator. -/

/-- The kind of the token that an operator is written as. -/
def Operator.kind : Operator → TokenKind
  | .add => .add
  | .sub => .sub
  | .mul => .mul
  | .quo => .quo
  | .rem => .rem
  | .pow => .pow

theorem Operator.ofKind?_kind (op : Operator) : Operator.ofKind? op.kind = some op := by
  cases op <;> rfl

theorem Operator.eq_kind_of_ofKind? {kind : TokenKind} {op : Operator}
    (h : Operator.ofKind? kind = some op) : kind = op.kind := by
  cases kind <;> cases h <;> rfl

namespace Grouping

open Parse

/-- The operators that are folded in the second pass. -/
def isProduct : Operator → Bool
  | .mul | .quo | .rem => true
  | .add | .sub | .pow => false

theorem isProduct_iff (op : Operator) : isProduct op ↔ op.precedence = 2 := by
  cases op <;> decide

/-! ## The three passes -/

/-- Folds every run of `^` in a chain from the right. -/
def powers (x : Expr) : Operands → Expr × Operands
  | [] => (x, [])
  | (op, y) :: rest =>
    let r := powers y rest
    if op = .pow then (.binary .pow x r.1, r.2) else (x, (op, r.1) :: r.2)

/-- Folds every run of `*`, `/` and `%` in a chain from the left. -/
def products (x : Expr) : Operands → Expr × Operands
  | [] => (x, [])
  | (op, y) :: rest =>
    if isProduct op then products (.binary op x y) rest
    else
      let r := products y rest
      (x, (op, r.1) :: r.2)

/-- Folds all operators of a chain from the left. -/
def sums (x : Expr) : Operands → Expr
  | [] => x
  | (op, y) :: rest => sums (.binary op x y) rest

/-- The tree of a chain. -/
def group (x : Expr) (rest : Operands) : Expr :=
  let r := powers x rest
  let r := products r.1 r.2
  sums r.1 r.2

theorem group_nil (x : Expr) : group x [] = x := rfl

/-! ## Powers

A pass is the same on both sides of an operator that it does not fold.  So a
chain that is put together from two, where the second does not start with
`^`, is passed over part by part. -/

/-- The first pass over what stands behind an operand that no `^` follows. -/
def powersBehind : Operands → Operands
  | [] => []
  | (op, y) :: rest => (op, (powers y rest).1) :: (powers y rest).2

theorem powers_of_head (x : Expr) {rest : Operands} (head : ∀ p ∈ rest.head?, p.1 ≠ .pow) :
    powers x rest = (x, powersBehind rest) := by
  cases rest with
  | nil => rfl
  | cons p rest => simp only [powers, if_neg (head p rfl), powersBehind]

theorem powers_append (x : Expr) (inner : Operands) {outer : Operands}
    (head : ∀ p ∈ outer.head?, p.1 ≠ .pow) :
    powers x (inner ++ outer) = ((powers x inner).1, (powers x inner).2 ++ powersBehind outer) := by
  induction inner generalizing x with
  | nil => exact powers_of_head x head
  | cons p inner ih =>
    rw [List.cons_append, powers, powers, ih]
    split <;> rfl

theorem powers_of_all (x : Expr) {rest : Operands} (all : ∀ p ∈ rest, p.1 = .pow) :
    (powers x rest).2 = [] := by
  induction rest generalizing x with
  | nil => rfl
  | cons p rest ih =>
    rw [List.forall_mem_cons] at all
    simp only [powers, if_pos all.1]
    exact ih _ all.2

theorem mem_powers {x : Expr} {rest : Operands} {p : Operator × Expr} (h : p ∈ (powers x rest).2) :
    p.1 ≠ .pow ∧ ∃ q ∈ rest, q.1 = p.1 := by
  induction rest generalizing x with
  | nil => exact absurd h List.not_mem_nil
  | cons q rest ih =>
    simp only [powers] at h
    split at h
    · obtain ⟨ne, r, hr, e⟩ := ih h
      exact ⟨ne, r, List.mem_cons_of_mem _ hr, e⟩
    next ne =>
      rcases List.mem_cons.mp h with rfl | h
      · exact ⟨ne, q, List.mem_cons_self, rfl⟩
      · obtain ⟨ne, r, hr, e⟩ := ih h
        exact ⟨ne, r, List.mem_cons_of_mem _ hr, e⟩

theorem head?_powersBehind {rest : Operands} {p : Operator × Expr}
    (h : p ∈ (powersBehind rest).head?) : ∃ q ∈ rest.head?, q.1 = p.1 := by
  cases rest with
  | nil => cases h
  | cons q rest =>
    cases h
    exact ⟨q, rfl, rfl⟩

/-! ## Products -/

/-- The second pass over what stands behind an operand that no `*` follows. -/
def productsBehind : Operands → Operands
  | [] => []
  | (op, y) :: rest => (op, (products y rest).1) :: (products y rest).2

theorem products_of_head (x : Expr) {rest : Operands} (head : ∀ p ∈ rest.head?, ¬ isProduct p.1) :
    products x rest = (x, productsBehind rest) := by
  cases rest with
  | nil => rfl
  | cons p rest => simp only [products, if_neg (head p rfl), productsBehind]

theorem products_append (x : Expr) (inner : Operands) {outer : Operands}
    (head : ∀ p ∈ outer.head?, ¬ isProduct p.1) :
    products x (inner ++ outer) =
      ((products x inner).1, (products x inner).2 ++ productsBehind outer) := by
  induction inner generalizing x with
  | nil => exact products_of_head x head
  | cons p inner ih =>
    rw [List.cons_append, products, products, ih, ih]
    split <;> rfl

theorem products_of_all (x : Expr) {rest : Operands} (all : ∀ p ∈ rest, isProduct p.1) :
    (products x rest).2 = [] := by
  induction rest generalizing x with
  | nil => rfl
  | cons p rest ih =>
    rw [List.forall_mem_cons] at all
    rw [products, if_pos all.1]
    exact ih _ all.2

/-! ## Folding one operator early

What binds at least as tightly as the right operand of an operator is folded
before that operator in any of the passes, and what stops there is folded
after it.  The cases are the three levels: a `^` takes the whole run behind
it, a product takes the powers, and a sum takes the products as well. -/

theorem eq_pow_of_precedence {op : Operator} (h : 3 ≤ op.precedence) : op = .pow := by
  cases op <;> first | rfl | exact absurd h (by decide)

theorem precedence_le (op : Operator) : op.precedence ≤ 3 := by cases op <;> decide

theorem precedence_pos (op : Operator) : 1 ≤ op.precedence := by cases op <;> decide

theorem precedence_lt_one (op : Operator) : op.precedence < 1 ↔ False := by cases op <;> decide

theorem rightLevel_of_ne_pow {op : Operator} (h : op ≠ .pow) :
    rightLevel op = op.precedence + 1 := by
  cases op <;> first | rfl | exact absurd rfl h

theorem precedence_le_rightLevel (op : Operator) : op.precedence ≤ rightLevel op := by
  cases op <;> decide

theorem ne_pow_of_precedence {op op' : Operator} (loose : op'.precedence < rightLevel op) :
    op' ≠ .pow := by
  rintro rfl
  revert loose
  cases op <;> decide

/-- An operator takes what binds tighter as its right operand, and may be folded then. -/
theorem group_cons_append (op : Operator) (left y : Expr) {inner outer : Operands}
    (tight : ∀ p ∈ inner, rightLevel op ≤ p.1.precedence)
    (loose : ∀ p ∈ outer.head?, p.1.precedence < rightLevel op) :
    group left ((op, y) :: (inner ++ outer)) = group (.binary op left (group y inner)) outer := by
  have noPow : ∀ p ∈ outer.head?, p.1 ≠ .pow := fun p hp => ne_pow_of_precedence (loose p hp)
  by_cases three : 3 ≤ rightLevel op
  · -- `^`, `*`, `/` or `%`: the right operand is a run of `^`
    have all : ∀ p ∈ inner, p.1 = .pow := fun p hp =>
      eq_pow_of_precedence (Nat.le_trans three (tight p hp))
    have right : group y inner = (powers y inner).1 := by
      simp only [group, powers_of_all y all]
      rfl
    rw [right]
    simp only [group, powers, powers_append y inner noPow, powers_of_all y all, List.nil_append,
      powers_of_head _ noPow]
    split
    next e => rw [e]
    next ne =>
      have two : isProduct op := by
        rw [isProduct_iff]
        rw [rightLevel_of_ne_pow ne] at three
        have := precedence_le op
        have : op.precedence ≠ 3 := fun e => ne (eq_pow_of_precedence (Nat.le_of_eq e.symm))
        omega
      simp only [products, if_pos two]
  · -- `+` or `-`: the right operand is a product of runs of `^`
    have ne : op ≠ .pow := fun e => three (by rw [e]; decide)
    have one : op.precedence = 1 := by
      rw [rightLevel_of_ne_pow ne] at three
      have := precedence_pos op
      omega
    have level : rightLevel op = 2 := by rw [rightLevel_of_ne_pow ne, one]
    have all : ∀ p ∈ (powers y inner).2, isProduct p.1 := by
      intro p hp
      rw [isProduct_iff]
      obtain ⟨noPow, q, hq, e⟩ := mem_powers hp
      have := tight q hq
      have := precedence_le p.1
      have : p.1.precedence ≠ 3 := fun e => noPow (eq_pow_of_precedence (Nat.le_of_eq e.symm))
      rw [e] at *
      omega
    have head : ∀ p ∈ (powersBehind outer).head?, ¬ isProduct p.1 := by
      intro p hp
      rw [isProduct_iff]
      obtain ⟨q, hq, e⟩ := head?_powersBehind hp
      have := loose q hq
      rw [e, level] at this
      exact Nat.ne_of_lt this
    have right : group y inner = (products (powers y inner).1 (powers y inner).2).1 := by
      simp only [group, products_of_all _ all]
      rfl
    have notTwo : ¬ isProduct op := by rw [isProduct_iff, one]; decide
    rw [right]
    simp only [group, powers, if_neg ne, powers_append y inner noPow, powers_of_head _ noPow,
      products, if_neg notTwo, products_append _ _ head, products_of_all _ all, List.nil_append,
      sums, products_of_head _ head]

/-! ## What is true of the tree

What holds of the operands and is kept by every operator holds of the tree, in whatever order the
operators are folded. -/

section

variable {P : Expr → Prop} (binary : ∀ op left right, P left → P right → P (.binary op left right))
include binary

theorem powers_induction {x : Expr} {rest : Operands} (first : P x) (all : ∀ p ∈ rest, P p.2) :
    P (powers x rest).1 ∧ ∀ p ∈ (powers x rest).2, P p.2 := by
  induction rest generalizing x with
  | nil => exact ⟨first, all⟩
  | cons p rest ih =>
    rw [List.forall_mem_cons] at all
    obtain ⟨folded, left⟩ := ih all.1 all.2
    simp only [powers]
    split
    · exact ⟨binary _ _ _ first folded, left⟩
    · exact ⟨first, List.forall_mem_cons.mpr ⟨folded, left⟩⟩

theorem products_induction {x : Expr} {rest : Operands} (first : P x) (all : ∀ p ∈ rest, P p.2) :
    P (products x rest).1 ∧ ∀ p ∈ (products x rest).2, P p.2 := by
  induction rest generalizing x with
  | nil => exact ⟨first, all⟩
  | cons p rest ih =>
    rw [List.forall_mem_cons] at all
    rw [products]
    split
    · exact ih (binary _ _ _ first all.1) all.2
    · obtain ⟨folded, left⟩ := ih all.1 all.2
      exact ⟨first, List.forall_mem_cons.mpr ⟨folded, left⟩⟩

theorem sums_induction {x : Expr} {rest : Operands} (first : P x) (all : ∀ p ∈ rest, P p.2) :
    P (sums x rest) := by
  induction rest generalizing x with
  | nil => exact first
  | cons p rest ih =>
    rw [List.forall_mem_cons] at all
    rw [sums]
    exact ih (binary _ _ _ first all.1) all.2

theorem group_induction {x : Expr} {rest : Operands} (first : P x) (all : ∀ p ∈ rest, P p.2) :
    P (group x rest) := by
  obtain ⟨first₁, all₁⟩ := powers_induction binary first all
  obtain ⟨first₂, all₂⟩ := products_induction binary first₁ all₁
  exact sums_induction binary first₂ all₂

end

/-! ## How many nodes the tree has

Every operator makes one node, in whatever order the operators are folded. -/

/-- How many nodes some operators and the trees to their right make. -/
def nodeCount : Operands → Nat
  | [] => 0
  | (_, y) :: rest => 1 + y.nodes.length + nodeCount rest

theorem nodeCount_cons (op : Operator) (y : Expr) (rest : Operands) :
    nodeCount ((op, y) :: rest) = 1 + y.nodes.length + nodeCount rest := rfl

theorem length_nodes_binary (op : Operator) (left right : Expr) :
    (Expr.binary op left right).nodes.length = left.nodes.length + (1 + right.nodes.length) := by
  rw [Expr.nodes_binary, List.length_cons, List.length_append]
  omega

theorem nodeCount_powers (x : Expr) (rest : Operands) :
    (powers x rest).1.nodes.length + nodeCount (powers x rest).2 =
      x.nodes.length + nodeCount rest := by
  induction rest generalizing x with
  | nil => rfl
  | cons p rest ih =>
    obtain ⟨op, y⟩ := p
    have := ih y
    rw [powers]
    split
    · dsimp only
      rw [length_nodes_binary, nodeCount_cons]
      omega
    · dsimp only
      rw [nodeCount_cons, nodeCount_cons]
      omega

theorem nodeCount_products (x : Expr) (rest : Operands) :
    (products x rest).1.nodes.length + nodeCount (products x rest).2 =
      x.nodes.length + nodeCount rest := by
  induction rest generalizing x with
  | nil => rfl
  | cons p rest ih =>
    obtain ⟨op, y⟩ := p
    rw [products]
    split
    · rw [ih, length_nodes_binary, nodeCount_cons]
      omega
    · have := ih y
      dsimp only
      rw [nodeCount_cons, nodeCount_cons]
      omega

theorem length_nodes_sums (x : Expr) (rest : Operands) :
    (sums x rest).nodes.length = x.nodes.length + nodeCount rest := by
  induction rest generalizing x with
  | nil => rfl
  | cons p rest ih =>
    obtain ⟨op, y⟩ := p
    rw [sums, ih, length_nodes_binary, nodeCount_cons]
    omega

theorem length_nodes_group (x : Expr) (rest : Operands) :
    (group x rest).nodes.length = x.nodes.length + nodeCount rest := by
  rw [group, length_nodes_sums, nodeCount_products, nodeCount_powers]

end Grouping

end Arith
