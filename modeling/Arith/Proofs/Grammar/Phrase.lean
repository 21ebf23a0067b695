/-
# Phrases: what may be written

A chain is written as operands with operators between them, and an operand
is

    NUMBER | VARIABLE | "{" VARIABLE "}" | "-" operand | "(" chain ")"
           | FUNCTION "(" arguments ")"

where the arguments of a call are chains and commas in any order.  A phrase
is such a thing with its tokens in place.  It is data, not a judgment: the
tokens that it is written with (`tokens`), the tree that it stands for
(`tree`), how many nodes that has (`size`), and how deep its operands lie
inside each other (`nesting`) are functions of it by structural recursion,
and none of them reads anything.

Operands that follow a run of `^` lie deeper the further right they stand,
since the run groups to the right: the third operand of `A ^ B ^ C` lies as
deep as one in parentheses would.

Without a comma between them, the arguments `A` and `-B` would be the one
argument `A - B`: phrases with such arguments are told apart by `Separated`.

All of these are defined by recursion on four kinds of phrases that contain
each other, which is why each of them comes as four functions, and each fact
about them as four lemmas that are proved together.
-/
import Arith.Proofs.Grammar.Grouping

namespace Arith.Grammar

open Parse Grouping

/-- A token of some kind. -/
structure TokenOf (kind : TokenKind) where
  token : Token
  kind_eq : token.kind = kind

/-- A token that stands for an operator. -/
structure Sign where
  token : Token
  operator : Operator
  kind_eq : token.kind = operator.kind

theorem Sign.operator_eq (sign : Sign) : Operator.ofKind? sign.token.kind = some sign.operator := by
  rw [sign.kind_eq, Operator.ofKind?_kind]

mutual

inductive Operand where
  | number (digits : TokenOf .number)
  | negation (minus : TokenOf .sub) (inner : Operand)
  | group (opening : TokenOf .leftParen) (inner : Chain) (closing : TokenOf .rightParen)
  | name (word : TokenOf .variableName)
  | braced (opening : TokenOf .leftBrace) (word : TokenOf .variableName)
      (closing : TokenOf .rightBrace)
  | call (callee : TokenOf .functionName) (opening : TokenOf .leftParen) (inner : Arguments)
      (closing : TokenOf .rightParen)

inductive Chain where
  | mk (first : Operand) (more : Tail)

/-- Operators, each with the operand to its right. -/
inductive Tail where
  | nil
  | cons (sign : Sign) (operand : Operand) (more : Tail)

/-- Chains and commas in any order. -/
inductive Arguments where
  | nil
  | comma (comma : TokenOf .comma) (more : Arguments)
  | cons (first : Chain) (more : Arguments)

end

/-! ## Tokens -/

mutual

/-- The tokens that a phrase is written with. -/
def Operand.tokens : Operand → List Token
  | .number digits => [digits.token]
  | .negation minus inner => minus.token :: inner.tokens
  | .group opening inner closing => opening.token :: (inner.tokens ++ [closing.token])
  | .name word => [word.token]
  | .braced opening word closing => [opening.token, word.token, closing.token]
  | .call callee opening inner closing =>
    callee.token :: opening.token :: (inner.tokens ++ [closing.token])

def Chain.tokens : Chain → List Token
  | .mk first more => first.tokens ++ more.tokens

def Tail.tokens : Tail → List Token
  | .nil => []
  | .cons sign operand more => sign.token :: (operand.tokens ++ more.tokens)

def Arguments.tokens : Arguments → List Token
  | .nil => []
  | .comma comma more => comma.token :: more.tokens
  | .cons first more => first.tokens ++ more.tokens

end

/-! ## Trees

The tree of a phrase is defined even where a name is unknown, so that it is
a function of the phrase and the scope; what stands there instead of a value
or a function is never asked for, since a phrase is accepted only with all
names known. -/

/-- The number that a text stands for, zero if it is malformed. -/
def numberOf (text : String) : Float :=
  match readFloat text.toList with
  | .ok value => value
  | .error _ => 0

/-- The variable with a name.  One that is not bound is no part of a correct expression, and has the
value zero here. -/
def variableOf (scope : Scope) (name : String) : Expr :=
  .var name ((scope.bindings.get? name).getD 0)

/-- The call of the function with a name.  One that is missing is no part of a correct expression,
and has some handle here. -/
def callOf (scope : Scope) (name : String) (arguments : List Expr) : Expr :=
  .call name ((scope.functions.get? name).getD default) arguments

mutual

/-- The tree that a phrase stands for. -/
def Operand.tree (scope : Scope) : Operand → Expr
  | .number digits => .number (numberOf digits.token.text)
  | .negation _ inner => .binary .sub (.number 0) (inner.tree scope)
  | .group _ inner _ => inner.tree scope
  | .name word => variableOf scope word.token.text
  | .braced _ word _ => variableOf scope word.token.text
  | .call callee _ inner _ => callOf scope callee.token.text (inner.trees scope)

def Chain.tree (scope : Scope) : Chain → Expr
  | .mk first more => group (first.tree scope) (more.operands scope)

def Tail.operands (scope : Scope) : Tail → Operands
  | .nil => []
  | .cons sign operand more => (sign.operator, operand.tree scope) :: more.operands scope

def Arguments.trees (scope : Scope) : Arguments → List Expr
  | .nil => []
  | .comma _ more => more.trees scope
  | .cons first more => first.tree scope :: more.trees scope

end

/-! ## Size -/

mutual

/-- How many nodes the tree of a phrase has. -/
def Operand.size : Operand → Nat
  | .number _ => 1
  | .negation _ inner => 2 + inner.size
  | .group _ inner _ => inner.size
  | .name _ => 1
  | .braced _ _ _ => 1
  | .call _ _ inner _ => 1 + inner.size

def Chain.size : Chain → Nat
  | .mk first more => first.size + more.size

def Tail.size : Tail → Nat
  | .nil => 0
  | .cons _ operand more => 1 + operand.size + more.size

def Arguments.size : Arguments → Nat
  | .nil => 0
  | .comma _ more => more.size
  | .cons first more => first.size + more.size

end

mutual

theorem Operand.size_eq (scope : Scope) : ∀ x : Operand, x.size = (x.tree scope).nodes.length
  | .number _ | .name _ | .braced _ _ _ => rfl
  | .negation _ inner => by
    rw [Operand.size, inner.size_eq scope, Operand.tree, length_nodes_binary,
      Expr.nodes_number]
    simp only [List.length_singleton]
    omega
  | .group _ inner _ => by rw [Operand.size, inner.size_eq scope, Operand.tree]
  | .call _ _ inner _ => by
    rw [Operand.size, inner.size_eq scope, Operand.tree, callOf, Expr.nodes_call,
      List.length_cons, Nat.add_comm]

theorem Chain.size_eq (scope : Scope) : ∀ c : Chain, c.size = (c.tree scope).nodes.length
  | .mk first more => by
    rw [Chain.size, first.size_eq scope, more.size_eq scope, Chain.tree, length_nodes_group]

theorem Tail.size_eq (scope : Scope) : ∀ m : Tail, m.size = nodeCount (m.operands scope)
  | .nil => rfl
  | .cons _ operand more => by
    rw [Tail.size, operand.size_eq scope, more.size_eq scope, Tail.operands, nodeCount_cons]

theorem Arguments.size_eq (scope : Scope) :
    ∀ a : Arguments, a.size = ((a.trees scope).flatMap Expr.nodes).length
  | .nil => rfl
  | .comma _ more => by rw [Arguments.size, more.size_eq scope, Arguments.trees]
  | .cons first more => by
    rw [Arguments.size, first.size_eq scope, more.size_eq scope, Arguments.trees,
      List.flatMap_cons, List.length_append]

end

/-! ## Nesting -/

mutual

/-- How deep the operands of a phrase lie inside each other. -/
def Operand.nesting : Operand → Nat
  | .number _ => 1
  | .negation _ inner => 1 + inner.nesting
  | .group _ inner _ => 1 + inner.nesting
  | .name _ => 1
  | .braced _ _ _ => 1
  | .call _ _ inner _ => 1 + inner.nesting

def Chain.nesting : Chain → Nat
  | .mk first more => max first.nesting (more.nesting 0)

/-- `run` operators `^` stand directly before the tail, with nothing looser between them. -/
def Tail.nesting (run : Nat) : Tail → Nat
  | .nil => 0
  | .cons sign operand more =>
    if sign.operator = .pow then max (run + operand.nesting) (more.nesting (run + 1))
    else max operand.nesting (more.nesting 0)

def Arguments.nesting : Arguments → Nat
  | .nil => 0
  | .comma _ more => more.nesting
  | .cons first more => max first.nesting more.nesting

end

/-! ## Separation -/

/-- A list of tokens that does not start with `-`. -/
def NoMinus (tokens : List Token) : Prop := ∀ t ∈ tokens.head?, t.kind ≠ .sub

mutual

/-- No argument in a phrase starts with `-` directly behind another one. -/
def Operand.Separated : Operand → Prop
  | .number _ => True
  | .negation _ inner => inner.Separated
  | .group _ inner _ => inner.Separated
  | .name _ => True
  | .braced _ _ _ => True
  | .call _ _ inner _ => inner.Separated false

def Chain.Separated : Chain → Prop
  | .mk first more => first.Separated ∧ more.Separated

def Tail.Separated : Tail → Prop
  | .nil => True
  | .cons _ operand more => operand.Separated ∧ more.Separated

/-- `behind`: an argument stands directly before these. -/
def Arguments.Separated (behind : Bool) : Arguments → Prop
  | .nil => True
  | .comma _ more => more.Separated false
  | .cons first more =>
    (behind → NoMinus first.tokens) ∧ first.Separated ∧ more.Separated true

end

/-! ## Names -/

/-- Every variable among some tokens is bound, and every function exists. -/
def Known (scope : Scope) (tokens : List Token) : Prop :=
  ∀ t ∈ tokens, (t.kind = .variableName → (scope.bindings.get? t.text).isSome) ∧
    (t.kind = .functionName → (scope.functions.get? t.text).isSome)

variable {scope : Scope}

theorem known_nil : Known scope [] := List.forall_mem_nil _

theorem known_append {as bs : List Token} :
    Known scope (as ++ bs) ↔ Known scope as ∧ Known scope bs := by
  simp only [Known, List.forall_mem_append]

theorem known_cons {t : Token} {ts : List Token} :
    Known scope (t :: ts) ↔ Known scope [t] ∧ Known scope ts :=
  @known_append scope [t] ts

theorem known_variable {word : TokenOf .variableName} (h : Known scope [word.token]) :
    ∃ value, scope.bindings.get? word.token.text = some value :=
  Option.isSome_iff_exists.mp ((h _ List.mem_cons_self).1 word.kind_eq)

theorem known_function {name : TokenOf .functionName} (h : Known scope [name.token]) :
    ∃ callee, scope.functions.get? name.token.text = some callee :=
  Option.isSome_iff_exists.mp ((h _ List.mem_cons_self).2 name.kind_eq)

theorem variableOf_of_bound {name : String} {value : Float}
    (bound : scope.bindings.get? name = some value) : variableOf scope name = .var name value := by
  rw [variableOf, bound]
  rfl

theorem callOf_of_found {name : String} {callee : Handle} (trees : List Expr)
    (found : scope.functions.get? name = some callee) :
    callOf scope name trees = .call name callee trees := by
  rw [callOf, found]
  rfl

theorem known_of_kind {t : Token} {kind : TokenKind} (h : t.kind = kind)
    (plain : kind ≠ .variableName ∧ kind ≠ .functionName) : Known scope [t] := by
  intro t' ht
  rw [List.mem_singleton.mp ht, h]
  exact ⟨fun e => absurd e plain.1, fun e => absurd e plain.2⟩

/-! ## Tails -/

/-- How many operators `^` in a row an operator ends, where what stands before it does not
matter. -/
def runBehind (op : Operator) : Nat := if op = .pow then 1 else 0

namespace Tail

def append : Tail → Tail → Tail
  | .nil, m => m
  | .cons sign operand more, m => .cons sign operand (more.append m)

theorem tokens_append : ∀ m n : Tail, (m.append n).tokens = m.tokens ++ n.tokens
  | .nil, _ => rfl
  | .cons _ _ more, n => by
    simp only [append, tokens, tokens_append more n, List.cons_append, List.append_assoc]

theorem operands_append (scope : Scope) :
    ∀ m n : Tail, (m.append n).operands scope = m.operands scope ++ n.operands scope
  | .nil, _ => rfl
  | .cons _ _ more, n => by
    simp only [append, operands, operands_append scope more n, List.cons_append]

theorem size_append : ∀ m n : Tail, (m.append n).size = m.size + n.size
  | .nil, _ => (Nat.zero_add _).symm
  | .cons _ _ more, n => by
    simp only [append, size, size_append more n, Nat.add_assoc]

theorem separated_append : ∀ {m n : Tail}, (m.append n).Separated ↔ m.Separated ∧ n.Separated
  | .nil, _ => (iff_of_eq (true_and _)).symm
  | .cons _ _ _, n => by
    simp only [append, Separated, separated_append (n := n), and_assoc]

theorem nesting_cons_pow {sign : Sign} (pow : sign.operator = .pow) (operand : Operand)
    (more : Tail) (run : Nat) :
    (Tail.cons sign operand more).nesting run =
      max (run + operand.nesting) (more.nesting (run + 1)) := by
  rw [nesting, if_pos pow]

theorem nesting_cons_of_ne {sign : Sign} (ne : sign.operator ≠ .pow) (operand : Operand)
    (more : Tail) (run : Nat) :
    (Tail.cons sign operand more).nesting run = max operand.nesting (more.nesting 0) := by
  rw [nesting, if_neg ne]

/-- How deep a tail lies depends on what stands before it only if it starts with `^`. -/
theorem nesting_of_head {n : Tail} (head : ∀ p ∈ (n.operands scope).head?, p.1 ≠ .pow) (run : Nat) :
    n.nesting run = n.nesting 0 := by
  cases n with
  | nil => rfl
  | cons sign operand more =>
    have ne : sign.operator ≠ .pow := head _ rfl
    rw [nesting_cons_of_ne ne, nesting_cons_of_ne ne]

theorem nesting_append {n : Tail} (head : ∀ p ∈ (n.operands scope).head?, p.1 ≠ .pow) :
    ∀ (m : Tail) (run : Nat), (m.append n).nesting run = max (m.nesting run) (n.nesting 0)
  | .nil, run => (nesting_of_head head run).trans (Nat.zero_max _).symm
  | .cons sign operand more, run => by
    simp only [append, nesting, nesting_append head more]
    split <;> exact (Nat.max_assoc _ _ _).symm

theorem nesting_succ_le : ∀ (m : Tail) (run : Nat), m.nesting (run + 1) ≤ m.nesting run + 1
  | .nil, _ => Nat.zero_le _
  | .cons sign operand more, run => by
    have := nesting_succ_le more (run + 1)
    simp only [nesting]
    split <;> omega

/-- What follows the right operand of an operator is its own as far as it binds tightly enough,
and the rest starts anew. -/
theorem nesting_cons_append {sign : Sign} {inner outer : Tail} (operand : Operand)
    (loose : ∀ p ∈ (outer.operands scope).head?, p.1.precedence < rightLevel sign.operator) :
    (Tail.cons sign operand (inner.append outer)).nesting 0 =
      max operand.nesting (max (inner.nesting (runBehind sign.operator)) (outer.nesting 0)) := by
  have head : ∀ p ∈ (outer.operands scope).head?, p.1 ≠ .pow := fun p hp =>
    ne_pow_of_precedence (loose p hp)
  by_cases pow : sign.operator = .pow
  · rw [nesting_cons_pow pow, nesting_append head, runBehind, if_pos pow, Nat.zero_add]
  · rw [nesting_cons_of_ne pow, nesting_append head, runBehind, if_neg pow]

/-- A run of `^` lies one deeper behind one more `^`. -/
theorem nesting_succ : ∀ {m : Tail}, m ≠ .nil → (∀ p ∈ m.operands scope, p.1 = .pow) →
    ∀ run, m.nesting (run + 1) = m.nesting run + 1
  | .nil, ne, _, _ => absurd rfl ne
  | .cons sign operand .nil, _, all, run => by
    have pow : sign.operator = .pow := all _ List.mem_cons_self
    rw [nesting_cons_pow pow, nesting_cons_pow pow, nesting, nesting]
    omega
  | .cons sign operand (.cons sign' operand' more), _, all, run => by
    have pow : sign.operator = .pow := all _ List.mem_cons_self
    have ih := nesting_succ (m := .cons sign' operand' more) (by simp)
      (fun p hp => all p (List.mem_cons_of_mem _ hp)) (run + 1)
    rw [nesting_cons_pow pow, ih, nesting_cons_pow pow]
    omega

end Tail

end Arith.Grammar
