/-
# What a tree is built of

Whatever tree a parse makes, also beside an error, is built of its tokens: a
leaf is a number or a variable among them, a negation is a difference from
zero, and a call has the handle that the scope has under its name (`Built`).
This is shown once, rule by rule (`built_of_reads`); what is true of all
trees that a parse makes then follows by induction on how they are built.

The order of the tokens is not kept, nor how often each is used.  For that
there are the mentions of `Arith.Proofs.Parse.Mentions`, which in turn say
nothing about numbers and handles.

**Proved here.**

    every tree that is made is built of the tokens          (`built_of_tree`)
    each of its calls has the handle that was looked up     (`linked_of_tree`)
-/
import Arith.Proofs.Expr.Same
import Arith.Proofs.Grammar.Takes
import Arith.Proofs.Parse.Located

namespace Arith

open Grammar

/-- A tree that can be made of some tokens in a scope, whether or not they are an expression. -/
inductive Built (scope : Scope) (tokens : List Token) : Expr → Prop
  | number {t : Token} :
      t ∈ tokens → t.kind = .number → Built scope tokens (.number (numberOf t.text))
  | name {t : Token} :
      t ∈ tokens → t.kind = .variableName → Built scope tokens (variableOf scope t.text)
  | negation {e : Expr} : Built scope tokens e → Built scope tokens e.negate
  | binary {left right : Expr} (op : Operator) :
      Built scope tokens left → Built scope tokens right →
        Built scope tokens (.binary op left right)
  | call {t : Token} {callee : Handle} {es : List Expr} : t ∈ tokens → t.kind = .functionName →
      scope.functions.get? t.text = some callee → (∀ e ∈ es, Built scope tokens e) →
        Built scope tokens (.call t.text callee es)

namespace Parse

open ParseState

variable {scope : Scope} {tokens : List Token} {s next : ParseState}

/-- What is read of a part is built of the tokens, if what was read of it before is. -/
def BuiltPart (scope : Scope) (tokens : List Token) : (part : Part) → part.Yield → Prop
  | .operand, tree | .primary, tree | .chain, tree => ∀ e, tree = some e → Built scope tokens e
  | .climb _ left, (tree : Expr) => Built scope tokens left → Built scope tokens tree
  | .tighten _ right, (tree : Expr) => Built scope tokens right → Built scope tokens tree
  | .arguments, trees => ∀ es, trees = some es → ∀ e ∈ es, Built scope tokens e

/-! ## Small steps

What comes out of each small step that makes a tree or closes one. -/

theorem built_readNumber (located : s.Located tokens) (kind : s.kind = .number) :
    Built scope tokens s.readNumber.1 := by
  rw [fst_readNumber]
  exact .number (located.mem_of_kind kind (by simp)) kind

theorem fst_readVariable (s : ParseState) (scope : Scope) :
    (s.readVariable scope).1 = variableOf scope s.current.text := by
  unfold readVariable variableOf
  dsimp only
  cases scope.bindings.get? s.current.text <;> rfl

theorem built_readVariable (located : s.Located tokens) (kind : s.kind = .variableName) :
    Built scope tokens (s.readVariable scope).1 := by
  rw [fst_readVariable]
  exact .name (located.mem_of_kind kind (by simp)) kind

theorem built_readBraced {e : Expr} (located : s.Located tokens)
    (read : (s.readBraced scope).1 = some e) : Built scope tokens e := by
  unfold readBraced at read
  dsimp only at read
  split at read
  · cases read
  next kind =>
    split at read
    · cases read
    · obtain rfl := Option.some.inj read
      exact built_readVariable (located.advance.claim 1) (Decidable.not_not.mp kind)

theorem built_closeGroup {tree : Option Expr} {e : Expr}
    (body : ∀ e, tree = some e → Built scope tokens e) (closed : (s.closeGroup tree).1 = some e) :
    Built scope tokens e := by
  unfold closeGroup at closed
  split at closed
  · exact body e closed
  · cases closed

theorem built_closeCall {name : Token} {trees : Option (List Expr)} {e : Expr} (mem : name ∈ tokens)
    (kind : name.kind = .functionName)
    (body : ∀ es, trees = some es → ∀ e ∈ es, Built scope tokens e)
    (closed : (s.closeCall scope name trees).1 = some e) : Built scope tokens e := by
  unfold closeCall at closed
  split at closed
  · split at closed
    next found =>
      obtain ⟨es, read, rfl⟩ := Option.map_eq_some_iff.mp closed
      exact .call mem kind found (body es read)
    · cases closed
  · cases closed

/-! ## All rules -/

theorem built_of_reads {part : Part} {yield : part.Yield} (h : Reads scope part s yield next)
    (located : s.Located tokens) : BuiltPart scope tokens part yield := by
  induction h with
  | tooDeep | tooLarge | emptyParentheses | missingParenthesis | unexpectedEnd | unexpectedToken
  | noChain => rintro e ⟨⟩
  | operand _ _ ih => exact ih located.enter
  | number kind =>
    rintro e ⟨⟩
    exact built_readNumber (located.claim 1) kind
  | negation _ _ _ ih =>
    intro e made
    obtain ⟨inner, read, rfl⟩ := Option.map_eq_some_iff.mp made
    exact .negation (ih (located.claim 2).advance inner read)
  | group _ _ _ ih => exact fun e closed => built_closeGroup (ih located.advance) closed
  | braced => exact fun e read => built_readBraced located read
  | variableName kind =>
    rintro e ⟨⟩
    exact built_readVariable (located.claim 1) kind
  | call kind _ _ _ ih =>
    have name := located.mem_of_kind kind (by simp)
    exact fun e closed => built_closeCall name kind (ih (located.claim 1).advance.advance) closed
  | chain first _ ihFirst ihMore =>
    rintro e ⟨⟩
    exact ihMore (first.located located) (ihFirst located _ rfl)
  | climbStop | climbTooLarge | climbNoOperand | tightenStop | tightenTooDeep => exact id
  | climb _ _ _ body tighter _ ihBody ihTighter ihMore =>
    intro left
    have right := body.located (located.claim 1).advance
    have operand := ihTighter right (ihBody (located.claim 1).advance _ rfl)
    exact ihMore (tighter.located right) (.binary _ left operand)
  | tightenTighter _ _ _ ih => exact ih located
  | tightenSame _ _ _ _ _ ih => exact ih located.enter
  | argumentsEnd =>
    rintro es ⟨⟩
    exact List.forall_mem_nil _
  | comma _ _ ih => exact ih located.advance
  | argument _ _ first _ ihFirst ihMore =>
    intro es made
    obtain ⟨more, read, rfl⟩ := Option.map_eq_some_iff.mp made
    exact List.forall_mem_cons.mpr
      ⟨ihFirst located _ rfl, ihMore (first.located located) more read⟩
  | failedArgument | skippedArgument => rintro es ⟨⟩

end Parse

theorem built_of_tree {scope : Scope} {tokens : List Token} {e : Expr}
    (made : (parseTokens scope tokens).1.tree = some e) : Built scope tokens e := by
  have reads : Parse.Reads scope .chain (.start tokens) (Parse.chain scope (.start tokens)).tree
      (Parse.chain scope (.start tokens)).next := (Parse.yields scope).2.2.2.1 _
  exact Parse.built_of_reads reads (.start tokens) e (run_of_tree made).1

/-! ## The functions of a tree

A node that calls a function is made in one place only, where a call is
closed and its name is looked up.  So whatever tree a parse makes, also
beside an error, each of its calls has the handle that the scope has under
the name of the call. -/

namespace Expr

/-- The calls of a tree have the handles that a scope has under their names. -/
def Linked (scope : Scope) (e : Expr) : Prop :=
  ∀ name callee, (name, callee) ∈ e.nodes.filterMap callee? →
    scope.functions.get? name = some callee

variable {scope : Scope}

theorem linked_number (value : Float) : (number value).Linked scope := by
  rintro name callee ⟨⟩

theorem linked_var (key : String) (value : Float) : (var key value).Linked scope := by
  rintro name callee ⟨⟩

theorem Linked.binary {left right : Expr} (l : left.Linked scope) (r : right.Linked scope)
    (op : Operator) : (binary op left right).Linked scope := by
  intro name callee mem
  have here : (Expr.binary op left right).callee? = none := rfl
  rw [nodes_binary, List.filterMap_cons_none here, List.filterMap_append, List.mem_append] at mem
  exact mem.elim (l name callee) (r name callee)

theorem Linked.call {name : String} {callee : Handle} {arguments : List Expr}
    (found : scope.functions.get? name = some callee) (all : ∀ e ∈ arguments, e.Linked scope) :
    (call name callee arguments).Linked scope := by
  intro name' callee' mem
  have here : (Expr.call name callee arguments).callee? = some (name, callee) := rfl
  rw [nodes_call, List.filterMap_cons_some here, List.mem_cons] at mem
  rcases mem with same | mem
  · obtain ⟨rfl, rfl⟩ := Prod.mk.inj same
    exact found
  · obtain ⟨n, mem, called⟩ := List.mem_filterMap.mp mem
    obtain ⟨e, within, mem⟩ := List.mem_flatMap.mp mem
    exact all e within name' callee' (List.mem_filterMap.mpr ⟨n, mem, called⟩)

/-- Only where a call is made there is a call more, and its name has been looked up. -/
theorem Linked.of_built {tokens : List Token} {e : Expr} (h : Built scope tokens e) :
    e.Linked scope := by
  induction h with
  | number => exact linked_number _
  | name => exact linked_var _ _
  | negation _ ih => exact (linked_number 0).binary ih .sub
  | binary op _ _ ihLeft ihRight => exact ihLeft.binary ihRight op
  | call _ _ found _ ih => exact .call found ih

end Expr

/-- Every call in a tree that a parse has made was looked up in its scope. -/
theorem linked_of_tree {scope : Scope} {tokens : List Token} {e : Expr}
    (made : (parseTokens scope tokens).1.tree = some e) : e.Linked scope :=
  .of_built (built_of_tree made)

end Arith
