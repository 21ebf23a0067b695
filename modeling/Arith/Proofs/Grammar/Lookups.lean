/-
# The names that a phrase looks up

While a phrase is read its names are looked up one after the other: a
variable at its own token, and a function not at its name but at the
parenthesis that closes the call, when the arguments have been read.
`lookups` is the list of them with the places of these tokens, where the
first token of the phrase has the place `start`.  A variable in an argument
therefore comes before the function that it is an argument of, and a call
comes before whatever stands behind it.

A lookup carries what it needs to be compared with an error: the token of
its name, which the error is about, and its place, which is where the parse
stands when it happens.  These differ for a call.

**Proved here.** The places ascend (`Chain.ascending`), so that the first
lookup that fails is the one with the least place (`Ascending.find?_least`),
and no name is left out (`Chain.known_of_lookups`).
-/
import Arith.Proofs.Grammar.Phrase

namespace Arith.Grammar

/-- A name that is looked up, and the place of the token at which it is. -/
inductive Lookup where
  | name (word : TokenOf .variableName) (place : Nat)
  | call (callee : TokenOf .functionName) (place : Nat)

namespace Lookup

def place : Lookup → Nat
  | .name _ place | .call _ place => place

/-- Whether nothing is found under the name. -/
def fails (scope : Scope) : Lookup → Bool
  | .name word _ => (scope.bindings.get? word.token.text).isNone
  | .call callee _ => (scope.functions.get? callee.token.text).isNone

/-- What is noted when nothing is found. -/
def error : Lookup → ParseError
  | .name word _ => ⟨.unboundVariable word.token.text, some word.token.span⟩
  | .call callee _ => ⟨.undefinedFunction callee.token.text, some callee.token.span⟩

end Lookup

mutual

/-- The names that a phrase looks up, in the order in which it does. -/
def Operand.lookups (start : Nat) : Operand → List Lookup
  | .number _ => []
  | .negation _ inner => inner.lookups (start + 1)
  | .group _ inner _ => inner.lookups (start + 1)
  | .name word => [.name word start]
  | .braced _ word _ => [.name word (start + 1)]
  | .call callee _ inner _ =>
    inner.lookups (start + 2) ++ [.call callee (start + 2 + inner.tokens.length)]

def Chain.lookups (start : Nat) : Chain → List Lookup
  | .mk first more => first.lookups start ++ more.lookups (start + first.tokens.length)

def Tail.lookups (start : Nat) : Tail → List Lookup
  | .nil => []
  | .cons _ operand more =>
    operand.lookups (start + 1) ++ more.lookups (start + 1 + operand.tokens.length)

def Arguments.lookups (start : Nat) : Arguments → List Lookup
  | .nil => []
  | .comma _ more => more.lookups (start + 1)
  | .cons first more => first.lookups start ++ more.lookups (start + first.tokens.length)

end

theorem Tail.lookups_append : ∀ (m n : Tail) (start : Nat),
    (m.append n).lookups start = m.lookups start ++ n.lookups (start + m.tokens.length)
  | .nil, _, _ => rfl
  | .cons _ operand more, n, start => by
    simp only [append, lookups, tokens, lookups_append more n, List.append_assoc, List.length_cons,
      List.length_append]
    congr 3
    omega

/-! ## The places ascend -/

/-- The token at the place of a lookup: the variable itself, or a parenthesis that closes.  The
first of the tokens has the place `start`. -/
inductive Lookup.StandsIn (start : Nat) (tokens : List Token) : Lookup → Prop
  | name {before after : List Token} {word : TokenOf .variableName} :
      tokens = before ++ word.token :: after →
        StandsIn start tokens (.name word (start + before.length))
  | call {before after : List Token} {callee : TokenOf .functionName}
      {closing : TokenOf .rightParen} : tokens = before ++ closing.token :: after →
        StandsIn start tokens (.call callee (start + before.length))

namespace Lookup.StandsIn

variable {start : Nat} {as bs : List Token} {l : Lookup}

theorem between (h : l.StandsIn start as) : start ≤ l.place ∧ l.place < start + as.length := by
  cases h with
  | name split | call split =>
    subst split
    rw [List.length_append, List.length_cons]
    exact ⟨Nat.le_add_right _ _,
      Nat.add_lt_add_left (Nat.lt_add_of_pos_right (Nat.succ_pos _)) start⟩

theorem append_right (h : l.StandsIn start as) (bs : List Token) : l.StandsIn start (as ++ bs) := by
  cases h with
  | name split =>
    subst split
    exact .name (List.append_assoc _ _ _)
  | @call _ _ _ closing split =>
    subst split
    exact @call _ _ _ _ _ closing (List.append_assoc _ _ _)

theorem append_left (as : List Token) (h : l.StandsIn (start + as.length) bs) :
    l.StandsIn start (as ++ bs) := by
  cases h with
  | @name before after word split =>
    subst split
    rw [Nat.add_assoc, ← List.length_append]
    exact .name (List.append_assoc _ _ _).symm
  | @call before after callee closing split =>
    subst split
    rw [Nat.add_assoc, ← List.length_append]
    exact @call _ _ _ _ _ closing (List.append_assoc _ _ _).symm

end Lookup.StandsIn

/-- Lookups at tokens of a list, one behind the other. -/
structure Ascending (start : Nat) (tokens : List Token) (ls : List Lookup) : Prop where
  stands : ∀ l ∈ ls, l.StandsIn start tokens
  ordered : ls.Pairwise fun l l' => l.place < l'.place

namespace Ascending

variable {start : Nat} {as bs : List Token} {ls ls' : List Lookup}

theorem nil (start : Nat) (tokens : List Token) : Ascending start tokens [] :=
  ⟨List.forall_mem_nil _, .nil⟩

theorem singleton {l : Lookup} (stands : l.StandsIn start as) : Ascending start as [l] :=
  ⟨List.forall_mem_singleton.mpr stands, List.pairwise_singleton _ _⟩

theorem append (h : Ascending start as ls) (h' : Ascending (start + as.length) bs ls') :
    Ascending start (as ++ bs) (ls ++ ls') where
  stands := List.forall_mem_append.mpr
    ⟨fun l hl => (h.stands l hl).append_right bs, fun l hl => (h'.stands l hl).append_left as⟩
  ordered := by
    refine List.pairwise_append.mpr ⟨h.ordered, h'.ordered, fun l hl l' hl' => ?_⟩
    exact Nat.lt_of_lt_of_le (h.stands l hl).between.2 (h'.stands l' hl').between.1

theorem cons (t : Token) (h : Ascending (start + 1) as ls) : Ascending start (t :: as) ls :=
  (nil start [t]).append h

theorem concat (h : Ascending start as ls) (t : Token) : Ascending start (as ++ [t]) ls := by
  have all := h.append (nil _ [t])
  rwa [List.append_nil] at all

theorem find?_least {p : Lookup → Bool} {l l' : Lookup} (h : Ascending start as ls)
    (first : ls.find? p = some l) (mem : l' ∈ ls) (hit : p l') : l.place ≤ l'.place := by
  obtain ⟨-, before, after, rfl, missed⟩ := List.find?_eq_some_iff_append.mp first
  have ordered := (List.pairwise_append.mp h.ordered).2.1
  rcases List.mem_append.mp mem with mem | mem
  · have miss := missed l' mem
    rw [hit] at miss
    exact absurd miss Bool.false_ne_true
  · rcases List.mem_cons.mp mem with rfl | mem
    · exact Nat.le_refl _
    · exact Nat.le_of_lt (List.rel_of_pairwise_cons ordered mem)

end Ascending

mutual

theorem Operand.ascending : ∀ (x : Operand) (start : Nat),
    Ascending start x.tokens (x.lookups start)
  | .number _, _ => .nil _ _
  | .negation minus inner, start => (inner.ascending (start + 1)).cons minus.token
  | .group opening inner closing, start =>
    ((inner.ascending (start + 1)).concat closing.token).cons opening.token
  | .name _, _ => .singleton (.name (List.nil_append _).symm)
  | .braced opening word closing, start => by
    have found : (Lookup.name word (start + 1)).StandsIn (start + 1) [word.token, closing.token] :=
      .name (List.nil_append _).symm
    exact (Ascending.singleton found).cons opening.token
  | .call callee opening inner closing, start => by
    have found : (Lookup.call callee (start + 2 + inner.tokens.length)).StandsIn
        (start + 2 + inner.tokens.length) [closing.token] :=
      .call (List.nil_append _).symm
    exact (((inner.ascending (start + 2)).append (.singleton found)).cons opening.token).cons
      callee.token

theorem Chain.ascending : ∀ (c : Chain) (start : Nat), Ascending start c.tokens (c.lookups start)
  | .mk first more, start => (first.ascending start).append (more.ascending _)

theorem Tail.ascending : ∀ (m : Tail) (start : Nat), Ascending start m.tokens (m.lookups start)
  | .nil, _ => .nil _ _
  | .cons sign operand more, start =>
    ((operand.ascending (start + 1)).append (more.ascending _)).cons sign.token

theorem Arguments.ascending : ∀ (a : Arguments) (start : Nat),
    Ascending start a.tokens (a.lookups start)
  | .nil, _ => .nil _ _
  | .comma comma more, start => (more.ascending (start + 1)).cons comma.token
  | .cons first more, start => (first.ascending start).append (more.ascending _)

end

/-! ## No name is left out -/

/-- Under each of these names something is found. -/
def Resolved (scope : Scope) (ls : List Lookup) : Prop := ∀ l ∈ ls, ¬ l.fails scope

variable {scope : Scope}

theorem resolved_append {ls ls' : List Lookup} :
    Resolved scope (ls ++ ls') ↔ Resolved scope ls ∧ Resolved scope ls' := List.forall_mem_append

theorem known_variable_of_resolved {word : TokenOf .variableName} {place : Nat}
    (h : Resolved scope [.name word place]) : Known scope [word.token] := by
  have found : (scope.bindings.get? word.token.text).isSome := by
    rw [Option.isSome_iff_ne_none]
    intro none
    exact h _ List.mem_cons_self (by rw [Lookup.fails, none]; rfl)
  refine List.forall_mem_singleton.mpr ⟨fun _ => found, fun e => ?_⟩
  rw [word.kind_eq] at e
  cases e

theorem known_function_of_resolved {callee : TokenOf .functionName} {place : Nat}
    (h : Resolved scope [.call callee place]) : Known scope [callee.token] := by
  have found : (scope.functions.get? callee.token.text).isSome := by
    rw [Option.isSome_iff_ne_none]
    intro none
    exact h _ List.mem_cons_self (by rw [Lookup.fails, none]; rfl)
  refine List.forall_mem_singleton.mpr ⟨fun e => ?_, fun _ => found⟩
  rw [callee.kind_eq] at e
  cases e

theorem Sign.known (sign : Sign) : Known scope [sign.token] :=
  known_of_kind sign.kind_eq (by cases sign.operator <;> decide)

mutual

theorem Operand.known_of_lookups : ∀ (x : Operand) (start : Nat), Resolved scope (x.lookups start) →
    Known scope x.tokens
  | .number digits, _, _ => known_of_kind digits.kind_eq (by decide)
  | .negation minus inner, start, h =>
    known_cons.mpr ⟨known_of_kind minus.kind_eq (by decide), inner.known_of_lookups (start + 1) h⟩
  | .group opening inner closing, start, h =>
    known_cons.mpr ⟨known_of_kind opening.kind_eq (by decide), known_append.mpr
      ⟨inner.known_of_lookups (start + 1) h, known_of_kind closing.kind_eq (by decide)⟩⟩
  | .name _, _, h => known_variable_of_resolved h
  | .braced opening _ closing, _, h =>
    known_cons.mpr ⟨known_of_kind opening.kind_eq (by decide), known_cons.mpr
      ⟨known_variable_of_resolved h, known_of_kind closing.kind_eq (by decide)⟩⟩
  | .call _ opening inner closing, start, h =>
    known_cons.mpr ⟨known_function_of_resolved (resolved_append.mp h).2, known_cons.mpr
      ⟨known_of_kind opening.kind_eq (by decide), known_append.mpr
        ⟨inner.known_of_lookups (start + 2) (resolved_append.mp h).1,
          known_of_kind closing.kind_eq (by decide)⟩⟩⟩

theorem Chain.known_of_lookups : ∀ (c : Chain) (start : Nat), Resolved scope (c.lookups start) →
    Known scope c.tokens
  | .mk first more, start, h =>
    known_append.mpr ⟨first.known_of_lookups start (resolved_append.mp h).1,
      more.known_of_lookups _ (resolved_append.mp h).2⟩

theorem Tail.known_of_lookups : ∀ (m : Tail) (start : Nat), Resolved scope (m.lookups start) →
    Known scope m.tokens
  | .nil, _, _ => known_nil
  | .cons sign operand more, start, h =>
    known_cons.mpr ⟨sign.known, known_append.mpr
      ⟨operand.known_of_lookups (start + 1) (resolved_append.mp h).1,
        more.known_of_lookups _ (resolved_append.mp h).2⟩⟩

theorem Arguments.known_of_lookups :
    ∀ (a : Arguments) (start : Nat), Resolved scope (a.lookups start) →
      Known scope a.tokens
  | .nil, _, _ => known_nil
  | .comma comma more, start, h =>
    known_cons.mpr ⟨known_of_kind comma.kind_eq (by decide), more.known_of_lookups (start + 1) h⟩
  | .cons first more, start, h =>
    known_append.mpr ⟨first.known_of_lookups start (resolved_append.mp h).1,
      more.known_of_lookups _ (resolved_append.mp h).2⟩

end

/-! ## The first lookup that fails -/

theorem find?_append_eq_some {ls ls' : List Lookup} {l : Lookup} :
    (ls ++ ls').find? (Lookup.fails scope) = some l ↔ ls.find? (Lookup.fails scope) = some l ∨
      Resolved scope ls ∧ ls'.find? (Lookup.fails scope) = some l := by
  rw [List.find?_append, Option.or_eq_some_iff, List.find?_eq_none]
  rfl

end Arith.Grammar
