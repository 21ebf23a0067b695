/-
# Trees are equal as their functions are

A tree holds the handles of the functions that it calls, so the equality of
trees depends on everything a session has done before: which tables were
copied, which names were given to other functions, which handles were
shared.  `Lineage` says where the functions come from, and is enough to tell
which calls are equal.

For two trees of one text the shape is the same, and so are the names.  What
may differ are the values of the variables and the handles of the functions.
Values are compared as numbers, so that an undefined one is not equal to
itself, and a tree that has one in it does not equal a second tree of the
same text either.

**Proved here**, for all commands that a session may be given
(`Session.equality_follows_lineage`):

* two calls in trees that were parsed have the same handle exactly if what
  was in the scopes under their names was wrapped at one and the same time;
* a text has equal trees in one scope, and in a scope and its copy, as long
  as none of its names is set again and none of its variables is undefined;
* a text has different trees in two scopes in which the same name stands for
  functions that were wrapped at different times, if it calls that name.
-/
import Arith.Proofs.Session.Answers
import Arith.Proofs.Session.Copies

namespace Arith.Session

/-- The value that a scope has under a name before the command with some index. -/
def value? (cs : List Command) (i : Nat) (scope name : String) : Option Float :=
  (before cs i).scopes[scope]?.bind (·.bindings.get? name)

/-- The command with some index parses in a scope, and a call in the tree has a name and a
handle. -/
def Calls (cs : List Command) (i : Nat) (scope name : String) (callee : Handle) : Prop :=
  ∃ e arguments, Parses cs i scope e ∧ .call name callee arguments ∈ e.nodes

variable {cs : List Command} {i j : Nat} {a b scope source name : String} {e e' : Expr}

/-- The handle of a call is the place of its function in the log of a run. -/
theorem Calls.exists_birth {log : List Birth} {callee : Handle}
    (told : ∀ {i : Nat} {scope : String} {c : Scope}, (before cs i).scopes[scope]? = some c →
      ∀ name, Option.Rel (BornAs log) (c.functions.get? name) (entry cs i scope name))
    (h : Calls cs i scope name callee) :
    ∃ x, entry cs i scope name = some x ∧ BornAs log callee x := by
  obtain ⟨e, arguments, parses, mem⟩ := h
  obtain ⟨c, kept, linked⟩ := parses.exists_linked
  have born := told kept name
  rw [linked name callee (List.mem_filterMap.mpr ⟨_, mem, rfl⟩)] at born
  generalize entry cs i scope name = found at born
  cases born with
  | some born => exact ⟨_, rfl, born⟩

theorem callees_eq_iff (cs : List Command) {name' : String} {callee callee' : Handle}
    (h : Calls cs i a name callee) (h' : Calls cs j b name' callee') :
    ∃ x y, entry cs i a name = some x ∧ entry cs j b name' = some y ∧
      (callee = callee' ↔ x = y) := by
  obtain ⟨log, nodup, told⟩ := exists_log cs
  obtain ⟨x, found, born⟩ := h.exists_birth told
  obtain ⟨y, found', born'⟩ := h'.exists_birth told
  exact ⟨x, y, found, found', born.eq_iff nodup born'⟩

/-- A text is read alike in scopes that are copies as far as it is concerned. -/
theorem accepts_of_shares (h : Accepts cs i a source e) (reads : Reads cs j b source)
    (shares : Shares cs (mentionsIn source) i a j b) : Accepts cs j b source e := by
  obtain ⟨c, kept, parses⟩ := h.exists_parse
  obtain ⟨d, kept', agreed⟩ := shares.keeps kept
  exact (accepts_iff reads).mpr ⟨d, kept', Scope.parse_of_agreed agreed parses⟩

theorem Accepts.same_self_iff (h : Accepts cs i a source e) : e.same e ↔ ∀ name value,
    .variable name ∈ mentionsIn source → value? cs i a name = some value → ¬ value.isNaN := by
  obtain ⟨c, kept, parses⟩ := h.exists_parse
  rw [Scope.same_self_of_parse parses]
  simp only [value?, kept, Option.bind_some]

theorem Parses.calls {callee : Handle} (h : Parses cs i a e)
    (mem : (name, callee) ∈ e.nodes.filterMap Expr.callee?) : Calls cs i a name callee := by
  obtain ⟨n, mem, called⟩ := List.mem_filterMap.mp mem
  cases n with
  | call name' callee' arguments =>
    cases called
    exact ⟨e, arguments, h, mem⟩
  | number | binary | var => cases called

/-- Trees that are equal call the same functions, so no name in them may stand for different
ones. -/
theorem not_same_of_entries (h : Accepts cs i a source e) (h' : Accepts cs j b source e')
    (mentioned : .function name ∈ mentionsIn source)
    (other : entry cs i a name ≠ entry cs j b name) :
    ¬ e.same e' := by
  intro same
  obtain ⟨c, -, parses⟩ := h.exists_parse
  rw [← Scope.mentions_of_parse parses] at mentioned
  obtain ⟨callee, mem⟩ := Expr.function_mem_mentions_iff.mp mentioned
  have mem' : (name, callee) ∈ e'.nodes.filterMap Expr.callee? := Expr.callees_of_same same ▸ mem
  obtain ⟨x, y, found, found', eq_iff⟩ :=
    callees_eq_iff cs (h.parses.calls mem) (h'.parses.calls mem')
  exact other (found.trans ((congrArg some (eq_iff.mp rfl)).trans found'.symm))

/-- Whatever a session is told to do, calls in parsed trees have the same handle exactly if the
functions in the scopes under their names were wrapped at one time.  So a text has equal trees in
scopes that are one scope or copies as far as its names go, unless one of its variables is
undefined; and different trees where one of its functions was wrapped at different times. -/
theorem equality_follows_lineage (cs : List Command) :
    (∀ {i a name callee j b name' callee'}, Calls cs i a name callee → Calls cs j b name' callee' →
      ∃ x y, entry cs i a name = some x ∧ entry cs j b name' = some y ∧
        (callee = callee' ↔ x = y)) ∧
    (∀ {i a j b source e}, Accepts cs i a source e → Reads cs j b source →
      Shares cs (mentionsIn source) i a j b →
        ∃ e', Accepts cs j b source e' ∧ (e.same e' ↔ ∀ name value,
          .variable name ∈ mentionsIn source → value? cs i a name = some value → ¬ value.isNaN)) ∧
    ∀ {i a j b source e e' name}, Accepts cs i a source e → Accepts cs j b source e' →
      .function name ∈ mentionsIn source → entry cs i a name ≠ entry cs j b name → ¬ e.same e' := by
  refine ⟨?_, ?_, ?_⟩
  · exact callees_eq_iff cs
  · intro i a j b source e accepted reads shares
    exact ⟨e, accepts_of_shares accepted reads shares, accepted.same_self_iff⟩
  · exact not_same_of_entries

/-- A text is parsed in a scope, in its copy, and in another scope that has functions of its own. -/
theorem equality_follows_lineage_twins :
    let cs : List Command := [.newScope "a", .setVariable "a" "X" 0, .copyScope "a" "b",
      .newScope "c", .setVariable "c" "X" 0, .parse "a" "max(X)" "t", .parse "b" "max(X)" "u",
      .parse "c" "max(X)" "v"]
    let e : Expr := .call "max" ⟨1⟩ [.var "X" 0]
    let e' : Expr := .call "max" ⟨5⟩ [.var "X" 0]
    Accepts cs 5 "a" "max(X)" e ∧ Accepts cs 7 "c" "max(X)" e' ∧
      (∃ x y, entry cs 5 "a" "max" = some x ∧ entry cs 7 "c" "max" = some y ∧
        ((⟨1⟩ : Handle) = ⟨5⟩ ↔ x = y)) ∧
      (∃ t, Accepts cs 6 "b" "max(X)" t ∧ e.same t) ∧ ¬ e.same e' := by
  intro cs e e'
  have first : Accepts cs 5 "a" "max(X)" e := ⟨rfl, by cbv⟩
  have third : Accepts cs 7 "c" "max(X)" e' := ⟨rfl, by cbv⟩
  have mentions : mentionsIn "max(X)" = [.function "max", .variable "X"] := by cbv
  have born : entry cs 5 "a" "max" = some ⟨0, 1⟩ := by cbv
  have born' : entry cs 7 "c" "max" = some ⟨3, 1⟩ := by cbv
  have bound : value? cs 5 "a" "X" = some 0 := by cbv
  have zero : ¬ (0 : Float).isNaN := by decide
  obtain ⟨calls, copies, others⟩ := equality_follows_lineage cs
  refine ⟨first, third, ?_, ?_, ?_⟩
  · exact calls ⟨e, _, first.parses, List.mem_cons_self⟩ ⟨e', _, third.parses, List.mem_cons_self⟩
  · -- the copy was made before both parses
    have origin : Descends cs (mentionsIn "max(X)") 2 "a" 2 "a" := .here (by cbv)
    have kept : Descends cs (mentionsIn "max(X)") 2 "a" 5 "a" :=
      .leave (.leave (.leave origin rfl (by decide : "b" ≠ "a")) rfl (by decide : "c" ≠ "a")) rfl
        (fun same => absurd same (by decide : "c" ≠ "a"))
    have copied : Descends cs (mentionsIn "max(X)") 2 "a" 6 "b" :=
      .leave (.leave (.leave (.copy origin rfl) rfl (by decide : "c" ≠ "b")) rfl
        (fun same => absurd same (by decide : "c" ≠ "b"))) rfl trivial
    have reads : Reads cs 6 "b" "max(X)" := rfl
    obtain ⟨t, accepted, same⟩ := copies first reads ⟨2, "a", kept, copied⟩
    refine ⟨t, accepted, same.mpr fun name value mentioned found => ?_⟩
    rw [mentions] at mentioned
    obtain rfl : name = "X" := by simpa using mentioned
    obtain rfl : 0 = value := Option.some.inj (bound.symm.trans found)
    exact zero
  · refine others first third (mentions ▸ List.mem_cons_self) ?_
    rw [born, born']
    decide

end Arith.Session
