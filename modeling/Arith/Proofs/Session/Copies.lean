/-
# Scopes that come from one another

A scope in a session stays what it is, as far as some names go, until one of
these is set again or the scope is replaced; and a copy is what the original
was.  So scopes that come from one scope in this way agree on the names
(`Shares.keeps`).

The history of a scope is told by `Descends`: where it began, which commands
left it alone, and where it was copied.  Two scopes may have become
different meanwhile in all other names; what is compared is only what a text
mentions.  Each command is dealt with once, for a scope that is kept before
it (`keeps_step`), and the rest is an induction along the history.
-/
import Arith.Proofs.Parse.Agreement
import Arith.Proofs.Session.Lineage

namespace Arith.Session

/-- Whether a command sets none of some names in a scope. -/
def Command.Leaves (scope : String) (ms : List Mention) : Command → Prop
  | .newScope other | .newScopeWith other _ | .copyScope _ other => other ≠ scope
  | .setVariable other name _ => other = scope → .variable name ∉ ms
  | .setFunction other name _ => other = scope → .function name ∉ ms
  | .setBindings other _ => other = scope → ∀ name, .variable name ∉ ms
  | _ => True

/-- What has the last name before the command `j` is the scope that was called `origin` before the
command `k`, or a copy of it, and none of the names `ms` was set again meanwhile. -/
inductive Descends (cs : List Command) (ms : List Mention) (k : Nat) (origin : String) :
    Nat → String → Prop
  | here : (before cs k).scopes[origin]?.isSome → Descends cs ms k origin k origin
  | leave {j : Nat} {scope : String} {c : Command} : Descends cs ms k origin j scope →
      cs[j]? = some c → c.Leaves scope ms → Descends cs ms k origin (j + 1) scope
  | copy {j : Nat} {scope target : String} : Descends cs ms k origin j scope →
      cs[j]? = some (.copyScope scope target) → Descends cs ms k origin (j + 1) target

section

variable {s s' : Session} {scope other : String} {c new : Scope} {ms : List Mention}

theorem agreed_setVariable {name : String} (absent : .variable name ∉ ms) (c : Scope)
    (value : Float) :
    Agreed c (c.setVariable name value) ms := by
  intro m mem
  rcases m with name' | name' | op
  · refine Eq.symm ((getElem?_insert c.bindings.values name name' value).trans (if_neg ?_))
    rintro rfl
    exact absent mem
  · rfl
  · trivial

theorem agreed_setFunction {name : String} (absent : .function name ∉ ms) (c : Scope) (h : Handle) :
    Agreed c (c.setFunction name h) ms := by
  intro m mem
  rcases m with name' | name' | op
  · rfl
  · refine Eq.symm ((getElem?_insert c.functions.handles name name' h).trans (if_neg ?_))
    rintro rfl
    exact absent mem
  · trivial

theorem agreed_setBindings (absent : ∀ name, .variable name ∉ ms) (c : Scope) (b : Bindings) :
    Agreed c { c with bindings := b } ms := by
  intro m mem
  rcases m with name | name | op
  · exact absurd mem (absent name)
  · rfl
  · trivial

/-- What is known of a scope that was kept as `c`. -/
def Keeps (s' : Session) (scope : String) (c : Scope) (ms : List Mention) : Prop :=
  ∃ d, s'.scopes[scope]? = some d ∧ Agreed c d ms

theorem keeps_of_eq (kept : s.scopes[scope]? = some c) (scopes : s'.scopes = s.scopes) :
    Keeps s' scope c ms :=
  ⟨c, scopes ▸ kept, .refl c ms⟩

theorem keeps_put (kept : s.scopes[scope]? = some c)
    (h : other = scope → Agreed c new ms) : Keeps (s.putScope other new) scope c ms := by
  by_cases same : other = scope
  · refine ⟨new, ?_, h same⟩
    exact (getElem?_insert s.scopes other scope new).trans (if_pos same)
  · refine ⟨c, ?_, .refl c ms⟩
    exact (getElem?_insert s.scopes other scope new).trans ((if_neg same).trans kept)

theorem keeps_look {α : Type} {found : Option α} {f : α → Outcome}
    (kept : s.scopes[scope]? = some c) (h : ∀ a, found = some a → Keeps (f a).2.2 scope c ms) :
    Keeps (s.look found f).2.2 scope c ms := by
  cases found with
  | none => exact keeps_of_eq kept rfl
  | some a => exact h a rfl

theorem keeps_step {k : Command} (kept : s.scopes[scope]? = some c) (leaves : k.Leaves scope ms) :
    Keeps (s.step k).2.2 scope c ms := by
  have own : ∀ {d}, s.scopes[scope]? = some d → d = c := fun found =>
    Option.some.inj (found.symm.trans kept)
  by_cases idle : k.Idle
  · exact keeps_of_eq kept (s.alike_step idle).scopes
  cases k with
  | newScope other => exact keeps_put kept fun same => absurd same leaves
  | newScopeWith other table =>
    exact keeps_look kept fun _ _ => keeps_put kept fun same => absurd same leaves
  | copyScope source other =>
    exact keeps_look kept fun _ _ => keeps_put kept fun same => absurd same leaves
  | setVariable other name value =>
    refine keeps_look kept fun d found => keeps_put kept ?_
    rintro rfl
    exact own found ▸ agreed_setVariable (leaves rfl) d value
  | setFunction other name function =>
    refine keeps_look kept fun d found => keeps_put kept ?_
    rintro rfl
    exact own found ▸ agreed_setFunction (leaves rfl) d _
  | setBindings other pairs =>
    refine keeps_look kept fun d found => keeps_put kept ?_
    rintro rfl
    exact own found ▸ agreed_setBindings (leaves rfl) d _
  | build | newTable | newBuiltinTable | newHandle => exact keeps_of_eq kept rfl
  | copyTable | insert => exact keeps_look kept fun _ _ => keeps_of_eq kept rfl
  | insertHandle => exact keeps_look kept fun _ _ => keeps_look kept fun _ _ => keeps_of_eq kept rfl
  | call table name arguments =>
    refine keeps_look kept fun t _ => ?_
    dsimp only
    split
    · exact keeps_of_eq kept rfl
    · exact keeps_of_eq kept rfl
  | _ => exact absurd trivial idle

end

theorem steps_succ : ∀ {cs : List Command} {i : Nat} {c : Command} (s : Session), cs[i]? = some c →
    (s.steps (cs.take (i + 1))).2 = ((s.steps (cs.take i)).2.step c).2.2
  | [], _, _, _, h => by cases h
  | _ :: _, 0, _, _, h => by
    cases h
    rfl
  | c :: _, _ + 1, _, s, h => steps_succ (s.step c).2.2 h

theorem before_succ {cs : List Command} {i : Nat} {c : Command} (h : cs[i]? = some c) :
    before cs (i + 1) = ((before cs i).step c).2.2 :=
  steps_succ empty h

/-- A scope agrees with the one that it comes from. -/
theorem Descends.agreed {cs : List Command} {ms : List Mention} {k j : Nat} {origin scope : String}
    (h : Descends cs ms k origin j scope) : ∃ c, (before cs k).scopes[origin]? = some c ∧
      Keeps (before cs j) scope c ms := by
  induction h with
  | here kept =>
    obtain ⟨c, kept⟩ := Option.isSome_iff_exists.mp kept
    exact ⟨c, kept, c, kept, .refl c ms⟩
  | leave _ command leaves ih =>
    obtain ⟨c, kept, d, kept', agreed⟩ := ih
    obtain ⟨d', kept'', agreed'⟩ := keeps_step kept' leaves
    rw [← before_succ command] at kept''
    exact ⟨c, kept, d', kept'', agreed.trans agreed'⟩
  | @copy j scope target _ command ih =>
    obtain ⟨c, kept, d, kept', agreed⟩ := ih
    refine ⟨c, kept, d, ?_, agreed⟩
    rw [before_succ command]
    simp only [step, look, kept']
    exact (getElem?_insert _ target target d).trans (if_pos rfl)

/-- Two scopes, each before a command of its own, are one scope or copies of one, and in none of
them one of some names was set again. -/
def Shares (cs : List Command) (ms : List Mention) (i : Nat) (a : String) (j : Nat) (b : String) :
    Prop :=
  ∃ k origin, Descends cs ms k origin i a ∧ Descends cs ms k origin j b

theorem Shares.keeps {cs : List Command} {ms : List Mention} {i j : Nat} {a b : String} {c : Scope}
    (h : Shares cs ms i a j b) (kept : (before cs i).scopes[a]? = some c) :
    Keeps (before cs j) b c ms := by
  obtain ⟨k, origin, first, second⟩ := h
  obtain ⟨o, known, c', found, agreed⟩ := first.agreed
  obtain ⟨o', known', d, kept', agreed'⟩ := second.agreed
  obtain rfl : o' = o := Option.some.inj (known'.symm.trans known)
  obtain rfl : c' = c := Option.some.inj (found.symm.trans kept)
  exact ⟨d, kept', agreed.symm.trans agreed'⟩

end Arith.Session
