/-
# What the values of variables decide

Bindings decide nothing but the values in the tree and which unbound
variables are reported.  A parse without any bindings reports every
variable; a parse with bindings goes the same way, puts their values into
the tree, and leaves out the reports of what they bind.  So the one is the
other carried over.

That a missing variable does not change the way a parse goes is what makes
this possible: the parse reads zero, notes the error and goes on.  A missing
function is different, since its call yields no tree, and no such statement
is true of functions.

**Proved here.** `parseTokens_bindings`: tree and error of a parse, for any
tokens and any bindings, from the parse of the same tokens without bindings.
-/
import Arith.Proofs.Parse.Notes
import Arith.Proofs.Parse.Transport

namespace Arith

open Parse

/-- The report of a variable that some bindings bind. -/
def ParseError.boundBy (b : Bindings) (e : ParseError) : Bool :=
  match e.fault with
  | .unboundVariable name => (b.get? name).isSome
  | _ => false

/-- A note that is made under some bindings as well. -/
def Note.stands (b : Bindings) : Note → Bool
  | .error e _ => !e.boundBy b
  | .malformedNumber _ => true

/-- A journal without the reports of what some bindings bind. -/
def Journal.under (b : Bindings) (j : Journal) : Journal := ⟨j.notes.filter (Note.stands b)⟩

namespace Journal

variable (b : Bindings) (j : Journal)

theorem under_note {n : Note} (stands : n.stands b) : (j.note n).under b = (j.under b).note n := by
  rw [under, note, List.filter_cons_of_pos stands]
  rfl

theorem errors_under : (j.under b).errors = j.errors.filter fun e => !e.boundBy b := by
  rw [errors, errors, under, ← List.filter_reverse, List.filterMap_filter, List.filter_filterMap]
  congr 1
  funext n
  cases n with
  | malformedNumber t => rfl
  | error e position =>
    show (if (!e.boundBy b) = true then some e else none) = Option.filter _ (some e)
    rw [Option.filter_some]

end Journal

/-- A parse without bindings, carried over to some bindings. -/
def Transport.toBindings (functions : FunctionTable) (b : Bindings) :
    Transport ⟨.empty, functions⟩ ⟨b, functions⟩ where
  place offset := offset
  value name _ := (b.get? name).getD 0
  journal j := j.under b
  functions_eq := rfl
  value_eq _ := rfl
  journal_malformed j _ := j.under_note b rfl
  journal_lookUp j name span position := by
    have none : Bindings.empty.get? name = none := by simp [Bindings.get?, Bindings.empty]
    simp only [Journal.lookUp, none]
    cases bound : b.get? name with
    | none => exact j.under_note b (by simp [Note.stands, ParseError.boundBy, bound])
    | some value =>
      rw [Journal.under, Journal.note, List.filter_cons_of_neg]
      · rfl
      · simp [Note.stands, ParseError.boundBy, bound]
  journal_fault j f span position known := by
    refine j.under_note b ?_
    cases f with
    | unboundVariable name => exact absurd rfl (known name)
    | _ => rfl

/-- Under any bindings a parse makes the tree that it makes without, with the values of the
bindings in it, and zero for what is not bound; and its error is the first one noted without them
that is not about a variable which they bind. -/
theorem parseTokens_bindings (functions : FunctionTable) (b : Bindings) (tokens : List Token)
    (nonempty : tokens ≠ []) :
    (parseTokens ⟨b, functions⟩ tokens).1.tree =
        (parseTokens ⟨.empty, functions⟩ tokens).1.tree.map
          (·.mapValues fun key _ => (b.get? key).getD 0) ∧
      (parseTokens ⟨b, functions⟩ tokens).1.error =
        (run ⟨.empty, functions⟩ tokens).2.errors.find? fun e => !e.boundBy b := by
  have carried := (Transport.toBindings functions b).parseTokens_eq rfl nonempty
  have unmoved : tokens.map (Token.relocate (Transport.toBindings functions b).place) = tokens :=
    List.map_id tokens
  rw [unmoved] at carried
  rw [carried]
  refine ⟨rfl, ?_⟩
  show ((run _ tokens).2.journal.under b).first? = _
  rw [Journal.first?, Journal.errors_under, List.head?_filter]
  rfl

/-- `X+Y`, where only `X` is bound: without bindings `X` is reported first, and now `Y` is. -/
theorem parseTokens_bindings_sum :
    let b : Bindings := Bindings.empty.set "X" 2
    let tokens : List Token := [⟨.variableName, "X", ⟨0, 1⟩⟩, ⟨.add, "+", ⟨1, 2⟩⟩,
      ⟨.variableName, "Y", ⟨2, 3⟩⟩]
    tokens ≠ [] ∧
      (parseTokens ⟨b, .empty⟩ tokens).1.tree = some (.binary .add (.var "X" 2) (.var "Y" 0)) ∧
      (parseTokens ⟨b, .empty⟩ tokens).1.error = some ⟨.unboundVariable "Y", some ⟨2, 3⟩⟩ := by
  intro b tokens
  have nonempty : tokens ≠ [] := List.cons_ne_nil _ _
  have bound : b.get? "X" = some 2 := by simp [b, Bindings.get?, Bindings.set]
  have unbound : b.get? "Y" = none := by simp [b, Bindings.get?, Bindings.set, Bindings.empty]
  obtain ⟨tree, error⟩ := parseTokens_bindings .empty b tokens nonempty
  have bare := @run_of_steps ⟨.empty, .empty⟩ 20 tokens _ rfl
  refine ⟨nonempty, ?_, ?_⟩
  · rw [tree, parseTokens, if_neg (by decide), bare]
    show some (Expr.binary .add (.var "X" ((b.get? "X").getD 0))
      (.var "Y" ((b.get? "Y").getD 0))) = _
    rw [bound, unbound]
    rfl
  · rw [error, bare]
    let reports : List ParseError :=
      [⟨.unboundVariable "X", some ⟨0, 1⟩⟩, ⟨.unboundVariable "Y", some ⟨2, 3⟩⟩]
    show reports.find? _ = _
    simp [reports, ParseError.boundBy, bound, unbound]

end Arith
