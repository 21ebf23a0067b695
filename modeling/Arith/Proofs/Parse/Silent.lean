/-
# Steps that note no error

An error that has been noted stays noted.  So a reading that ends without
one has noted none on its way, and each of its steps has gone the one way on
which nothing is noted.

Of the small steps that may note an error there are statements of two kinds:
if nothing has been noted, then this is what was found and this is the state
behind it (`_silent`), and if that is what is found, then the step does just
this (`_of_bound`, `_of_found`).  The first kind is used to conclude from an
accepted text to its phrase, the second to conclude back.
-/
import Arith.Proofs.Parse.Notes

namespace Arith

namespace ParseState

variable {scope : Scope} {s : ParseState}

theorem errors_faultAt_ne (s : ParseState) (span : Span) (f : ParseFault) :
    (s.faultAt span f).errors ≠ [] := by
  rw [errors_faultAt]
  exact List.concat_ne_nil _ _

theorem errors_fault_ne (s : ParseState) (f : ParseFault) : (s.fault f).errors ≠ [] :=
  errors_faultAt_ne s _ f

theorem readVariable_silent (silent : (s.readVariable scope).2.errors = []) :
    ∃ value, scope.bindings.get? s.current.text = some value ∧
      s.readVariable scope = (.var s.current.text value, s.advance) := by
  unfold readVariable at silent ⊢
  dsimp only at silent ⊢
  split at silent
  next value e => exact ⟨value, e, rfl⟩
  · exact absurd silent (errors_fault_ne s _)

theorem readVariable_of_bound {value : Float}
    (bound : scope.bindings.get? s.current.text = some value) :
    s.readVariable scope = (.var s.current.text value, s.advance) := by
  simp only [readVariable, bound]

theorem closeBrace_silent {name : String} (silent : (s.closeBrace name).errors = []) :
    s.kind = .rightBrace ∧ s.closeBrace name = s.advance := by
  unfold closeBrace at silent ⊢
  split at silent
  next closing => exact ⟨closing, if_pos closing⟩
  · exact absurd silent (errors_fault_ne s _)

theorem readBraced_silent (silent : (s.readBraced scope).2.errors = []) :
    s.advance.kind = .variableName ∧ ¬ s.advance.tooLarge 1 ∧
      (s.advance.claim 1).advance.kind = .rightBrace ∧
      ∃ value, scope.bindings.get? s.advance.current.text = some value ∧
        s.readBraced scope =
          (some (.var s.advance.current.text value), (s.advance.claim 1).advance.advance) := by
  unfold readBraced at silent ⊢
  dsimp only at silent ⊢
  split at silent
  · exact absurd silent (errors_fault_ne _ _)
  next kind =>
    split at silent
    · exact absurd silent (errors_fault_ne _ _)
    next large =>
      have kind : s.advance.kind = .variableName := Decidable.not_not.mp kind
      obtain ⟨closing, e⟩ := closeBrace_silent silent
      have silent' : ((s.advance.claim 1).readVariable scope).2.errors = [] := by
        rw [e] at silent
        exact silent
      obtain ⟨value, bound, e'⟩ := readVariable_silent silent'
      rw [if_neg (fun h => h kind), if_neg large, e, e']
      rw [e'] at closing
      exact ⟨kind, large, closing, value, bound, rfl⟩

theorem readBraced_of_bound {value : Float} (kind : s.advance.kind = .variableName)
    (large : ¬ s.advance.tooLarge 1) (closing : (s.advance.claim 1).advance.kind = .rightBrace)
    (bound : scope.bindings.get? s.advance.current.text = some value) :
    s.readBraced scope =
      (some (.var s.advance.current.text value), (s.advance.claim 1).advance.advance) := by
  have read : (s.advance.claim 1).readVariable scope =
      (.var s.advance.current.text value, (s.advance.claim 1).advance) :=
    readVariable_of_bound bound
  simp only [readBraced, if_neg (not_not_intro kind), if_neg large, read, closeBrace,
    if_pos closing]

theorem closeGroup_silent {tree : Option Expr} (silent : (s.closeGroup tree).2.errors = []) :
    s.kind = .rightParen ∧ s.closeGroup tree = (tree, s.advance) := by
  unfold closeGroup at silent ⊢
  split at silent
  next closing => exact ⟨closing, if_pos closing⟩
  · exact absurd silent (errors_fault_ne s _)

theorem closeCall_silent {name : Token} {trees : Option (List Expr)}
    (silent : (s.closeCall scope name trees).2.errors = []) :
    s.kind = .rightParen ∧ ∃ callee, scope.functions.get? name.text = some callee ∧
      s.closeCall scope name trees = (trees.map (.call name.text callee), s.advance) := by
  unfold closeCall at silent ⊢
  split at silent
  next closing =>
    rw [if_pos closing]
    split at silent
    next callee e => exact ⟨closing, callee, e, rfl⟩
    · exact absurd silent (errors_faultAt_ne _ _ _)
  · exact absurd silent (errors_fault_ne s _)

theorem closeCall_of_found {name : Token} {callee : Handle} (trees : List Expr)
    (closing : s.kind = .rightParen) (found : scope.functions.get? name.text = some callee) :
    s.closeCall scope name (some trees) = (some (.call name.text callee trees), s.advance) := by
  simp only [closeCall, if_pos closing, found, Option.map_some]

end ParseState

namespace Parse

open ParseState

/-- No error is taken back. -/
theorem Reads.errors_prefix {scope : Scope} {part : Part} {s next : ParseState} {yield : part.Yield}
    (h : Reads scope part s yield next) : s.errors <+: next.errors := by
  have run := h.reaches
  have grows : ∀ {c d : Config}, Reaches scope c d → c.state.errors <+: d.state.errors :=
    fun run => (run.grows (Nat.zero_le _)).errors
  cases part with
  | operand | primary | chain | climb | tighten => exact grows (run [])
  | arguments => exact grows (run.2 default (some []) [])

theorem Reads.silent {scope : Scope} {part : Part} {s next : ParseState} {yield : part.Yield}
    (h : Reads scope part s yield next) (silent : next.errors = []) : s.errors = [] :=
  List.prefix_nil.mp (silent ▸ h.errors_prefix)

end Parse

end Arith
