/-
# Where the tokens stand

A parse copies the places of tokens into its errors and looks at them
nowhere else.  If the tokens are moved, the same tree is made and the same
errors are found, each at the place where its tokens have gone
(`parseTokens_relocate`).  So two lists of the same words at different
places are parsed alike, since both may be moved to one and the same place
(`parseTokens_of_unplaced`).

A second text with the same words has its blanks elsewhere, so that no
function of the places of one text gives those of the other: two tokens may
share an end in one of them and not in the other.  That is why both are
moved to a third place.
-/
import Arith.Proofs.Parse.Transport

namespace Arith

open Parse

/-! ## Moving what has been noted -/

/-- An error with its place moved. -/
def ParseError.relocate (place : Nat → Nat) (e : ParseError) : ParseError :=
  { e with span := e.span.map (Span.relocate place) }

/-- A note with its place moved. -/
def Note.relocate (place : Nat → Nat) : Note → Note
  | .error e position => .error (e.relocate place) position
  | .malformedNumber t => .malformedNumber (t.relocate place)

namespace Journal

/-- A journal with all places moved. -/
def relocate (place : Nat → Nat) (j : Journal) : Journal := ⟨j.notes.map (Note.relocate place)⟩

theorem errors_relocate (place : Nat → Nat) (j : Journal) :
    (j.relocate place).errors = j.errors.map (ParseError.relocate place) := by
  rw [errors, errors, relocate, ← List.map_reverse, List.filterMap_map, List.map_filterMap]
  congr 1
  funext n
  cases n <;> rfl

theorem first?_relocate (place : Nat → Nat) (j : Journal) :
    (j.relocate place).first? = j.first?.map (ParseError.relocate place) := by
  rw [first?, first?, errors_relocate, List.head?_map]

end Journal

/-- A parse of some tokens, carried over to the same tokens at other places. -/
def Transport.moving (scope : Scope) (place : Nat → Nat) : Transport scope scope where
  place := place
  value _ x := x
  journal j := j.relocate place
  functions_eq := rfl
  value_eq _ := rfl
  journal_malformed _ _ := rfl
  journal_lookUp j name span position := by
    unfold Journal.lookUp
    cases scope.bindings.get? name <;> rfl
  journal_fault _ _ _ _ _ := rfl

/-! ## Parsing tokens that have been moved -/

variable (scope : Scope)

theorem parseTokens_relocate (place : Nat → Nat) (tokens : List Token) :
    (parseTokens scope (tokens.map (Token.relocate place))).1 =
      ⟨(parseTokens scope tokens).1.tree,
        (parseTokens scope tokens).1.error.map (ParseError.relocate place)⟩ := by
  by_cases empty : tokens = []
  · subst empty
    rfl
  · have carried := (Transport.moving scope place).parseTokens_eq rfl empty
    have unchanged : (Transport.moving scope place).tree = id := funext Expr.mapValues_id
    have journal : ((Transport.moving scope place).journal (run scope tokens).2.journal).first? =
        (parseTokens scope tokens).1.error.map (ParseError.relocate place) := by
      rw [parseTokens, if_neg (by simpa using empty)]
      exact Journal.first?_relocate place _
    rw [unchanged, Option.map_id_apply, journal] at carried
    exact carried

/-- A token without its place. -/
def Token.unplaced (t : Token) : Token := t.relocate fun _ => 0

/-- Tokens that differ in their places only have the same tree and the same fault. -/
theorem parseTokens_of_unplaced {ts ts' : List Token}
    (same : ts'.map Token.unplaced = ts.map Token.unplaced) :
    (parseTokens scope ts').1.tree = (parseTokens scope ts).1.tree ∧
      (parseTokens scope ts').1.error.map (·.fault) =
        (parseTokens scope ts).1.error.map (·.fault) := by
  have moved := parseTokens_relocate scope (fun _ => 0) ts
  have moved' := parseTokens_relocate scope (fun _ => 0) ts'
  have faults : ∀ error : Option ParseError,
      (error.map (ParseError.relocate fun _ => 0)).map (·.fault) = error.map (·.fault) := by
    intro error
    cases error <;> rfl
  have parsed : (parseTokens scope (ts.map (Token.relocate fun _ => 0))).1 =
      (parseTokens scope (ts'.map (Token.relocate fun _ => 0))).1 :=
    congrArg (fun ts => (parseTokens scope ts).1) same.symm
  rw [moved, moved', Parsed.mk.injEq] at parsed
  refine ⟨parsed.1.symm, ?_⟩
  rw [← faults, ← parsed.2, faults]

end Arith
