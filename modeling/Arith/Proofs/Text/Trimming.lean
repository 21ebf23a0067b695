/-
# Texts without their ends

What is cut off behind a text is the longest run there of characters of some
kind, and what is trimmed is the text between two runs of blanks that
neither starts nor ends with a blank.  Both are what is left in only one way
(`dropTrailing_append_of_all`, `trimBlanks_eq_iff`).

The two cuts are what the program makes of its input and of the names and
values it is given, and both are stated as a relation between the whole and
the part that is kept, which does not say from which end it was cut first.
-/
import Mathlib.Data.List.TakeWhile
import Arith.Proofs.Text.Excerpt

namespace Arith

/-- The characters `inner` are all of `cs` but the blanks at both ends. -/
structure Trimmed (cs inner : List Char) : Prop where
  split : ∃ front back,
    cs = front ++ (inner ++ back) ∧ (∀ c ∈ front, isBlank c) ∧ ∀ c ∈ back, isBlank c
  head : ∀ c ∈ inner.head?, ¬ isBlank c
  last : ∀ c ∈ inner.getLast?, ¬ isBlank c

theorem dropTrailing_append_of_all {p : Char → Bool} {cs run : List Char} (all : ∀ c ∈ run, p c)
    (last : ∀ c ∈ cs.getLast?, ¬ p c) : dropTrailing p (cs ++ run) = cs := by
  have reversed : (cs ++ run).reverse.dropWhile p = cs.reverse := by
    rw [List.reverse_append,
      List.dropWhile_append_of_pos fun c mem => all c (List.mem_reverse.mp mem)]
    cases e : cs.reverse with
    | nil => rfl
    | cons c rest =>
      refine List.dropWhile_cons_of_neg (last c ?_)
      rw [← List.head?_reverse, e]
      rfl
  rw [dropTrailing, reversed, List.reverse_reverse]

variable {cs inner : List Char}

theorem trimmed_trimBlanks (cs : List Char) : Trimmed cs (trimBlanks cs) := by
  obtain ⟨back, kept, blanks⟩ := exists_dropTrailing_append isBlank (cs.dropWhile isBlank)
  refine ⟨⟨cs.takeWhile isBlank, back, ?_, fun c => List.mem_takeWhile_imp, blanks⟩, ?_, ?_⟩
  · show cs = cs.takeWhile isBlank ++ (dropTrailing isBlank (cs.dropWhile isBlank) ++ back)
    rw [kept, List.takeWhile_append_dropWhile]
  · intro c first blank
    have head : (cs.dropWhile isBlank).head? = some c := by
      have first : (trimBlanks cs).head? = some c := first
      rw [← kept, List.head?_append, show (dropTrailing _ _).head? = some c from first]
      rfl
    have solid := List.head?_dropWhile_not isBlank cs
    rw [head] at solid
    exact absurd blank (by simpa using solid)
  · intro c last blank
    cases blank.symm.trans (getLast?_dropTrailing last)

/-- Where the first character stays, all do. -/
theorem dropWhile_of_head {p : Char → Bool} (head : ∀ c ∈ cs.head?, ¬ p c) :
    cs.dropWhile p = cs := by
  cases cs with
  | nil => rfl
  | cons c rest => exact List.dropWhile_cons_of_neg (head c rfl)

theorem trimBlanks_eq_iff : trimBlanks cs = inner ↔ Trimmed cs inner := by
  constructor
  · rintro rfl
    exact trimmed_trimBlanks cs
  · rintro ⟨⟨front, back, rfl, blanks, blanks'⟩, head, last⟩
    rw [trimBlanks, List.dropWhile_append_of_pos blanks]
    cases inner with
    | nil =>
      rw [List.nil_append, List.dropWhile_eq_nil_iff.mpr blanks']
      rfl
    | cons c rest =>
      have kept :
          (c :: rest ++ back).dropWhile isBlank = c :: rest ++ back := dropWhile_of_head head
      rw [kept]
      exact dropTrailing_append_of_all blanks' last

theorem trimBlanks_of_forall (solid : ∀ c ∈ cs, ¬ isBlank c) : trimBlanks cs = cs :=
  trimBlanks_eq_iff.mpr {
    split := ⟨[], [], (List.append_nil cs).symm, List.forall_mem_nil _, List.forall_mem_nil _⟩
    head := fun c mem => solid c (List.mem_of_mem_head? mem)
    last := fun c mem => solid c (List.mem_of_getLast? mem) }

end Arith
