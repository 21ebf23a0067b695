/-
# Ranges of a text

An offset counts bytes, and a text may be cut there if it lies between two
characters or at one of the ends (`OnBoundary`).  A range of a text is what
stands between two such offsets, given by the characters around it
(`Slice`).  Nothing is said of offsets that are not boundaries except where
a cut there is made: at the last boundary before them.

* A text is cut where it was put together (`splitAtByte_append_byteLength`).
* A cut is made at the greatest of the boundaries up to the offset, which
  may lie beyond the text (`isGreatest_cut`, `isGreatest_cut_min`).
* The ends of a range are boundaries of the text, in order, and cutting
  there finds them (`Slice.within`).
-/
import Arith.Text.Span
import Mathlib.Order.Bounds.Defs

namespace Arith

/-- In the range `span` of the text `cs` stand the characters `mid`. -/
def Slice (cs : List Char) (span : Span) (mid : List Char) : Prop :=
  ∃ before after, cs = before ++ (mid ++ after) ∧
    span = ⟨byteLength before, byteLength before + byteLength mid⟩

/-- The offset lies between two characters of a text, or at one of its ends. -/
def OnBoundary (cs : List Char) (offset : Nat) : Prop :=
  ∃ before after, cs = before ++ after ∧ offset = byteLength before

/-- A range of a text, with both ends between characters; cutting the text at its ends cuts it
exactly there. -/
structure Span.Within (cs : List Char) (span : Span) : Prop where
  start_le_stop : span.start ≤ span.stop
  stop_le : span.stop ≤ byteLength cs
  start_boundary : OnBoundary cs span.start
  stop_boundary : OnBoundary cs span.stop
  start_cut : byteLength (splitAtByte cs span.start).1 = span.start
  stop_cut : byteLength (splitAtByte cs span.stop).1 = span.stop

/-! ## Cuts -/

/-- A cut behind the front of a text is a cut of the rest. -/
theorem splitAtByte_append_add (before after : List Char) (offset : Nat) :
    splitAtByte (before ++ after) (byteLength before + offset) =
      (before ++ (splitAtByte after offset).1, (splitAtByte after offset).2) := by
  induction before with
  | nil => rw [byteLength_nil, Nat.zero_add, List.nil_append, List.nil_append]
  | cons c before ih =>
    rw [List.cons_append, splitAtByte, byteLength_cons, Nat.add_assoc,
      if_pos (Nat.le_add_right _ _), Nat.add_sub_cancel_left, ih, List.cons_append]

theorem splitAtByte_append_byteLength (before after : List Char) :
    splitAtByte (before ++ after) (byteLength before) = (before, after) := by
  have whole : splitAtByte after 0 = ([], after) := by
    cases after with
    | nil => rfl
    | cons c after => exact if_neg (Nat.not_le_of_lt (Char.utf8Size_pos c))
  rw [← Nat.add_zero (byteLength before), splitAtByte_append_add, whole, List.append_nil]

theorem OnBoundary.cut {cs : List Char} {offset : Nat} (h : OnBoundary cs offset) :
    byteLength (splitAtByte cs offset).1 = offset := by
  obtain ⟨before, after, rfl, rfl⟩ := h
  rw [splitAtByte_append_byteLength]

theorem onBoundary_zero (cs : List Char) : OnBoundary cs 0 := ⟨[], cs, rfl, rfl⟩

theorem onBoundary_cons {c : Char} {cs : List Char} {offset : Nat} :
    OnBoundary (c :: cs) offset ↔ offset = 0 ∨ ∃ b, OnBoundary cs b ∧ offset = c.utf8Size + b := by
  constructor
  · rintro ⟨before, after, split, rfl⟩
    cases before with
    | nil => exact .inl rfl
    | cons d before =>
      obtain ⟨rfl, rfl⟩ := List.cons.inj split
      exact .inr ⟨_, ⟨before, after, rfl, rfl⟩, byteLength_cons _ _⟩
  · rintro (rfl | ⟨b, ⟨before, after, rfl, rfl⟩, rfl⟩)
    · exact onBoundary_zero _
    · exact ⟨c :: before, after, rfl, (byteLength_cons _ _).symm⟩

theorem OnBoundary.le {cs : List Char} {offset : Nat} (h : OnBoundary cs offset) :
    offset ≤ byteLength cs := by
  obtain ⟨before, after, rfl, rfl⟩ := h
  rw [byteLength_append]
  exact Nat.le_add_right _ _

/-- A cut is made at the last boundary up to the offset. -/
theorem isGreatest_cut (cs : List Char) (offset : Nat) :
    IsGreatest {b | OnBoundary cs b ∧ b ≤ offset} (byteLength (splitAtByte cs offset).1) := by
  refine ⟨⟨⟨_, _, (splitAtByte_append cs offset).symm, rfl⟩, byteLength_splitAtByte_le cs offset⟩,
    ?_⟩
  rintro b ⟨boundary, le⟩
  induction cs generalizing b offset with
  | nil => exact boundary.le
  | cons c cs ih =>
    rcases onBoundary_cons.mp boundary with rfl | ⟨b, inner, rfl⟩
    · exact Nat.zero_le _
    · have room : c.utf8Size ≤ offset := Nat.le_trans (Nat.le_add_right _ _) le
      rw [splitAtByte, if_pos room, byteLength_cons]
      exact Nat.add_le_add_left (ih (offset - c.utf8Size) inner (Nat.le_sub_of_add_le' le)) _

theorem isGreatest_cut_min (cs : List Char) (offset : Nat) :
    IsGreatest {b | OnBoundary cs b ∧ b ≤ min offset (byteLength cs)}
      (byteLength (splitAtByte cs offset).1) := by
  obtain ⟨⟨boundary, le⟩, greatest⟩ := isGreatest_cut cs offset
  refine ⟨⟨boundary, Nat.le_min.mpr ⟨le, boundary.le⟩⟩, ?_⟩
  rintro b ⟨inner, le⟩
  exact greatest ⟨inner, Nat.le_trans le (Nat.min_le_left _ _)⟩

/-! ## Ranges -/

namespace Slice

variable {cs mid : List Char} {span : Span}

theorem within (h : Slice cs span mid) : span.Within cs := by
  obtain ⟨before, after, rfl, rfl⟩ := h
  have start : OnBoundary (before ++ (mid ++ after)) (byteLength before) := ⟨before, _, rfl, rfl⟩
  have stop : OnBoundary (before ++ (mid ++ after)) (byteLength before + byteLength mid) :=
    ⟨before ++ mid, after, (List.append_assoc _ _ _).symm, (byteLength_append _ _).symm⟩
  refine ⟨Nat.le_add_right _ _, ?_, start, stop, start.cut, stop.cut⟩
  rw [byteLength_append, byteLength_append, ← Nat.add_assoc]
  exact Nat.le_add_right _ _

/-- Behind a range stands the empty range at its end. -/
theorem behind (h : Slice cs span mid) : Slice cs (.point span.stop) [] := by
  obtain ⟨before, after, rfl, rfl⟩ := h
  exact ⟨before ++ mid, after, (List.append_assoc _ _ _).symm, by rw [byteLength_append]; rfl⟩

end Slice

end Arith
