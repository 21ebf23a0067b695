/-
# A snippet finds its place

A snippet is about an offset of a text: the last boundary between characters
up to where its range starts.  It tells the line and the column of that
boundary, shows the line, and puts a caret below the character behind the
boundary.

    before              after                the text, cut at the boundary
    above ++ left       right ++ below       `left ++ right` is the line

The same excerpt is found by counting bytes alone, moving offsets back until
they are boundaries and looking for line feeds in both directions
(`Excerpt.ofOffsets?`).  That way fails at an offset outside of the text or
inside a character; it never meets one (`Excerpt.ofOffsets?_eq`), which says
that a snippet exists for all offsets and what it would cost to find it
without decoding the text.

The main result is `snippet_locates`: every snippet locates the boundary
that it is about, and boundaries that differ are told apart by line and
column (`Location.after_inj`).  The latter is why a column may count
characters while an offset counts bytes.
-/
import Arith.Proofs.Text.Boundary

namespace Arith

/-! ## The line of a boundary -/

/-- A text is cut into `before` and `after`.  Of the line in which the cut lies, `left` stands in
front of the cut and `right` behind it; the lines over it are `above`, and `below` goes on with a
line feed. -/
structure LineAt (before after above left right below : List Char) : Prop where
  before_eq : before = above ++ left
  after_eq : after = right ++ below
  not_mem_left : '\n' ∉ left
  not_mem_right : '\n' ∉ right
  above_ends : above = [] ∨ ∃ cs, above = cs ++ ['\n']
  below_begins : below = [] ∨ ∃ cs, below = '\n' :: cs

theorem insideLine_iff {c : Char} : insideLine c ↔ c ≠ '\n' := bne_iff_ne

theorem not_mem_takeWhile_insideLine (cs : List Char) : '\n' ∉ cs.takeWhile insideLine := fun mem =>
  insideLine_iff.mp (List.all_eq_true.mp List.all_takeWhile _ mem) rfl

/-- What is left behind a line is nothing or begins with a line feed. -/
theorem dropWhile_insideLine (cs : List Char) :
    cs.dropWhile insideLine = [] ∨ ∃ ds, cs.dropWhile insideLine = '\n' :: ds := by
  have first := List.head?_dropWhile_not insideLine cs
  cases rest : cs.dropWhile insideLine with
  | nil => exact .inl rfl
  | cons c ds =>
    rw [rest] at first
    exact .inr ⟨ds, congrArg (· :: ds) (bne_eq_false_iff_eq.mp first)⟩

theorem takeWhile_insideLine_append {line : List Char} (inside : '\n' ∉ line) (cs : List Char) :
    (line ++ cs).takeWhile insideLine = line ++ cs.takeWhile insideLine :=
  List.takeWhile_append_of_pos fun _ mem => insideLine_iff.mpr (ne_of_mem_of_not_mem mem inside)

/-- What is left after a cut at the end, and what was cut off. -/
theorem dropTrailing_append (p : Char → Bool) (cs : List Char) :
    dropTrailing p cs ++ (cs.reverse.takeWhile p).reverse = cs := by
  rw [dropTrailing, ← List.reverse_append, List.takeWhile_append_dropWhile, List.reverse_reverse]

theorem exists_dropTrailing_append (p : Char → Bool) (cs : List Char) :
    ∃ rest, dropTrailing p cs ++ rest = cs ∧ ∀ c ∈ rest, p c :=
  ⟨_, dropTrailing_append p cs, fun c mem =>
    List.all_eq_true.mp List.all_takeWhile c (List.mem_reverse.mp mem)⟩

theorem getLast?_dropTrailing {p : Char → Bool} {cs : List Char} {c : Char}
    (h : (dropTrailing p cs).getLast? = some c) : p c = false := by
  have last := List.head?_dropWhile_not p cs.reverse
  rw [dropTrailing, List.getLast?_reverse] at h
  rw [h] at last
  exact last

theorem lineAt (before after : List Char) :
    LineAt before after (dropTrailing insideLine before) (lastLine before)
      (after.takeWhile insideLine) (after.dropWhile insideLine) where
  before_eq := (dropTrailing_append insideLine before).symm
  after_eq := List.takeWhile_append_dropWhile.symm
  not_mem_left := fun mem => not_mem_takeWhile_insideLine _ (List.mem_reverse.mp mem)
  not_mem_right := not_mem_takeWhile_insideLine after
  above_ends := by
    rcases dropWhile_insideLine before.reverse with e | ⟨ds, e⟩
    · exact .inl (congrArg List.reverse e)
    · exact .inr ⟨ds.reverse, (congrArg List.reverse e).trans List.reverse_cons⟩
  below_begins := dropWhile_insideLine after

theorem lastLine_append (cs : List Char) {line : List Char} (inside : '\n' ∉ line) :
    lastLine (cs ++ line) = lastLine cs ++ line := by
  rw [lastLine, List.reverse_append,
    takeWhile_insideLine_append fun mem => inside (List.mem_reverse.mp mem),
    List.reverse_append, List.reverse_reverse, lastLine]

namespace Location

/-- A text stands somewhere else as soon as it goes on. -/
theorem eq_nil_of_after_append {before more : List Char}
    (h : Location.after (before ++ more) = Location.after before) : more = [] := by
  obtain ⟨line, column⟩ := Location.mk.inj h
  have inside : '\n' ∉ more := by
    rw [← List.count_eq_zero]
    rw [List.count_append] at line
    omega
  rw [lastLine_append before inside, List.length_append] at column
  exact List.eq_nil_of_length_eq_zero (by omega)

/-- In one text, a line and a column belong to one boundary. -/
theorem after_inj {before after before' after' : List Char}
    (split : before ++ after = before' ++ after') :
    Location.after before' = Location.after before ↔ byteLength before' = byteLength before := by
  have same : Location.after before' = Location.after before → before' = before := by
    intro h
    rcases List.append_eq_append_iff.mp split with ⟨more, rfl, -⟩ | ⟨more, rfl, -⟩
    · rw [eq_nil_of_after_append h, List.append_nil]
    · rw [eq_nil_of_after_append h.symm, List.append_nil]
  refine ⟨fun h => congrArg byteLength (same h), fun h => congrArg Location.after ?_⟩
  have cut := splitAtByte_append_byteLength before' after'
  rw [← split, h, splitAtByte_append_byteLength] at cut
  exact (congrArg Prod.fst cut).symm

end Location

/-! ## Counting bytes

The functions here are partial: each of them has no result where it is asked
about an offset that is no boundary.  What is proved of each is that it has
one at the offsets that the search for an excerpt meets. -/

/-- A text cut at an offset, if that is one of its boundaries. -/
def cutAt? (cs : List Char) (offset : Nat) : Option (List Char × List Char) :=
  if byteLength (splitAtByte cs offset).1 = offset then some (splitAtByte cs offset) else none

/-- What stands in a range of a text, if both ends are boundaries and in order. -/
def part? (cs : List Char) (start stop : Nat) : Option (List Char) :=
  (cutAt? cs stop).bind fun p => (cutAt? p.1 start).map Prod.snd

/-- Moves an offset back, byte by byte, until it is a boundary. -/
def floor? (cs : List Char) : Nat → Option Nat
  | 0 => (cutAt? cs 0).map fun _ => 0
  | n + 1 => if (cutAt? cs (n + 1)).isSome then some (n + 1) else floor? cs n

/-- The offset of the first `d`. -/
def offsetOf? (d : Char) : List Char → Option Nat
  | [] => none
  | c :: cs => if c = d then some 0 else (offsetOf? d cs).map (c.utf8Size + ·)

/-- The offset of the last `d`. -/
def lastOffsetOf? (d : Char) : List Char → Option Nat
  | [] => none
  | c :: cs => (lastOffsetOf? d cs).map (c.utf8Size + ·) <|> if c = d then some 0 else none

/-- The excerpt at a byte range, found with offsets only: none if some part of the text is asked
for whose ends are not boundaries. -/
def Excerpt.ofOffsets? (source : List Char) (span : Span) : Option Excerpt := do
  let length := byteLength source
  let start ← floor? source (min span.start length)
  let stop ← floor? source (min (max span.stop start) length)
  let lineStart := ((lastOffsetOf? '\n' (← part? source 0 start)).map (· + 1)).getD 0
  let lineStop := ((offsetOf? '\n' (← part? source start length)).map (start + ·)).getD length
  let above ← part? source 0 lineStart
  let line ← part? source lineStart lineStop
  let left ← part? source lineStart start
  let marked ← part? source start (min stop lineStop)
  return {
    place := ⟨above.count '\n' + 1, left.length + 1⟩
    line := dropTrailing (· == '\r') line
    width := max marked.length 1 }

theorem cutAt?_eq_some_iff {cs before after : List Char} {offset : Nat} :
    cutAt? cs offset = some (before, after) ↔
      cs = before ++ after ∧ offset = byteLength before := by
  constructor
  · intro h
    obtain ⟨exact, cut⟩ := Option.ite_none_right_eq_some.mp h
    have whole := splitAtByte_append cs offset
    rw [Option.some.inj cut] at exact whole
    exact ⟨whole.symm, exact.symm⟩
  · rintro ⟨rfl, rfl⟩
    rw [cutAt?, splitAtByte_append_byteLength, if_pos rfl]

theorem isSome_cutAt? {cs : List Char} {offset : Nat} :
    (cutAt? cs offset).isSome ↔ OnBoundary cs offset := by
  rw [Option.isSome_iff_exists]
  constructor
  · rintro ⟨p, h⟩
    exact ⟨p.1, p.2, cutAt?_eq_some_iff.mp h⟩
  · rintro ⟨before, after, h⟩
    exact ⟨(before, after), cutAt?_eq_some_iff.mpr h⟩

theorem Slice.part?_eq {cs mid : List Char} {start stop : Nat} (h : Slice cs ⟨start, stop⟩ mid) :
    part? cs start stop = some mid := by
  obtain ⟨before, after, rfl, span⟩ := h
  obtain ⟨rfl, rfl⟩ := Span.mk.inj span
  have upTo : cutAt? (before ++ (mid ++ after)) (byteLength before + byteLength mid) =
      some (before ++ mid, after) :=
    cutAt?_eq_some_iff.mpr ⟨(List.append_assoc _ _ _).symm, (byteLength_append _ _).symm⟩
  have behind : cutAt? (before ++ mid) (byteLength before) = some (before, mid) :=
    cutAt?_eq_some_iff.mpr ⟨rfl, rfl⟩
  rw [part?, upTo, Option.bind_some, behind]
  rfl

theorem part?_front (before after : List Char) :
    part? (before ++ after) 0 (byteLength before) = some before :=
  Slice.part?_eq ⟨[], after, rfl, by rw [byteLength_nil, Nat.zero_add]⟩

theorem part?_back (before after : List Char) :
    part? (before ++ after) (byteLength before) (byteLength (before ++ after)) = some after :=
  Slice.part?_eq ⟨before, [], by rw [List.append_nil], by rw [byteLength_append]⟩

theorem floor?_of_isGreatest {cs : List Char} {offset b : Nat}
    (h : IsGreatest {b | OnBoundary cs b ∧ b ≤ offset} b) : floor? cs offset = some b := by
  obtain ⟨⟨boundary, le⟩, greatest⟩ := h
  induction offset with
  | zero =>
    rw [floor?, cutAt?_eq_some_iff.mpr (⟨rfl, rfl⟩ : cs = [] ++ cs ∧ 0 = byteLength []),
      Nat.le_zero.mp le]
    rfl
  | succ n ih =>
    by_cases last : OnBoundary cs (n + 1)
    · rw [floor?, if_pos (isSome_cutAt?.mpr last)]
      exact congrArg some (Nat.le_antisymm (greatest ⟨last, Nat.le_refl _⟩) le)
    · have below : b ≠ n + 1 := fun e => last (e ▸ boundary)
      rw [floor?, if_neg fun h => last (isSome_cutAt?.mp h)]
      refine ih ?_ (by omega)
      rintro b ⟨inner, le⟩
      exact greatest ⟨inner, Nat.le_succ_of_le le⟩

section Search

variable {d : Char} {line : List Char}

theorem offsetOf?_eq_none (h : d ∉ line) : offsetOf? d line = none := by
  induction line with
  | nil => rfl
  | cons c line ih =>
    rw [offsetOf?, if_neg (List.ne_of_not_mem_cons h).symm, ih (List.not_mem_of_not_mem_cons h)]
    rfl

theorem offsetOf?_append (h : d ∉ line) (cs : List Char) :
    offsetOf? d (line ++ d :: cs) = some (byteLength line) := by
  induction line with
  | nil => exact if_pos rfl
  | cons c line ih =>
    rw [List.cons_append, offsetOf?, if_neg (List.ne_of_not_mem_cons h).symm,
      ih (List.not_mem_of_not_mem_cons h), byteLength_cons]
    rfl

theorem lastOffsetOf?_eq_none (h : d ∉ line) : lastOffsetOf? d line = none := by
  induction line with
  | nil => rfl
  | cons c line ih =>
    rw [lastOffsetOf?, ih (List.not_mem_of_not_mem_cons h), if_neg (List.ne_of_not_mem_cons h).symm]
    rfl

theorem lastOffsetOf?_append (h : d ∉ line) (cs : List Char) :
    lastOffsetOf? d (cs ++ d :: line) = some (byteLength cs) := by
  induction cs with
  | nil =>
    rw [List.nil_append, lastOffsetOf?, lastOffsetOf?_eq_none h, if_pos rfl]
    rfl
  | cons c cs ih =>
    rw [List.cons_append, lastOffsetOf?, ih, byteLength_cons]
    rfl

end Search

namespace LineAt

variable {before after above left right below : List Char}

/-- The line of a cut begins behind the last line feed in front of the cut. -/
theorem lineStart (h : LineAt before after above left right below) :
    ((lastOffsetOf? '\n' before).map (· + 1)).getD 0 = byteLength above := by
  rw [h.before_eq]
  rcases h.above_ends with rfl | ⟨cs, rfl⟩
  · rw [List.nil_append, lastOffsetOf?_eq_none h.not_mem_left]
    rfl
  · rw [List.append_assoc, List.singleton_append, lastOffsetOf?_append h.not_mem_left,
      byteLength_append]
    rfl

/-- It ends in front of the first line feed behind the cut. -/
theorem lineStop (h : LineAt before after above left right below) :
    ((offsetOf? '\n' after).map (byteLength before + ·)).getD (byteLength (before ++ after)) =
      byteLength before + byteLength right := by
  rw [h.after_eq]
  rcases h.below_begins with rfl | ⟨cs, rfl⟩
  · rw [List.append_nil, offsetOf?_eq_none h.not_mem_right, byteLength_append]
    rfl
  · rw [offsetOf?_append h.not_mem_right]
    rfl

/-- In front of the line of a cut stand as many line feeds as in front of the cut. -/
theorem count_above (h : LineAt before after above left right below) :
    above.count '\n' = before.count '\n' := by
  rw [h.before_eq, List.count_append, List.count_eq_zero.mpr h.not_mem_left, Nat.add_zero]

theorem part?_above (h : LineAt before after above left right below) :
    part? (before ++ after) 0 (byteLength above) = some above := by
  rw [h.before_eq, List.append_assoc, part?_front]

theorem part?_left (h : LineAt before after above left right below) :
    part? (before ++ after) (byteLength above) (byteLength before) = some left :=
  Slice.part?_eq ⟨above, after, by rw [h.before_eq, List.append_assoc],
    by rw [h.before_eq, byteLength_append]⟩

theorem part?_line (h : LineAt before after above left right below) :
    part? (before ++ after) (byteLength above) (byteLength before + byteLength right) =
      some (left ++ right) :=
  Slice.part?_eq ⟨above, below, by simp only [h.before_eq, h.after_eq, List.append_assoc],
    by rw [h.before_eq, byteLength_append, byteLength_append, Nat.add_assoc]⟩

end LineAt

/-- The marked characters in the line are the fewer of those that are marked and those in the
line. -/
theorem byteLength_takeWhile_insideLine (marked rest : List Char) :
    byteLength (marked.takeWhile insideLine) =
      min (byteLength marked) (byteLength ((marked ++ rest).takeWhile insideLine)) := by
  induction marked with
  | nil => exact (Nat.zero_min _).symm
  | cons c marked ih =>
    by_cases inside : insideLine c
    · rw [List.cons_append, List.takeWhile_cons_of_pos inside, List.takeWhile_cons_of_pos inside,
        byteLength_cons, byteLength_cons, byteLength_cons, ih, Nat.add_min_add_left]
    · rw [List.cons_append, List.takeWhile_cons_of_neg inside, List.takeWhile_cons_of_neg inside]
      exact (Nat.min_zero _).symm

theorem part?_marked (before marked rest : List Char) :
    part? (before ++ (marked ++ rest)) (byteLength before)
        (min (byteLength before + byteLength marked)
          (byteLength before + byteLength ((marked ++ rest).takeWhile insideLine))) =
      some (marked.takeWhile insideLine) := by
  rw [Nat.add_min_add_left, ← byteLength_takeWhile_insideLine]
  refine Slice.part?_eq ⟨before, marked.dropWhile insideLine ++ rest, ?_, rfl⟩
  rw [← List.append_assoc (marked.takeWhile insideLine), List.takeWhile_append_dropWhile]

/-- Counting bytes finds the excerpt: no part of the text is asked for whose ends are not
boundaries. -/
theorem Excerpt.ofOffsets?_eq (source : List Char) (span : Span) :
    Excerpt.ofOffsets? source span = some (Excerpt.ofSpan source span) := by
  rcases cut : splitAtByte source span.start with ⟨before, after⟩
  rcases cut' : splitAtByte after (span.stop - byteLength before) with ⟨marked, rest⟩
  have start : floor? source (min span.start (byteLength source)) = some (byteLength before) := by
    rw [floor?_of_isGreatest (isGreatest_cut_min _ _), cut]
  have split := splitAtByte_append source span.start
  have split' := splitAtByte_append after (span.stop - byteLength before)
  rw [cut] at split
  rw [cut'] at split'
  subst split split'
  have stop : floor? (before ++ (marked ++ rest))
      (min (max span.stop (byteLength before)) (byteLength (before ++ (marked ++ rest)))) =
        some (byteLength before + byteLength marked) := by
    have behind := splitAtByte_append_add before (marked ++ rest) (span.stop - byteLength before)
    rw [Nat.add_comm, Nat.sub_add_eq_max] at behind
    rw [floor?_of_isGreatest (isGreatest_cut_min _ _), behind, cut', byteLength_append]
  have line := lineAt before (marked ++ rest)
  simp only [ofOffsets?, ofSpan, cut, cut', start, stop, part?_front, part?_back, part?_marked,
    line.lineStart, line.lineStop, line.part?_above, line.part?_left, line.part?_line,
    Option.bind_eq_bind, Option.bind_some, Option.pure_def, line.count_above, Location.after]

/-! ## The text of an excerpt -/

namespace Excerpt

/-- The excerpt is about the boundary `s` of a text: it tells the line and the column of `s` and
shows the line but for the carriage returns at its end. -/
def Locates (e : Excerpt) (source : List Char) (s : Nat) : Prop :=
  ∃ before after above left right below returns,
    source = before ++ after ∧ s = byteLength before ∧ LineAt before after above left right below ∧
      e.place = ⟨before.count '\n' + 1, left.length + 1⟩ ∧
        left ++ right = e.line ++ returns ∧ (∀ c ∈ returns, c = '\r') ∧ e.line.getLast? ≠ some '\r'

/-- The text tells the place of the excerpt.  Its last row but one is the line behind a gutter
with the number of the line, its last row the mark, and the caret stands below the column. -/
def ShownIn (e : Excerpt) (message text : String) : Prop :=
  ∃ (pad : String) (gutter lead : List Char),
    pad = String.ofList (List.replicate (toString e.place.line).length ' ') ∧
      gutter = (toString e.place.line).toList ++ [' ', '|', ' '] ∧
        (∀ c ∈ lead, c = ' ' ∨ c = '|') ∧ lead.length = gutter.length + (e.place.column - 1) ∧
          '\n' ∉ gutter ++ e.line ∧
            text = "\n".intercalate [s!"error: {message}",
              s!"{pad}--> line {e.place.line}, col {e.place.column}", s!"{pad} |",
              String.ofList (gutter ++ e.line),
              String.ofList (lead ++ '^' :: List.replicate (e.width - 1) '~')]

theorem ofSpan_locates (source : List Char) (span : Span) :
    (ofSpan source span).Locates source (byteLength (splitAtByte source span.start).1) := by
  obtain ⟨returns, shown, only⟩ := exists_dropTrailing_append (· == '\r')
    (lastLine (splitAtByte source span.start).1 ++
      (splitAtByte source span.start).2.takeWhile insideLine)
  refine ⟨_, _, _, _, _, _, returns, (splitAtByte_append source span.start).symm, rfl, lineAt _ _,
    rfl, shown.symm, fun c mem => beq_iff_eq.mp (only c mem), ?_⟩
  intro last
  cases getLast?_dropTrailing last

theorem Locates.not_mem_line {e : Excerpt} {source : List Char} {s : Nat} (h : e.Locates source s) :
    '\n' ∉ e.line := by
  obtain ⟨_, _, _, left, right, _, returns, -, -, line, -, shown, -⟩ := h
  intro mem
  have inside : '\n' ∈ left ++ right := shown ▸ List.mem_append_left _ mem
  exact (List.mem_append.mp inside).elim line.not_mem_left line.not_mem_right

theorem not_mem_toString (n : Nat) : '\n' ∉ (toString n).toList := by
  intro mem
  rw [Nat.toString_eq_repr, Nat.toList_repr] at mem
  cases Nat.isDigit_of_mem_toDigits (by decide) (by decide) mem

theorem lines_shownIn {e : Excerpt} (h : '\n' ∉ e.line) (message : String) :
    e.ShownIn message ("\n".intercalate (s!"error: {message}" :: e.lines)) := by
  let gutter := toString e.place.line
  let pad := List.replicate gutter.length ' '
  let indent := List.replicate (e.place.column - 1) ' '
  let mark := '^' :: List.replicate (e.width - 1) '~'
  have row : s!"{gutter} | {String.ofList e.line}" =
      String.ofList (gutter.toList ++ [' ', '|', ' '] ++ e.line) := by
    show gutter ++ " | " ++ String.ofList e.line = _
    simp [← String.toList_inj]
  have below : s!"{String.ofList pad} | {String.ofList indent}{String.ofList mark}" =
      String.ofList (pad ++ [' ', '|', ' '] ++ indent ++ mark) := by
    show String.ofList pad ++ " | " ++ String.ofList indent ++ String.ofList mark = _
    simp [← String.toList_inj]
  have blanks : ∀ n, ∀ c ∈ List.replicate n ' ', c = ' ' ∨ c = '|' :=
    fun _ _ mem => .inl (List.eq_of_mem_replicate mem)
  have bar : ∀ c ∈ [' ', '|', ' '], c = ' ' ∨ c = '|' := by simp
  refine ⟨_, _, pad ++ [' ', '|', ' '] ++ indent, rfl, rfl, ?_, ?_, ?_, ?_⟩
  · exact List.forall_mem_append.mpr ⟨List.forall_mem_append.mpr ⟨blanks _, bar⟩, blanks _⟩
  · simp only [pad, indent, List.length_append, List.length_replicate, gutter, String.length_toList]
  · rw [List.mem_append, List.mem_append]
    rintro ((mem | mem) | mem)
    · exact not_mem_toString _ mem
    · rcases bar _ mem with ⟨⟨⟩⟩ | ⟨⟨⟩⟩
    · exact h mem
  · rw [← row, ← below]
    rfl

end Excerpt

/-- A snippet tells the line and the column of the last boundary up to the start of its range, or
up to the end of the text, shows the line of it and puts a caret below it.  To find it no offset
is used that is outside of the text or inside a character, and no other boundary of the text has
that line and column. -/
theorem snippet_locates (message source : String) (span span' : Span) :
    ∃ s s',
      IsGreatest {b | OnBoundary source.toList b ∧
        b ≤ min span.start (byteLength source.toList)} s ∧
      IsGreatest {b | OnBoundary source.toList b ∧
        b ≤ min span'.start (byteLength source.toList)} s' ∧
      Excerpt.ofOffsets? source.toList span = some (Excerpt.ofSpan source.toList span) ∧
      1 ≤ (Excerpt.ofSpan source.toList span).place.column ∧
      1 ≤ (Excerpt.ofSpan source.toList span).width ∧
      (Excerpt.ofSpan source.toList span).Locates source.toList s ∧
      (Excerpt.ofSpan source.toList span).ShownIn message (snippet message (some span) source) ∧
      ((Excerpt.ofSpan source.toList span').place = (Excerpt.ofSpan source.toList span).place ↔
        s' = s) := by
  have locates := Excerpt.ofSpan_locates source.toList span
  refine ⟨_, _, isGreatest_cut_min _ span.start, isGreatest_cut_min _ span'.start,
    Excerpt.ofOffsets?_eq _ span, Nat.succ_le_succ (Nat.zero_le _), Nat.le_max_right _ _, locates,
    Excerpt.lines_shownIn locates.not_mem_line message, ?_⟩
  exact Location.after_inj
    ((splitAtByte_append source.toList span.start).trans (splitAtByte_append _ span'.start).symm)

/-- The offset four, inside of `é` on the second line, is moved back to the column in front of
it. -/
example :
    Excerpt.ofOffsets? ['1', '\r', '\n', 'é', '+'] ⟨4, 9⟩ = some ⟨⟨2, 1⟩, ['é', '+'], 2⟩ := rfl

end Arith
