/-
# A text that is patched

A text is cut in three where no token is cut through, and other characters
are written for the middle part.  What stands in front is scanned as before,
provided that its last token, if it touches the cut, cannot go on with what
is written now (`Tiles.cut`); and what stands behind is scanned as before in
any case, since a scan looks ahead only.

Few lexemes go on: a number or a name with more of its kind, and `*` with
another `*` (`Lexeme.concat_inv`).

The cut is stated for tokens on both sides of an offset and not for one
token, since a patch may remove tokens, add some, or write none where there
was none (`Tiles.patch`).  Only the condition on the last token in front
mentions what is newly written; where that begins with a parenthesis or a
comma the condition is met by itself (`Lexeme.longest_of_mark`).
-/
import Arith.Proofs.Token.Spacing

namespace Arith

/-! ## What goes on -/

def isWordPart (c : Char) : Bool := isNumberPart c || isSmallLetter c || isCapitalLetter c

theorem isWordPart_iff {c : Char} :
    isWordPart c ↔ isNumberPart c ∨ isSmallLetter c ∨ isCapitalLetter c := by
  rw [isWordPart, Bool.or_eq_true, Bool.or_eq_true, or_assoc]

/-- A lexeme that goes on is a number or a name, or `*` before another `*`. -/
theorem Lexeme.concat_inv {kind : TokenKind} {cs : List Char} {d : Char}
    (h : Lexeme kind (cs ++ [d]))
    (ne : cs ≠ []) : cs = ['*'] ∧ d = '*' ∨ (∀ c ∈ cs, isWordPart c) ∧ isWordPart d := by
  have split : ∀ {p : Char → Prop}, (∀ x ∈ cs ++ [d], p x) → (∀ c ∈ cs, p c) ∧ p d := by
    intro p all
    rw [List.forall_mem_append, List.forall_mem_singleton] at all
    exact all
  generalize whole : cs ++ [d] = word at h
  cases h with
  | sign mem =>
    have long : ∀ p ∈ signs, p.1.length ≤ 1 ∨ p.1 = ['*', '*'] := by decide
    rcases long _ mem with short | stars
    · have pos := List.length_pos_iff.mpr ne
      rw [← whole, List.length_append, List.length_singleton] at short
      omega
    · subst whole
      have parts : cs ++ [d] = ['*'] ++ ['*'] := stars
      obtain ⟨rfl, last⟩ := List.append_inj' parts rfl
      exact .inl ⟨rfl, (List.cons.inj last).1⟩
  | number digit parts =>
    refine .inr (split ?_)
    rw [whole]
    exact List.forall_mem_cons.mpr ⟨isWordPart_iff.mpr (.inl (numberPart_of_digit digit)),
      fun x hx => isWordPart_iff.mpr (.inl (parts x hx))⟩
  | functionName _ letters =>
    subst whole
    exact .inr (split fun x hx => isWordPart_iff.mpr (.inr (.inl (letters x hx))))
  | variableName _ letters =>
    subst whole
    exact .inr (split fun x hx => isWordPart_iff.mpr (.inr (.inr (letters x hx))))

theorem not_wordPart_of_blank {c : Char} (blank : isBlank c) : ¬ isWordPart c := by
  rw [isWordPart_iff]
  rintro (part | letter)
  · exact not_numberPart_of_blank blank part
  · exact not_blank_of_letter letter blank

/-- What is no part of a word ends every lexeme before it, if it is no `*`. -/
theorem Lexeme.longest_of_not_wordPart {kind : TokenKind} {cs after : List Char}
    (h : Lexeme kind cs)
    (stop : ∀ d ∈ after.head?, ¬ isWordPart d ∧ (d = '*' → kind ≠ .mul)) :
    Longest kind cs after := by
  refine longest_iff.mpr ⟨h, fun d hd kind' longer => ?_⟩
  obtain ⟨plain, star⟩ := stop d hd
  rcases longer.concat_inv h.ne_nil with ⟨rfl, rfl⟩ | ⟨-, part⟩
  · refine star rfl ?_
    cases h with
    | sign mem =>
      have only : ∀ p ∈ signs, p.1 = ['*'] → p.2 = .mul := by decide
      exact only _ mem rfl
    | number digit => exact absurd digit (by decide)
    | functionName _ letters => exact absurd (letters '*' List.mem_cons_self) (by decide)
    | variableName _ letters => exact absurd (letters '*' List.mem_cons_self) (by decide)
  · exact plain part

/-- A parenthesis or a comma is one character that is no part of a word. -/
theorem Lexeme.eq_singleton {kind : TokenKind} {cs : List Char} (h : Lexeme kind cs)
    (mark : kind = .leftParen ∨ kind = .rightParen ∨ kind = .comma) :
    ∃ c, cs = [c] ∧ ¬ isWordPart c ∧ c ≠ '*' := by
  cases h with
  | sign mem =>
    have only : ∀ p ∈ signs, (p.2 = .leftParen → p.1 = ['(']) ∧ (p.2 = .rightParen → p.1 = [')']) ∧
        (p.2 = .comma → p.1 = [',']) := by decide
    obtain ⟨opening, closing, comma⟩ := only _ mem
    rcases mark with rfl | rfl | rfl
    · exact ⟨'(', opening rfl, by decide, by decide⟩
    · exact ⟨')', closing rfl, by decide, by decide⟩
    · exact ⟨',', comma rfl, by decide, by decide⟩
  | number | functionName | variableName => exact absurd mark (by decide)

theorem Lexeme.longest_of_mark {kind : TokenKind} {cs after : List Char} (h : Lexeme kind cs)
    (mark : kind = .leftParen ∨ kind = .rightParen ∨ kind = .comma) : Longest kind cs after := by
  refine longest_iff.mpr ⟨h, fun d _ kind' longer => ?_⟩
  obtain ⟨c, rfl, plain, star⟩ := h.eq_singleton mark
  rcases longer.concat_inv (List.cons_ne_nil _ _) with ⟨only, -⟩ | ⟨parts, -⟩
  · exact star (List.cons.inj only).1
  · exact plain (parts c List.mem_cons_self)

/-! ## Cutting a text -/

namespace Tiles

variable {offset : Nat} {front rest : List Char} {before behind : List Token}

theorem scans {cs : List Char} {ts : List Token} (h : Tiles offset cs ts)
    (narrow : ∀ c ∈ cs, ¬ Fullwidth c) : Scans cs (ts.map Token.word) [] := by
  induction h with
  | nil => exact .refl []
  | blank blank _ ih =>
    rw [List.forall_mem_cons] at narrow
    exact (Scans.blank blank narrow.1 _).trans (ih narrow.2)
  | lexeme longest _ ih =>
    rw [List.map_cons, Token.word, String.toList_ofList]
    exact longest.scans.trans (ih fun c hc => narrow c (List.mem_append_right _ hc))

/-- No token ends where the first may only start. -/
theorem eq_nil_of_stop {cs : List Char} (h : Tiles offset cs (before ++ behind))
    (stop : ∀ t ∈ before, t.span.stop ≤ offset) : before = [] := by
  cases before with
  | nil => rfl
  | cons t before =>
    have le := h.le_start t List.mem_cons_self
    have lt := h.nonempty t List.mem_cons_self
    have ge := stop t List.mem_cons_self
    omega

/-- Behind a cut a text is tiled by the tokens that stand there.  In front of it, it is scanned as
before whatever follows, if that does not go on with a token that touches the cut. -/
theorem cut {cs : List Char} {ts : List Token} (h : Tiles offset cs ts) (whole : cs = front ++ rest)
    (tokens : ts = before ++ behind) (narrow : ∀ c ∈ front, ¬ Fullwidth c)
    (stop : ∀ t ∈ before, t.span.stop ≤ offset + byteLength front)
    (start : ∀ t ∈ behind, offset + byteLength front ≤ t.span.start) :
    Tiles (offset + byteLength front) rest behind ∧
      ∀ rest', (∀ us t, before = us ++ [t] → t.span.stop = offset + byteLength front →
          Longest t.kind t.text.toList rest') →
        Scans (front ++ rest') (before.map Token.word) rest' := by
  induction h generalizing front before with
  | nil =>
    obtain ⟨rfl, rfl⟩ := List.append_eq_nil_iff.mp whole.symm
    obtain ⟨rfl, rfl⟩ := List.append_eq_nil_iff.mp tokens.symm
    exact ⟨.nil, fun rest' _ => .refl rest'⟩
  | @blank offset c cs ts blank tiles ih =>
    cases front with
    | nil =>
      obtain rfl : c :: cs = rest := whole
      have here : Tiles offset (c :: cs) (before ++ behind) := tokens ▸ .blank blank tiles
      obtain rfl := here.eq_nil_of_stop stop
      exact ⟨here, fun rest' _ => .refl rest'⟩
    | cons c' front =>
      obtain ⟨rfl, split⟩ := List.cons.inj whole
      rw [List.forall_mem_cons] at narrow
      rw [byteLength_cons, ← Nat.add_assoc] at stop start ⊢
      obtain ⟨there, scans⟩ := ih split tokens narrow.2 stop start
      exact ⟨there, fun rest' touch => (Scans.blank blank narrow.1 _).trans (scans rest' touch)⟩
  | @lexeme offset kind cs after ts longest tiles ih =>
    cases before with
    | nil =>
      -- the first token does not stand in front of the cut, so nothing does
      obtain rfl : _ :: ts = behind := tokens
      have first := start _ List.mem_cons_self
      have empty : front = [] := by
        by_contra ne
        have pos := byteLength_pos ne
        simp only at first
        omega
      subst empty
      obtain rfl : cs ++ after = rest := whole
      exact ⟨.lexeme longest tiles, fun rest' _ => .refl rest'⟩
    | cons t before =>
      obtain ⟨rfl, tail⟩ := List.cons.inj tokens
      rw [List.forall_mem_cons] at stop
      obtain ⟨front, rfl, split⟩ : ∃ front', front = cs ++ front' ∧ after = front' ++ rest := by
        rcases List.append_eq_append_iff.mp whole with ⟨front', e, split⟩ | ⟨cs', rfl, split⟩
        · exact ⟨front', e, split⟩
        · have le := stop.1
          rw [byteLength_append] at le
          cases cs' with
          | nil => exact ⟨[], (List.append_nil _).symm ▸ (List.append_nil _).symm, split.symm⟩
          | cons c cs' =>
            have pos := byteLength_pos (List.cons_ne_nil c cs')
            simp only at le
            omega
      rw [List.forall_mem_append] at narrow
      rw [byteLength_append, ← Nat.add_assoc] at stop start ⊢
      obtain ⟨there, scans⟩ := ih split tail narrow.2 stop.2 start
      refine ⟨there, fun rest' touch => ?_⟩
      have found : Longest kind cs (front ++ rest') := by
        cases front with
        | cons c front => exact longest.of_head? (by rw [split]; rfl)
        | nil =>
          -- the token touches the cut, so it is the last one in front of it
          obtain rfl := eq_nil_of_stop (tail ▸ tiles) stop.2
          have last := touch [] _ rfl rfl
          rwa [String.toList_ofList] at last
      rw [List.map_cons, Token.word, String.toList_ofList, List.append_assoc]
      refine found.scans.trans (scans rest' fun us t last => ?_)
      exact touch (_ :: us) t (congrArg _ last)

/-- Between any two of its tokens a text can be cut. -/
theorem exists_cut {cs : List Char} {ts : List Token} (h : Tiles offset cs ts)
    (tokens : ts = before ++ behind) : ∃ front rest, cs = front ++ rest ∧
      (∀ t ∈ before, t.span.stop ≤ offset + byteLength front) ∧
      ∀ t ∈ behind, offset + byteLength front ≤ t.span.start := by
  induction h generalizing before with
  | nil =>
    obtain ⟨rfl, rfl⟩ := List.append_eq_nil_iff.mp tokens.symm
    exact ⟨[], [], rfl, List.forall_mem_nil _, List.forall_mem_nil _⟩
  | @blank offset c cs ts _ _ ih =>
    obtain ⟨front, rest, rfl, stop, start⟩ := ih tokens
    rw [Nat.add_assoc, ← byteLength_cons] at stop start
    exact ⟨c :: front, rest, rfl, stop, start⟩
  | @lexeme offset kind cs after ts longest tiles ih =>
    cases before with
    | nil =>
      obtain rfl : _ :: ts = behind := tokens
      exact ⟨[], _, rfl, List.forall_mem_nil _, (Tiles.lexeme longest tiles).le_start⟩
    | cons t before =>
      obtain ⟨rfl, tail⟩ := List.cons.inj tokens
      obtain ⟨front, rest, rfl, stop, start⟩ := ih tail
      rw [Nat.add_assoc, ← byteLength_append] at stop start
      refine ⟨cs ++ front, rest, (List.append_assoc _ _ _).symm,
        List.forall_mem_cons.mpr ⟨?_, stop⟩, start⟩
      rw [byteLength_append]
      exact Nat.add_le_add_left (Nat.le_add_right _ _) offset

/-- A text begins with a blank or as its first token does. -/
theorem head?_eq_or_blank {cs : List Char} {t : Token} {ts : List Token}
    (h : Tiles offset cs (t :: ts)) :
    ∀ d ∈ cs.head?, isBlank d ∨ d ∈ t.text.toList.head? := by
  cases h with
  | blank blank _ =>
    rintro d ⟨⟩
    exact .inl blank
  | @lexeme _ kind cs after _ longest _ =>
    rw [String.toList_ofList, List.head?_append_of_ne_nil cs longest.lexeme.ne_nil]
    exact fun d hd => .inr hd

/-- Where other characters are written for the middle part of a text, their words come instead of
those that stood there. -/
theorem patch {middle back new : List Char} {old : List Token} {words : List Word}
    (h : Tiles offset (front ++ (middle ++ back)) (before ++ (old ++ behind)))
    (narrow : ∀ c ∈ front ++ (middle ++ back), ¬ Fullwidth c)
    (in_front : ∀ t ∈ before, t.span.stop ≤ offset + byteLength front)
    (between : ∀ t ∈ old, offset + byteLength front ≤ t.span.start ∧
      t.span.stop ≤ offset + byteLength front + byteLength middle)
    (at_back : ∀ t ∈ behind, offset + byteLength front + byteLength middle ≤ t.span.start)
    (found : ∀ rest, Scans (new ++ rest) words rest)
    (touch : Tiles (offset + byteLength front + byteLength middle) back behind →
      ∀ ts t, before = ts ++ [t] → Longest t.kind t.text.toList (new ++ back)) :
    Scans (front ++ (new ++ back))
      (before.map Token.word ++ (words ++ behind.map Token.word)) [] := by
  rw [List.forall_mem_append, List.forall_mem_append] at narrow
  have later : ∀ t ∈ old ++ behind, offset + byteLength front ≤ t.span.start :=
    List.forall_mem_append.mpr ⟨fun t ht => (between t ht).1,
      fun t ht => Nat.le_trans (Nat.le_add_right _ _) (at_back t ht)⟩
  obtain ⟨rest, first⟩ := h.cut rfl rfl narrow.1 in_front later
  obtain ⟨last, -⟩ := rest.cut rfl rfl narrow.2.1 (fun t ht => (between t ht).2) at_back
  exact (first (new ++ back) fun ts t e _ => touch last ts t e).trans
    ((found back).trans (last.scans narrow.2.2))

end Tiles

end Arith
