/-
# A text as its tokens

`Tiles offset cs ts`: the characters `cs`, of which the first stands at
`offset`, are blanks and longest lexemes in a row, and `ts` are the tokens
of the lexemes.  A scan that ends without an error has tiled its text, and a
scan that ends with one has stopped at the first character that may not
stand where it stands (`scanFrom_outcome`).

The tiling is the invariant of the scan: at every place it says what has
been read so far and from where on the rest is read.  The refusals are a
relation of their own (`Refused`), which does not mention the scan.  It has
one case for each kind of error, and a text falls into one case at most
(`Refused.unique`), so that the error is determined by the text.

**Proved here.** `tokenize_spec`: which texts have tokens, what is true of
the tokens, and which error is reported for every other text.
-/
import Arith.Proofs.Token.Alphabet

namespace Arith

/-- Characters as blanks and longest lexemes. -/
inductive Tiles : (offset : Nat) → List Char → List Token → Prop where
  | nil {offset : Nat} : Tiles offset [] []
  | blank {offset : Nat} {c : Char} {cs : List Char} {ts : List Token} : isBlank c →
      Tiles (offset + c.utf8Size) cs ts → Tiles offset (c :: cs) ts
  | lexeme {offset : Nat} {kind : TokenKind} {cs after : List Char} {ts : List Token} :
      Longest kind cs after → Tiles (offset + byteLength cs) after ts →
        Tiles offset (cs ++ after)
          (⟨kind, String.ofList cs, ⟨offset, offset + byteLength cs⟩⟩ :: ts)

/-! ## Scanning -/

/-- A scan reads all of its text, or stops at the first character that may not stand where it
stands. -/
inductive ScanOutcome (before cs : List Char) : Scan → Prop where
  | tiled {ts : List Token} : AllAllowed before cs → Tiles (byteLength before) cs ts →
      ScanOutcome before cs ⟨ts, none⟩
  | stopped {ts : List Token} {as bs : List Char} {c : Char} : cs = as ++ c :: bs →
      AllAllowed before as → ¬ Allowed (before ++ as) c →
        ScanOutcome before cs ⟨ts, some (.unsupportedToken c (byteLength (before ++ as)))⟩

theorem ScanOutcome.append {before as bs : List Char} {s : Scan} (ts : List Token)
    (first : AllAllowed before as)
    (tiles : ∀ {ts'}, Tiles (byteLength (before ++ as)) bs ts' →
      Tiles (byteLength before) (as ++ bs) (ts ++ ts'))
    (h : ScanOutcome (before ++ as) bs s) :
    ScanOutcome before (as ++ bs) ⟨ts ++ s.tokens, s.error⟩ := by
  cases h with
  | tiled rest tiled => exact .tiled (allAllowed_append.mpr ⟨first, rest⟩) (tiles tiled)
  | @stopped ts' as' bs' c e rest stuck =>
    have split : as ++ bs = (as ++ as') ++ c :: bs' := by rw [e, List.append_assoc]
    rw [List.append_assoc] at stuck ⊢
    exact .stopped split (allAllowed_append.mpr ⟨first, rest⟩) stuck

theorem scanFrom_outcome (before : List Char) : ∀ cs : List Char, (∀ c ∈ cs, ¬ Fullwidth c) →
    Boundary before cs → ScanOutcome before cs (scanFrom (byteLength before) cs)
  | [], _, _ => by
    rw [scanFrom]
    exact .tiled (allAllowed_nil before) .nil
  | c :: rest, narrow, boundary => by
    rw [scanFrom]
    split
    next blank =>
      have offset : byteLength before + c.utf8Size = byteLength (before ++ [c]) := by simp
      have narrow := List.forall_mem_cons.mp narrow
      have allowed : AllAllowed before [c] :=
        allAllowed_cons.mpr ⟨allowed_of_blank blank narrow.1, allAllowed_nil _⟩
      rw [offset]
      refine ScanOutcome.append [] allowed (fun tiles => ?_)
        (scanFrom_outcome (before ++ [c]) rest narrow.2
          (boundary_of_last (not_numberPart_of_blank blank) rest))
      rw [← offset] at tiles
      exact .blank blank tiles
    next blank =>
      split
      next none =>
        -- The scan stops here, and the character is not allowed where it stands.
        have stuck := not_allowed_of_lexemeAt blank none boundary
        have stopped :=
          @ScanOutcome.stopped before (c :: rest) [] [] rest c rfl (allAllowed_nil before)
        rw [List.append_nil] at stopped
        exact stopped stuck
      next kind more some =>
        obtain ⟨after, rfl, longest⟩ := longest_of_lexemeAt some
        have offset :
            byteLength before + byteLength (c :: more) = byteLength (before ++ c :: more) :=
          (byteLength_append _ _).symm
        have shorter : after.length < (c :: (more ++ after)).length := by
          rw [List.length_cons, List.length_append]
          omega
        rw [List.drop_left]
        simp only [offset]
        refine ScanOutcome.append [_] (longest.lexeme.allAllowed before) (fun tiles => ?_)
          (scanFrom_outcome (before ++ c :: more) after
            (fun x hx => narrow x (List.mem_cons_of_mem _ (List.mem_append_right _ hx)))
            (longest.boundary before))
        rw [← offset] at tiles ⊢
        exact .lexeme longest tiles
termination_by cs => cs.length

/-! ## What is true of the tokens

By induction on the tiling.  Each of the facts is about one token or about
two, and is the same at any offset. -/

/-- A token is the longest lexeme at its place in a text: its text is written there, its place
counts bytes and begins and ends between two characters, and its kind is that of the lexeme. -/
def Token.StandsIn (cs : List Char) (t : Token) : Prop :=
  ∃ before lexeme after, cs = before ++ (lexeme ++ after) ∧ Longest t.kind lexeme after ∧
    t.text = String.ofList lexeme ∧
      t.span = ⟨byteLength before, byteLength before + byteLength lexeme⟩

/-- Tokens are the longest lexemes of a text, in order, with nothing but blanks around them. -/
structure Tokenization (cs : List Char) (ts : List Token) : Prop where
  stands : ∀ t ∈ ts, t.StandsIn cs
  ascending : ts.Pairwise fun a b => a.span.start < b.span.start ∧ a.span.stop ≤ b.span.start
  nonempty : ∀ t ∈ ts, t.span.start < t.span.stop
  outside : ∀ before c after, cs = before ++ c :: after →
    (∀ t ∈ ts, byteLength before < t.span.start ∨ t.span.stop ≤ byteLength before) → isBlank c
  kinds : ∀ t ∈ ts, t.kind ≠ .eof ∧ t.kind ≠ .illegal

theorem byteLength_pos {cs : List Char} (ne : cs ≠ []) : 0 < byteLength cs := by
  cases cs with
  | nil => exact absurd rfl ne
  | cons c cs =>
    rw [byteLength_cons]
    exact Nat.add_pos_left (Char.utf8Size_pos c) _

namespace Tiles

variable {offset : Nat} {cs : List Char} {ts : List Token}

theorem stands (h : Tiles offset cs ts) (before : List Char) (e : offset = byteLength before) :
    ∀ t ∈ ts, t.StandsIn (before ++ cs) := by
  induction h generalizing before with
  | nil => exact fun _ ht => absurd ht List.not_mem_nil
  | @blank offset c cs ts blank rest ih =>
    have := ih (before ++ [c]) (by simp [e])
    rwa [List.append_assoc] at this
  | @lexeme offset kind cs after ts longest rest ih =>
    subst e
    refine List.forall_mem_cons.mpr ⟨⟨before, cs, after, rfl, longest, rfl, rfl⟩, ?_⟩
    have := ih (before ++ cs) (byteLength_append _ _).symm
    rwa [List.append_assoc] at this

theorem le_start (h : Tiles offset cs ts) : ∀ t ∈ ts, offset ≤ t.span.start := by
  induction h with
  | nil => exact fun _ ht => absurd ht List.not_mem_nil
  | blank _ _ ih => exact fun t ht => Nat.le_trans (Nat.le_add_right _ _) (ih t ht)
  | lexeme _ _ ih =>
    exact List.forall_mem_cons.mpr ⟨Nat.le_refl _,
      fun t ht => Nat.le_trans (Nat.le_add_right _ _) (ih t ht)⟩

theorem nonempty (h : Tiles offset cs ts) : ∀ t ∈ ts, t.span.start < t.span.stop := by
  induction h with
  | nil => exact fun _ ht => absurd ht List.not_mem_nil
  | blank _ _ ih => exact ih
  | lexeme longest _ ih =>
    exact List.forall_mem_cons.mpr
      ⟨Nat.lt_add_of_pos_right (byteLength_pos longest.lexeme.ne_nil), ih⟩

theorem ascending (h : Tiles offset cs ts) :
    ts.Pairwise fun a b => a.span.start < b.span.start ∧ a.span.stop ≤ b.span.start := by
  induction h with
  | nil => exact .nil
  | blank _ _ ih => exact ih
  | @lexeme offset kind cs after ts longest rest ih =>
    refine .cons (fun t ht => ?_) ih
    have behind := rest.le_start t ht
    exact ⟨Nat.lt_of_lt_of_le (Nat.lt_add_of_pos_right (byteLength_pos longest.lexeme.ne_nil))
      behind, behind⟩

theorem outside (h : Tiles offset cs ts) : ∀ mid c after, cs = mid ++ c :: after →
    (∀ t ∈ ts, offset + byteLength mid < t.span.start ∨ t.span.stop ≤ offset + byteLength mid) →
      isBlank c := by
  induction h with
  | nil => exact fun mid c after e =>
      absurd e.symm (List.append_ne_nil_of_right_ne_nil mid (List.cons_ne_nil _ _))
  | blank blank rest ih =>
    intro mid c after e away
    cases mid with
    | nil =>
      cases e
      exact blank
    | cons d mid =>
      obtain ⟨rfl, tail⟩ := List.cons.inj e
      refine ih mid c after tail ?_
      rwa [byteLength_cons, ← Nat.add_assoc] at away
  | @lexeme offset kind cs behind ts longest rest ih =>
    intro mid c after e away
    rw [List.forall_mem_cons] at away
    rcases List.append_eq_append_iff.mp e with ⟨mid', rfl, tail⟩ | ⟨cs', rfl, tail⟩
    · refine ih mid' c after tail ?_
      rw [byteLength_append, ← Nat.add_assoc] at away
      exact away.2
    · cases cs' with
      | nil =>
        refine ih [] c after tail.symm ?_
        simpa using away.2
      | cons d cs' =>
        -- the place is inside the first token
        have inside := byteLength_pos (List.cons_ne_nil d cs')
        have covered := away.1
        rw [byteLength_append] at covered
        simp only at covered
        omega

theorem tokenization (h : Tiles 0 cs ts) : Tokenization cs ts where
  stands := h.stands [] rfl
  ascending := h.ascending
  nonempty := h.nonempty
  outside := by
    intro before c after e away
    exact h.outside before c after e (by rwa [Nat.zero_add])
  kinds := by
    intro t ht
    obtain ⟨_, _, _, _, longest, _, _⟩ := h.stands [] rfl t ht
    exact longest.lexeme.kind_ne

end Tiles

/-! ## Errors -/

/-- Why a text has no tokens: it is empty, or it holds a fullwidth character, of which the first
is named, or else the first character is named that may not stand where it stands.  Offsets count
bytes. -/
inductive Refused (cs : List Char) : ScanError → Prop where
  | emptyInput : cs = [] → Refused cs .emptyInput
  | unsupportedCharset {as bs : List Char} {c : Char} : cs = as ++ c :: bs →
      (∀ x ∈ as, ¬ Fullwidth x) → Fullwidth c →
        Refused cs (.unsupportedCharset c (byteLength as))
  | unsupportedToken {as bs : List Char} {c : Char} : cs = as ++ c :: bs →
      (∀ x ∈ cs, ¬ Fullwidth x) → AllAllowed [] as → ¬ Allowed as c →
        Refused cs (.unsupportedToken c (byteLength as))

/-- Either no character is fullwidth, or there is a first one. -/
theorem findFullwidth_outcome (offset : Nat) (cs : List Char) :
    (∀ x ∈ cs, ¬ Fullwidth x) ∧ findFullwidth offset cs = none ∨
      ∃ as c bs, cs = as ++ c :: bs ∧ (∀ x ∈ as, ¬ Fullwidth x) ∧ Fullwidth c ∧
        findFullwidth offset cs = some (.unsupportedCharset c (offset + byteLength as)) := by
  induction cs generalizing offset with
  | nil => exact .inl ⟨fun _ h => absurd h List.not_mem_nil, rfl⟩
  | cons c cs ih =>
    by_cases wide : Fullwidth c
    · exact .inr ⟨[], c, cs, rfl, fun _ h => absurd h List.not_mem_nil, wide,
      if_pos ((isFullwidth_iff c).mpr wide)⟩
    · rw [findFullwidth, if_neg (mt (isFullwidth_iff c).mp wide)]
      rcases ih (offset + c.utf8Size) with ⟨narrow, none⟩ | ⟨as, d, bs, rfl, narrow, wide', some⟩
      · exact .inl ⟨List.forall_mem_cons.mpr ⟨wide, narrow⟩, none⟩
      · refine .inr ⟨c :: as, d, bs, rfl, List.forall_mem_cons.mpr ⟨wide, narrow⟩, wide', ?_⟩
        rw [some, byteLength_cons, Nat.add_assoc]

/-- What a text is read as. -/
inductive TokenizeOutcome (cs : List Char) : Except ScanError (List Token) → Prop where
  | ok {ts : List Token} : cs ≠ [] → AllAllowed [] cs → Tiles 0 cs ts → TokenizeOutcome cs (.ok ts)
  | error {e : ScanError} : Refused cs e → TokenizeOutcome cs (.error e)

theorem tokenize_outcome (source : String) : TokenizeOutcome source.toList (tokenize source) := by
  rw [tokenize, scan, refusal]
  generalize source.toList = cs
  by_cases nonempty : cs = []
  · subst nonempty
    exact .error (.emptyInput rfl)
  · rw [if_neg (by rwa [List.isEmpty_iff])]
    rcases findFullwidth_outcome 0 cs with ⟨narrow, none⟩ | ⟨as, c, bs, rfl, narrow, wide, some⟩
    · rw [none]
      have outcome := scanFrom_outcome [] cs narrow (boundary_nil cs)
      rw [byteLength_nil] at outcome
      dsimp only
      generalize scanFrom 0 cs = scanned at outcome
      cases outcome with
      | tiled allowed tiles => exact .ok nonempty allowed tiles
      | stopped e allowed stuck => exact .error (.unsupportedToken e narrow allowed stuck)
    · rw [some, Nat.zero_add]
      exact .error (.unsupportedCharset rfl narrow wide)

/-- There is one first place of its kind. -/
theorem first_unique {p : List Char → Char → Prop} {as bs as' bs' : List Char} {c c' : Char}
    (e : as ++ c :: bs = as' ++ c' :: bs') (hit : p as c) (hit' : p as' c')
    (first : ∀ xs x ys, as = xs ++ x :: ys → ¬ p xs x)
    (first' : ∀ xs x ys, as' = xs ++ x :: ys → ¬ p xs x) : as = as' ∧ c = c' := by
  rcases List.append_eq_append_iff.mp e with ⟨mid, split, tail⟩ | ⟨mid, split, tail⟩
  · cases mid with
    | nil => exact ⟨(split.trans (List.append_nil _)).symm, (List.cons.inj tail).1⟩
    | cons d mid =>
      obtain ⟨rfl, -⟩ := List.cons.inj tail
      exact absurd hit (first' as c mid split)
  · cases mid with
    | nil => exact ⟨split.trans (List.append_nil _), (List.cons.inj tail).1.symm⟩
    | cons d mid =>
      obtain ⟨rfl, -⟩ := List.cons.inj tail
      exact absurd hit' (first as' c' mid split)

theorem Refused.not_allAllowed {cs : List Char} {e : ScanError} (h : Refused cs e) :
    cs = [] ∨ ¬ AllAllowed [] cs := by
  cases h with
  | emptyInput e => exact .inl e
  | @unsupportedCharset as bs c e _ wide => exact .inr fun all => (all as c bs e).not_fullwidth wide
  | @unsupportedToken as bs c e _ _ stuck => exact .inr fun all => stuck (all as c bs e)

theorem Refused.unique {cs : List Char} {e e' : ScanError} (h : Refused cs e) (h' : Refused cs e') :
    e = e' := by
  have narrow : ∀ {as bs : List Char} {c : Char}, cs = as ++ c :: bs → (∀ x ∈ cs, ¬ Fullwidth x) →
      ¬ Fullwidth c :=
    fun split h => h _ (split ▸ List.mem_append_right _ List.mem_cons_self)
  have ne : ∀ {as bs : List Char} {c : Char}, cs = as ++ c :: bs → cs ≠ [] :=
    fun split e => absurd (split.symm.trans e)
      (List.append_ne_nil_of_right_ne_nil _ (List.cons_ne_nil _ _))
  have noWide : ∀ {as : List Char}, (∀ x ∈ as, ¬ Fullwidth x) →
      ∀ xs x ys, as = xs ++ x :: ys → ¬ Fullwidth x :=
    fun h xs x ys split => h x (split ▸ List.mem_append_right _ List.mem_cons_self)
  cases h with
  | emptyInput empty =>
    cases h' with
    | emptyInput => rfl
    | unsupportedCharset split | unsupportedToken split => exact absurd empty (ne split)
  | unsupportedCharset split before wide =>
    cases h' with
    | emptyInput empty => exact absurd empty (ne split)
    | unsupportedCharset split' before' wide' =>
      obtain ⟨rfl, rfl⟩ := first_unique (p := fun _ x => Fullwidth x)
        (split.symm.trans split') wide wide'
        (noWide before) (noWide before')
      rfl
    | unsupportedToken _ all => exact absurd wide (narrow split all)
  | unsupportedToken split all allowed stuck =>
    cases h' with
    | emptyInput empty => exact absurd empty (ne split)
    | unsupportedCharset split' _ wide => exact absurd wide (narrow split' all)
    | unsupportedToken split' _ allowed' stuck' =>
      obtain ⟨rfl, rfl⟩ := first_unique (p := fun xs x => ¬ Allowed xs x)
        (split.symm.trans split') stuck stuck' (fun xs x ys e => not_not_intro (allowed xs x ys e))
        (fun xs x ys e => not_not_intro (allowed' xs x ys e))
      rfl

/-- A text has tokens exactly if it is not empty and every character may stand where it stands;
then the tokens are its longest lexemes.  An error is reported exactly for the reason that the
text has. -/
theorem tokenize_spec (source : String) :
    ((∃ ts, tokenize source = .ok ts) ↔ source ≠ "" ∧ AllAllowed [] source.toList) ∧
      (∀ ts, tokenize source = .ok ts → Tokenization source.toList ts) ∧
      ∀ e, tokenize source = .error e ↔ Refused source.toList e := by
  have empty : source = "" ↔ source.toList = [] := String.toList_eq_nil_iff.symm
  rw [ne_eq, empty]
  have outcome := tokenize_outcome source
  generalize tokenize source = result, source.toList = cs at outcome
  cases outcome with
  | ok nonempty allowed tiles =>
    refine ⟨⟨fun _ => ⟨nonempty, allowed⟩, fun _ => ⟨_, rfl⟩⟩, ?_, fun e => ⟨?_, fun refused => ?_⟩⟩
    · rintro ts ⟨⟩
      exact tiles.tokenization
    · rintro ⟨⟩
    · exact absurd refused.not_allAllowed (not_or.mpr ⟨nonempty, not_not_intro allowed⟩)
  | @error e refused =>
    refine ⟨⟨?_, ?_⟩, ?_, fun e' => ⟨?_, fun refused' => ?_⟩⟩
    · rintro ⟨ts, ⟨⟩⟩
    · rintro ⟨nonempty, allowed⟩
      exact absurd refused.not_allAllowed (not_or.mpr ⟨nonempty, not_not_intro allowed⟩)
    · rintro ts ⟨⟩
    · rintro ⟨⟩
      exact refused
    · rw [refused.unique refused']

end Arith
