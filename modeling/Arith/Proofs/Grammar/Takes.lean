/-
# Reading a phrase without an error

`Takes s tokens size next`: between the states `s` and `next` exactly
`tokens` have been read and `size` nodes have been claimed, no error has
been noted, and as many operands have been left as were entered.
`Fits s size nesting`: so many nodes, in operands that lie so deep inside
each other, are within the limits at `s`.  `Covers` is both, with all names
known.

Soundness of the grammar finds a phrase that is covered behind every reading
without errors, completeness a reading that takes the phrase for every
phrase that fits.

Each of the three is put together along a phrase in the order of its tokens
(`Takes.trans`, `Fits.append`, `Covers.trans`).  Numbers of nodes add up,
and of depths the larger counts; that the nodes that are left behind some
tokens are as many fewer as were claimed is where the three meet.
-/
import Arith.Proofs.Parse.Silent
import Arith.Proofs.Grammar.Phrase

namespace Arith.Grammar

open ParseState

/-- Exactly these tokens have been read, without an error. -/
structure Takes (s : ParseState) (tokens : List Token) (size : Nat) (next : ParseState) : Prop where
  rest : s.cursor.rest = tokens ++ next.cursor.rest
  claimed : next.claimed = s.claimed + size
  depth : next.depth = s.depth
  errors : next.errors = s.errors

/-- So many nodes, so deep inside each other, are within the limits. -/
structure Fits (s : ParseState) (size nesting : Nat) : Prop where
  space : size ≤ nodeLimit - s.claimed
  room : nesting ≤ nestingLimit - s.depth

/-- Exactly these tokens have been read, all names among them are known, and the limits were
kept. -/
structure Covers (scope : Scope) (s : ParseState) (tokens : List Token) (size nesting : Nat)
    (next : ParseState) : Prop extends Takes s tokens size next, Fits s size nesting where
  known : Known scope tokens

/-- No operator of at least this precedence stands first. -/
def Stops (level : Nat) (tokens : List Token) : Prop :=
  ∀ t ∈ tokens.head?, ∀ op, Operator.ofKind? t.kind = some op → op.precedence < level

theorem stops_nil (level : Nat) : Stops level [] := by
  rintro t ⟨⟩

theorem Stops.mono {level level' : Nat} {tokens : List Token} (le : level ≤ level')
    (h : Stops level tokens) : Stops level' tokens :=
  fun t ht op e => Nat.lt_of_lt_of_le (h t ht op e) le

theorem stops_of_kind {level : Nat} {t : Token} {kind : TokenKind} {rest : List Token}
    (h : t.kind = kind) (none : Operator.ofKind? kind = none) : Stops level (t :: rest) := by
  intro t' ht op e
  cases ht
  rw [h, none] at e
  cases e

theorem current_of_rest {s : ParseState} {t : Token} {rest : List Token}
    (h : s.cursor.rest = t :: rest) : s.current = t := by
  rw [current, Cursor.current, h]
  rfl

theorem kind_of_rest {s : ParseState} {t : Token} {rest : List Token}
    (h : s.cursor.rest = t :: rest) : s.kind = t.kind :=
  congrArg Token.kind (current_of_rest h)

theorem stops_rest {level : Nat} {s : ParseState} :
    Stops level s.cursor.rest ↔ ∀ op, s.operator? = some op → op.precedence < level := by
  cases e : s.cursor.rest with
  | nil =>
    have none : s.operator? = none := by
      rw [operator?, ParseState.kind, Cursor.kind, Cursor.current, e]
      rfl
    rw [none]
    constructor
    · rintro _ op ⟨⟩
    · exact fun _ => stops_nil level
  | cons t rest =>
    have same : s.operator? = Operator.ofKind? t.kind := by rw [operator?, ← current_of_rest e]; rfl
    rw [same]
    exact ⟨fun h => h t rfl, fun h _ e' => Option.some.inj e' ▸ h⟩

theorem stops_one {s : ParseState} : Stops 1 s.cursor.rest ↔ s.operator? = none := by
  rw [stops_rest, Option.eq_none_iff_forall_not_mem]
  exact forall₂_congr fun op _ => Grouping.precedence_lt_one op

/-- A tail starts with the operator at the cursor. -/
theorem operator?_of_tail {scope : Scope} {s : ParseState} {m : Tail} {rest : List Token}
    (h : s.cursor.rest = m.tokens ++ rest) :
    ∀ p ∈ (m.operands scope).head?, s.operator? = some p.1 := by
  intro p hp
  cases m with
  | nil => cases hp
  | cons sign operand more =>
    cases hp
    rw [operator?, ParseState.kind, Cursor.kind]
    exact (congrArg (fun t => Operator.ofKind? t.kind) (current_of_rest h)).trans sign.operator_eq

/-! ## Taking -/

theorem fst_readNumber (s : ParseState) :
    s.readNumber.1 = .number (numberOf s.current.text) := by
  unfold ParseState.readNumber numberOf
  cases readFloat s.current.text.toList <;> rfl

namespace Takes

variable {s t u : ParseState} {as bs : List Token} {m n : Nat}

theorem refl (s : ParseState) : Takes s [] 0 s := ⟨rfl, rfl, rfl, rfl⟩

theorem trans (h : Takes s as m t) (h' : Takes t bs n u) : Takes s (as ++ bs) (m + n) u where
  rest := by rw [h.rest, h'.rest, List.append_assoc]
  claimed := by rw [h'.claimed, h.claimed, Nat.add_assoc]
  depth := h'.depth.trans h.depth
  errors := h'.errors.trans h.errors

theorem claim (s : ParseState) (count : Nat) :
    Takes s [] count (s.claim count) := ⟨rfl, rfl, rfl, rfl⟩

theorem advance (pos : 0 < s.remaining) : Takes s [s.current] 0 s.advance := by
  refine ⟨?_, rfl, rfl, rfl⟩
  obtain ⟨⟨position, rest, stop⟩, _, _, _⟩ := s
  cases rest
  · exact absurd pos (Nat.lt_irrefl 0)
  · rfl

theorem readNumber (pos : 0 < s.remaining) :
    Takes s [s.current] 0 s.readNumber.2 := by
  unfold ParseState.readNumber
  split
  · exact .advance pos
  · obtain ⟨rest, claimed, depth, errors⟩ := advance pos
    exact ⟨rest, claimed, depth,
      by simp [ParseState.errors, ParseState.advance, note, Journal.errors, Journal.note,
        Note.error?]⟩

theorem leave (h : Takes s.enter as n t) : Takes s as n t.leave :=
  ⟨h.rest, h.claimed, by rw [ParseState.leave, h.depth]; rfl, h.errors⟩

end Takes

/-! ## Keeping the limits -/

namespace Fits

variable {s t : ParseState} {as : List Token} {m n k l : Nat}

theorem zero (s : ParseState) : Fits s 0 0 := ⟨Nat.zero_le _, Nat.zero_le _⟩

theorem mono (h : Fits s n l) (le : m ≤ n) (le' : k ≤ l) : Fits s m k :=
  ⟨Nat.le_trans le h.space, Nat.le_trans le' h.room⟩

/-- What follows tokens that have been read must fit behind them. -/
theorem append (h : Fits s m k) (took : Takes s as m t) (h' : Fits t n l) :
    Fits s (m + n) (max k l) := by
  have space := h.space
  have space' := h'.space
  have room := h'.room
  rw [took.claimed] at space'
  rw [took.depth] at room
  exact ⟨by omega, Nat.max_le.mpr ⟨h.room, room⟩⟩

/-- What fits may be read in two parts. -/
theorem behind (h : Fits s (m + n) k) (took : Takes s as m t) : Fits t n k := by
  have space := h.space
  refine ⟨?_, by rw [took.depth]; exact h.room⟩
  rw [took.claimed]
  omega

/-- Tokens without a node take nothing away. -/
theorem past (h : Fits s n k) (took : Takes s as 0 t) : Fits t n k := by
  rw [← Nat.zero_add n] at h
  exact h.behind took

theorem not_tooLarge (h : Fits s n k) (le : m ≤ n) (pos : 0 < n) : ¬ s.tooLarge m := by
  have space := h.space
  rw [tooLarge, decide_eq_true_eq]
  omega

theorem not_tooDeep (h : Fits s n (k + 1)) : ¬ s.tooDeep := by
  have room := h.room
  rw [tooDeep, decide_eq_true_eq]
  omega

theorem enter (h : Fits s n (k + 1)) : Fits s.enter n k := by
  have room := h.room
  refine ⟨h.space, ?_⟩
  show k ≤ nestingLimit - (s.depth + 1)
  omega

end Fits

/-! ## Covering -/

namespace Covers

variable {scope : Scope} {s t u : ParseState} {as bs : List Token} {m n k l : Nat}

theorem refl (scope : Scope) (s : ParseState) : Covers scope s [] 0 0 s :=
  ⟨.refl s, .zero s, known_nil⟩

theorem trans (h : Covers scope s as m k t) (h' : Covers scope t bs n l u) :
    Covers scope s (as ++ bs) (m + n) (max k l) u :=
  ⟨h.toTakes.trans h'.toTakes, h.toFits.append h.toTakes h'.toFits,
    known_append.mpr ⟨h.known, h'.known⟩⟩

theorem congr (h : Covers scope s as m k t) (tokens : as = bs) (size : m = n) (nesting : k = l) :
    Covers scope s bs n l t := by
  rw [← tokens, ← size, ← nesting]
  exact h

theorem claim {count : Nat} (large : ¬ s.tooLarge count) :
    Covers scope s [] count 0 (s.claim count) := by
  rw [tooLarge, decide_eq_true_eq] at large
  exact ⟨.claim s count, ⟨by omega, Nat.zero_le _⟩, known_nil⟩

theorem advance (pos : 0 < s.remaining) (known : Known scope [s.current]) :
    Covers scope s [s.current] 0 0 s.advance :=
  ⟨.advance pos, .zero s, known⟩

/-- Moving past a token that is no name. -/
theorem plain {kind : TokenKind} (h : s.kind = kind)
    (plain : kind ≠ .eof ∧ kind ≠ .variableName ∧ kind ≠ .functionName) :
    Covers scope s [s.current] 0 0 s.advance :=
  advance (remaining_pos (by rw [h]; exact plain.1)) (known_of_kind h plain.2)

theorem operator {op : Operator} (h : s.operator? = some op) :
    Covers scope s [s.current] 0 0 s.advance := by
  have plain : s.kind ≠ .variableName ∧ s.kind ≠ .functionName := by
    refine ⟨?_, ?_⟩ <;>
    · intro e
      rw [operator?, e] at h
      cases h
  exact advance (remaining_pos_of_operator h) (known_of_kind rfl plain)

/-- An operand lies one deeper than what is inside. -/
theorem leave (deep : ¬ s.tooDeep) (h : Covers scope s.enter as n k t) :
    Covers scope s as n (k + 1) t.leave := by
  have room : k ≤ nestingLimit - (s.depth + 1) := h.room
  rw [tooDeep, decide_eq_true_eq] at deep
  exact ⟨h.toTakes.leave, ⟨h.space, by omega⟩, h.known⟩

end Covers

end Arith.Grammar
