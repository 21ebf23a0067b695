/-
# Tokens are a phrase in one way only

Where an operand ends, its tokens say themselves; where a chain ends, the
token behind it says, as long as that is no operator; and arguments end at
the parenthesis that closes the call.  So two phrases that are written with
the same tokens are the same phrase (`Chain.tokens_injective`), provided
that no argument of theirs starts with `-` directly behind another one:
`F(A -B)` has one argument, not two.

The proof compares two phrases from the left, with whatever is written
behind them.  The first token of an operand tells which kind of operand it
is (`Operand.firstKind`), and behind an operand the tail either goes on with
an operator in both or in neither.
-/
import Arith.Proofs.Grammar.Complete

namespace Arith.Grammar

theorem TokenOf.ext {kind : TokenKind} {a b : TokenOf kind} (same : a.token = b.token) : a = b := by
  obtain ⟨token, e⟩ := a
  obtain ⟨token', e'⟩ := b
  obtain rfl : token = token' := same
  rfl

theorem Sign.ext {a b : Sign} (same : a.token = b.token) : a = b := by
  obtain ⟨token, op, e⟩ := a
  obtain ⟨token', op', e'⟩ := b
  obtain rfl : token = token' := same
  have kinds : op.kind = op'.kind := e.symm.trans e'
  have same := op.ofKind?_kind
  rw [kinds, op'.ofKind?_kind] at same
  cases same
  rfl

def Operand.firstKind : Operand → TokenKind
  | .number _ => .number
  | .negation _ _ => .sub
  | .group _ _ _ => .leftParen
  | .name _ => .variableName
  | .braced _ _ _ => .leftBrace
  | .call _ _ _ _ => .functionName

theorem Operand.firstKind_eq (x : Operand) (r : List Token) :
    ((x.tokens ++ r).head?.map Token.kind) = some x.firstKind := by
  cases x with
  | number digits => exact congrArg some digits.kind_eq
  | negation minus inner => exact congrArg some minus.kind_eq
  | group opening inner closing => exact congrArg some opening.kind_eq
  | name word => exact congrArg some word.kind_eq
  | braced opening word closing => exact congrArg some opening.kind_eq
  | call callee opening inner closing => exact congrArg some callee.kind_eq

theorem Operand.firstKind_of_tokens {x y : Operand} {r r' : List Token}
    (e : x.tokens ++ r = y.tokens ++ r') : x.firstKind = y.firstKind := by
  have := x.firstKind_eq r
  rw [e, y.firstKind_eq] at this
  exact (Option.some.inj this).symm

/-- An operator is not what stands behind a chain. -/
theorem Sign.ne_of_stops {sign : Sign} {r more : List Token} (stops : Stops 1 r) :
    r ≠ sign.token :: more := by
  rintro rfl
  have := stops sign.token rfl sign.operator sign.operator_eq
  exact absurd (Grouping.precedence_pos sign.operator) (Nat.not_le.mpr this)

/-- The first token of a chain closes nothing. -/
theorem Chain.tokens_ne {c : Chain} {t : Token} {r more : List Token}
    (kind : t.kind = .rightParen ∨ t.kind = .comma) : c.tokens ++ r ≠ t :: more := by
  obtain ⟨t', ts, e, starts⟩ := c.exists_tokens
  rw [e]
  intro same
  obtain ⟨rfl, -⟩ := List.cons.inj same
  exact kind.elim starts.ne_closing.1 starts.ne_closing.2.2

mutual

theorem Operand.eq_of_tokens : ∀ (x y : Operand) {r r' : List Token}, x.Separated → y.Separated →
    x.tokens ++ r = y.tokens ++ r' → x = y ∧ r = r'
  | .number digits, y, r, r', _, _, e => by
    have kinds := Operand.firstKind_of_tokens e
    cases y with
    | number digits' =>
      obtain ⟨same, rest⟩ := List.cons.inj e
      exact ⟨congrArg _ (TokenOf.ext same), rest⟩
    | negation | group | name | braced | call => cases kinds
  | .negation minus inner, y, r, r', sep, sep', e => by
    have kinds := Operand.firstKind_of_tokens e
    cases y with
    | negation minus' inner' =>
      obtain ⟨same, rest⟩ := List.cons.inj e
      obtain ⟨rfl, rest₁⟩ := inner.eq_of_tokens inner' sep sep' rest
      rw [TokenOf.ext same]
      exact ⟨rfl, rest₁⟩
    | number | group | name | braced | call => cases kinds
  | .group opening inner closing, y, r, r', sep, sep', e => by
    have kinds := Operand.firstKind_of_tokens e
    cases y with
    | group opening' inner' closing' =>
      simp only [Operand.tokens, List.cons_append, List.append_assoc, List.nil_append] at e
      obtain ⟨same, rest⟩ := List.cons.inj e
      obtain ⟨rfl, rest₁⟩ := inner.eq_of_tokens inner' sep sep' (stops_of_kind closing.kind_eq rfl)
        (stops_of_kind closing'.kind_eq rfl) rest
      obtain ⟨same', rest₂⟩ := List.cons.inj rest₁
      rw [TokenOf.ext same, TokenOf.ext same']
      exact ⟨rfl, rest₂⟩
    | number | negation | name | braced | call => cases kinds
  | .name word, y, r, r', _, _, e => by
    have kinds := Operand.firstKind_of_tokens e
    cases y with
    | name word' =>
      obtain ⟨same, rest⟩ := List.cons.inj e
      exact ⟨congrArg _ (TokenOf.ext same), rest⟩
    | number | negation | group | braced | call => cases kinds
  | .braced opening word closing, y, r, r', _, _, e => by
    have kinds := Operand.firstKind_of_tokens e
    cases y with
    | braced opening' word' closing' =>
      simp only [Operand.tokens, List.cons_append, List.nil_append, List.cons.injEq] at e
      obtain ⟨same, same', same'', rest⟩ := e
      rw [TokenOf.ext same, TokenOf.ext same', TokenOf.ext same'']
      exact ⟨rfl, rest⟩
    | number | negation | group | name | call => cases kinds
  | .call callee opening inner closing, y, r, r', sep, sep', e => by
    have kinds := Operand.firstKind_of_tokens e
    cases y with
    | call callee' opening' inner' closing' =>
      simp only [Operand.tokens, List.cons_append, List.append_assoc, List.nil_append,
        List.cons.injEq] at e
      obtain ⟨same, same', rest⟩ := e
      obtain ⟨rfl, rest₁⟩ := inner.eq_of_tokens inner' closing closing' sep sep' rest
      obtain ⟨same'', rest₂⟩ := List.cons.inj rest₁
      rw [TokenOf.ext same, TokenOf.ext same', TokenOf.ext same'']
      exact ⟨rfl, rest₂⟩
    | number | negation | group | name | braced => cases kinds

theorem Chain.eq_of_tokens : ∀ (c d : Chain) {r r' : List Token}, c.Separated → d.Separated →
    Stops 1 r → Stops 1 r' → c.tokens ++ r = d.tokens ++ r' → c = d ∧ r = r'
  | .mk first more, .mk first' more', r, r', sep, sep', stops, stops', e => by
    rw [Chain.tokens, Chain.tokens, List.append_assoc, List.append_assoc] at e
    obtain ⟨rfl, rest⟩ := first.eq_of_tokens first' sep.1 sep'.1 e
    obtain ⟨rfl, rest₁⟩ := more.eq_of_tokens more' sep.2 sep'.2 stops stops' rest
    exact ⟨rfl, rest₁⟩

theorem Tail.eq_of_tokens : ∀ (m n : Tail) {r r' : List Token}, m.Separated → n.Separated →
    Stops 1 r → Stops 1 r' → m.tokens ++ r = n.tokens ++ r' → m = n ∧ r = r'
  | .nil, .nil, _, _, _, _, _, _, e => ⟨rfl, e⟩
  | .nil, .cons _ _ _, _, _, _, _, stops, _, e => absurd e (Sign.ne_of_stops stops)
  | .cons _ _ _, .nil, _, _, _, _, _, stops', e => absurd e.symm (Sign.ne_of_stops stops')
  | .cons sign x more, .cons sign' x' more', r, r', sep, sep', stops, stops', e => by
    simp only [Tail.tokens, List.cons_append, List.append_assoc, List.cons.injEq] at e
    obtain ⟨same, rest⟩ := e
    obtain ⟨rfl, rest₁⟩ := x.eq_of_tokens x' sep.1 sep'.1 rest
    obtain ⟨rfl, rest₂⟩ := more.eq_of_tokens more' sep.2 sep'.2 stops stops' rest₁
    rw [Sign.ext same]
    exact ⟨rfl, rest₂⟩

theorem Arguments.eq_of_tokens : ∀ (a b : Arguments) (closing closing' : TokenOf .rightParen)
    {behind behind' : Bool} {r r' : List Token}, a.Separated behind → b.Separated behind' →
    a.tokens ++ closing.token :: r = b.tokens ++ closing'.token :: r' →
      a = b ∧ closing.token :: r = closing'.token :: r'
  | .nil, .nil, _, _, _, _, _, _, _, _, e => ⟨rfl, e⟩
  | .nil, .comma comma _, closing, _, _, _, _, _, _, _, e => by
    have same : closing.token = comma.token := (List.cons.inj e).1
    exact absurd (closing.kind_eq.symm.trans (same ▸ comma.kind_eq)) (by decide)
  | .nil, .cons _ _, closing, _, _, _, _, _, _, _, e => by
    rw [Arguments.tokens, Arguments.tokens, List.append_assoc] at e
    exact absurd e.symm (Chain.tokens_ne (.inl closing.kind_eq))
  | .comma comma _, .nil, _, closing', _, _, _, _, _, _, e => by
    have same : comma.token = closing'.token := (List.cons.inj e).1
    exact absurd (comma.kind_eq.symm.trans (same ▸ closing'.kind_eq)) (by decide)
  | .comma comma more, .comma comma' more', closing, closing', _, _, _, _, sep, sep', e => by
    obtain ⟨same, rest⟩ := List.cons.inj e
    obtain ⟨rfl, rest₁⟩ := more.eq_of_tokens more' closing closing' sep sep' rest
    rw [TokenOf.ext same]
    exact ⟨rfl, rest₁⟩
  | .comma comma _, .cons _ _, _, _, _, _, _, _, _, _, e => by
    rw [Arguments.tokens, Arguments.tokens, List.append_assoc] at e
    exact absurd e.symm (Chain.tokens_ne (.inr comma.kind_eq))
  | .cons _ _, .nil, _, closing', _, _, _, _, _, _, e => by
    rw [Arguments.tokens, Arguments.tokens, List.append_assoc] at e
    exact absurd e (Chain.tokens_ne (.inl closing'.kind_eq))
  | .cons _ _, .comma comma _, _, _, _, _, _, _, _, _, e => by
    rw [Arguments.tokens, Arguments.tokens, List.append_assoc] at e
    exact absurd e (Chain.tokens_ne (.inr comma.kind_eq))
  | .cons c more, .cons c' more', closing, closing', _, _, r, r', sep, sep', e => by
    rw [Arguments.tokens, Arguments.tokens, List.append_assoc, List.append_assoc] at e
    -- Where the first argument ends is settled by what follows it, which is no operator.
    obtain ⟨rfl, rest⟩ := c.eq_of_tokens c' sep.2.1 sep'.2.1 (stops_arguments sep.2.2 closing r)
      (stops_arguments sep'.2.2 closing' r') e
    obtain ⟨rfl, rest₁⟩ := more.eq_of_tokens more' closing closing' sep.2.2 sep'.2.2 rest
    exact ⟨rfl, rest₁⟩

end

theorem Chain.tokens_injective {c d : Chain} (sep : c.Separated) (sep' : d.Separated)
    (e : c.tokens = d.tokens) : c = d :=
  (c.eq_of_tokens d sep sep' (stops_nil 1) (stops_nil 1) (congrArg (· ++ []) e)).1

end Arith.Grammar
