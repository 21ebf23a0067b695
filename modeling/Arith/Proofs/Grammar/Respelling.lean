/-
# Phrases that are written otherwise

Exponentiation has two spellings, braces around a variable may be left out,
and between the arguments of a call there may be more commas than are
needed, or none.  Every rule below is one such respelling at one place of a
phrase, and `Change` says what it does to the tokens: which of them go,
which come, and what is written in their stead.

    `A ** B`     `A ^ B`        and back        (`power`)
    `A`          `{A}`          and back        (`brace`, `unbrace`)
    `f(A B)`     `f(A, B)`      and back        (`insertComma`, `blankForComma`)
    `f(A, B)`    `f(A,, B)`     and back        (`insertComma`, `removeComma`)

The rules are one relation between two phrases and a change, with a rule for
each respelling where it happens, and one for each place of a phrase that
leads further in.  So whatever is said of respelled phrases is proved by one
recursion over the relation, for operands, chains, tails and arguments
together.

A respelled phrase stands for the same tree and is nested as deep
(`Chain.Respelled.tree_eq`, `Chain.Respelled.nesting_eq`).  It is also
separated: where a comma goes from between two arguments, the second must
not start with `-`.  So what was accepted is accepted with the same tree
(`Accepted.respelled`).  The number of nodes needs no lemma of its own,
since it is a property of the tree.
-/
import Arith.Proofs.Grammar.Exact
import Arith.Proofs.Grammar.Unambiguous

namespace Arith.Grammar

/-! ## Changes

A token that comes has no place in the text yet; where it will stand is
settled when the new text is scanned. -/

/-- A comma that is written anew, wherever it comes to stand. -/
def newComma : TokenOf .comma := ⟨⟨.comma, ",", .point 0⟩, rfl⟩

def newLeftBrace : TokenOf .leftBrace := ⟨⟨.leftBrace, "\x7b", .point 0⟩, rfl⟩

def newRightBrace : TokenOf .rightBrace := ⟨⟨.rightBrace, "\x7d", .point 0⟩, rfl⟩

/-- The sign of exponentiation that is written anew. -/
def newPower (double : Bool) : Sign :=
  ⟨⟨.pow, if double then "**" else "^", .point 0⟩, .pow, rfl⟩

/-- What is written instead of some tokens. -/
inductive Respelling where
  /-- `**` or `^` instead of a sign. -/
  | power (sign : Sign) (double : Bool)
  /-- `{NAME}` instead of a name. -/
  | brace (word : TokenOf .variableName)
  /-- ` NAME ` instead of a name in braces. -/
  | unbrace (opening : TokenOf .leftBrace) (word : TokenOf .variableName)
      (closing : TokenOf .rightBrace)
  /-- A comma where there was nothing. -/
  | insertComma
  /-- Nothing where there was a comma. -/
  | removeComma (comma : TokenOf .comma)
  /-- A blank where there was a comma. -/
  | blankForComma (comma : TokenOf .comma)

namespace Respelling

/-- The tokens that go. -/
def old : Respelling → List Token
  | power sign _ => [sign.token]
  | brace word => [word.token]
  | unbrace opening word closing => [opening.token, word.token, closing.token]
  | insertComma => []
  | removeComma comma | blankForComma comma => [comma.token]

/-- The tokens that come. -/
def new : Respelling → List Token
  | power _ double => [(newPower double).token]
  | brace word => [newLeftBrace.token, word.token, newRightBrace.token]
  | unbrace _ word _ => [word.token]
  | insertComma => [newComma.token]
  | removeComma _ | blankForComma _ => []

/-- What is written for the tokens that come. -/
def text : Respelling → List Char
  | power _ double => if double then ['*', '*'] else ['^']
  | brace word => '{' :: (word.token.text.toList ++ ['}'])
  | unbrace _ word _ => ' ' :: (word.token.text.toList ++ [' '])
  | insertComma => [',']
  | removeComma _ => []
  | blankForComma _ => [' ']

/-- A name that comes was there before. -/
theorem known {scope : Scope} (r : Respelling) (h : Known scope r.old) : Known scope r.new := by
  cases r with
  | power _ double => exact @known_of_kind scope _ .pow rfl (by decide)
  | insertComma => exact known_of_kind newComma.kind_eq (by decide)
  | brace word =>
    exact known_cons.mpr ⟨known_of_kind newLeftBrace.kind_eq (by decide),
      known_cons.mpr ⟨h, known_of_kind newRightBrace.kind_eq (by decide)⟩⟩
  | unbrace opening word closing => exact (known_cons.mp (known_cons.mp h).2).1
  | removeComma | blankForComma => exact known_nil

end Respelling

/-- A respelling among other tokens. -/
structure Change where
  before : List Token
  respelling : Respelling
  behind : List Token

namespace Change

/-- The same change, with more tokens in front of it and behind it. -/
def within (d : Change) (front back : List Token) : Change :=
  ⟨front ++ d.before, d.respelling, d.behind ++ back⟩

/-- The tokens before the change. -/
def source (d : Change) : List Token := d.before ++ (d.respelling.old ++ d.behind)

/-- The tokens after the change. -/
def target (d : Change) : List Token := d.before ++ (d.respelling.new ++ d.behind)

variable (d : Change) (front back : List Token)

theorem source_within : (d.within front back).source = front ++ (d.source ++ back) := by
  simp only [within, source, List.append_assoc]

theorem target_within : (d.within front back).target = front ++ (d.target ++ back) := by
  simp only [within, target, List.append_assoc]

theorem within_within (front' back' : List Token) :
    (d.within front back).within front' back' = d.within (front' ++ front) (back ++ back') := by
  simp only [within, List.append_assoc]

/-- What stands in front may be put there last. -/
theorem within_comm :
    (d.within front []).within [] back = (d.within [] back).within front [] := by
  simp only [within, List.nil_append, List.append_nil]

end Change

/-! ## Phrases

The rules without a docstring lead into a part, and say where the change
stands in the whole. -/

mutual

/-- An operand that is respelled at one place. -/
inductive Operand.Respelled : Operand → Operand → Change → Prop where
  | brace (word : TokenOf .variableName) :
    Operand.Respelled (.name word) (.braced newLeftBrace word newRightBrace) ⟨[], .brace word, []⟩
  | unbrace (opening : TokenOf .leftBrace) (word : TokenOf .variableName)
      (closing : TokenOf .rightBrace) :
    Operand.Respelled (.braced opening word closing) (.name word)
      ⟨[], .unbrace opening word closing, []⟩
  /-- A comma comes behind the opening parenthesis of a call. -/
  | insertFirst (callee : TokenOf .functionName) (opening : TokenOf .leftParen) (inner : Arguments)
      (closing : TokenOf .rightParen) :
    Operand.Respelled (.call callee opening inner closing)
      (.call callee opening (.comma newComma inner) closing)
      ⟨[callee.token, opening.token], .insertComma, inner.tokens ++ [closing.token]⟩
  /-- A comma goes from behind the opening parenthesis of a call. -/
  | removeFirst (callee : TokenOf .functionName) (opening : TokenOf .leftParen)
      (comma : TokenOf .comma) (inner : Arguments) (closing : TokenOf .rightParen) :
    Operand.Respelled (.call callee opening (.comma comma inner) closing)
      (.call callee opening inner closing)
      ⟨[callee.token, opening.token], .removeComma comma, inner.tokens ++ [closing.token]⟩
  | negation (minus : TokenOf .sub) {inner inner' : Operand} {d : Change} :
    inner.Respelled inner' d →
      Operand.Respelled (.negation minus inner) (.negation minus inner') (d.within [minus.token] [])
  | group (opening : TokenOf .leftParen) (closing : TokenOf .rightParen) {inner inner' : Chain}
      {d : Change} : inner.Respelled inner' d →
    Operand.Respelled (.group opening inner closing) (.group opening inner' closing)
      (d.within [opening.token] [closing.token])
  | call (callee : TokenOf .functionName) (opening : TokenOf .leftParen)
      (closing : TokenOf .rightParen) {inner inner' : Arguments} {d : Change} :
    inner.Respelled inner' d →
      Operand.Respelled (.call callee opening inner closing) (.call callee opening inner' closing)
        (d.within [callee.token, opening.token] [closing.token])

inductive Chain.Respelled : Chain → Chain → Change → Prop where
  | first {first first' : Operand} {d : Change} (more : Tail) : first.Respelled first' d →
    Chain.Respelled (.mk first more) (.mk first' more) (d.within [] more.tokens)
  | more (first : Operand) {more more' : Tail} {d : Change} : more.Respelled more' d →
    Chain.Respelled (.mk first more) (.mk first more') (d.within first.tokens [])

inductive Tail.Respelled : Tail → Tail → Change → Prop where
  | power {sign : Sign} (is_pow : sign.operator = .pow) (double : Bool) (operand : Operand)
      (more : Tail) :
    Tail.Respelled (.cons sign operand more) (.cons (newPower double) operand more)
      ⟨[], .power sign double, operand.tokens ++ more.tokens⟩
  | operand (sign : Sign) {operand operand' : Operand} {d : Change} (more : Tail) :
    operand.Respelled operand' d →
      Tail.Respelled (.cons sign operand more) (.cons sign operand' more)
        (d.within [sign.token] more.tokens)
  | more (sign : Sign) (operand : Operand) {more more' : Tail} {d : Change} :
    more.Respelled more' d →
      Tail.Respelled (.cons sign operand more) (.cons sign operand more')
        (d.within (sign.token :: operand.tokens) [])

inductive Arguments.Respelled : Arguments → Arguments → Change → Prop where
  /-- A comma comes before the closing parenthesis. -/
  | insertLast : Arguments.Respelled .nil (.comma newComma .nil) ⟨[], .insertComma, []⟩
  /-- A comma goes from before the closing parenthesis. -/
  | removeLast (comma : TokenOf .comma) :
    Arguments.Respelled (.comma comma .nil) .nil ⟨[], .removeComma comma, []⟩
  | insertBefore (comma : TokenOf .comma) (more : Arguments) :
    Arguments.Respelled (.comma comma more) (.comma newComma (.comma comma more))
      ⟨[], .insertComma, comma.token :: more.tokens⟩
  | insertBehind (comma : TokenOf .comma) (more : Arguments) :
    Arguments.Respelled (.comma comma more) (.comma comma (.comma newComma more))
      ⟨[comma.token], .insertComma, more.tokens⟩
  /-- A comma goes from before another one. -/
  | removeBefore (comma other : TokenOf .comma) (more : Arguments) :
    Arguments.Respelled (.comma comma (.comma other more)) (.comma other more)
      ⟨[], .removeComma comma, other.token :: more.tokens⟩
  /-- A comma goes from behind another one. -/
  | removeBehind (other comma : TokenOf .comma) (more : Arguments) :
    Arguments.Respelled (.comma other (.comma comma more)) (.comma other more)
      ⟨[other.token], .removeComma comma, more.tokens⟩
  /-- A comma comes between two arguments that have none. -/
  | insertBetween (first second : Chain) (more : Arguments) :
    Arguments.Respelled (.cons first (.cons second more))
      (.cons first (.comma newComma (.cons second more)))
      ⟨first.tokens, .insertComma, second.tokens ++ more.tokens⟩
  /-- The only comma between two arguments gives way to a blank. -/
  | blankBetween (first : Chain) (comma : TokenOf .comma) (second : Chain) (more : Arguments)
      (plain : NoMinus second.tokens) :
    Arguments.Respelled (.cons first (.comma comma (.cons second more)))
      (.cons first (.cons second more))
      ⟨first.tokens, .blankForComma comma, second.tokens ++ more.tokens⟩
  | comma (comma : TokenOf .comma) {more more' : Arguments} {d : Change} : more.Respelled more' d →
    Arguments.Respelled (.comma comma more) (.comma comma more') (d.within [comma.token] [])
  | first {first first' : Chain} {d : Change} (more : Arguments) : first.Respelled first' d →
    Arguments.Respelled (.cons first more) (.cons first' more) (d.within [] more.tokens)
  | more (first : Chain) {more more' : Arguments} {d : Change} : more.Respelled more' d →
    Arguments.Respelled (.cons first more) (.cons first more') (d.within first.tokens [])

end

/-! ## Tokens -/

mutual

theorem Operand.Respelled.tokens_eq : ∀ {x x' : Operand} {d : Change}, x.Respelled x' d →
    x.tokens = d.source ∧ x'.tokens = d.target
  | _, _, _, .brace _ | _, _, _, .unbrace _ _ _ => ⟨rfl, rfl⟩
  | _, _, _, .insertFirst _ _ _ _ | _, _, _, .removeFirst _ _ _ _ _ => ⟨rfl, rfl⟩
  | _, _, _, .negation minus h => by
    obtain ⟨source, target⟩ := h.tokens_eq
    simp only [Operand.tokens, Change.source_within, Change.target_within, source, target,
      List.cons_append, List.nil_append, List.append_nil, and_self]
  | _, _, _, .group opening closing h => by
    obtain ⟨source, target⟩ := h.tokens_eq
    simp only [Operand.tokens, Change.source_within, Change.target_within, source, target,
      List.cons_append, List.nil_append, and_self]
  | _, _, _, .call callee opening closing h => by
    obtain ⟨source, target⟩ := h.tokens_eq
    simp only [Operand.tokens, Change.source_within, Change.target_within, source, target,
      List.cons_append, List.nil_append, and_self]

theorem Chain.Respelled.tokens_eq : ∀ {c c' : Chain} {d : Change}, c.Respelled c' d →
    c.tokens = d.source ∧ c'.tokens = d.target
  | _, _, _, .first more h => by
    obtain ⟨source, target⟩ := h.tokens_eq
    simp only [Chain.tokens, Change.source_within, Change.target_within, source, target,
      List.nil_append, and_self]
  | _, _, _, .more first h => by
    obtain ⟨source, target⟩ := h.tokens_eq
    simp only [Chain.tokens, Change.source_within, Change.target_within, source, target,
      List.append_nil, and_self]

theorem Tail.Respelled.tokens_eq : ∀ {m m' : Tail} {d : Change}, m.Respelled m' d →
    m.tokens = d.source ∧ m'.tokens = d.target
  | _, _, _, .power _ _ _ _ => ⟨rfl, rfl⟩
  | _, _, _, .operand sign more h => by
    obtain ⟨source, target⟩ := h.tokens_eq
    simp only [Tail.tokens, Change.source_within, Change.target_within, source, target,
      List.cons_append, List.nil_append, and_self]
  | _, _, _, .more sign operand h => by
    obtain ⟨source, target⟩ := h.tokens_eq
    simp only [Tail.tokens, Change.source_within, Change.target_within, source, target,
      List.cons_append, List.append_nil, and_self]

theorem Arguments.Respelled.tokens_eq : ∀ {a a' : Arguments} {d : Change}, a.Respelled a' d →
    a.tokens = d.source ∧ a'.tokens = d.target
  | _, _, _, .insertLast | _, _, _, .removeLast _ | _, _, _, .insertBefore _ _
  | _, _, _, .insertBehind _ _ | _, _, _, .removeBefore _ _ _ | _, _, _, .removeBehind _ _ _
  | _, _, _, .insertBetween _ _ _ | _, _, _, .blankBetween _ _ _ _ _ => ⟨rfl, rfl⟩
  | _, _, _, .comma comma h => by
    obtain ⟨source, target⟩ := h.tokens_eq
    simp only [Arguments.tokens, Change.source_within, Change.target_within, source, target,
      List.cons_append, List.nil_append, List.append_nil, and_self]
  | _, _, _, .first more h => by
    obtain ⟨source, target⟩ := h.tokens_eq
    simp only [Arguments.tokens, Change.source_within, Change.target_within, source, target,
      List.nil_append, and_self]
  | _, _, _, .more first h => by
    obtain ⟨source, target⟩ := h.tokens_eq
    simp only [Arguments.tokens, Change.source_within, Change.target_within, source, target,
      List.append_nil, and_self]

end

/-! ## Trees

A power stands for the same operator in both spellings, and a comma stands
for nothing. -/

mutual

/-- What is respelled stands for the same. -/
theorem Operand.Respelled.tree_eq (scope : Scope) : ∀ {x x' : Operand} {d : Change},
    x.Respelled x' d → x'.tree scope = x.tree scope
  | _, _, _, .brace _ | _, _, _, .unbrace _ _ _ => rfl
  | _, _, _, .insertFirst _ _ _ _ | _, _, _, .removeFirst _ _ _ _ _ => rfl
  | _, _, _, .negation _ h => by rw [Operand.tree, Operand.tree, h.tree_eq scope]
  | _, _, _, .group _ _ h => by rw [Operand.tree, Operand.tree, h.tree_eq scope]
  | _, _, _, .call _ _ _ h => by rw [Operand.tree, Operand.tree, h.trees_eq scope]

theorem Chain.Respelled.tree_eq (scope : Scope) : ∀ {c c' : Chain} {d : Change},
    c.Respelled c' d → c'.tree scope = c.tree scope
  | _, _, _, .first _ h => by rw [Chain.tree, Chain.tree, h.tree_eq scope]
  | _, _, _, .more _ h => by rw [Chain.tree, Chain.tree, h.operands_eq scope]

theorem Tail.Respelled.operands_eq (scope : Scope) : ∀ {m m' : Tail} {d : Change},
    m.Respelled m' d → m'.operands scope = m.operands scope
  | _, _, _, .power is_pow _ _ _ => by
    rw [Tail.operands, Tail.operands, is_pow]
    rfl
  | _, _, _, .operand _ _ h => by rw [Tail.operands, Tail.operands, h.tree_eq scope]
  | _, _, _, .more _ _ h => by rw [Tail.operands, Tail.operands, h.operands_eq scope]

theorem Arguments.Respelled.trees_eq (scope : Scope) : ∀ {a a' : Arguments} {d : Change},
    a.Respelled a' d → a'.trees scope = a.trees scope
  | _, _, _, .insertLast | _, _, _, .removeLast _ | _, _, _, .insertBefore _ _
  | _, _, _, .insertBehind _ _ | _, _, _, .removeBefore _ _ _ | _, _, _, .removeBehind _ _ _
  | _, _, _, .insertBetween _ _ _ | _, _, _, .blankBetween _ _ _ _ _ => rfl
  | _, _, _, .comma _ h => by rw [Arguments.trees, Arguments.trees, h.trees_eq scope]
  | _, _, _, .first _ h => by rw [Arguments.trees, Arguments.trees, h.tree_eq scope]
  | _, _, _, .more _ h => by rw [Arguments.trees, Arguments.trees, h.trees_eq scope]

end

/-! ## Nesting

Neither spelling of a power ends a run of powers, and the depth of arguments
is that of the deepest one. -/

mutual

theorem Operand.Respelled.nesting_eq : ∀ {x x' : Operand} {d : Change}, x.Respelled x' d →
    x'.nesting = x.nesting
  | _, _, _, .brace _ | _, _, _, .unbrace _ _ _ => rfl
  | _, _, _, .insertFirst _ _ _ _ | _, _, _, .removeFirst _ _ _ _ _ => rfl
  | _, _, _, .negation _ h => by rw [Operand.nesting, Operand.nesting, h.nesting_eq]
  | _, _, _, .group _ _ h => by rw [Operand.nesting, Operand.nesting, h.nesting_eq]
  | _, _, _, .call _ _ _ h => by rw [Operand.nesting, Operand.nesting, h.nesting_eq]

theorem Chain.Respelled.nesting_eq : ∀ {c c' : Chain} {d : Change}, c.Respelled c' d →
    c'.nesting = c.nesting
  | _, _, _, .first _ h => by rw [Chain.nesting, Chain.nesting, h.nesting_eq]
  | _, _, _, .more _ h => by rw [Chain.nesting, Chain.nesting, h.nesting_eq]

theorem Tail.Respelled.nesting_eq : ∀ {m m' : Tail} {d : Change} {run : Nat}, m.Respelled m' d →
    m'.nesting run = m.nesting run
  | _, _, _, _, .power is_pow _ _ _ => by
    rw [Tail.nesting_cons_pow is_pow, Tail.nesting_cons_pow rfl]
  | _, _, _, _, .operand _ _ h => by rw [Tail.nesting, Tail.nesting, h.nesting_eq]
  | _, _, _, _, .more _ _ h => by rw [Tail.nesting, Tail.nesting, h.nesting_eq, h.nesting_eq]

theorem Arguments.Respelled.nesting_eq : ∀ {a a' : Arguments} {d : Change}, a.Respelled a' d →
    a'.nesting = a.nesting
  | _, _, _, .insertLast | _, _, _, .removeLast _ | _, _, _, .insertBefore _ _
  | _, _, _, .insertBehind _ _ | _, _, _, .removeBefore _ _ _ | _, _, _, .removeBehind _ _ _
  | _, _, _, .insertBetween _ _ _ | _, _, _, .blankBetween _ _ _ _ _ => rfl
  | _, _, _, .comma _ h => by rw [Arguments.nesting, Arguments.nesting, h.nesting_eq]
  | _, _, _, .first _ h => by rw [Arguments.nesting, Arguments.nesting, h.nesting_eq]
  | _, _, _, .more _ h => by rw [Arguments.nesting, Arguments.nesting, h.nesting_eq]

end

/-! ## Separation

A phrase is separated if no argument that starts with a minus follows
another one without a comma.  Only the rules that take commas away can break
this, and they say what keeps it. -/

theorem Operand.noMinus_iff (x : Operand) (more : List Token) :
    NoMinus (x.tokens ++ more) ↔ x.firstKind ≠ .sub := by
  have kind := x.firstKind_eq more
  rw [Option.map_eq_some_iff] at kind
  obtain ⟨t, head, kind⟩ := kind
  rw [NoMinus, head, ← kind]
  simp only [Option.mem_some_iff, forall_eq']

/-- What starts without a sign is respelled without one. -/
theorem Operand.Respelled.firstKind_ne {x x' : Operand} {d : Change} (h : x.Respelled x' d)
    (plain : x.firstKind ≠ .sub) : x'.firstKind ≠ .sub := by
  cases h with
  | brace | unbrace => exact TokenKind.noConfusion
  | insertFirst | removeFirst | negation | group | call => exact plain

theorem Chain.Respelled.noMinus {c c' : Chain} {d : Change} (h : c.Respelled c' d)
    (plain : NoMinus c.tokens) : NoMinus c'.tokens := by
  cases h with
  | first more h =>
    rw [Chain.tokens, Operand.noMinus_iff] at plain ⊢
    exact h.firstKind_ne plain
  | more first h =>
    rw [Chain.tokens, Operand.noMinus_iff] at plain ⊢
    exact plain

mutual

theorem Operand.Respelled.separated : ∀ {x x' : Operand} {d : Change}, x.Respelled x' d →
    x.Separated → x'.Separated
  | _, _, _, .brace _, _ | _, _, _, .unbrace _ _ _, _ => trivial
  | _, _, _, .insertFirst _ _ _ _, sep | _, _, _, .removeFirst _ _ _ _ _, sep => sep
  | _, _, _, .negation _ h, sep => by
    rw [Operand.Separated] at sep ⊢
    exact h.separated sep
  | _, _, _, .group _ _ h, sep => by
    rw [Operand.Separated] at sep ⊢
    exact h.separated sep
  | _, _, _, .call _ _ _ h, sep => by
    rw [Operand.Separated] at sep ⊢
    exact h.separated sep

theorem Chain.Respelled.separated : ∀ {c c' : Chain} {d : Change}, c.Respelled c' d →
    c.Separated → c'.Separated
  | _, _, _, .first _ h, sep => ⟨h.separated sep.1, sep.2⟩
  | _, _, _, .more _ h, sep => ⟨sep.1, h.separated sep.2⟩

theorem Tail.Respelled.separated : ∀ {m m' : Tail} {d : Change}, m.Respelled m' d →
    m.Separated → m'.Separated
  | _, _, _, .power _ _ _ _, sep => sep
  | _, _, _, .operand _ _ h, sep => ⟨h.separated sep.1, sep.2⟩
  | _, _, _, .more _ _ h, sep => ⟨sep.1, h.separated sep.2⟩

theorem Arguments.Respelled.separated : ∀ {a a' : Arguments} {d : Change} {behind : Bool},
    a.Respelled a' d → a.Separated behind → a'.Separated behind
  | _, _, _, _, .insertLast, _ | _, _, _, _, .removeLast _, _ => trivial
  | _, _, _, _, .insertBefore _ _, sep | _, _, _, _, .insertBehind _ _, sep
  | _, _, _, _, .removeBefore _ _ _, sep | _, _, _, _, .removeBehind _ _ _, sep => sep
  | _, _, _, _, .insertBetween _ _ _, ⟨start, first, _, second⟩ =>
    ⟨start, first, fun h => absurd h Bool.false_ne_true, second⟩
  | _, _, _, _, .blankBetween _ _ _ _ plain, ⟨start, first, _, second⟩ =>
    ⟨start, first, fun _ => plain, second⟩
  | _, _, _, _, .comma _ h, sep => by
    rw [Arguments.Separated] at sep ⊢
    exact h.separated sep
  | _, _, _, _, .first _ h, ⟨start, first, more⟩ =>
    ⟨fun behind => h.noMinus (start behind), h.separated first, more⟩
  | _, _, _, _, .more _ h, ⟨start, first, more⟩ => ⟨start, first, h.separated more⟩

end

theorem Accepted.respelled {scope : Scope} {tokens : List Token} {t : Expr} {c c' : Chain}
    {d : Change} (accepted : Accepted scope tokens t c) (h : c.Respelled c' d) :
    Accepted scope d.target t c' := by
  obtain ⟨source, target⟩ := h.tokens_eq
  have known := accepted.known
  rw [← accepted.tokens_eq, source, Change.source, known_append, known_append] at known
  exact {
    tokens_eq := target
    separated := h.separated accepted.separated
    tree_eq := (h.tree_eq scope).trans accepted.tree_eq
    known := known_append.mpr ⟨known.1, known_append.mpr ⟨d.respelling.known known.2.1, known.2.2⟩⟩
    space := accepted.space
    room := h.nesting_eq ▸ accepted.room }

/-! ## Neighbours

When the new text is scanned, the token in front of the change must not run
on into what is written there, nor the last of the new ones into what stands
behind.  What has to be known for that is what stands next to a change. -/

/-- What stands next to a respelling: there is no `*` in front of a sign that may become `**`, and
next to a comma that goes there is a parenthesis or another comma. -/
def Change.Joins (d : Change) : Prop :=
  match d.respelling with
  | .power _ _ => ∃ ts t, d.before = ts ++ [t] ∧ t.kind ≠ .mul
  | .removeComma _ =>
    (∃ ts t, d.before = ts ++ [t] ∧ (t.kind = .leftParen ∨ t.kind = .comma)) ∨
      ∃ t ts, d.behind = t :: ts ∧ (t.kind = .rightParen ∨ t.kind = .comma)
  | _ => True

theorem Change.Joins.within {d : Change} (h : d.Joins) (front back : List Token) :
    (d.within front back).Joins := by
  obtain ⟨before, respelling, behind⟩ := d
  cases respelling with
  | power =>
    obtain ⟨ts, t, rfl, kind⟩ := h
    exact ⟨front ++ ts, t, (List.append_assoc _ _ _).symm, kind⟩
  | removeComma =>
    obtain ⟨ts, t, rfl, kind⟩ | ⟨t, ts, rfl, kind⟩ := h
    · exact .inl ⟨front ++ ts, t, (List.append_assoc _ _ _).symm, kind⟩
    · exact .inr ⟨t, ts ++ back, rfl, kind⟩
  | brace | unbrace | insertComma | blankForComma => trivial

theorem TokenOf.kind_ne {kind kind' : TokenKind} (t : TokenOf kind) (ne : kind ≠ kind') :
    t.token.kind ≠ kind' := by
  rwa [t.kind_eq]

/-- No operand ends with `*`. -/
theorem Operand.exists_last : ∀ x : Operand, ∃ ts t, x.tokens = ts ++ [t] ∧ t.kind ≠ .mul
  | .number digits => ⟨[], digits.token, rfl, digits.kind_ne (by decide)⟩
  | .negation minus inner => by
    obtain ⟨ts, t, last, kind⟩ := inner.exists_last
    exact ⟨minus.token :: ts, t, by rw [Operand.tokens, last, List.cons_append], kind⟩
  | .group opening inner closing =>
    ⟨opening.token :: inner.tokens, closing.token, rfl, closing.kind_ne (by decide)⟩
  | .name word => ⟨[], word.token, rfl, word.kind_ne (by decide)⟩
  | .braced opening word closing =>
    ⟨[opening.token, word.token], closing.token, rfl, closing.kind_ne (by decide)⟩
  | .call callee opening inner closing =>
    ⟨callee.token :: opening.token :: inner.tokens, closing.token, rfl,
      closing.kind_ne (by decide)⟩

mutual

theorem Operand.Respelled.joins : ∀ {x x' : Operand} {d : Change}, x.Respelled x' d → d.Joins
  | _, _, _, .brace _ | _, _, _, .unbrace _ _ _ | _, _, _, .insertFirst _ _ _ _ => trivial
  | _, _, _, .removeFirst callee opening _ _ _ =>
    .inl ⟨[callee.token], opening.token, rfl, .inl opening.kind_eq⟩
  | _, _, _, .negation _ h => h.joins.within _ _
  | _, _, _, .group _ _ h => h.joins.within _ _
  | _, _, _, .call callee opening closing h => by
    have joins := (h.joins closing).within [callee.token, opening.token] []
    rwa [Change.within_within, List.append_nil] at joins

theorem Chain.Respelled.joins : ∀ {c c' : Chain} {d : Change}, c.Respelled c' d → d.Joins
  | _, _, _, .first _ h => h.joins.within _ _
  | _, _, _, .more first h => h.joins first

/-- A tail stands behind an operand. -/
theorem Tail.Respelled.joins : ∀ {m m' : Tail} {d : Change}, m.Respelled m' d →
    ∀ x : Operand, (d.within x.tokens []).Joins
  | _, _, _, .power _ _ _ _, x => by
    obtain ⟨ts, t, last, kind⟩ := x.exists_last
    exact ⟨ts, t, (List.append_nil _).trans last, kind⟩
  | _, _, _, .operand _ _ h, x => (h.joins.within _ _).within _ _
  | _, _, _, .more sign operand h, x => by
    have joins := (h.joins operand).within (x.tokens ++ [sign.token]) []
    rwa [Change.within_within, List.append_assoc, ← Change.within_within] at joins

/-- Arguments stand before a closing parenthesis. -/
theorem Arguments.Respelled.joins : ∀ {a a' : Arguments} {d : Change}, a.Respelled a' d →
    ∀ closing : TokenOf .rightParen, (d.within [] [closing.token]).Joins
  | _, _, _, .insertLast, _ | _, _, _, .insertBefore _ _, _ | _, _, _, .insertBehind _ _, _
  | _, _, _, .insertBetween _ _ _, _ | _, _, _, .blankBetween _ _ _ _ _, _ => trivial
  | _, _, _, .removeLast _, closing => .inr ⟨closing.token, [], rfl, .inl closing.kind_eq⟩
  | _, _, _, .removeBefore _ other _, _ => .inr ⟨other.token, _, rfl, .inr other.kind_eq⟩
  | _, _, _, .removeBehind other _ _, _ => .inl ⟨[], other.token, rfl, .inr other.kind_eq⟩
  | _, _, _, .comma comma h, closing => by
    rw [Change.within_comm]
    exact (h.joins closing).within _ _
  | _, _, _, .first _ h, _ => (h.joins.within _ _).within _ _
  | _, _, _, .more first h, closing => by
    rw [Change.within_comm]
    exact (h.joins closing).within _ _

end

end Arith.Grammar
