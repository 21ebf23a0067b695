/-
# Written trees as phrases

A tree that was read in a scope holds nothing that could not be written: its
names are words that mean in the scope what they stand for in the tree, and
none of its numbers is negative or undefined (`Chain.faithful`).

What is written has parentheses around every operation.  So no precedence is
needed to group it, a chain in it has one operand or two, and the nesting of
a phrase is the height of the tree it came from.

A phrase for a tree is not only words and a tree: it has to be separated as
the grammar asks, its names have to be known, and its nesting has to be
told.  All of this is asked for at once (`Operand.Writes`), and there is one
lemma for each node of a tree.

**Proved here.** The words of such a tree are the words of one operand,
which has the tree as its own and is nested as deep as the tree is high
(`exists_operand`), unless a number is infinite.  Then the name `inf` stands
among the words with no parenthesis behind it, and no phrase has such words
(`not_paired_words`).
-/
import Arith.Proofs.Print.Words
import Arith.Proofs.Grammar.Phrase

namespace Arith

open Grammar Grouping

namespace Expr

/-- The names in a node mean in a scope what they stand for. -/
def Resolved (scope : Scope) : Expr → Prop
  | .number _ => True
  | .binary _ _ _ => True
  | .var key value => scope.bindings.get? key = some value
  | .call name callee _ => scope.functions.get? name = some callee

/-- A tree that could have been read in a scope. -/
def Faithful (scope : Scope) (e : Expr) : Prop := ∀ n ∈ e.nodes, n.Plain ∧ n.Resolved scope

def Finite (e : Expr) : Prop := ∀ x ∈ e.numbers, magnitude x ≠ .infinite

variable {scope : Scope}

theorem faithful_number {value : Float} :
    (number value).Faithful scope ↔ ∃ bits ≤ infinityBits, value = floatOfBits false bits := by
  rw [Faithful, nodes_number, List.forall_mem_singleton]
  exact and_iff_left trivial

theorem faithful_var {key : String} {value : Float} : (var key value).Faithful scope ↔
    Lexeme .variableName key.toList ∧ scope.bindings.get? key = some value := by
  rw [Faithful, nodes_var, List.forall_mem_singleton]
  rfl

theorem faithful_binary {op : Operator} {left right : Expr} :
    (binary op left right).Faithful scope ↔ left.Faithful scope ∧ right.Faithful scope := by
  rw [Faithful, nodes_binary, List.forall_mem_cons, List.forall_mem_append]
  exact and_iff_right ⟨trivial, trivial⟩

theorem faithful_call {name : String} {callee : Handle} {arguments : List Expr} :
    (call name callee arguments).Faithful scope ↔
      (Lexeme .functionName name.toList ∧ scope.functions.get? name = some callee) ∧
        ∀ e ∈ arguments, e.Faithful scope := by
  rw [Faithful, nodes_call, List.forall_mem_cons, List.forall_mem_flatMap]
  rfl

theorem finite_binary {op : Operator} {left right : Expr} :
    (binary op left right).Finite ↔ left.Finite ∧ right.Finite := by
  rw [Finite, numbers_binary, List.forall_mem_append]
  rfl

theorem finite_call {name : String} {callee : Handle} {arguments : List Expr} :
    (call name callee arguments).Finite ↔ ∀ e ∈ arguments, e.Finite := by
  rw [Finite, numbers_call, List.forall_mem_flatMap]
  rfl

end Expr

/-! ## Trees of phrases -/

/-- Tokens of which each is written as its kind is. -/
def Lexed (ts : List Token) : Prop := ∀ t ∈ ts, Lexeme t.kind t.text.toList

theorem lexed_append {as bs : List Token} : Lexed (as ++ bs) ↔ Lexed as ∧ Lexed bs :=
  List.forall_mem_append

theorem lexed_cons {t : Token} {ts : List Token} :
    Lexed (t :: ts) ↔ Lexeme t.kind t.text.toList ∧ Lexed ts :=
  List.forall_mem_cons

/-- The number that a token stands for is not negative. -/
theorem numberOf_of_lexeme {text : String} (h : Lexeme .number text.toList) :
    ∃ bits ≤ infinityBits, numberOf text = floatOfBits false bits := by
  rw [numberOf, h.readFloat_eq]
  cases readDecimal text.toList with
  | none => exact ⟨0, Nat.zero_le _, rfl⟩
  | some d => exact ⟨d.roundedBits, d.roundedBits_le, rfl⟩

theorem faithful_variableOf {scope : Scope} {word : TokenOf .variableName}
    (lexeme : Lexeme word.token.kind word.token.text.toList) (known : Known scope [word.token]) :
    (variableOf scope word.token.text).Faithful scope := by
  obtain ⟨value, bound⟩ := known_variable known
  rw [word.kind_eq] at lexeme
  rw [variableOf_of_bound bound]
  exact Expr.faithful_var.mpr ⟨lexeme, bound⟩

namespace Grammar

variable {scope : Scope}

mutual

theorem Operand.faithful : ∀ x : Operand, Lexed x.tokens → Known scope x.tokens →
    (x.tree scope).Faithful scope
  | .number digits, lexed, _ => by
    have numeral : Lexeme digits.token.kind digits.token.text.toList := lexed _ List.mem_cons_self
    rw [digits.kind_eq] at numeral
    exact Expr.faithful_number.mpr (numberOf_of_lexeme numeral)
  | .negation minus inner, lexed, known => by
    have zero : (Expr.number 0).Faithful scope := Expr.faithful_number.mpr ⟨0, Nat.zero_le _, rfl⟩
    rw [Operand.tree]
    exact Expr.faithful_binary.mpr
      ⟨zero, inner.faithful (lexed_cons.mp lexed).2 (known_cons.mp known).2⟩
  | .group opening inner closing, lexed, known => by
    rw [Operand.tokens, lexed_cons, lexed_append] at lexed
    rw [Operand.tokens, known_cons, known_append] at known
    rw [Operand.tree]
    exact inner.faithful lexed.2.1 known.2.1
  | .name word, lexed, known => faithful_variableOf (lexed _ List.mem_cons_self) known
  | .braced opening word closing, lexed, known => by
    rw [Operand.tokens, lexed_cons, lexed_cons] at lexed
    exact faithful_variableOf lexed.2.1 (known_cons.mp (known_cons.mp known).2).1
  | .call callee opening inner closing, lexed, known => by
    rw [Operand.tokens, lexed_cons, lexed_cons, lexed_append, callee.kind_eq] at lexed
    obtain ⟨name, known₁⟩ := known_cons.mp known
    obtain ⟨-, known₂⟩ := known_cons.mp known₁
    obtain ⟨h, found⟩ := known_function name
    rw [Operand.tree, callOf_of_found _ found]
    exact Expr.faithful_call.mpr
      ⟨⟨lexed.1, found⟩, inner.faithful lexed.2.2.1 (known_append.mp known₂).1⟩

theorem Chain.faithful : ∀ c : Chain, Lexed c.tokens → Known scope c.tokens →
    (c.tree scope).Faithful scope
  | .mk first more, lexed, known => by
    rw [Chain.tokens, lexed_append] at lexed
    rw [Chain.tokens, known_append] at known
    rw [Chain.tree]
    exact group_induction (fun _ _ _ left right => Expr.faithful_binary.mpr ⟨left, right⟩)
      (first.faithful lexed.1 known.1) (more.faithful lexed.2 known.2)

theorem Tail.faithful : ∀ m : Tail, Lexed m.tokens → Known scope m.tokens →
    ∀ p ∈ m.operands scope, p.2.Faithful scope
  | .nil, _, _ => List.forall_mem_nil _
  | .cons sign operand more, lexed, known => by
    rw [Tail.tokens, lexed_cons, lexed_append] at lexed
    rw [Tail.tokens, known_cons, known_append] at known
    exact List.forall_mem_cons.mpr
      ⟨operand.faithful lexed.2.1 known.2.1, more.faithful lexed.2.2 known.2.2⟩

theorem Arguments.faithful : ∀ a : Arguments, Lexed a.tokens → Known scope a.tokens →
    ∀ e ∈ a.trees scope, e.Faithful scope
  | .nil, _, _ => List.forall_mem_nil _
  | .comma comma more, lexed, known =>
    more.faithful (lexed_cons.mp lexed).2 (known_cons.mp known).2
  | .cons first more, lexed, known => by
    rw [Arguments.tokens, lexed_append] at lexed
    rw [Arguments.tokens, known_append] at known
    exact List.forall_mem_cons.mpr
      ⟨first.faithful lexed.1 known.1, more.faithful lexed.2 known.2⟩

end

/-! ## Phrases for written trees -/

/-- A phrase that is written with some tokens and stands for a tree. -/
structure Operand.Writes (scope : Scope) (e : Expr) (ts : List Token) (x : Operand) : Prop where
  tokens_eq : x.tokens = ts
  tree_eq : x.tree scope = e
  separated : x.Separated
  known : Known scope ts
  nesting_eq : x.nesting = e.height

/-- `behind`: an argument stands directly before these. -/
structure Arguments.Writes (scope : Scope) (behind : Bool) (es : List Expr) (ts : List Token)
    (a : Arguments) : Prop where
  tokens_eq : a.tokens = ts
  trees_eq : a.trees scope = es
  separated : a.Separated behind
  known : Known scope ts
  nesting_eq : a.nesting = Expr.heightAll es

theorem Token.eq_of_word {t : Token} {kind : TokenKind} {text : String}
    (h : t.word = (kind, text.toList)) : t.kind = kind ∧ t.text = text := by
  obtain ⟨kind, chars⟩ := Prod.mk.inj h
  exact ⟨kind, String.toList_inj.mp chars⟩

theorem group_single (op : Operator) (x y : Expr) : group x [(op, y)] = .binary op x y := by
  cases op <;> rfl

theorem Tail.nesting_single (sign : Sign) (operand : Operand) :
    (Tail.cons sign operand .nil).nesting 0 = operand.nesting := by
  rw [Tail.nesting, Tail.nesting, Tail.nesting, Nat.zero_add, Nat.max_zero, ite_self]

theorem Operand.writes_number {value : Float} {ts : List Token}
    (faithful : (Expr.number value).Faithful scope)
    (finite : (Expr.number value).Finite) (words : ts.map Token.word = (Expr.number value).words) :
    ∃ x, Operand.Writes scope (.number value) ts x := by
  obtain ⟨bits, le, rfl⟩ := Expr.faithful_number.mp faithful
  have lt : bits < infinityBits := by
    refine Nat.lt_of_le_of_ne le ?_
    rintro rfl
    exact finite _ List.mem_cons_self magnitude_infinity
  rw [Expr.words, Expr.numberWord, magnitude_floatOfBits false lt] at words
  obtain ⟨t, rfl, word⟩ := List.map_eq_singleton_iff.mp words
  obtain ⟨kind, chars⟩ := Prod.mk.inj word
  refine ⟨.number ⟨t, kind⟩, rfl, ?_, trivial, known_of_kind kind (by decide), rfl⟩
  rw [Operand.tree, numberOf, chars, readFloat_floatChars lt]

theorem known_of_bound {t : Token} {value : Float} (kind : t.kind = .variableName)
    (bound : scope.bindings.get? t.text = some value) : Known scope [t] := by
  intro t' ht
  rw [List.mem_singleton.mp ht, kind, bound]
  exact ⟨fun _ => rfl, by simp⟩

theorem Operand.writes_var {key : String} {value : Float} {ts : List Token}
    (faithful : (Expr.var key value).Faithful scope)
    (words : ts.map Token.word = (Expr.var key value).words) :
    ∃ x, Operand.Writes scope (.var key value) ts x := by
  obtain ⟨-, bound⟩ := Expr.faithful_var.mp faithful
  rw [Expr.words] at words
  obtain ⟨opening, ts₁, rfl, opening_eq, words₁⟩ := List.map_eq_cons_iff.mp words
  obtain ⟨word, ts₂, rfl, word_eq, words₂⟩ := List.map_eq_cons_iff.mp words₁
  obtain ⟨closing, rfl, closing_eq⟩ := List.map_eq_singleton_iff.mp words₂
  have opens : opening.kind = .leftBrace := congrArg Prod.fst opening_eq
  have closes : closing.kind = .rightBrace := congrArg Prod.fst closing_eq
  obtain ⟨kind, text⟩ := Token.eq_of_word word_eq
  refine ⟨.braced ⟨opening, opens⟩ ⟨word, kind⟩ ⟨closing, closes⟩, rfl, ?_, trivial, ?_, rfl⟩
  · rw [Operand.tree, text, variableOf_of_bound bound]
  · have known : Known scope [word] := known_of_bound kind (text ▸ bound)
    exact known_cons.mpr ⟨known_of_kind opens (by decide),
      known_cons.mpr ⟨known, known_of_kind closes (by decide)⟩⟩

theorem Operand.writes_binary {op : Operator} {left right : Expr} {first second : List Token}
    {opening sign closing : Token} {x y : Operand} (opens : opening.kind = .leftParen)
    (signs : sign.kind = op.kind) (closes : closing.kind = .rightParen)
    (hx : x.Writes scope left first) (hy : y.Writes scope right second) :
    ∃ z, Operand.Writes scope (.binary op left right)
      (opening :: (first ++ sign :: (second ++ [closing]))) z := by
  refine ⟨.group ⟨opening, opens⟩ (.mk x (.cons ⟨sign, op, signs⟩ y .nil)) ⟨closing, closes⟩,
    ?_, ?_, ?_, ?_, ?_⟩
  · simp only [Operand.tokens, Chain.tokens, Tail.tokens, hx.tokens_eq, hy.tokens_eq,
      List.append_nil, List.append_assoc, List.cons_append]
  · simp only [Operand.tree, Chain.tree, Tail.operands, group_single, hx.tree_eq, hy.tree_eq]
  · exact ⟨hx.separated, hy.separated, trivial⟩
  · have plain : Known scope [sign] := known_of_kind signs (by cases op <;> decide)
    exact known_cons.mpr ⟨known_of_kind opens (by decide), known_append.mpr ⟨hx.known,
      known_cons.mpr ⟨plain, known_append.mpr ⟨hy.known, known_of_kind closes (by decide)⟩⟩⟩⟩
  · rw [Operand.nesting, Chain.nesting, Tail.nesting_single, hx.nesting_eq, hy.nesting_eq,
      Expr.height]

theorem Operand.writes_call {name : String} {callee : Handle} {arguments : List Expr}
    {inner : List Token} {word opening closing : Token} {a : Arguments}
    (found : scope.functions.get? name = some callee) (kind : word.kind = .functionName)
    (text : word.text = name) (opens : opening.kind = .leftParen)
    (closes : closing.kind = .rightParen) (ha : a.Writes scope false arguments inner) :
    ∃ z, Operand.Writes scope (.call name callee arguments)
      (word :: opening :: (inner ++ [closing])) z := by
  refine ⟨.call ⟨word, kind⟩ ⟨opening, opens⟩ a ⟨closing, closes⟩, ?_, ?_, ha.separated, ?_, ?_⟩
  · rw [Operand.tokens, ha.tokens_eq]
  · rw [Operand.tree, text, callOf_of_found _ found, ha.trees_eq]
  · have known : Known scope [word] := by
      intro t ht
      rw [List.mem_singleton.mp ht, kind, text, found]
      exact ⟨by simp, fun _ => rfl⟩
    exact known_cons.mpr ⟨known, known_cons.mpr ⟨known_of_kind opens (by decide),
      known_append.mpr ⟨ha.known, known_of_kind closes (by decide)⟩⟩⟩
  · rw [Operand.nesting, ha.nesting_eq, Expr.height]

theorem Arguments.Writes.nil (behind : Bool) : Arguments.nil.Writes scope behind [] [] :=
  ⟨rfl, rfl, trivial, known_nil, rfl⟩

theorem Arguments.Writes.cons {e : Expr} {es : List Expr} {first more : List Token} {x : Operand}
    {a : Arguments} (hx : x.Writes scope e first) (ha : a.Writes scope true es more) :
    (Arguments.cons (.mk x .nil) a).Writes scope false (e :: es) (first ++ more) where
  tokens_eq := by
    simp only [Arguments.tokens, Chain.tokens, Tail.tokens, hx.tokens_eq, ha.tokens_eq,
      List.append_nil]
  trees_eq := by
    simp only [Arguments.trees, Chain.tree, Tail.operands, group_nil, hx.tree_eq, ha.trees_eq]
  separated := ⟨by simp, ⟨hx.separated, trivial⟩, ha.separated⟩
  known := known_append.mpr ⟨hx.known, ha.known⟩
  nesting_eq := by
    simp only [Arguments.nesting, Chain.nesting, Tail.nesting, hx.nesting_eq, ha.nesting_eq,
      Nat.max_zero, Expr.heightAll]

theorem Arguments.Writes.comma {es : List Expr} {comma : Token} {more : List Token} {a : Arguments}
    (kind : comma.kind = .comma) (ha : a.Writes scope false es more) :
    (Arguments.comma ⟨comma, kind⟩ a).Writes scope true es (comma :: more) where
  tokens_eq := congrArg (comma :: ·) ha.tokens_eq
  trees_eq := ha.trees_eq
  separated := ha.separated
  known := known_cons.mpr ⟨known_of_kind kind (by decide), ha.known⟩
  nesting_eq := ha.nesting_eq

mutual

/-- The words of a finite tree are those of an operand. -/
theorem exists_operand : ∀ (e : Expr) {ts : List Token}, e.Faithful scope → e.Finite →
    ts.map Token.word = e.words → ∃ x, Operand.Writes scope e ts x
  | .number _, _, faithful, finite, words => Operand.writes_number faithful finite words
  | .var _ _, _, faithful, _, words => Operand.writes_var faithful words
  | .binary op left right, ts, faithful, finite, words => by
    obtain ⟨faithful₁, faithful₂⟩ := Expr.faithful_binary.mp faithful
    obtain ⟨finite₁, finite₂⟩ := Expr.finite_binary.mp finite
    rw [Expr.words] at words
    obtain ⟨opening, ts₁, rfl, opening_eq, words₁⟩ := List.map_eq_cons_iff.mp words
    obtain ⟨first, ts₂, rfl, first_eq, words₂⟩ := List.map_eq_append_iff.mp words₁
    obtain ⟨sign, ts₃, rfl, sign_eq, words₃⟩ := List.map_eq_cons_iff.mp words₂
    obtain ⟨second, ts₄, rfl, second_eq, words₄⟩ := List.map_eq_append_iff.mp words₃
    obtain ⟨closing, rfl, closing_eq⟩ := List.map_eq_singleton_iff.mp words₄
    obtain ⟨x, hx⟩ := exists_operand left faithful₁ finite₁ first_eq
    obtain ⟨y, hy⟩ := exists_operand right faithful₂ finite₂ second_eq
    exact Operand.writes_binary (congrArg Prod.fst opening_eq) (congrArg Prod.fst sign_eq)
      (congrArg Prod.fst closing_eq) hx hy
  | .call name callee arguments, ts, faithful, finite, words => by
    obtain ⟨⟨-, found⟩, faithful⟩ := Expr.faithful_call.mp faithful
    rw [Expr.words] at words
    obtain ⟨word, ts₁, rfl, word_eq, words₁⟩ := List.map_eq_cons_iff.mp words
    obtain ⟨opening, ts₂, rfl, opening_eq, words₂⟩ := List.map_eq_cons_iff.mp words₁
    obtain ⟨inner, ts₃, rfl, inner_eq, words₃⟩ := List.map_eq_append_iff.mp words₂
    obtain ⟨closing, rfl, closing_eq⟩ := List.map_eq_singleton_iff.mp words₃
    obtain ⟨kind, text⟩ := Token.eq_of_word word_eq
    obtain ⟨a, ha⟩ := exists_arguments arguments faithful (Expr.finite_call.mp finite) inner_eq
    exact Operand.writes_call found kind text (congrArg Prod.fst opening_eq)
      (congrArg Prod.fst closing_eq) ha

theorem exists_arguments : ∀ (es : List Expr) {ts : List Token}, (∀ e ∈ es, e.Faithful scope) →
    (∀ e ∈ es, e.Finite) → ts.map Token.word = Expr.wordsAll es →
      ∃ a, Arguments.Writes scope false es ts a
  | [], ts, _, _, words => by
    obtain rfl := List.map_eq_nil_iff.mp words
    exact ⟨.nil, .nil _⟩
  | e :: es, ts, faithful, finite, words => by
    rw [List.forall_mem_cons] at faithful finite
    rw [Expr.wordsAll] at words
    obtain ⟨first, ts₁, rfl, first_eq, words₁⟩ := List.map_eq_append_iff.mp words
    obtain ⟨x, hx⟩ := exists_operand e faithful.1 finite.1 first_eq
    obtain ⟨a, ha⟩ := exists_furtherArguments es faithful.2 finite.2 words₁
    exact ⟨_, .cons hx ha⟩

theorem exists_furtherArguments : ∀ (es : List Expr) {ts : List Token},
    (∀ e ∈ es, e.Faithful scope) → (∀ e ∈ es, e.Finite) → ts.map Token.word = Expr.wordsBehind es →
      ∃ a, Arguments.Writes scope true es ts a
  | [], ts, _, _, words => by
    obtain rfl := List.map_eq_nil_iff.mp words
    exact ⟨.nil, .nil _⟩
  | e :: es, ts, faithful, finite, words => by
    rw [List.forall_mem_cons] at faithful finite
    rw [Expr.wordsBehind] at words
    obtain ⟨comma, ts₁, rfl, comma_eq, words₁⟩ := List.map_eq_cons_iff.mp words
    obtain ⟨first, ts₂, rfl, first_eq, words₂⟩ := List.map_eq_append_iff.mp words₁
    obtain ⟨x, hx⟩ := exists_operand e faithful.1 finite.1 first_eq
    obtain ⟨a, ha⟩ := exists_furtherArguments es faithful.2 finite.2 words₂
    exact ⟨_, .comma (congrArg Prod.fst comma_eq) (.cons hx ha)⟩

end

/-! ## Infinite numbers

No phrase has a name of a function without a parenthesis behind it, and the
words of a tree with an infinite number do.  Both are stated for words with
more behind them, where the first of these must not be a parenthesis that
completes the pair. -/

/-- Behind every name of a function stands a parenthesis. -/
def Paired : List Word → Prop
  | [] => True
  | w :: ws => (w.1 = .functionName → ws.head?.map Prod.fst = some .leftParen) ∧ Paired ws

theorem paired_cons {w : Word} {ws : List Word} (plain : w.1 ≠ .functionName) (h : Paired ws) :
    Paired (w :: ws) :=
  ⟨fun e => absurd e plain, h⟩

theorem Paired.of_append {ws ws' : List Word} (h : Paired (ws ++ ws')) : Paired ws' := by
  induction ws with
  | nil => exact h
  | cons w ws ih => exact ih h.2

theorem paired_token {kind : TokenKind} (t : TokenOf kind) (plain : kind ≠ .functionName)
    {ws : List Word} (h : Paired ws) : Paired (t.token.word :: ws) :=
  paired_cons (fun e => plain (t.kind_eq.symm.trans e)) h

mutual

/-- In a phrase a parenthesis stands behind every name of a function. -/
theorem Operand.paired : ∀ (x : Operand) {ws : List Word}, Paired ws →
    Paired (x.tokens.map Token.word ++ ws)
  | .number digits, ws, h => paired_token digits (by decide) h
  | .negation minus inner, ws, h => paired_token minus (by decide) (inner.paired h)
  | .group opening inner closing, ws, h => by
    rw [Operand.tokens, List.map_cons, List.map_append, List.cons_append, List.append_assoc]
    exact paired_token opening (by decide) (inner.paired (paired_token closing (by decide) h))
  | .name word, ws, h => paired_token word (by decide) h
  | .braced opening word closing, ws, h =>
    paired_token opening (by decide) (paired_token word (by decide)
      (paired_token closing (by decide) h))
  | .call callee opening inner closing, ws, h => by
    rw [Operand.tokens, List.map_cons, List.map_cons, List.map_append, List.cons_append,
      List.cons_append, List.append_assoc]
    exact ⟨fun _ => congrArg some opening.kind_eq,
      paired_token opening (by decide) (inner.paired (paired_token closing (by decide) h))⟩

theorem Chain.paired : ∀ (c : Chain) {ws : List Word}, Paired ws →
    Paired (c.tokens.map Token.word ++ ws)
  | .mk first more, ws, h => by
    rw [Chain.tokens, List.map_append, List.append_assoc]
    exact first.paired (more.paired h)

theorem Tail.paired : ∀ (m : Tail) {ws : List Word}, Paired ws →
    Paired (m.tokens.map Token.word ++ ws)
  | .nil, ws, h => h
  | .cons sign operand more, ws, h => by
    have plain : sign.token.kind ≠ .functionName := by
      rw [sign.kind_eq]
      cases sign.operator <;> decide
    rw [Tail.tokens, List.map_cons, List.map_append, List.cons_append, List.append_assoc]
    exact paired_cons plain (operand.paired (more.paired h))

theorem Arguments.paired : ∀ (a : Arguments) {ws : List Word}, Paired ws →
    Paired (a.tokens.map Token.word ++ ws)
  | .nil, ws, h => h
  | .comma comma more, ws, h => paired_token comma (by decide) (more.paired h)
  | .cons first more, ws, h => by
    rw [Arguments.tokens, List.map_append, List.append_assoc]
    exact first.paired (more.paired h)

end

/-- Words that do not start with a parenthesis. -/
def Unopened (ws : List Word) : Prop := ws.head?.map Prod.fst ≠ some .leftParen

theorem unopened_wordsBehind (es : List Expr) {ws : List Word} (h : Unopened ws) :
    Unopened (Expr.wordsBehind es ++ ws) := by
  cases es with
  | nil => exact h
  | cons e es => exact (by decide : some TokenKind.comma ≠ some .leftParen)

mutual

/-- Among the words of a tree with an infinite number stands a name without a parenthesis. -/
theorem not_paired_words : ∀ (e : Expr) {ws : List Word}, ¬ e.Finite → Unopened ws →
    ¬ Paired (e.words ++ ws)
  | .number value, ws, infinite, unopened, paired => by
    have word : (Expr.numberWord value).1 = .functionName := by
      rw [Expr.numberWord]
      split
      next => rfl
      next finite =>
        exact absurd (List.forall_mem_singleton.mpr fun e => finite e) infinite
    exact unopened (paired.1 word)
  | .var key value, ws, infinite, _, _ => infinite (List.forall_mem_nil _)
  | .binary op left right, ws, infinite, unopened, paired => by
    rw [Expr.finite_binary, not_and_or] at infinite
    rw [Expr.words, List.cons_append, List.append_assoc, List.cons_append,
      List.append_assoc] at paired
    rcases infinite with infinite | infinite
    · have sign : Unopened ((op.kind, [op.symbol]) ::
          (right.words ++ ([(.rightParen, [')'])] ++ ws))) := by
        intro e
        exact absurd (Option.some.inj e) (by cases op <;> decide)
      exact not_paired_words left infinite sign paired.2
    · have closing : Unopened ([(.rightParen, [')'])] ++ ws) := by
        exact (by decide : some TokenKind.rightParen ≠ some .leftParen)
      exact not_paired_words right infinite closing (Paired.of_append paired.2).2
  | .call name callee arguments, ws, infinite, unopened, paired => by
    rw [Expr.words, List.cons_append, List.cons_append, List.append_assoc] at paired
    have closing : Unopened ([(.rightParen, [')'])] ++ ws) := by
      exact (by decide : some TokenKind.rightParen ≠ some .leftParen)
    exact not_paired_wordsAll arguments (mt Expr.finite_call.mpr infinite) closing paired.2.2

theorem not_paired_wordsAll : ∀ (es : List Expr) {ws : List Word}, (¬ ∀ e ∈ es, e.Finite) →
    Unopened ws → ¬ Paired (Expr.wordsAll es ++ ws)
  | [], ws, infinite, _, _ => infinite (List.forall_mem_nil _)
  | e :: es, ws, infinite, unopened, paired => by
    rw [List.forall_mem_cons, not_and_or] at infinite
    rw [Expr.wordsAll, List.append_assoc] at paired
    rcases infinite with infinite | infinite
    · exact not_paired_words e infinite (unopened_wordsBehind es unopened) paired
    · exact not_paired_wordsBehind es infinite unopened (Paired.of_append paired)

theorem not_paired_wordsBehind : ∀ (es : List Expr) {ws : List Word}, (¬ ∀ e ∈ es, e.Finite) →
    Unopened ws → ¬ Paired (Expr.wordsBehind es ++ ws)
  | [], ws, infinite, _, _ => infinite (List.forall_mem_nil _)
  | e :: es, ws, infinite, unopened, paired => by
    rw [List.forall_mem_cons, not_and_or] at infinite
    rw [Expr.wordsBehind, List.cons_append, List.append_assoc] at paired
    rcases infinite with infinite | infinite
    · exact not_paired_words e infinite (unopened_wordsBehind es unopened) paired.2
    · exact not_paired_wordsBehind es infinite unopened (Paired.of_append paired.2)

end

end Grammar

end Arith
