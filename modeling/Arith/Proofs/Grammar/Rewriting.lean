/-
# Texts that are written otherwise

A text is rewritten where its phrase is respelled: the text of the tokens
that go makes room for the text of those that come, and nothing else is
touched (`Rewrites`).  The blanks around the place stay as they are, so that
the new text is cut where the old one was.

That the tokens next to the place stay what they are is due to what stands
there: in front of a sign there is an operand, which does not end with `*`,
and where a comma goes for nothing, it goes next to a parenthesis or to
another comma (`Change.Joins`).

The new text is scanned into the tokens of the respelled phrase, up to their
places (`Arith.Proofs.Token.Patching`), and the places of tokens have no
part in the tree that is made of them (`result_of_words`).

**Proved here.** However often an accepted text is rewritten, it is accepted
with the same tree (`Scope.parse_rewritten`).
-/
import Mathlib.Logic.Relation
import Arith.Proofs.Grammar.Respelling
import Arith.Proofs.Print.Reparse
import Arith.Proofs.Token.Patching

namespace Arith

open Grammar Parse

/-- What is written for the tokens that come is scanned as these tokens, whatever follows. -/
theorem Grammar.Respelling.scans (r : Respelling) (lexed : Lexed r.old) (rest : List Char) :
    Scans (r.text ++ rest) (r.new.map Token.word) rest := by
  have name : ∀ word : TokenOf .variableName, word.token ∈ r.old →
      Lexeme .variableName word.token.text.toList := by
    intro word mem
    have lexeme := lexed word.token mem
    rwa [word.kind_eq] at lexeme
  cases r with
  | power sign double =>
    cases double with
    | false => exact .sign (by decide) rfl
    | true => exact @Scans.lexeme rest .pow '*' ['*'] (by decide) rfl
  | brace word =>
    have braced := Scans.braced (name word List.mem_cons_self) rest
    simp only [Respelling.text, Respelling.new, List.cons_append, List.append_assoc,
      List.nil_append, List.map_cons, List.map_nil, Token.word, word.kind_eq]
    exact braced
  | unbrace opening word closing =>
    have found := @Scans.variableName _ (' ' :: rest)
      (name word (List.mem_cons_of_mem _ List.mem_cons_self)) (by rintro c ⟨⟩; decide)
    simp only [Respelling.text, Respelling.new, List.cons_append, List.append_assoc,
      List.nil_append, List.map_cons, List.map_nil, Token.word, word.kind_eq]
    exact (Scans.space _).trans (found.trans (.space rest))
  | insertComma => exact .comma rest
  | removeComma => exact .refl rest
  | blankForComma => exact .space rest

/-- The token in front of a respelling does not go on with what is written behind it. -/
theorem Grammar.Change.Joins.longest {d : Change} (h : d.Joins) (lexed : Lexed d.source)
    {offset : Nat} {back : List Char} (tiles : Tiles offset back d.behind) :
    ∀ ts t, d.before = ts ++ [t] → Longest t.kind t.text.toList (d.respelling.text ++ back) := by
  obtain ⟨before, respelling, behind⟩ := d
  rintro ts t rfl
  have lexeme : Lexeme t.kind t.text.toList :=
    lexed t (List.mem_append_left _ (List.mem_append_right _ List.mem_cons_self))
  cases respelling with
  | power sign double =>
    obtain ⟨ts', t', last, kind⟩ := h
    obtain ⟨-, last⟩ := List.append_inj' last rfl
    obtain rfl := (List.cons.inj last).1
    refine lexeme.longest_of_not_wordPart fun d hd => ⟨?_, fun _ => kind⟩
    cases double <;> cases hd <;> decide
  | brace | unbrace | insertComma | blankForComma =>
    refine lexeme.longest_of_not_wordPart ?_
    rintro d ⟨⟩
    exact ⟨by decide, fun star => absurd star (by decide)⟩
  | removeComma comma =>
    obtain ⟨ts', t', last, kind⟩ | ⟨b, bs, next, kind⟩ := h
    · obtain ⟨-, last⟩ := List.append_inj' last rfl
      obtain rfl := (List.cons.inj last).1
      exact lexeme.longest_of_mark (kind.imp_right .inr)
    · obtain rfl : behind = b :: bs := next
      have mark : Lexeme b.kind b.text.toList :=
        lexed b (List.mem_append_right _ (List.mem_append_right _ List.mem_cons_self))
      obtain ⟨c, only, plain, star⟩ := mark.eq_singleton (.inr kind)
      refine lexeme.longest_of_not_wordPart fun d hd => ?_
      rcases tiles.head?_eq_or_blank d hd with blank | first
      · refine ⟨not_wordPart_of_blank blank, ?_⟩
        rintro rfl
        exact absurd blank (by decide)
      · rw [only] at first
        obtain rfl := Option.some.inj first
        exact ⟨plain, fun e => absurd e star⟩

/-- A text is written otherwise at one place of its phrase: it is cut where the tokens that go
begin and end, and in between stands what is written for those that come. -/
inductive Rewrites (source source' : String) : Prop where
  | intro {ts : List Token} {c c' : Chain} {d : Change} {front middle back : List Char}
      (scanned : tokenize source = .ok ts) (phrase : c.tokens = ts) (separated : c.Separated)
      (respelled : c.Respelled c' d) (cut : source.toList = front ++ (middle ++ back))
      (before : ∀ t ∈ d.before, t.span.stop ≤ byteLength front)
      (old : ∀ t ∈ d.respelling.old, byteLength front ≤ t.span.start ∧
        t.span.stop ≤ byteLength front + byteLength middle)
      (behind : ∀ t ∈ d.behind, byteLength front + byteLength middle ≤ t.span.start)
      (written : source'.toList = front ++ (d.respelling.text ++ back))

variable {scope : Scope} {source source' : String} {t : Expr}

/-- Tokens with the same words are parsed into the same trees. -/
theorem result_of_words {ts ts' : List Token} (same : ts'.map Token.word = ts.map Token.word)
    (made : (parseTokens scope ts).1.result = .ok t) :
    (parseTokens scope ts').1.result = .ok t := by
  have alike : (parseTokens scope ts).1.Alike (parseTokens scope ts').1 :=
    parseTokens_of_unplaced scope (map_unplaced_of_map_word same)
  rcases alike.result with e | ⟨_, _, e, -, -⟩
  · rw [e, made]
  · cases made.symm.trans e

theorem Scope.parse_rewrites (accepted : (scope.parse source).1 = .ok t)
    (h : Rewrites source source') : (scope.parse source').1 = .ok t := by
  obtain @⟨ts, c, c', d, front, middle, back, scanned, rfl, separated, respelled, cut, before, old,
    behind, written⟩ := h
  obtain ⟨ts, scanned', c₀, phrase⟩ := exists_accepted.mp accepted
  obtain rfl : ts = c.tokens := Except.ok.inj (scanned'.symm.trans scanned)
  obtain rfl : c₀ = c := Chain.tokens_injective phrase.separated separated phrase.tokens_eq
  have made' := (result_eq_ok_iff_run scope d.target t).mpr
    ((run_silent_iff scope d.target t).mpr ⟨c', phrase.respelled respelled⟩)
  have lexed := lexed_of_tokenize scanned
  have outcome := tokenize_outcome source
  rw [scanned] at outcome
  cases outcome with
  | ok _ allowed tiles =>
    rw [respelled.tokens_eq.1] at lexed tiles
    have narrow := allowed.narrow
    rw [cut] at tiles narrow
    have scans := tiles.patch narrow (by simpa using before) (by simpa using old)
      (by simpa using behind) (d.respelling.scans (lexed_append.mp (lexed_append.mp lexed).2).1)
      fun rest => respelled.joins.longest lexed rest
    rw [← written, ← List.map_append, ← List.map_append] at scans
    obtain ⟨ts', scanned', words⟩ := scans.tokenize fun empty => by
      rw [empty] at scans
      obtain ⟨t, ts, e, -⟩ := c'.exists_tokens
      rw [respelled.tokens_eq.2, Change.target] at e
      rw [e] at scans
      cases scans.words_eq_nil
    exact parse_eq_ok_iff.mpr ⟨ts', scanned', result_of_words words made'⟩

/-- Wherever the phrase of a text may be respelled, the text may be rewritten. -/
theorem exists_rewrites {c c' : Chain} {d : Change} (scanned : tokenize source = .ok c.tokens)
    (separated : c.Separated) (respelled : c.Respelled c' d) :
    ∃ source', Rewrites source source' := by
  have outcome := tokenize_outcome source
  rw [scanned] at outcome
  cases outcome with
  | ok _ allowed tiles =>
    rw [respelled.tokens_eq.1] at tiles
    obtain ⟨front, rest, whole, before, later⟩ := tiles.exists_cut rfl
    have narrow : ∀ c ∈ front, ¬ Fullwidth c := fun c hc =>
      allowed.narrow c (whole ▸ List.mem_append_left _ hc)
    obtain ⟨tiled, -⟩ := tiles.cut whole rfl narrow before later
    obtain ⟨middle, back, rfl, old, behind⟩ := tiled.exists_cut rfl
    rw [Nat.zero_add] at before later old behind
    exact ⟨String.ofList (front ++ (d.respelling.text ++ back)),
      .intro scanned rfl separated respelled
        whole before (fun t ht => ⟨later t (List.mem_append_left _ ht), old t ht⟩) behind
      String.toList_ofList⟩

/-- However often an accepted text is rewritten, it is accepted with the same tree. -/
theorem Scope.parse_rewritten (accepted : (scope.parse source).1 = .ok t)
    (rewritten : Relation.ReflTransGen Rewrites source source') :
    (scope.parse source').1 = .ok t := by
  induction rewritten with
  | refl => exact accepted
  | tail _ last ih => exact parse_rewrites ih last

/-- The braces go from `{ A }`, and then a comma is left out. -/
theorem Scope.parse_rewritten_braces :
    let scope : Scope := ⟨.ofList [("A", 0)], .insert .empty "f" ⟨0⟩⟩
    let t : Expr := .call "f" ⟨0⟩ [.var "A" 0, .binary .pow (.var "A" 0) (.number 0)]
    (scope.parse "f(A,{ A }^0)").1 = .ok t ∧
      Relation.ReflTransGen Rewrites "f(A,{ A }^0)" "f(A  A ^0)" ∧
        (scope.parse "f(A  A ^0)").1 = .ok t := by
  intro scope t
  have accepted : (scope.parse "f(A,{ A }^0)").1 = .ok t := by cbv
  let callee : TokenOf .functionName := ⟨⟨.functionName, "f", ⟨0, 1⟩⟩, rfl⟩
  let opening : TokenOf .leftParen := ⟨⟨.leftParen, "(", ⟨1, 2⟩⟩, rfl⟩
  let first : Chain := .mk (.name ⟨⟨.variableName, "A", ⟨2, 3⟩⟩, rfl⟩) .nil
  let comma : TokenOf .comma := ⟨⟨.comma, ",", ⟨3, 4⟩⟩, rfl⟩
  let power (offset : Nat) : Tail :=
    .cons ⟨⟨.pow, "^", ⟨offset, offset + 1⟩⟩, .pow, rfl⟩
      (.number ⟨⟨.number, "0", ⟨offset + 1, offset + 2⟩⟩, rfl⟩) .nil
  let closing (offset : Nat) : TokenOf .rightParen :=
    ⟨⟨.rightParen, ")", ⟨offset, offset + 1⟩⟩, rfl⟩
  let left : TokenOf .leftBrace := ⟨⟨.leftBrace, "\x7b", ⟨4, 5⟩⟩, rfl⟩
  let right : TokenOf .rightBrace := ⟨⟨.rightBrace, "\x7d", ⟨8, 9⟩⟩, rfl⟩
  let word (offset : Nat) : TokenOf .variableName :=
    ⟨⟨.variableName, "A", ⟨offset, offset + 1⟩⟩, rfl⟩
  have bare : Rewrites "f(A,{ A }^0)" "f(A, A ^0)" := by
    let braced : Chain := .mk (.braced left (word 6) right) (power 9)
    let inner : Arguments := .cons first (.comma comma (.cons braced .nil))
    refine @Rewrites.intro _ _ _ (.mk (.call callee opening inner (closing 11)) .nil) _ _
      ['f', '(', 'A', ','] ['{', ' ', 'A', ' ', '}'] ['^', '0', ')'] (by cbv) rfl ?_
      (.first .nil (.call callee opening (closing 11) (.more first (.comma comma (.first .nil
        (.first (power 9) (.unbrace left (word 6) right))))))) ?_ ?_ ?_ ?_ ?_
    · simp [Chain.Separated, Operand.Separated, Arguments.Separated, Tail.Separated, inner, braced,
        first, power]
    all_goals decide
  have apart : Rewrites "f(A, A ^0)" "f(A  A ^0)" := by
    let second : Chain := .mk (.name (word 5)) (power 7)
    let inner : Arguments := .cons first (.comma comma (.cons second .nil))
    refine @Rewrites.intro _ _ _ (.mk (.call callee opening inner (closing 9)) .nil) _ _
      ['f', '(', 'A'] [','] [' ', 'A', ' ', '^', '0', ')'] (by cbv) rfl ?_
      (.first .nil (.call callee opening (closing 9) (.blankBetween first comma second .nil ?_)))
      ?_ ?_ ?_ ?_ ?_
    · simp [Chain.Separated, Operand.Separated, Arguments.Separated, Tail.Separated, inner, second,
        first, power]
    · rintro t ⟨⟩
      decide
    all_goals decide
  have rewritten := (Relation.ReflTransGen.single bare).tail apart
  exact ⟨accepted, rewritten, parse_rewritten accepted rewritten⟩

end Arith
