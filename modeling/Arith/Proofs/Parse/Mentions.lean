/-
# Nothing is lost in silence

A tree mentions variables, functions and operators, and so do the tokens
that it was made of.  Reading never reorders, repeats or invents a mention:
`Gathers s made next` says that `made` is left of what the tokens between
the states `s` and `next` mention, and that all of it is left unless an
error has been noted.  What is left of two stretches of tokens is left of
both together, so this holds of every reading by induction on the rules
(`gathered_of_reads`), whatever recovery drops.

Numbers, parentheses, braces and commas mention nothing.  A minus sign
mentions the same operator in front of an operand and between two, and the
tree of a negation mentions it as well, since it is a difference; so the
mentions of a tree are exactly those of its tokens, in the same order.

A reading that yields no tree must have noted an error, and this is part of
what is carried along (`Gathered`): otherwise nothing would be known of the
mentions that it has dropped.

**Proved here.**

    a tree mentions what its tokens do, in their order
      (`parseTokens_mentions`)
    without a tree there is an error, and without an error all is read
      (`parseTokens_never_silent`)
-/
import Arith.Proofs.Grammar.Exact

namespace Arith

/-! ## Mentions

Of tokens and of trees, and how the names of the variables are found among
them. -/

/-- What a tree has in common with the tokens that it was made of. -/
inductive Mention where
  | variable (name : String)
  | function (name : String)
  | operator (op : Operator)
deriving DecidableEq

/-- What a token mentions, if anything. -/
def Token.mention? (t : Token) : Option Mention :=
  match t.kind with
  | .variableName => some (.variable t.text)
  | .functionName => some (.function t.text)
  | kind => (Operator.ofKind? kind).map .operator

/-- What some tokens mention. -/
def mentionsOf (tokens : List Token) : List Mention := tokens.filterMap Token.mention?

/-- The name of a variable that is mentioned. -/
def Mention.variable? : Mention → Option String
  | .variable name => some name
  | _ => none

theorem Token.mention?_of_kind {t : Token} {kind : TokenKind} (h : t.kind = kind)
    (plain : kind ≠ .variableName ∧ kind ≠ .functionName ∧ Operator.ofKind? kind = none) :
    t.mention? = none := by
  unfold mention?
  split
  next e => exact absurd (h.symm.trans e) plain.1
  next e => exact absurd (h.symm.trans e) plain.2.1
  next => rw [h, plain.2.2, Option.map_none]

theorem Token.mention?_variable {t : Token} (h : t.kind = .variableName) :
    t.mention? = some (.variable t.text) := by
  rw [mention?, h]

theorem Token.mention?_function {t : Token} (h : t.kind = .functionName) :
    t.mention? = some (.function t.text) := by
  rw [mention?, h]

theorem Token.mention?_operator {t : Token} {op : Operator}
    (h : Operator.ofKind? t.kind = some op) :
    t.mention? = some (.operator op) := by
  cases kind : t.kind <;> rw [kind] at h <;> cases h <;> rw [mention?, kind] <;> rfl

theorem Token.variable?_mention? (t : Token) :
    t.mention?.bind Mention.variable? = if t.kind = .variableName then some t.text else none := by
  split
  next word => rw [mention?_variable word]; rfl
  next other =>
    unfold mention?
    split
    next word => exact absurd word other
    · rfl
    · cases Operator.ofKind? t.kind <;> rfl

/-- The variables that some tokens mention are the texts of the variables among them. -/
theorem variables_mentionsOf (tokens : List Token) :
    (mentionsOf tokens).filterMap Mention.variable? =
      (tokens.filter (·.kind = .variableName)).map (·.text) := by
  rw [mentionsOf, List.filterMap_filterMap]
  induction tokens with
  | nil => rfl
  | cons t ts ih =>
    rw [List.filterMap_cons, t.variable?_mention?, List.filter_cons, ih]
    by_cases word : t.kind = .variableName <;> simp [word]

namespace Expr

mutual

/-- What a tree mentions, an operator between its operands and a function before its arguments. -/
def mentions : Expr → List Mention
  | .number _ => []
  | .binary op left right => left.mentions ++ .operator op :: right.mentions
  | .var key _ => [.variable key]
  | .call name _ arguments => .function name :: mentionsAll arguments

def mentionsAll : List Expr → List Mention
  | [] => []
  | e :: es => e.mentions ++ mentionsAll es

end

mutual

theorem variableNames_eq : ∀ e : Expr, e.variableNames = e.mentions.filterMap Mention.variable?
  | .number _ | .var _ _ => rfl
  | .binary op left right => by
    simp only [variableNames, nodes_binary, List.filterMap_cons, List.filterMap_append, mentions,
      Mention.variable?]
    rw [← variableNames_eq left, ← variableNames_eq right]
    rfl
  | .call name callee arguments => by
    simp only [variableNames, nodes_call, List.filterMap_cons, mentions, Mention.variable?]
    exact variableNamesAll_eq arguments

theorem variableNamesAll_eq : ∀ es : List Expr,
    (es.flatMap nodes).filterMap (fun | .var key _ => some key | _ => none) =
      (mentionsAll es).filterMap Mention.variable?
  | [] => rfl
  | e :: es => by
    simp only [List.flatMap_cons, List.filterMap_append, mentionsAll]
    rw [← variableNames_eq e, ← variableNamesAll_eq es]
    rfl

end

end Expr

namespace Parse

open ParseState

/-! ## What is left of some tokens

Stretches of tokens are put one behind the other, and an error that has been
noted excuses what is lost. -/

/-- `made` is left of what the tokens between two states mention. -/
structure Gathers (s : ParseState) (made : List Mention) (next : ParseState) : Prop where
  silent : next.errors = [] → s.errors = []
  kept : ∃ taken, s.cursor.rest = taken ++ next.cursor.rest ∧ made.Sublist (mentionsOf taken) ∧
    (next.errors = [] → made = mentionsOf taken)

namespace Gathers

variable {s t u : ParseState} {as bs : List Mention}

/-- Nothing has been read. -/
theorem still (rest : t.cursor.rest = s.cursor.rest) (errors : t.errors = s.errors) :
    Gathers s [] t :=
  ⟨fun silent => errors ▸ silent, [], rest.symm, .slnil, fun _ => rfl⟩

theorem refl (s : ParseState) : Gathers s [] s := still rfl rfl

theorem claim (s : ParseState) (count : Nat) : Gathers s [] (s.claim count) := still rfl rfl

theorem enter (s : ParseState) : Gathers s [] s.enter := still rfl rfl

theorem leave (s : ParseState) : Gathers s [] s.leave := still rfl rfl

theorem trans (h : Gathers s as t) (h' : Gathers t bs u) : Gathers s (as ++ bs) u := by
  obtain ⟨taken, rest, sub, all⟩ := h.kept
  obtain ⟨taken', rest', sub', all'⟩ := h'.kept
  refine ⟨fun silent => h.silent (h'.silent silent), taken ++ taken', ?_, ?_, fun silent => ?_⟩
  · rw [rest, rest', List.append_assoc]
  · rw [mentionsOf, List.filterMap_append]
    exact sub.append sub'
  · rw [all (h'.silent silent), all' silent, mentionsOf, mentionsOf, mentionsOf,
      List.filterMap_append]

/-- Once an error has been noted, less may be left. -/
theorem lose (h : Gathers s as t) (noted : t.errors ≠ []) (less : bs.Sublist as) :
    Gathers s bs t := by
  obtain ⟨taken, rest, sub, -⟩ := h.kept
  exact ⟨h.silent, taken, rest, less.trans sub, fun silent => absurd silent noted⟩

theorem drop (h : Gathers s as t) (noted : t.errors ≠ []) : Gathers s [] t :=
  h.lose noted (List.nil_sublist as)

theorem noted (h : Gathers s as t) (noted : s.errors ≠ []) : t.errors ≠ [] :=
  fun silent => noted (h.silent silent)

/-! ### Small steps -/

theorem advance (s : ParseState) : Gathers s s.current.mention?.toList s.advance := by
  obtain ⟨⟨position, rest, stop⟩, depth, claimed, journal⟩ := s
  cases rest with
  | nil => exact refl _
  | cons t rest =>
    have all : t.mention?.toList = mentionsOf [t] := by
      rw [mentionsOf, List.filterMap_cons]
      cases t.mention? <;> rfl
    exact ⟨id, [t], rfl, all ▸ List.Sublist.refl _, fun _ => all⟩

theorem advance_of_mention {m : Mention} (h : s.current.mention? = some m) :
    Gathers s [m] s.advance := by
  have step := advance s
  rwa [h] at step

/-- Moving past a token that mentions nothing. -/
theorem plain {kind : TokenKind} (h : s.kind = kind)
    (plain : kind ≠ .variableName ∧ kind ≠ .functionName ∧ Operator.ofKind? kind = none) :
    Gathers s [] s.advance := by
  have step := advance s
  have none : s.current.mention? = none := Token.mention?_of_kind h plain
  rwa [none] at step

theorem faultAt (s : ParseState) (span : Span) (f : ParseFault) : Gathers s [] (s.faultAt span f) :=
  ⟨fun silent => absurd silent (errors_faultAt_ne s span f), [], rfl, .slnil, fun _ => rfl⟩

theorem fault (s : ParseState) (f : ParseFault) : Gathers s [] (s.fault f) := faultAt s _ f

theorem malformedNumber (s : ParseState) (t : Token) :
    Gathers s [] (s.note (.malformedNumber t)) := by
  refine still rfl ?_
  rw [errors_note]
  exact List.append_nil _

end Gathers

/-- What is left of a part of an expression; of one that yields nothing, an error has been noted. -/
def Gathered (s next : ParseState) : Option (List Mention) → Prop
  | none => next.errors ≠ [] ∧ Gathers s [] next
  | some made => Gathers s made next

namespace Gathered

variable {s t u : ParseState} {as : List Mention} {made : Option (List Mention)}

theorem fault (s : ParseState) (f : ParseFault) : Gathered s (s.fault f) none :=
  ⟨errors_fault_ne s f, .fault s f⟩

/-- What stands before a part is put in front of what is left of it. -/
theorem behind (h : Gathers s as t) (h' : Gathered t u made) :
    Gathered s u (made.map (as ++ ·)) := by
  cases made with
  | none => exact ⟨h'.1, (h.trans h'.2).drop h'.1⟩
  | some bs => exact h.trans h'

theorem after (h : Gathers s [] t) (h' : Gathered t u made) : Gathered s u made := by
  have step := behind h h'
  cases made <;> exact step

theorem before (h : Gathered s t made) (h' : Gathers t [] u) : Gathered s u made := by
  cases made with
  | none => exact ⟨h'.noted h.1, h.2.trans h'⟩
  | some bs =>
    have step := Gathers.trans h h'
    rwa [List.append_nil] at step

theorem exists_gathers (h : Gathered s t made) : ∃ as, Gathers s as t := by
  cases made with
  | none => exact ⟨[], h.2⟩
  | some as => exact ⟨as, h⟩

/-- Behind a part that has failed nothing need be left. -/
theorem failed (h : Gathered s t none) (h' : Gathered t u made) : Gathered s u none := by
  obtain ⟨as, step⟩ := h'.exists_gathers
  have noted := step.noted h.1
  exact ⟨noted, (h.2.trans step).drop noted⟩

/-- Once an error has been noted, nothing need be left. -/
theorem fail (h : Gathered s t made) (noted : t.errors ≠ []) : Gathered s t none := by
  cases made with
  | none => exact h
  | some bs => exact ⟨noted, h.drop noted⟩

theorem readNumber (kind : s.kind = .number) :
    Gathered s s.readNumber.2 (some s.readNumber.1.mentions) := by
  have step : Gathers s [] s.advance := .plain kind (by decide)
  unfold ParseState.readNumber
  split
  · exact step
  · exact (Gathers.malformedNumber s s.current).trans (.plain kind (by decide))

theorem readVariable (scope : Scope) (kind : s.kind = .variableName) :
    Gathered s (s.readVariable scope).2 (some (s.readVariable scope).1.mentions) := by
  have word := Token.mention?_variable (t := s.current) kind
  unfold ParseState.readVariable
  dsimp only
  split
  · exact .advance_of_mention word
  · exact (Gathers.fault s _).trans (.advance_of_mention word)

theorem closeBrace (s : ParseState) (name : String) : Gathers s [] (s.closeBrace name) := by
  unfold ParseState.closeBrace
  split
  next closing => exact .plain closing (by decide)
  · exact .fault s _

theorem readBraced (scope : Scope) (kind : s.kind = .leftBrace) :
    Gathered s (s.readBraced scope).2 ((s.readBraced scope).1.map Expr.mentions) := by
  refine .after (.plain kind (by decide)) ?_
  unfold ParseState.readBraced
  dsimp only
  split
  · exact .fault _ _
  next word =>
    have word : (s.advance.claim 1).kind = .variableName := Decidable.not_not.mp word
    split
    · exact .fault _ _
    · exact .after (.claim _ 1) ((readVariable scope word).before (closeBrace _ _))

theorem closeGroup {tree : Option Expr} (h : Gathered s t (tree.map Expr.mentions)) :
    Gathered s (t.closeGroup tree).2 ((t.closeGroup tree).1.map Expr.mentions) := by
  unfold ParseState.closeGroup
  split
  next closing => exact h.before (.plain closing (by decide))
  · exact (h.before (.fault t _)).fail (errors_fault_ne t _)

theorem closeEmptyParentheses (opening : Token) (closing : s.kind = .rightParen) :
    Gathered s (s.closeEmptyParentheses opening) none := by
  have fault :
      Gathers s [] (s.faultAt ⟨opening.span.start, s.current.span.stop⟩ .emptyParentheses) :=
    .faultAt s _ _
  exact Gathered.before ⟨errors_faultAt_ne s _ _, fault⟩ (.plain closing (by decide))

theorem closeCall (scope : Scope) {name : Token} {trees : Option (List Expr)}
    (h : Gathered s t ((trees.map Expr.mentionsAll).map ([.function name.text] ++ ·))) :
    Gathered s (t.closeCall scope name trees).2
      ((t.closeCall scope name trees).1.map Expr.mentions) := by
  unfold ParseState.closeCall
  split
  next closing =>
    have passed := h.before (.plain closing (by decide))
    split
    · cases trees <;> exact passed
    · exact (passed.before (.faultAt _ _ _)).fail (errors_faultAt_ne _ _ _)
  · exact (h.before (.fault t _)).fail (errors_fault_ne t _)

end Gathered

/-! ## All rules

A climb and an extension start with a tree that was read before; their claim
is about what comes behind that tree. -/

/-- What is left of the tokens of a part; a climb puts it behind the tree that it started with. -/
def GathersPart (s next : ParseState) : (part : Part) → part.Yield → Prop
  | .operand, tree | .primary, tree | .chain, tree =>
    Gathered s next (Option.map Expr.mentions tree)
  | .climb _ left, (tree : Expr) =>
    ∃ made, tree.mentions = left.mentions ++ made ∧ Gathers s made next
  | .tighten _ right, (tree : Expr) =>
    ∃ made, tree.mentions = right.mentions ++ made ∧ Gathers s made next
  | .arguments, trees => Gathered s next (Option.map Expr.mentionsAll trees)

section

variable {scope : Scope} {s next after : ParseState}

theorem gathered_negation {tree : Option Expr} (kind : s.kind = .sub)
    (body : Gathered (s.claim 2).advance next (tree.map Expr.mentions)) :
    Gathered s next ((tree.map Expr.negate).map Expr.mentions) := by
  have minus : (s.claim 2).current.mention? = some (.operator .sub) :=
    Token.mention?_operator (by rw [show (s.claim 2).current.kind = .sub from kind]; rfl)
  have whole := Gathered.after (.claim s 2) (.behind (.advance_of_mention minus) body)
  cases tree <;> exact whole

theorem gathered_call {trees : Option (List Expr)} (kind : s.kind = .functionName)
    (opening : (s.claim 1).advance.kind = .leftParen)
    (body : Gathered (s.claim 1).advance.advance next (trees.map Expr.mentionsAll)) :
    Gathered s (next.closeCall scope s.current trees).2
      ((next.closeCall scope s.current trees).1.map Expr.mentions) := by
  have name : (s.claim 1).current.mention? = some (.function s.current.text) :=
    Token.mention?_function kind
  exact .closeCall scope (.after (.claim s 1) (.behind (.advance_of_mention name)
    (.after (.plain opening (by decide)) body)))

/-- The operator in front of an operand and what is left of both. -/
theorem gathered_rightOperand {op : Operator} {tree : Option Expr}
    (operator : s.operator? = some op)
    (body : Gathered (s.claim 1).advance next (tree.map Expr.mentions)) :
    Gathered s next ((tree.map Expr.mentions).map ([.operator op] ++ ·)) := by
  have sign : (s.claim 1).current.mention? = some (.operator op) := Token.mention?_operator operator
  exact .after (.claim s 1) (.behind (.advance_of_mention sign) body)

end

theorem gathered_of_reads {scope : Scope} {part : Part} {s next : ParseState} {yield : part.Yield}
    (h : Reads scope part s yield next) : GathersPart s next part yield := by
  induction h with
  | tooDeep | tooLarge | unexpectedEnd | unexpectedToken => exact .fault _ _
  | operand _ _ ih => exact .after (.enter _) (ih.before (.leave _))
  | number kind _ => exact .after (.claim _ 1) (.readNumber kind)
  | negation kind _ _ ih => exact gathered_negation kind ih
  | emptyParentheses kind closing =>
    exact .after (.plain kind (by decide)) (.closeEmptyParentheses _ closing)
  | group kind _ _ ih => exact .closeGroup (.after (.plain kind (by decide)) ih)
  | braced kind => exact .readBraced _ kind
  | variableName kind _ => exact .after (.claim _ 1) (.readVariable _ kind)
  | call kind _ opening _ ih => exact gathered_call kind opening ih
  | @missingParenthesis s =>
    have name := (Gathers.claim s 1).trans (.advance _)
    exact ⟨errors_fault_ne _ _, (name.trans (.fault _ _)).drop (errors_fault_ne _ _)⟩
  | noChain _ ih => exact ih
  | chain _ _ ihFirst ihMore =>
    obtain ⟨made, e, more⟩ := ihMore
    show Gathers _ _ _
    rw [e]
    exact Gathers.trans ihFirst more
  | climbStop => exact ⟨[], (List.append_nil _).symm, .refl _⟩
  | climbTooLarge => exact ⟨[], (List.append_nil _).symm, .fault _ _⟩
  | climbNoOperand operator _ _ _ ih =>
    exact ⟨[], (List.append_nil _).symm, (@gathered_rightOperand _ _ _ none operator ih).2⟩
  | climb operator _ _ _ _ _ ihBody ihTighter ihMore =>
    obtain ⟨inner, e, tighter⟩ := ihTighter
    obtain ⟨outer, e', more⟩ := ihMore
    have right := @gathered_rightOperand _ _ _ (some _) operator ihBody
    refine ⟨_, ?_, (Gathers.trans right tighter).trans more⟩
    rw [e', Expr.mentions, e]
    simp only [List.append_assoc, List.cons_append, List.nil_append]
  | tightenStop => exact ⟨[], (List.append_nil _).symm, .refl _⟩
  | tightenTighter _ _ _ ih => exact ih
  | tightenTooDeep => exact ⟨[], (List.append_nil _).symm, .fault _ _⟩
  | tightenSame _ _ _ _ _ ih =>
    obtain ⟨made, e, more⟩ := ih
    refine ⟨made, e, ?_⟩
    have whole := (Gathers.enter _).trans (more.trans (.leave _))
    rwa [List.nil_append, List.append_nil] at whole
  | argumentsEnd => exact Gathers.refl _
  | comma kind _ ih => exact .after (.plain kind (by decide)) ih
  | @argument s next after tree trees _ _ _ _ ihFirst ihMore =>
    have both := Gathered.behind ihFirst ihMore
    cases trees <;> exact both
  | failedArgument _ _ _ _ _ ihFirst ihMore => exact Gathered.failed ihFirst ihMore
  | @skippedArgument s next after trees _ _ _ _ _ ihFirst ihMore =>
    have skipped : Gathered next next.advance (some _) := Gathers.advance next
    exact (Gathered.failed ihFirst skipped).failed ihMore

theorem Gathers.finish (s : ParseState) : Gathers s [] s.finish := by
  unfold ParseState.finish
  split
  · exact .refl s
  · exact .fault s _

theorem run_gathered (scope : Scope) (tokens : List Token) :
    Gathered (.start tokens) (run scope tokens).2 ((run scope tokens).1.map Expr.mentions) := by
  have reads : Reads scope .chain (.start tokens) (chain scope (.start tokens)).tree
      (chain scope (.start tokens)).next := (yields scope).2.2.2.1 _
  have parts : Gathered _ _ _ := gathered_of_reads reads
  exact parts.before (.finish _)

variable {scope : Scope} {tokens : List Token}

theorem tree_of_silent (silent : (run scope tokens).2.errors = []) :
    (run scope tokens).1 ≠ none := by
  intro none
  have gathered := run_gathered scope tokens
  rw [none] at gathered
  exact gathered.1 silent

theorem rest_of_silent (silent : (run scope tokens).2.errors = []) :
    (run scope tokens).2.cursor.rest = [] := by
  obtain ⟨rest, -⟩ := finish_silent silent
  rw [run, finish]
  split
  · exact rest
  · exact rest

theorem total_run (scope : Scope) (tokens : List Token) :
    (run scope tokens).2.total = tokens.length := by
  have finished : ∀ s : ParseState, s.finish.total = s.total := by
    intro s
    unfold finish
    split <;> rfl
  calc (run scope tokens).2.total = (chain scope (.start tokens)).next.total := finished _
    _ = (ParseState.start tokens).total := (chain scope (.start tokens)).total
    _ = tokens.length := Nat.zero_add _

end Parse

open Parse ParseState

/-- A tree mentions what its tokens mention, in their order and as often, less what an error has
cost; the variables of a tree that was made without an error are the texts of all variables among
its tokens. -/
theorem parseTokens_mentions (scope : Scope) (tokens : List Token) (t : Expr)
    (made : (parseTokens scope tokens).1.tree = some t) :
    t.mentions.Sublist (mentionsOf tokens) ∧
      ((parseTokens scope tokens).1.error = none →
        t.mentions = mentionsOf tokens ∧
          t.variableNames = (tokens.filter (·.kind = .variableName)).map (·.text)) := by
  obtain ⟨made, noted⟩ := run_of_tree made
  have gathered : Gathered _ _ _ := run_gathered scope tokens
  rw [made] at gathered
  obtain ⟨taken, split, sub, all⟩ := gathered.kept
  have split : tokens = taken ++ (run scope tokens).2.cursor.rest := split
  refine ⟨?_, fun silent => ?_⟩
  · rw [split, mentionsOf, List.filterMap_append]
    exact sub.trans (List.sublist_append_left _ _)
  · have silent : (run scope tokens).2.errors = [] :=
      List.head?_eq_none_iff.mp (noted.symm.trans silent)
    rw [rest_of_silent silent, List.append_nil] at split
    have all : t.mentions = mentionsOf tokens := by rw [all silent, ← split]
    rw [Expr.variableNames_eq, all]
    exact ⟨rfl, variables_mentionsOf tokens⟩

/-- `-X*f()+(Y` has the tree of `-X`: there is no function `f`, and the parse ends behind its
call. -/
theorem parseTokens_mentions_missing_function :
    let scope : Scope := ⟨.empty, .empty⟩
    let tokens : List Token := [⟨.sub, "-", ⟨0, 1⟩⟩, ⟨.variableName, "X", ⟨1, 2⟩⟩,
      ⟨.mul, "*", ⟨2, 3⟩⟩, ⟨.functionName, "f", ⟨3, 4⟩⟩, ⟨.leftParen, "(", ⟨4, 5⟩⟩,
      ⟨.rightParen, ")", ⟨5, 6⟩⟩, ⟨.add, "+", ⟨6, 7⟩⟩, ⟨.leftParen, "(", ⟨7, 8⟩⟩,
      ⟨.variableName, "Y", ⟨8, 9⟩⟩]
    let t : Expr := .negate (.var "X" 0)
    (parseTokens scope tokens).1.tree = some t ∧
      t.mentions.Sublist (mentionsOf tokens) ∧
        ((parseTokens scope tokens).1.error = none →
          t.mentions = mentionsOf tokens ∧
            t.variableNames = (tokens.filter (·.kind = .variableName)).map (·.text)) := by
  intro scope tokens t
  have made : (parseTokens scope tokens).1.tree = some t := by
    rw [parseTokens_of_ne scope (List.cons_ne_nil _ _), @run_of_steps scope 40 tokens _ rfl]
    rfl
  exact ⟨made, parseTokens_mentions scope tokens t made⟩

/-- A parse that makes no tree has an error, and one that has no error makes a tree of all tokens.
So its result is an error only if that was noted. -/
theorem parseTokens_never_silent (scope : Scope) (tokens : List Token) :
    let p := (parseTokens scope tokens).1
    (p.tree = none → p.error ≠ none) ∧
      (p.error = none → p.tree ≠ none ∧ (run scope tokens).2.cursor.atEnd ∧
        (run scope tokens).2.position = tokens.length) ∧
      ∀ e, p.result = .error e ↔ p.error = some e := by
  intro p
  refine ⟨fun none silent => ?_, fun silent => ?_, result_eq_error_iff scope tokens⟩
  · obtain ⟨tree, silent⟩ := run_of_silent silent
    exact tree_of_silent silent (tree.symm.trans none)
  · obtain ⟨tree, silent⟩ := run_of_silent silent
    have rest := rest_of_silent silent
    refine ⟨fun none => tree_of_silent silent (tree.symm.trans none), ?_, ?_⟩
    · rw [Cursor.atEnd, rest]
      rfl
    · have whole := total_run scope tokens
      rw [total_eq, remaining, rest] at whole
      exact whole

end Arith
