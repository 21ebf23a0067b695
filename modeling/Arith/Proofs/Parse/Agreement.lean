/-
# What a scope decides

Of a scope a parse asks only what stands under the names that the tokens
mention.  So in two scopes that agree on these, whatever may be read in one
may be read in the other (`Reads.of_agreed`, rule by rule), and a text has
the same tree, the same error and the same records
(`Scope.parseRecovering_of_agreed`).

**Proved here** as well: when a tree that was read from a text equals
itself.  Its numbers are written without a sign and are never undefined, so
only the values of its variables matter (`Scope.same_self_of_parse`).

The tree of a text is made again whenever the text is evaluated, and between
two evaluations the scope may have changed.  What is proved here is what the
answers of a session rest on: that a change of other names does not matter
(`Arith.Proofs.Session.Copies`).
-/
import Arith.Proofs.Expr.Same
import Arith.Proofs.Parse.Located
import Arith.Proofs.Print.Reparse

namespace Arith

/-- Two scopes have the same under a name. -/
def Mention.AgreedBy (c d : Scope) : Mention → Prop
  | .variable name => c.bindings.get? name = d.bindings.get? name
  | .function name => c.functions.get? name = d.functions.get? name
  | .operator _ => True

/-- Two scopes have the same under each of some names. -/
def Agreed (c d : Scope) (ms : List Mention) : Prop := ∀ m ∈ ms, m.AgreedBy c d

/-- What a text mentions; nothing if it cannot be scanned. -/
def mentionsIn (source : String) : List Mention :=
  match tokenize source with
  | .ok ts => mentionsOf ts
  | .error _ => []

variable {c d : Scope}

namespace Agreed

variable {ms : List Mention} {c' : Scope}

theorem refl (c : Scope) (ms : List Mention) : Agreed c c ms := by
  intro m _
  cases m <;> trivial

theorem symm (h : Agreed c d ms) : Agreed d c ms := by
  intro m mem
  have same := h m mem
  rcases m with name | name | op
  · exact Eq.symm same
  · exact Eq.symm same
  · trivial

theorem trans (h : Agreed c d ms) (h' : Agreed d c' ms) : Agreed c c' ms := by
  intro m mem
  have same := h m mem
  have same' := h' m mem
  rcases m with name | name | op
  · exact Eq.trans same same'
  · exact Eq.trans same same'
  · trivial

end Agreed

theorem Agreed.bindings {ts : List Token} {t : Token} (h : Agreed c d (mentionsOf ts))
    (mem : t ∈ ts)
    (kind : t.kind = .variableName) : c.bindings.get? t.text = d.bindings.get? t.text := by
  have mentioned : .variable t.text ∈ mentionsOf ts :=
    List.mem_filterMap.mpr ⟨t, mem, Token.mention?_variable kind⟩
  exact h _ mentioned

theorem Agreed.functions {ts : List Token} {t : Token} (h : Agreed c d (mentionsOf ts))
    (mem : t ∈ ts)
    (kind : t.kind = .functionName) : c.functions.get? t.text = d.functions.get? t.text := by
  have mentioned : .function t.text ∈ mentionsOf ts :=
    List.mem_filterMap.mpr ⟨t, mem, Token.mention?_function kind⟩
  exact h _ mentioned

namespace Parse

open ParseState

variable {tokens : List Token} {s next : ParseState}

/-! ## Small steps

The three that ask the scope, each for the text of a token at the cursor or
for the name of a call. -/

theorem readVariable_of_agreed (agreed : Agreed c d (mentionsOf tokens))
    (located : s.Located tokens)
    (kind : s.kind = .variableName) : s.readVariable c = s.readVariable d := by
  have mem : s.current ∈ tokens := located.mem_of_kind kind (by simp)
  have same := agreed.bindings mem kind
  simp only [readVariable, same]

theorem readBraced_of_agreed (agreed : Agreed c d (mentionsOf tokens))
    (located : s.Located tokens) :
    s.readBraced c = s.readBraced d := by
  by_cases kind : s.advance.kind = .variableName
  · have same : (s.advance.claim 1).readVariable c = (s.advance.claim 1).readVariable d :=
      readVariable_of_agreed agreed (located.advance.claim 1) kind
    simp only [readBraced, same]
  · simp only [readBraced, if_pos kind]

theorem closeCall_of_agreed {name : Token} (agreed : Agreed c d (mentionsOf tokens))
    (mem : name ∈ tokens) (kind : name.kind = .functionName) (s : ParseState)
    (trees : Option (List Expr)) : s.closeCall c name trees = s.closeCall d name trees := by
  have same := agreed.functions mem kind
  simp only [closeCall, same]

/-! ## Readings -/

/-- A scope is asked in three rules only, each time for a name that stands among the tokens. -/
theorem Reads.of_agreed {part : Part} {yield : part.Yield} (agreed : Agreed c d (mentionsOf tokens))
    (h : Reads c part s yield next) (located : s.Located tokens) : Reads d part s yield next := by
  induction h with
  | tooDeep deep => exact .tooDeep deep
  | operand deep _ ih => exact .operand deep (ih located.enter)
  | tooLarge claims large => exact .tooLarge claims large
  | number kind large => exact .number kind large
  | negation kind large _ ih => exact .negation kind large (ih (located.claim 2).advance)
  | emptyParentheses kind closing => exact .emptyParentheses kind closing
  | group kind closing _ ih => exact .group kind closing (ih located.advance)
  | braced kind =>
    rw [readBraced_of_agreed agreed located]
    exact .braced kind
  | variableName kind large =>
    rw [readVariable_of_agreed agreed (located.claim 1) kind]
    exact .variableName kind large
  | call kind large opening _ ih =>
    have mem := located.mem_of_kind kind (by simp)
    rw [closeCall_of_agreed agreed mem kind]
    exact .call kind large opening (ih (located.claim 1).advance.advance)
  | missingParenthesis kind large opening => exact .missingParenthesis kind large opening
  | unexpectedEnd kind => exact .unexpectedEnd kind
  | unexpectedToken claims paren brace eof => exact .unexpectedToken claims paren brace eof
  | noChain _ ih => exact .noChain (ih located)
  | chain first _ ihFirst ihMore => exact .chain (ihFirst located) (ihMore (first.located located))
  | climbStop stop => exact .climbStop stop
  | climbTooLarge operator tight large => exact .climbTooLarge operator tight large
  | climbNoOperand operator tight large _ ih =>
    exact .climbNoOperand operator tight large (ih (located.claim 1).advance)
  | climb operator tight large body tighter _ ihBody ihTighter ihMore =>
    have right := body.located (located.claim 1).advance
    have extended := tighter.located right
    exact .climb operator tight large (ihBody (located.claim 1).advance) (ihTighter right)
      (ihMore extended)
  | tightenStop stop => exact .tightenStop stop
  | tightenTighter operator tight _ ih => exact .tightenTighter operator tight (ih located)
  | tightenTooDeep operator same rightward deep =>
    exact .tightenTooDeep operator same rightward deep
  | tightenSame operator same rightward deep _ ih =>
    exact .tightenSame operator same rightward deep (ih located.enter)
  | argumentsEnd closing => exact .argumentsEnd closing
  | comma kind _ ih => exact .comma kind (ih located.advance)
  | argument closing comma first _ ihFirst ihMore =>
    exact .argument closing comma (ihFirst located) (ihMore (first.located located))
  | failedArgument closing comma first moved _ ihFirst ihMore =>
    exact .failedArgument closing comma (ihFirst located) moved (ihMore (first.located located))
  | skippedArgument closing comma first moved _ ihFirst ihMore =>
    exact .skippedArgument closing comma (ihFirst located) moved
      (ihMore (first.located located).advance)

/-- A parse ends in one state, whichever of two scopes it is made in that agree on the names. -/
theorem run_of_agreed (agreed : Agreed c d (mentionsOf tokens)) : run c tokens = run d tokens := by
  have reads : Reads c .chain (.start tokens) (chain c (.start tokens)).tree
      (chain c (.start tokens)).next := (yields c).2.2.2.1 (.start tokens)
  obtain ⟨tree, next⟩ := chain_of_reads (reads.of_agreed agreed (.start tokens))
  simp only [run, tree, next]

end Parse

/-- Tokens are parsed alike, with all that is told of it, in scopes that agree on what they
mention. -/
theorem parseTokens_of_agreed {tokens : List Token} (agreed : Agreed c d (mentionsOf tokens)) :
    parseTokens c tokens = parseTokens d tokens := by
  simp only [parseTokens, Parse.run_of_agreed agreed]

namespace Scope

variable {source : String} {e : Expr}

theorem mentions_of_parse (parses : (c.parse source).1 = .ok e) :
    e.mentions = mentionsIn source := by
  obtain ⟨ts, lexes, result⟩ := parse_eq_ok_iff.mp parses
  obtain ⟨made, silent⟩ := (result_eq_ok_iff_run c ts e).mp result
  have gathered : Parse.Gathered _ _ _ := Parse.run_gathered c ts
  rw [made] at gathered
  obtain ⟨taken, split, -, all⟩ := gathered.kept
  have split : ts = taken ++ (Parse.run c ts).2.cursor.rest := split
  rw [Parse.rest_of_silent silent, List.append_nil] at split
  rw [mentionsIn, lexes, all silent, ← split]

/-- A text is parsed alike in scopes that agree on what it mentions, whether or not it has
errors. -/
theorem parseRecovering_of_agreed (h : Agreed c d (mentionsIn source)) :
    c.parseRecovering source = d.parseRecovering source := by
  rw [mentionsIn, tokenize] at h
  simp only [parseRecovering]
  cases result : (scan source).result with
  | error e => rfl
  | ok tokens =>
    rw [result] at h
    simp only [parseTokens_of_agreed h]

theorem parse_of_agreed (h : Agreed c d (mentionsIn source)) (parses : (c.parse source).1 = .ok e) :
    (d.parse source).1 = .ok e := by
  rw [parse_fst, ← parseRecovering_of_agreed h, ← parse_fst]
  exact parses

/-- The tree of a text equals itself unless the scope binds one of its variables to an undefined
number. -/
theorem same_self_of_parse (parses : (c.parse source).1 = .ok e) : e.same e ↔
    ∀ name value, .variable name ∈ mentionsIn source → c.bindings.get? name = some value →
      ¬ value.isNaN := by
  rw [Expr.same_self_iff, ← mentions_of_parse parses]
  obtain ⟨faithful, -⟩ := faithful_of_parse parses
  constructor
  · intro defined name value mentioned bound
    obtain ⟨value', mem⟩ := Expr.variable_mem_mentions_iff.mp mentioned
    have resolved : c.bindings.get? name = some value' := (faithful _ mem).2
    obtain rfl : value' = value := Option.some.inj (resolved.symm.trans bound)
    exact defined _ mem
  · intro defined n mem
    cases n with
    | number value =>
      obtain ⟨bits, le, rfl⟩ := (faithful _ mem).1
      exact not_isNaN_floatOfBits le
    | var name value =>
      exact defined name value (Expr.variable_mem_mentions_iff.mpr ⟨value, mem⟩) (faithful _ mem).2
    | binary | call => trivial

end Scope

end Arith
