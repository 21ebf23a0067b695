/-
# The expression, from the arguments or from the input

The program evaluates one text, and what it evaluates depends on the text
and the options alone.  So an expression among the arguments leaves behind
what the same expression in the input does, where the line ends behind it
are cut off again (`inputExpression_append`).

The exception is an expression that starts with a minus sign.  An argument
that starts so is read as options, and is no expression unless the options
have been ended before it.

The input is read only where no expression was named.  So of the two runs
that are compared one does not look at its input, and what it is given there
is arbitrary (`unread`).

There are three ways to put an argument: among the options, behind `--`,
and, for one that looks like an option, where options can still be read.  In
the last case the program ends before anything is evaluated: an option is
carried out that starts as the argument does, or it is refused as unknown.

**Proved here.** `respond_expression`: both ways come to the same, with this
exception; `not_respond_expression_dashed`: and it is one, as the value of
`-1` is written only if it is in the input.
-/
import Arith.Command.Program
import Arith.Proofs.Command.Arguments
import Arith.Proofs.Print.Leaves
import Arith.Proofs.Text.Trimming

namespace Arith.Program

open Options Grammar

/-! ## The input

What is read is bytes, and the text is what is left of them without the line
ends behind it. -/

/-- A line feed or a carriage return. -/
def IsLineEnd (c : Char) : Prop := c = '\n' ∨ c = '\r'

/-- A text does not end in a line end. -/
def Unended (source : String) : Prop := ∀ c ∈ source.toList.getLast?, ¬ IsLineEnd c

variable {source : String} {run : List Char}

theorem fromUTF8?_toUTF8 (text : String) : String.fromUTF8? text.toUTF8 = some text :=
  dif_pos text.isValidUTF8

/-- Line ends behind the expression do not belong to it. -/
theorem inputExpression_append (unended : Unended source) (ends : ∀ c ∈ run, IsLineEnd c) :
    inputExpression (source ++ String.ofList run).toUTF8 = some source := by
  have isEnd : ∀ c, (c == '\n' || c == '\r') = true ↔ IsLineEnd c := by simp [IsLineEnd]
  have cut :
      dropTrailing (fun c => c == '\n' || c == '\r') (source.toList ++ run) = source.toList := by
    refine dropTrailing_append_of_all (fun c mem => (isEnd c).mpr (ends c mem)) ?_
    intro c mem ends
    exact unended c mem ((isEnd c).mp ends)
  rw [inputExpression, fromUTF8?_toUTF8, Option.map_some, String.toList_append,
    String.toList_ofList, cut, String.ofList_toList]

/-! ## One run for both

Both command lines are brought to the same options, and then the program
does the same with the same text. -/

/-- An expression among the options is evaluated as one in the input is. -/
theorem runWith_expression {o : Options} (none : o.expression = none) (logSpec : Option String)
    {input : ByteArray} (holds : inputExpression input = some source) (unread : ByteArray) :
    runWith { o with expression := some source } logSpec unread = runWith o logSpec input := by
  have chosen : expression? o input = some source := by rw [expression?, none, holds]
  have chosen' : expression? { o with expression := some source } unread = some source := rfl
  simp only [runWith, chosen, chosen']
  rfl

/-- Arguments that differ in the expression only leave behind what the expression in the input
does. -/
theorem respond_of_map {named unnamed : List String}
    (read : ofArguments named = (ofArguments unnamed).map ({ · with expression := some source }))
    (none : ∀ o, ofArguments unnamed = .ok o → o.expression = none) (logSpec : Option String)
    {input : ByteArray} (holds : inputExpression input = some source) (unread : ByteArray) :
    respond named logSpec unread = respond unnamed logSpec input := by
  rw [respond, read, respond]
  cases options : ofArguments unnamed with
  | error halt => rfl
  | ok o => exact runWith_expression (none o options) logSpec holds unread

/-- What cannot be evaluated ends the program with one, and what can with zero. -/
theorem exit_evaluate_le (o : Options) (filter : LogFilter) (source stdout : String)
    (records : List Record) : (evaluate o filter source stdout records).exit ≤ 1 := by
  unfold evaluate
  split
  · exact Nat.le_refl 1
  · exact Nat.zero_le 1

theorem exit_run_le (o : Options) (filter : LogFilter) (source : String) :
    (Program.run o filter source).exit ≤ 1 := by
  cases shown : o.showTokens with
  | false =>
    rw [Program.run, shown]
    exact exit_evaluate_le o filter source _ _
  | true =>
    cases scanned : (scan source).result with
    | error e =>
      simp only [Program.run, shown, scanned]
      exact Nat.le_refl 1
    | ok tokens =>
      simp only [Program.run, shown, scanned]
      exact exit_evaluate_le o filter source _ _

/-- An expression in the input is not answered as a refused argument is. -/
theorem respond_ne_refused {arguments : List String} {o : Options} {input : ByteArray}
    (options : ofArguments arguments = .ok o) (none : o.expression = none)
    (holds : inputExpression input = some source) (logSpec : Option String) (e : UsageError) :
    respond arguments logSpec input ≠ halted (.usage e) := by
  intro same
  have chosen : expression? o input = some source := by rw [expression?, none, holds]
  have ran : (respond arguments logSpec input).exit ≤ 1 := by
    rw [respond, options]
    simp only [runWith, chosen]
    exact exit_run_le o _ source
  rw [same] at ran
  exact absurd ran (Nat.not_succ_le_self 1)

/-- When an expression may be among the arguments as well as in the input: between any options if
it does not look like one itself, and behind `--` in any case.  An expression that starts with a
minus sign is not read as one elsewhere; if no option starts as it does, it is refused, as nothing
in the input is. -/
theorem respond_expression (before behind : List Choice) (plain : ∀ c ∈ before ++ behind, c.Plain)
    (unended : Unended source) (ends : ∀ c ∈ run, IsLineEnd c) (logSpec : Option String)
    (unread : ByteArray) :
    let among := respond (argumentsOf before ++ source :: argumentsOf behind) logSpec unread
    let onInput := respond (argumentsOf (before ++ behind)) logSpec
      (source ++ String.ofList run).toUTF8
    (¬ Dashed source → among = onInput) ∧
      respond (argumentsOf (before ++ behind) ++ ["--", source]) logSpec unread = onInput ∧
      (∀ o, ofArguments (argumentsOf (before ++ behind)) = .ok o → ∀ halt, Stops source halt →
        among = halted halt ∧ ∀ e, halt = .usage e → among ≠ onInput) ∧
      (Dashed source → ∀ o, ofArguments (argumentsOf (before ++ behind) ++ [source]) = .ok o →
        o.expression = none) := by
  intro among onInput
  have holds := inputExpression_append unended ends
  have none : ∀ o, ofArguments (argumentsOf (before ++ behind)) = .ok o → o.expression = none :=
    fun o => expression_of_choices plain
  refine ⟨?bare, ?ended, ?stopped, fun dashed o => expression_of_dashed plain dashed⟩
  case bare =>
    intro bare
    exact respond_of_map (ofArguments_expression plain bare) none logSpec holds unread
  case ended => exact respond_of_map (ofArguments_ended plain source) none logSpec holds unread
  case stopped =>
    intro o options halt stops
    have refused : among = halted halt := by
      obtain ⟨p, carried, -⟩ := carried_of_ofArguments plain options
      rw [List.foldlM_append] at carried
      cases front : before.foldlM Choice.apply Progress.start with
      | error halt =>
        rw [front] at carried
        cases carried
      | ok q =>
        have read := ofArguments_of_stops (List.forall_mem_append.mp plain).1 front stops
          (argumentsOf behind)
        rw [show among = respond _ logSpec unread from rfl, respond, read]
    refine ⟨refused, ?_⟩
    rintro e rfl same
    exact respond_ne_refused options (none o options) holds logSpec e (same.symm.trans refused)

/-- `X+1` may stand between options, `-X` behind `--`, and elsewhere `-X` is refused. -/
theorem respond_expression_between :
    let unread := ByteArray.empty
    let onInput := respond ["--var", "X=1"] none "-X\r\n".toUTF8
    respond ["--var", "X=1", "X+1", "--json"] none unread =
        respond ["--var", "X=1", "--json"] none "X+1\r\n".toUTF8 ∧
      respond ["--var", "X=1", "--", "-X"] none unread = onInput ∧
      respond ["--var", "X=1", "-X"] none unread = halted (.usage (.unexpectedArgument "-X")) ∧
      respond ["--var", "X=1", "-X"] none unread ≠ onInput := by
  intro unread onInput
  have plain : ∀ c ∈ [Choice.assign "X=1"], c.Plain := by
    rintro _ (_ | ⟨_, ⟨⟩⟩)
    rintro ⟨c, cs, chars⟩
    cases chars
  have plain' : ∀ c ∈ [Choice.assign "X=1"] ++ [.set .json], c.Plain :=
    List.forall_mem_append.mpr ⟨plain, List.forall_mem_singleton.mpr trivial⟩
  have ends : ∀ c ∈ ['\r', '\n'], IsLineEnd c := by simp [IsLineEnd]
  have sum : Unended "X+1" := by simp [Unended, IsLineEnd]
  have negation : Unended "-X" := by simp [Unended, IsLineEnd]
  have bare : ¬ Dashed "X+1" := by
    rintro ⟨c, cs, chars⟩
    cases chars
  obtain ⟨-, ended, stopped, -⟩ :=
    respond_expression [.assign "X=1"] [] plain negation ends none unread
  obtain ⟨refused, differs⟩ := stopped _ rfl _ (.unknown rfl (by decide) rfl)
  have between := (respond_expression _ _ plain' sum ends none unread).1 bare
  exact ⟨between, ended, refused, differs _ rfl⟩

/-! ## An expression that looks like an option -/

/-- The program ends well where the expression has a tree and no tokens are shown. -/
theorem exit_run {o : Options} {tree : Expr} (parses : ((scope o).parse source).1 = .ok tree)
    (showTokens : o.showTokens = false) (filter : LogFilter) :
    (Program.run o filter source).exit = 0 := by
  rw [Program.run, showTokens, if_neg Bool.false_ne_true, evaluate]
  cases parsed : (scope o).parse source with
  | mk result records =>
    rw [parsed] at parses
    cases parses
    rfl

theorem parse_minusOne (scope : Scope) : ∃ tree, (scope.parse "-1").1 = .ok tree := by
  let minus : Token := ⟨.sub, "-", ⟨0, 1⟩⟩
  let one : Token := ⟨.number, "1", ⟨1, 2⟩⟩
  let x : Operand := .negation ⟨minus, rfl⟩ (.number ⟨one, rfl⟩)
  have scanned : tokenize "-1" = .ok [minus, one] := by cbv
  have known : Known scope ([minus] ++ [one]) :=
    known_append.mpr ⟨known_of_kind rfl (by simp), known_of_kind rfl (by simp)⟩
  exact ⟨_, Scope.parse_operand (x := x) scanned trivial known (by decide) (by decide)⟩

/-- So not every expression may be given as an argument: `-1` is refused, and in the input it is
evaluated. -/
theorem not_respond_expression_dashed :
    ¬ ∀ (choices : List Choice) (source : String) (run : List Char), (∀ c ∈ choices, c.Plain) →
      Unended source → (∀ c ∈ run, IsLineEnd c) → ∀ (logSpec : Option String) (unread : ByteArray),
        respond (argumentsOf choices ++ [source]) logSpec unread =
          respond (argumentsOf choices) logSpec (source ++ String.ofList run).toUTF8 := by
  intro same
  have unended : Unended "-1" := by simp [Unended, IsLineEnd]
  have ends : ∀ c ∈ ['\n'], IsLineEnd c := by simp [IsLineEnd]
  have one := same [] "-1" ['\n'] (List.forall_mem_nil _) unended ends none ByteArray.empty
  have refused : (respond ["-1"] none ByteArray.empty).exit = 2 := rfl
  have evaluated : (respond [] none ("-1" ++ String.ofList ['\n']).toUTF8).exit = 0 := by
    have chosen : expression? Options.initial ("-1" ++ String.ofList ['\n']).toUTF8 = some "-1" :=
      inputExpression_append unended ends
    obtain ⟨tree, parses⟩ := parse_minusOne (scope .initial)
    show (runWith Options.initial none _).exit = 0
    simp only [runWith, chosen]
    exact exit_run parses rfl _
  have exits : (respond ["-1"] none ByteArray.empty).exit =
      (respond [] none ("-1" ++ String.ofList ['\n']).toUTF8).exit := congrArg Transcript.exit one
  rw [refused, evaluated] at exits
  cases exits

end Arith.Program
