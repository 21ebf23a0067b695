/-
# What options in a row come to

A command line is read argument by argument, and an assignment is checked
only when something known follows it.  Of whole options nothing of this is
left: reading the arguments of some options in a row and then checking what
is pending is the same as carrying the options out one after the other
(`after_choices`).

So it does not matter between which options the expression stands, and
taking it out changes nothing but the expression (`ofArguments_expression`).
What may be read as options is never taken for it (`expression_of_dashed`),
unless options have been ended (`ofArguments_ended`).  And what is assigned
is what the options say, in their order (`assignments_of_choices`).

What is read so far is a `Progress`: the options that have been carried out,
what is pending, and whether options have been ended.  Three things may be
pending: nothing, the value of `--var`, or an assignment that has been given
and is still to be checked.  Behind a whole option a value is never awaited
(`Open`); behind one that has been checked nothing is pending at all
(`Settled`).

That the expression makes no difference to the rest is a statement about
every function that reads: with another expression to begin with it does the
same, and leaves that expression in its place (`withExpression`).
-/
import Mathlib.Data.List.Forall2
import Mathlib.Data.List.TakeDrop
import Arith.Command.Options

namespace Arith.Options

/-- An argument that is read as options, where it does not stand behind `--`. -/
def Dashed (argument : String) : Prop := ∃ c cs, argument.toList = '-' :: c :: cs

/-- What an argument is refused or answered with, if it starts with an option behind which nothing
is read. -/
inductive Stops (argument : String) : Halt → Prop where
  | unknown {c : Char} {cs : List Char} (chars : argument.toList = '-' :: c :: cs)
      (single : c ≠ '-') (none : Switch.ofShort? c = none) :
      Stops argument (.usage (.unexpectedArgument (String.ofList ['-', c])))
  | unknownLong {c : Char} {cs : List Char} {name : String} {value : Option String}
      (chars : argument.toList = '-' :: '-' :: c :: cs)
      (parts : Progress.splitLong argument.toList = (name, value))
      (ne : name ≠ "--var") (none : Switch.named? name = none) :
      Stops argument (.usage (.unexpectedArgument name))
  | help {cs : List Char} (chars : argument.toList = '-' :: 'h' :: cs) : Stops argument .help
  | version {cs : List Char} (chars : argument.toList = '-' :: 'V' :: cs) : Stops argument .version

/-- One option of a command line. -/
inductive Choice where
  /-- `--var` with its value in the next argument. -/
  | assign (text : String)
  /-- `--var` with its value behind an equals sign. -/
  | assignInline (text : String)
  | set (switch : Switch)

namespace Choice

/-- How an option is written. -/
def arguments : Choice → List String
  | .assign text => ["--var", text]
  | .assignInline text => ["--var=" ++ text]
  | .set switch => [switch.name]

/-- Whether the argument behind `--var` is its value. -/
def Plain : Choice → Prop
  | .assign text => ¬ Dashed text
  | _ => True

/-- The text of the assignment that an option makes. -/
def assigned? : Choice → Option String
  | .assign text | .assignInline text => some text
  | .set _ => none

/-- Carries an option out. -/
def apply (p : Progress) : Choice → Except Halt Progress
  | .assign text | .assignInline text => p.assign text
  | .set switch => p.set switch

end Choice

/-- Some texts are read as assignments, one after the other. -/
abbrev Readings (texts : List String) (pairs : List (String × Float)) : Prop :=
  List.Forall₂ (fun text pair => readAssignment text = .ok pair) texts pairs

/-- How some options are written. -/
def argumentsOf (cs : List Choice) : List String := cs.flatMap Choice.arguments

namespace Progress

/-- How far some arguments lead. -/
def after (p : Progress) (arguments : List String) : Except Halt Progress := arguments.foldlM read p

theorem after_append (p : Progress) (as bs : List String) :
    p.after (as ++ bs) = p.after as >>= fun q => q.after bs := List.foldlM_append

theorem after_cons (p : Progress) (a : String) (as : List String) :
    p.after (a :: as) = p.read a >>= fun q => q.after as := List.foldlM_cons

theorem after_singleton (p : Progress) (a : String) : p.after [a] = p.read a :=
  (after_cons p a []).trans (bind_pure _)

theorem readAll_eq (p : Progress) (arguments : List String) :
    p.readAll arguments = (p.after arguments >>= settle).map (·.options) := by
  induction arguments generalizing p with
  | nil => exact bind_pure_comp _ p.settle
  | cons a as ih =>
    rw [readAll, after_cons]
    cases p.read a with
    | error halt => rfl
    | ok q => exact ih q

/-! ## Single arguments

How a state goes on behind each kind of argument, and that it is settled
again if it was. -/

/-- Nothing is pending, and options have not been ended. -/
structure Settled (p : Progress) : Prop where
  pending : p.pending = .nothing
  ended : p.ended = false

/-- No value is awaited, and options have not been ended. -/
structure Open (p : Progress) : Prop where
  pending : p.pending ≠ .awaited
  ended : p.ended = false

variable {p q : Progress} {text : String}

theorem Settled.isOpen (h : p.Settled) : p.Open := ⟨by simp [h.pending], h.ended⟩

theorem Settled.settle (h : p.Settled) : p.settle = .ok p := by
  rw [Progress.settle, h.pending]

theorem Settled.assign (h : p.Settled) (ok : p.assign text = .ok q) : q.Settled := by
  unfold Progress.assign at ok
  split at ok
  · cases ok
    exact ⟨h.pending, h.ended⟩
  · cases ok

theorem settled_of_settle (ended : p.ended = false) (ok : p.settle = .ok q) : q.Settled := by
  unfold Progress.settle at ok
  split at ok
  next nothing =>
    cases ok
    exact ⟨nothing, ended⟩
  · cases ok
  · have cleared : ({ p with pending := .nothing } : Progress).Settled := ⟨rfl, ended⟩
    exact cleared.assign ok

/-- A switch is set when what is pending has been checked. -/
theorem set_eq (ended : p.ended = false) (switch : Switch) :
    p.set switch = p.settle >>= fun q => q.set switch := by
  cases checked : p.settle with
  | error e => simp only [set, checked]; rfl
  | ok q =>
    have same := (settled_of_settle ended checked).settle
    show p.set switch = q.set switch
    simp only [set, checked, same]

/-- Switches leave the assignments, and nothing pending. -/
theorem Settled.set (h : p.Settled) {switch : Switch} (ok : p.set switch = .ok q) :
    q.Settled ∧ q.options.assignments = p.options.assignments := by
  have once : ∀ {switch isSet options}, p.setOnce switch isSet options = .ok q →
      options.assignments = p.options.assignments →
        q.Settled ∧ q.options.assignments = p.options.assignments := by
    intro switch isSet options ok same
    unfold setOnce at ok
    split at ok
    · cases ok
    · cases ok
      exact ⟨⟨h.pending, h.ended⟩, same⟩
  cases switch with
  | verbose =>
    simp only [Progress.set, h.settle] at ok
    cases ok
    exact ⟨⟨h.pending, h.ended⟩, rfl⟩
  | tokens | ast | json =>
    simp only [Progress.set, h.settle] at ok
    exact once ok rfl
  | help | version =>
    simp only [Progress.set, h.settle] at ok
    cases ok

theorem Settled.apply (h : p.Settled) {c : Choice} (ok : c.apply p = .ok q) : q.Settled := by
  cases c with
  | assign | assignInline => exact h.assign ok
  | set => exact (h.set ok).1

theorem Settled.assignments_of_apply (h : p.Settled) {c : Choice} (ok : c.apply p = .ok q) :
    ∃ pairs, Readings c.assigned?.toList pairs ∧
      q.options.assignments = p.options.assignments ++ pairs := by
  have assign : ∀ {text}, p.assign text = .ok q → ∃ pairs, Readings [text] pairs ∧
      q.options.assignments = p.options.assignments ++ pairs := by
    intro text ok
    unfold Progress.assign at ok
    split at ok
    next pair reads =>
      cases ok
      exact ⟨[pair], .cons reads .nil, rfl⟩
    · cases ok
  cases c with
  | assign | assignInline => exact assign ok
  | set => exact ⟨[], .nil, (h.set ok).2.trans (List.append_nil _).symm⟩

theorem Settled.assignments_of_foldlM (h : p.Settled) {cs : List Choice}
    (ok : cs.foldlM Choice.apply p = .ok q) :
    ∃ pairs, Readings (cs.filterMap Choice.assigned?) pairs ∧
      q.options.assignments = p.options.assignments ++ pairs := by
  induction cs generalizing p with
  | nil =>
    cases ok
    exact ⟨[], .nil, (List.append_nil _).symm⟩
  | cons c cs ih =>
    rw [List.foldlM_cons] at ok
    cases applied : c.apply p with
    | error halt =>
      rw [applied] at ok
      cases ok
    | ok r =>
      rw [applied] at ok
      obtain ⟨pairs, reads, added⟩ := h.assignments_of_apply applied
      obtain ⟨pairs', reads', added'⟩ := ih (h.apply applied) ok
      refine ⟨pairs ++ pairs', ?_, by rw [added', added, List.append_assoc]⟩
      have texts : (c :: cs).filterMap Choice.assigned? =
          c.assigned?.toList ++ cs.filterMap Choice.assigned? := by
        cases e : c.assigned? with
        | none => rw [List.filterMap_cons_none e]; rfl
        | some text => rw [List.filterMap_cons_some e]; rfl
      rw [texts]
      exact List.rel_append reads reads'

theorem read_name (ended : p.ended = false) (switch : Switch) :
    p.read switch.name = p.set switch := by
  obtain ⟨options, pending, _⟩ := p
  cases ended
  cases switch <;> rfl

theorem read_var (ended : p.ended = false) :
    p.read "--var" = p.settle >>= fun q => .ok { q with pending := .awaited } := by
  obtain ⟨options, pending, _⟩ := p
  cases ended
  rfl

theorem read_inline (ended : p.ended = false) (text : String) :
    p.read ("--var=" ++ text) = p.settle >>= fun q => q.assign text := by
  obtain ⟨options, pending, _⟩ := p
  cases ended
  have chars :
      ("--var=" ++ text).toList = '-' :: '-' :: 'v' :: 'a' :: 'r' :: '=' :: text.toList := by
    simp
  have parts : splitLong ('-' :: '-' :: 'v' :: 'a' :: 'r' :: '=' :: text.toList) =
      ("--var", some text) := by
    rw [splitLong, List.span_eq_takeWhile_dropWhile]
    simp
  simp only [read, chars, parts]
  rfl

theorem read_plain (ended : p.ended = false) (plain : ¬ Dashed text) :
    p.read text = p.plain text := by
  unfold read
  rw [ended]
  split
  · contradiction
  · split
    next e => exact absurd ⟨_, _, e⟩ plain
    next e => exact absurd ⟨_, _, e⟩ plain
    next e => exact absurd ⟨_, _, e⟩ plain
    · rfl

/-! ## The expression

Each function that reads commutes with putting an expression in, down to the
letters of a group of short options. -/

/-- The same with an expression, or without one. -/
def withExpression (p : Progress) (expression : Option String) : Progress :=
  { p with options := { p.options with expression } }

section

variable (p : Progress) (expression : Option String)

theorem assign_withExpression (text : String) :
    (p.withExpression expression).assign text =
      (p.assign text).map (·.withExpression expression) := by
  unfold Progress.assign
  cases readAssignment text <;> rfl

theorem settle_withExpression :
    (p.withExpression expression).settle = p.settle.map (·.withExpression expression) := by
  obtain ⟨options, pending, ended⟩ := p
  cases pending with
  | nothing | awaited => rfl
  | given text => exact assign_withExpression ⟨options, .nothing, ended⟩ expression text

/-- Switches neither ask for the expression nor set it. -/
theorem set_withExpression (switch : Switch) :
    (p.withExpression expression).set switch =
      (p.set switch).map (·.withExpression expression) := by
  unfold Progress.set
  rw [settle_withExpression]
  cases p.settle with
  | error e => rfl
  | ok q =>
    have once : ∀ isSet options, (q.withExpression expression).setOnce switch isSet
        { options with expression } =
          (q.setOnce switch isSet options).map (·.withExpression expression) := by
      intro isSet options
      unfold setOnce
      cases isSet <;> rfl
    cases switch with
    | verbose | help | version => rfl
    | tokens => exact once q.options.showTokens { q.options with showTokens := true }
    | ast => exact once q.options.showTree { q.options with showTree := true }
    | json => exact once q.options.asJson { q.options with asJson := true }

theorem apply_withExpression (c : Choice) :
    c.apply (p.withExpression expression) = (c.apply p).map (·.withExpression expression) := by
  cases c with
  | assign | assignInline => exact assign_withExpression p expression _
  | set => exact set_withExpression p expression _

theorem foldlM_withExpression (cs : List Choice) :
    cs.foldlM Choice.apply (p.withExpression expression) =
      (cs.foldlM Choice.apply p).map (·.withExpression expression) := by
  induction cs generalizing p with
  | nil => rfl
  | cons c cs ih =>
    rw [List.foldlM_cons, List.foldlM_cons, apply_withExpression]
    cases c.apply p with
    | error e => rfl
    | ok q => exact ih q

theorem short_withExpression (cs : List Char) :
    (p.withExpression expression).short cs = (p.short cs).map (·.withExpression expression) := by
  induction cs generalizing p with
  | nil => rfl
  | cons c cs ih =>
    unfold short
    cases Switch.ofShort? c with
    | none => rfl
    | some switch =>
      show ((p.withExpression expression).set switch >>= fun q => q.short cs) = _
      rw [set_withExpression]
      cases e : p.set switch with
      | error e => simp only [e]; rfl
      | ok q => simp only [e]; exact ih q

theorem long_withExpression (name : String) (value : Option String) :
    (p.withExpression expression).long name value =
      (p.long name value).map (·.withExpression expression) := by
  unfold long
  split
  · rw [settle_withExpression]
    cases p.settle with
    | error e => rfl
    | ok q =>
      cases value with
      | none => rfl
      | some text => exact assign_withExpression q expression text
  · cases Switch.named? name with
    | none => rfl
    | some switch =>
      cases value with
      | none => exact set_withExpression p expression switch
      | some text => rfl

end

theorem read_withExpression (ended : p.ended = false) (dashed : Dashed text)
    (expression : Option String) :
    (p.withExpression expression).read text = (p.read text).map (·.withExpression expression) := by
  obtain ⟨c, cs, chars⟩ := dashed
  have ended' : (p.withExpression expression).ended = false := ended
  unfold read
  rw [ended, ended', chars]
  split
  · contradiction
  · split
    · rfl
    · exact long_withExpression p expression _ _
    · exact short_withExpression p expression _
    next other => exact (other c cs rfl).elim

theorem expression_eq {f : Progress → Except Halt Progress}
    (commutes : ∀ expression, f (p.withExpression expression) =
      (f p).map (·.withExpression expression))
    (ok : f p = .ok q) : q.options.expression = p.options.expression := by
  have same := commutes p.options.expression
  rw [show p.withExpression p.options.expression = p from rfl, ok] at same
  rw [Except.ok.inj same]
  rfl

/-! ## Options in a row

The assignment that is pending behind one option is checked when the next
one is read, or in the end.  Checking it at once makes no difference. -/

/-- What is pending behind an option in two arguments is the option. -/
theorem settle_given (h : p.Settled) (text : String) :
    ({ p with pending := .given text } : Progress).settle = p.assign text := by
  obtain ⟨options, pending, ended⟩ := p
  obtain rfl : pending = .nothing := h.pending
  rfl

theorem after_assign (h : p.Open) (plain : ¬ Dashed text) :
    p.after ["--var", text] = p.settle >>= fun q => .ok { q with pending := .given text } := by
  rw [after_cons, read_var h.ended]
  cases checked : p.settle with
  | error e => rfl
  | ok q =>
    have ended : ({ q with pending := .awaited } : Progress).ended = false :=
      (settled_of_settle h.ended checked).ended
    show ({ q with pending := .awaited } : Progress).after [text] = _
    rw [after_singleton, read_plain ended plain]
    rfl

/-- The arguments of an option leave nothing but the option to be carried out. -/
theorem after_choice (h : p.Open) {c : Choice} (plain : c.Plain) :
    (p.after c.arguments >>= settle) = (p.settle >>= fun q => c.apply q) ∧
      ∀ r, p.after c.arguments = .ok r →
        r.Open ∧ r.options.expression = p.options.expression := by
  have single : ∀ {argument : String}, p.read argument = (p.settle >>= fun q => c.apply q) →
      c.arguments = [argument] →
        (p.after c.arguments >>= settle) = (p.settle >>= fun q => c.apply q) ∧
          ∀ r, p.after c.arguments = .ok r →
            r.Open ∧ r.options.expression = p.options.expression := by
    intro argument read written
    have one : p.after c.arguments = p.settle >>= fun q => c.apply q := by
      rw [written, after_singleton, read]
    rw [one]
    cases checked : p.settle with
    | error e => exact ⟨rfl, by rintro r ⟨⟩⟩
    | ok q =>
      have settled := settled_of_settle h.ended checked
      have kept := expression_eq (settle_withExpression p) checked
      show (c.apply q >>= settle) = c.apply q ∧ ∀ r, c.apply q = .ok r →
        r.Open ∧ r.options.expression = p.options.expression
      cases applied : c.apply q with
      | error e => exact ⟨rfl, by rintro r ⟨⟩⟩
      | ok r =>
        have settled' := settled.apply applied
        refine ⟨settled'.settle, ?_⟩
        rintro _ ⟨⟩
        have kept' := expression_eq (f := fun q => c.apply q)
          (fun expression => apply_withExpression q expression c) applied
        exact ⟨settled'.isOpen, kept'.trans kept⟩
  cases c with
  | assign text =>
    show (p.after ["--var", text] >>= settle) = _ ∧ ∀ r, p.after ["--var", text] = .ok r → _
    rw [after_assign h plain]
    cases checked : p.settle with
    | error e => exact ⟨rfl, by rintro r ⟨⟩⟩
    | ok q =>
      have settled := settled_of_settle h.ended checked
      refine ⟨settle_given settled text, ?_⟩
      rintro r ⟨⟩
      have isOpen : ({ q with pending := .given text } : Progress).Open := ⟨by simp, settled.ended⟩
      have kept : q.options.expression = p.options.expression :=
        expression_eq (settle_withExpression p) checked
      exact ⟨isOpen, kept⟩
  | assignInline text => exact single (read_inline h.ended text) rfl
  | set switch => exact single ((read_name h.ended switch).trans (set_eq h.ended switch)) rfl

/-- Reading options in a row is carrying them out one after the other. -/
theorem after_choices (h : p.Open) {cs : List Choice} (plain : ∀ c ∈ cs, c.Plain) :
    (p.after (argumentsOf cs) >>= settle) = (p.settle >>= fun q => cs.foldlM Choice.apply q) ∧
      ∀ r, p.after (argumentsOf cs) = .ok r →
        r.Open ∧ r.options.expression = p.options.expression := by
  induction cs generalizing p with
  | nil =>
    refine ⟨(bind_pure p.settle).symm, ?_⟩
    rintro r ⟨⟩
    exact ⟨h, rfl⟩
  | cons c cs ih =>
    rw [List.forall_mem_cons] at plain
    obtain ⟨one, isOpen⟩ := after_choice h plain.1
    have split : p.after (argumentsOf (c :: cs)) =
        p.after c.arguments >>= fun q => q.after (argumentsOf cs) := by
      rw [argumentsOf, List.flatMap_cons]
      exact after_append p c.arguments _
    rw [split]
    constructor
    · calc (p.after c.arguments >>= fun q => q.after (argumentsOf cs)) >>= settle
        _ = p.after c.arguments >>= fun q => q.after (argumentsOf cs) >>= settle := bind_assoc _ _ _
        _ = p.after c.arguments >>= fun q => q.settle >>= fun r => cs.foldlM Choice.apply r := by
          cases read : p.after c.arguments with
          | error e => rfl
          | ok q => exact (ih (isOpen q read).1 plain.2).1
        _ = (p.after c.arguments >>= settle) >>= fun r => cs.foldlM Choice.apply r :=
          (bind_assoc _ _ _).symm
        _ = (p.settle >>= fun q => c.apply q) >>= fun r => cs.foldlM Choice.apply r := by rw [one]
        _ = p.settle >>= fun q => (c :: cs).foldlM Choice.apply q := bind_assoc _ _ _
    · cases read : p.after c.arguments with
      | error e => rintro r ⟨⟩
      | ok q =>
        intro r ok
        obtain ⟨isOpen', kept⟩ := (ih (isOpen q read).1 plain.2).2 r ok
        exact ⟨isOpen', kept.trans (isOpen q read).2⟩

/-! ## The expression among options -/

/-- An argument that is no option is the expression, if there is none yet. -/
theorem read_expression (h : p.Open) (none : p.options.expression = none) (plain : ¬ Dashed text) :
    p.read text = p.settle >>= fun q => .ok (q.withExpression (some text)) := by
  rw [read_plain h.ended plain, Progress.plain]
  split
  next awaited => exact absurd awaited h.pending
  next => rw [positional, none]; rfl

theorem after_ended (h : p.Open) (none : p.options.expression = none) (text : String) :
    p.after ["--", text] =
      p.settle >>= fun q => .ok { q.withExpression (some text) with ended := true } := by
  obtain ⟨options, pending, _⟩ := p
  obtain rfl : _ = false := h.ended
  have lone : (⟨options, pending, false⟩ : Progress).read "--" = .ok ⟨options, pending, true⟩ := rfl
  rw [after_cons, lone]
  show (⟨options, pending, true⟩ : Progress).read text >>= _ = _
  have none : options.expression.isSome = false := by
    rw [show options.expression = _ from none]
    rfl
  simp only [read, positional, none]
  cases pending with
  | nothing | awaited => rfl
  | given text' =>
    simp only [settle, assign]
    cases readAssignment text' <;> rfl

theorem read_single (ended : p.ended = false) {c : Char} {cs : List Char}
    (chars : text.toList = '-' :: c :: cs) (single : c ≠ '-') :
    p.read text = p.short (c :: cs) := by
  unfold read
  rw [ended, chars]
  split
  · contradiction
  · split
    next e => exact absurd (List.cons.inj (List.cons.inj e).2).1 single
    next e => exact absurd (List.cons.inj (List.cons.inj e).2).1 single
    next e =>
      cases e
      rfl
    next other => exact (other c cs rfl).elim

theorem read_of_stops {halt : Halt} (ended : p.ended = false) (checked : p.settle = .ok q)
    (stops : Stops text halt) : p.read text = .error halt := by
  cases stops with
  | unknown chars single none => rw [read_single ended chars single, short, none]
  | @unknownLong c cs name value chars parts ne none =>
    have long : p.read text = p.long name value := by
      rw [chars] at parts
      simp only [read, ended, chars, parts]
      rfl
    rw [long, Progress.long, if_neg (by simpa using ne)]
    exact none
  | help chars =>
    rw [read_single ended chars (by decide)]
    show (p.set .help >>= fun q => q.short _) = _
    rw [set, checked]
    rfl
  | version chars =>
    rw [read_single ended chars (by decide)]
    show (p.set .version >>= fun q => q.short _) = _
    rw [set, checked]
    rfl

theorem start_isSettled : start.Settled := ⟨rfl, rfl⟩

theorem start_isOpen : start.Open := start_isSettled.isOpen

end Progress

open Progress

variable {cs before behind : List Choice} {text : String}

theorem after_start (plain : ∀ c ∈ cs, c.Plain) :
    (start.after (argumentsOf cs) >>= settle) = cs.foldlM Choice.apply start :=
  (after_choices start_isOpen plain).1

theorem ofArguments_choices (plain : ∀ c ∈ cs, c.Plain) :
    ofArguments (argumentsOf cs) = (cs.foldlM Choice.apply start).map (·.options) := by
  rw [ofArguments, readAll_eq, after_start plain]

/-- Some options cannot be carried out, and then it does not matter what stands behind them, or
they lead to where nothing is left of them but to check what is pending. -/
theorem ofArguments_append (plain : ∀ c ∈ cs, c.Plain) (rest : List String) :
    (∃ halt, cs.foldlM Choice.apply start = .error halt ∧
        ofArguments (argumentsOf cs ++ rest) = .error halt) ∨
      ∃ p : Progress, p.Open ∧ p.options.expression = none ∧
        p.settle = cs.foldlM Choice.apply start ∧
        ofArguments (argumentsOf cs ++ rest) = p.readAll rest := by
  have carried := after_start plain
  obtain ⟨-, kept⟩ := after_choices start_isOpen plain
  rw [ofArguments, readAll_eq, after_append]
  cases read : start.after (argumentsOf cs) with
  | error halt =>
    rw [read] at carried
    exact .inl ⟨halt, carried.symm, rfl⟩
  | ok p =>
    rw [read] at carried
    obtain ⟨isOpen, none⟩ := kept p read
    exact .inr ⟨p, isOpen, none, carried, (readAll_eq p rest).symm⟩

/-- Where options can be read they can be carried out. -/
theorem carried_of_ofArguments {o : Options} (plain : ∀ c ∈ cs, c.Plain)
    (ok : ofArguments (argumentsOf cs) = .ok o) :
    ∃ p, cs.foldlM Choice.apply start = .ok p ∧ p.options = o := by
  rw [ofArguments_choices plain] at ok
  cases carried : cs.foldlM Choice.apply start with
  | error halt =>
    rw [carried] at ok
    cases ok
  | ok p =>
    rw [carried] at ok
    exact ⟨p, rfl, Except.ok.inj ok⟩

theorem expression_of_choices {o : Options} (plain : ∀ c ∈ cs, c.Plain)
    (ok : ofArguments (argumentsOf cs) = .ok o) : o.expression = none := by
  obtain ⟨p, carried, rfl⟩ := carried_of_ofArguments plain ok
  exact expression_eq (f := fun p => cs.foldlM Choice.apply p)
    (fun expression => foldlM_withExpression start expression cs) carried

/-- The assignments are those of the options, in their order. -/
theorem assignments_of_choices {o : Options} (plain : ∀ c ∈ cs, c.Plain)
    (ok : ofArguments (argumentsOf cs) = .ok o) :
    Readings (cs.filterMap Choice.assigned?) o.assignments := by
  obtain ⟨p, carried, rfl⟩ := carried_of_ofArguments plain ok
  obtain ⟨pairs, reads, added⟩ := start_isSettled.assignments_of_foldlM carried
  rwa [added]

/-- An expression that does not look like an option may stand anywhere between options. -/
theorem ofArguments_expression (plain : ∀ c ∈ before ++ behind, c.Plain) (bare : ¬ Dashed text) :
    ofArguments (argumentsOf before ++ text :: argumentsOf behind) =
      (ofArguments (argumentsOf (before ++ behind))).map ({ · with expression := some text }) := by
  rw [ofArguments_choices plain, List.foldlM_append]
  rw [List.forall_mem_append] at plain
  obtain ⟨halt, stuck, same⟩ | ⟨p, isOpen, none, carried, same⟩ :=
    ofArguments_append plain.1 (text :: argumentsOf behind)
  · rw [same, stuck]
    rfl
  · rw [same, ← carried, readAll_eq, after_cons, read_expression isOpen none bare]
    cases checked : p.settle with
    | error halt => rfl
    | ok q =>
      have settled := settled_of_settle isOpen.ended checked
      have settled' : (q.withExpression (some text)).Settled := ⟨settled.pending, settled.ended⟩
      have further := (after_choices settled'.isOpen plain.2).1
      show ((q.withExpression (some text)).after (argumentsOf behind) >>= settle).map _ = _
      rw [further, settled'.settle]
      show (behind.foldlM Choice.apply (q.withExpression (some text))).map _ = _
      rw [foldlM_withExpression]
      show _ = ((behind.foldlM Choice.apply q).map _).map _
      cases behind.foldlM Choice.apply q <;> rfl

theorem assignments_of_expression {o : Options} (plain : ∀ c ∈ before ++ behind, c.Plain)
    (bare : ¬ Dashed text)
    (ok : ofArguments (argumentsOf before ++ text :: argumentsOf behind) = .ok o) :
    Readings ((before ++ behind).filterMap Choice.assigned?) o.assignments := by
  rw [ofArguments_expression plain bare] at ok
  cases options : ofArguments (argumentsOf (before ++ behind)) with
  | error halt =>
    rw [options] at ok
    cases ok
  | ok o' =>
    have reads := assignments_of_choices plain options
    rw [options] at ok
    cases ok
    exact reads

/-- Behind options that have been ended any argument is the expression. -/
theorem ofArguments_ended (plain : ∀ c ∈ cs, c.Plain) (text : String) :
    ofArguments (argumentsOf cs ++ ["--", text]) =
      (ofArguments (argumentsOf cs)).map ({ · with expression := some text }) := by
  rw [ofArguments_choices plain]
  obtain ⟨halt, stuck, same⟩ | ⟨p, isOpen, none, carried, same⟩ :=
    ofArguments_append plain ["--", text]
  · rw [same, stuck]
    rfl
  · rw [same, ← carried, readAll_eq, after_ended isOpen none]
    cases checked : p.settle with
    | error halt => rfl
    | ok q =>
      obtain ⟨options, pending, ended⟩ := q
      obtain rfl : pending = .nothing := (settled_of_settle isOpen.ended checked).pending
      rfl

/-- What may be read as options does not name an expression either. -/
theorem expression_of_dashed {o : Options} (plain : ∀ c ∈ cs, c.Plain) (dashed : Dashed text)
    (ok : ofArguments (argumentsOf cs ++ [text]) = .ok o) : o.expression = none := by
  obtain ⟨halt, -, same⟩ | ⟨p, isOpen, none, -, same⟩ := ofArguments_append plain [text]
  · cases same.symm.trans ok
  · have commutes : ∀ expression, ((p.withExpression expression).read text >>= settle) =
        (p.read text >>= settle).map (·.withExpression expression) := by
      intro expression
      rw [read_withExpression isOpen.ended dashed]
      cases p.read text with
      | error halt => rfl
      | ok q => exact settle_withExpression q expression
    rw [same, readAll_eq, after_singleton] at ok
    cases settled : p.read text >>= settle with
    | error halt =>
      rw [settled] at ok
      cases ok
    | ok q =>
      rw [settled] at ok
      cases ok
      exact (expression_eq (f := fun p => p.read text >>= settle) commutes settled).trans none

/-- Behind options that can be carried out, an argument that stops the reading does so. -/
theorem ofArguments_of_stops {p : Progress} {halt : Halt} (plain : ∀ c ∈ cs, c.Plain)
    (ok : cs.foldlM Choice.apply start = .ok p) (stops : Stops text halt) (rest : List String) :
    ofArguments (argumentsOf cs ++ text :: rest) = .error halt := by
  obtain ⟨halt, stuck, -⟩ | ⟨q, isOpen, -, carried, same⟩ := ofArguments_append plain (text :: rest)
  · cases stuck.symm.trans ok
  · rw [same, readAll, read_of_stops isOpen.ended (carried.trans ok) stops]
    rfl

end Arith.Options
