/-
# What a run answers to a parse

A session answers to a parse with a tree, with a tree and its value, or with
what could be made of the expression and the first error.

What is said of a run is said of its commands by their index: what is kept
before the command with an index (`before`), and what is answered to it
(`answer?`).  So the same scope can be spoken of at two times, and the same
text at two places of a run.

**Proved here.** Whatever tree is in such an answer was made of some tokens
in the scope that the command names, so all its calls were looked up there
(`Parses.exists_linked`); and the answer to a text has a tree and no error
exactly if the text has a tree in the scope (`accepts_iff`).
-/
import Arith.Proofs.Parse.Built
import Arith.Proofs.Print.Reparse
import Arith.Proofs.Session.Lineage

namespace Arith.Session

namespace Command

/-- The scope that a command parses in, if it may answer with a tree. -/
def parsesIn? : Command → Option String
  | .parse scope _ _ | .recover scope _ _ | .parseTokens scope _ _ => some scope
  | _ => none

def text? : Command → Option (String × String)
  | .parse scope source _ | .recover scope source _ => some (scope, source)
  | _ => none

theorem parsesIn?_of_text? {scope source : String} (c : Command)
    (h : c.text? = some (scope, source)) :
    c.parsesIn? = some scope := by
  cases c with
  | parse | recover => exact congrArg (Option.map Prod.fst) h
  | _ => cases h

end Command

namespace Reply

/-- The tree in an answer. -/
def tree? : Reply → Option Expr
  | .tree e | .evaluated e _ | .recovered (some (e, _)) _ => some e
  | _ => none

/-- The tree in an answer, if there is no error. -/
def accepted? : Reply → Option Expr
  | .tree e | .recovered (some (e, _)) none => some e
  | _ => none

theorem tree?_of_accepted? {e : Expr} (r : Reply) (h : r.accepted? = some e) :
    r.tree? = some e := by
  cases r with
  | tree => exact h
  | recovered made error =>
    obtain _ | ⟨tree, value⟩ := made <;> cases error
    · cases h
    · cases h
    · exact h
    · cases h
  | _ => cases h

end Reply

/-- What is answered to the command with some index. -/
def answer? (cs : List Command) (i : Nat) : Option Reply := (empty.steps cs).1[i]?.map (·.1)

/-- The command with some index parses in a scope, and the answer is a tree. -/
def Parses (cs : List Command) (i : Nat) (scope : String) (e : Expr) : Prop :=
  cs[i]?.bind Command.parsesIn? = some scope ∧ (answer? cs i).bind Reply.tree? = some e

/-- The command with some index parses a text in a scope. -/
def Reads (cs : List Command) (i : Nat) (scope source : String) : Prop :=
  cs[i]?.bind Command.text? = some (scope, source)

/-- The command with some index parses a text in a scope, and the answer is a tree and no error. -/
def Accepts (cs : List Command) (i : Nat) (scope source : String) (e : Expr) : Prop :=
  Reads cs i scope source ∧ (answer? cs i).bind Reply.accepted? = some e

theorem getElem?_steps : ∀ (cs : List Command) (s : Session) (i : Nat),
    (s.steps cs).1[i]?.map (·.1) = cs[i]?.map fun c => ((s.steps (cs.take i)).2.step c).1
  | [], _, _ => by rfl
  | _ :: _, _, 0 => rfl
  | c :: cs, s, i + 1 => getElem?_steps cs (s.step c).2.2 i

theorem answer?_eq (cs : List Command) (i : Nat) :
    answer? cs i = cs[i]?.map fun c => ((before cs i).step c).1 :=
  getElem?_steps cs empty i

/-- What is answered to what is done with something that is kept. -/
theorem exists_of_look {α β : Type} {s : Session} {kept : Option α} {f : α → Outcome}
    {g : Reply → Option β} {b : β} (unknown : g .unknown = none)
    (h : g (s.look kept f).1 = some b) :
    ∃ a, kept = some a ∧ g (f a).1 = some b := by
  cases kept with
  | none => cases unknown.symm.trans h
  | some a => exact ⟨a, rfl, h⟩

theorem tree?_settle {s : Session} {parsed : Parsed} {records : List Record} :
    (s.settle parsed records).1.tree? = parsed.tree := by
  unfold settle
  split
  next none => exact none.symm
  next tree => exact tree.symm

theorem accepted?_settle {s : Session} {parsed : Parsed} {records : List Record} :
    (s.settle parsed records).1.accepted? = parsed.result.toOption := by
  obtain ⟨tree, error⟩ := parsed
  cases tree <;> cases error <;> rfl

theorem tokens_of_parseRecovering (c : Scope) (source : String) (parsed : Parsed)
    (h : (c.parseRecovering source).1 = .ok parsed) :
    ∃ tokens, (parseTokens c tokens).1 = parsed := by
  rw [Scope.parseRecovering_fst] at h
  generalize tokenize source = scanned at h
  cases scanned with
  | error error => cases h
  | ok tokens => exact ⟨tokens, Except.ok.inj h⟩

/-- Whatever is parsed, a tree in the answer was made of tokens in the scope. -/
theorem tokens_of_tree {s : Session} {c : Command} {scope : String} {e : Expr}
    (parses : c.parsesIn? = some scope) (answered : (s.step c).1.tree? = some e) :
    ∃ kept tokens, s.scopes[scope]? = some kept ∧ (parseTokens kept tokens).1.tree = some e := by
  cases c with
  | parse scope source tree =>
    cases parses
    obtain ⟨kept, found, answered⟩ := exists_of_look rfl answered
    have parse : (kept.parse source).1 = .ok e := by
      generalize kept.parse source = outcome at answered ⊢
      obtain ⟨error | tree, records⟩ := outcome
      · cases answered
      · exact congrArg _ (Option.some.inj answered)
    obtain ⟨tokens, -, result⟩ := Scope.parse_eq_ok_iff.mp parse
    exact ⟨kept, tokens, found, (Parsed.result_eq_ok.mp result).2⟩
  | recover scope source tree =>
    cases parses
    obtain ⟨kept, found, answered⟩ := exists_of_look rfl answered
    have scanned := tokens_of_parseRecovering kept source
    generalize kept.parseRecovering source = outcome at answered scanned
    obtain ⟨error | parsed, records⟩ := outcome
    · cases answered
    · obtain ⟨tokens, rfl⟩ := scanned parsed rfl
      exact ⟨kept, tokens, found, tree?_settle.symm.trans answered⟩
  | parseTokens scope tokens strict =>
    cases parses
    obtain ⟨kept, found, answered⟩ := exists_of_look rfl answered
    refine ⟨kept, tokens, found, ?_⟩
    generalize Arith.parseTokens kept tokens = outcome at answered ⊢
    obtain ⟨parsed, records⟩ := outcome
    cases strict with
    | false => exact tree?_settle.symm.trans answered
    | true =>
      obtain ⟨_ | tree, _ | error⟩ := parsed
      · cases answered
      · cases answered
      · exact answered
      · cases answered
  | _ => cases parses

theorem accepted?_look {α : Type} {s : Session} {kept : Option α} {f : α → Outcome}
    {g : α → Option Expr} (h : ∀ a, (f a).1.accepted? = g a) :
    (s.look kept f).1.accepted? = kept.bind g := by
  cases kept with
  | none => rfl
  | some a => exact h a

/-- The answer to a text has a tree without an error exactly if the text has one in the scope. -/
theorem accepted?_step {c : Command} {scope source : String} (text : c.text? = some (scope, source))
    (s : Session) : (s.step c).1.accepted? =
      s.scopes[scope]?.bind fun kept => (kept.parse source).1.toOption := by
  cases c with
  | parse scope source tree =>
    cases text
    refine accepted?_look fun kept => ?_
    generalize kept.parse source = outcome
    obtain ⟨error | tree, records⟩ := outcome <;> rfl
  | recover scope source tree =>
    cases text
    refine accepted?_look fun kept => ?_
    rw [Scope.parse_fst]
    generalize kept.parseRecovering source = outcome
    obtain ⟨error | parsed, records⟩ := outcome
    · rfl
    · refine accepted?_settle.trans ?_
      show parsed.result.toOption = (parsed.result.mapError ExpressionError.parse).toOption
      cases parsed.result <;> rfl
  | _ => cases text

variable {cs : List Command} {i : Nat} {scope source : String} {e : Expr}

/-- The calls of a tree in an answer were looked up in the scope that it was parsed in. -/
theorem Parses.exists_linked (h : Parses cs i scope e) :
    ∃ c, (before cs i).scopes[scope]? = some c ∧ e.Linked c := by
  obtain ⟨parses, answered⟩ := h
  obtain ⟨command, found, parses⟩ := Option.bind_eq_some_iff.mp parses
  rw [answer?_eq, found] at answered
  obtain ⟨c, tokens, kept, tree⟩ := tokens_of_tree parses answered
  exact ⟨c, kept, linked_of_tree tree⟩

theorem accepts_iff (h : Reads cs i scope source) : Accepts cs i scope source e ↔
    ∃ c, (before cs i).scopes[scope]? = some c ∧ (c.parse source).1 = .ok e := by
  obtain ⟨command, found, text⟩ := Option.bind_eq_some_iff.mp h
  have answered : (answer? cs i).bind Reply.accepted? =
      (before cs i).scopes[scope]?.bind fun c => (c.parse source).1.toOption := by
    rw [answer?_eq, found]
    exact accepted?_step text _
  have ok :
      ∀ outcome : Except ExpressionError Expr, outcome.toOption = some e ↔ outcome = .ok e := by
    rintro (error | tree)
    · constructor <;> rintro ⟨⟩
    · exact ⟨fun same => congrArg _ (Option.some.inj same),
        fun same => congrArg _ (Except.ok.inj same)⟩
  rw [Accepts, answered, and_iff_right h, Option.bind_eq_some_iff]
  simp only [ok]

theorem Accepts.parses (h : Accepts cs i scope source e) : Parses cs i scope e := by
  obtain ⟨reads, answered⟩ := h
  obtain ⟨command, found, text⟩ := Option.bind_eq_some_iff.mp reads
  obtain ⟨reply, told, accepted⟩ := Option.bind_eq_some_iff.mp answered
  rw [Parses, found, told]
  exact ⟨command.parsesIn?_of_text? text, reply.tree?_of_accepted? accepted⟩

theorem Accepts.exists_parse (h : Accepts cs i scope source e) :
    ∃ c, (before cs i).scopes[scope]? = some c ∧ (c.parse source).1 = .ok e :=
  (accepts_iff h.1).mp h

end Arith.Session
