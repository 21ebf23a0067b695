/-
# Histories of writes

Before it is read in, a scope may be written to many times: a variable is
given a value, a function gets a name.  Of such a history only the last
write to each name is left (`lookup_writeAll`), so histories that end alike
leave the same scope, in whatever order and however often the names were
written before.

Variables and functions are written to maps of their own, and a map is
determined by what is found in it under each name.  So the general lemma
speaks of anything that can be found in a scope and that a write overrides
or leaves alone, and both kinds of names are cases of it.

A command line makes its scope by writing the assignments into that of the
program.  What it does after that depends on the scope and on the other
options, and so histories are enough for command lines as well.

**Proved here.** `last_writes_decide`: what a history leaves behind is
listed exactly by its last writes; a text is parsed alike after histories
that end alike for the names that the text mentions; what is listed is the
same if they end alike for all names; and command lines that assign the same
values last get the same response, where what is assigned are the texts
behind `--var` in their order.
-/
import Arith.Command.Program
import Arith.Proofs.Command.Arguments
import Arith.Proofs.Parse.Agreement
import Arith.Proofs.Session.Lineage

namespace Arith

/-- One write to a scope. -/
inductive Write where
  | variable (name : String) (value : Float)
  | function (name : String) (handle : Handle)

namespace Write

/-- The value that a write gives to a variable. -/
def value? (name : String) : Write → Option Float
  | .variable other value => if other = name then some value else none
  | .function _ _ => none

/-- The handle that a write gives to the name of a function. -/
def handle? (name : String) : Write → Option Handle
  | .variable _ _ => none
  | .function other handle => if other = name then some handle else none

/-- Assignments as writes. -/
def ofAssignments (assignments : List (String × Float)) : List Write :=
  assignments.map fun a => .variable a.1 a.2

end Write

namespace Scope

/-- Carries one write out. -/
def write (c : Scope) : Write → Scope
  | .variable name value => c.setVariable name value
  | .function name handle => c.setFunction name handle

def writeAll (c : Scope) (ws : List Write) : Scope := ws.foldl write c

end Scope

/-- What the last of some writes says, of those that say anything. -/
def lastOf? {α : Type} (said : Write → Option α) (ws : List Write) : Option α :=
  (ws.filterMap said).getLast?

/-- The value that a variable has after some writes to a scope: the last that it was given, or
else the one that it had. -/
def Scope.valueAfter? (c : Scope) (ws : List Write) (name : String) : Option Float :=
  (lastOf? (Write.value? name) ws).or (c.bindings.get? name)

/-- The handle of a function after some writes to a scope. -/
def Scope.handleAfter? (c : Scope) (ws : List Write) (name : String) : Option Handle :=
  (lastOf? (Write.handle? name) ws).or (c.functions.get? name)

/-- Two histories of writes to a scope leave a name with the same value or handle. -/
def EndAlike (c : Scope) (ws ws' : List Write) : Mention → Prop
  | .variable name => c.valueAfter? ws name = c.valueAfter? ws' name
  | .function name => c.handleAfter? ws name = c.handleAfter? ws' name
  | .operator _ => True

/-! ## The last write is left

By induction on the history.  What its first write leaves behind is
overridden by whatever comes later. -/

variable {c : Scope} {ws ws' : List Write}

theorem lastOf?_nil {α : Type} (said : Write → Option α) : lastOf? said [] = none := rfl

theorem lastOf?_cons {α : Type} (said : Write → Option α) (w : Write) (ws : List Write) :
    lastOf? said (w :: ws) = (lastOf? said ws).or (said w) := by
  rw [lastOf?, lastOf?, List.filterMap_cons]
  cases said w with
  | none => exact (Option.or_none).symm
  | some a =>
    rw [List.getLast?_cons]
    cases (ws.filterMap said).getLast? <;> rfl

/-- Where every write overrides what was found before, what is found in the end was written last. -/
theorem lookup_writeAll {α : Type} {said : Write → Option α} (found : Scope → Option α)
    (overrides : ∀ c w, found (c.write w) = (said w).or (found c)) (c : Scope) (ws : List Write) :
    found (c.writeAll ws) = (lastOf? said ws).or (found c) := by
  induction ws generalizing c with
  | nil => rfl
  | cons w ws ih =>
    calc found (c.writeAll (w :: ws))
      _ = (lastOf? said ws).or (found (c.write w)) := ih (c.write w)
      _ = (lastOf? said ws).or ((said w).or (found c)) := by rw [overrides]
      _ = (lastOf? said (w :: ws)).or (found c) := by rw [lastOf?_cons, Option.or_assoc]

theorem get?_bindings_writeAll (c : Scope) (ws : List Write) (name : String) :
    (c.writeAll ws).bindings.get? name = c.valueAfter? ws name := by
  refine lookup_writeAll (fun c => c.bindings.get? name) ?_ c ws
  intro c w
  rcases w with ⟨other, value⟩ | ⟨other, handle⟩
  · refine (getElem?_insert c.bindings.values other name value).trans ?_
    rw [Write.value?]
    split <;> rfl
  · rfl

theorem get?_functions_writeAll (c : Scope) (ws : List Write) (name : String) :
    (c.writeAll ws).functions.get? name = c.handleAfter? ws name := by
  refine lookup_writeAll (fun c => c.functions.get? name) ?_ c ws
  intro c w
  rcases w with ⟨other, value⟩ | ⟨other, handle⟩
  · rfl
  · refine (getElem?_insert c.functions.handles other name handle).trans ?_
    rw [Write.handle?]
    split <;> rfl

theorem agreedBy_writeAll {m : Mention} (h : EndAlike c ws ws' m) :
    m.AgreedBy (c.writeAll ws) (c.writeAll ws') := by
  rcases m with name | name | op
  · show (c.writeAll ws).bindings.get? name = (c.writeAll ws').bindings.get? name
    rw [get?_bindings_writeAll, get?_bindings_writeAll]
    exact h
  · show (c.writeAll ws).functions.get? name = (c.writeAll ws').functions.get? name
    rw [get?_functions_writeAll, get?_functions_writeAll]
    exact h
  · trivial

theorem Scope.eq_of_agreedBy {c d : Scope} (h : ∀ m : Mention, m.AgreedBy c d) : c = d := by
  obtain ⟨⟨values⟩, ⟨handles⟩⟩ := c
  obtain ⟨⟨values'⟩, ⟨handles'⟩⟩ := d
  obtain rfl : values = values' := Std.ExtTreeMap.ext_getElem? fun name => h (.variable name)
  obtain rfl : handles = handles' := Std.ExtTreeMap.ext_getElem? fun name => h (.function name)
  rfl

/-- Histories that end alike leave the same scope. -/
theorem writeAll_eq_of_endAlike (h : ∀ m, EndAlike c ws ws' m) : c.writeAll ws = c.writeAll ws' :=
  Scope.eq_of_agreedBy fun m => agreedBy_writeAll (h m)

theorem agreed_writeAll {ms : List Mention} (h : ∀ m ∈ ms, EndAlike c ws ws' m) :
    Agreed (c.writeAll ws) (c.writeAll ws') ms :=
  fun m mem => agreedBy_writeAll (h m mem)

/-! ## Assignments on the command line -/

namespace Program

/-- The scope of a command line is that of the program with the assignments written into it. -/
theorem scope_eq_writeAll (o : Options) :
    scope o = (Scope.ofFunctions functions.1).writeAll (Write.ofAssignments o.assignments) := by
  have written : ∀ (as : List (String × Float)) (b : Bindings),
      (⟨as.foldl (fun b a => b.set a.1 a.2) b, functions.1⟩ : Scope) =
        Scope.writeAll ⟨b, functions.1⟩ (Write.ofAssignments as) := by
    intro as
    induction as with
    | nil => exact fun _ => rfl
    | cons a as ih => exact fun b => ih (b.set a.1 a.2)
  exact written o.assignments .empty

theorem handleAfter?_ofAssignments (c : Scope) (as : List (String × Float)) (name : String) :
    c.handleAfter? (Write.ofAssignments as) name = c.functions.get? name := by
  have none : (Write.ofAssignments as).filterMap (Write.handle? name) = [] := by
    rw [Write.ofAssignments, List.filterMap_map]
    exact List.filterMap_eq_nil_iff.mpr fun _ _ => rfl
  rw [Scope.handleAfter?, lastOf?, none]
  rfl

/-- Assignments with the same last values make the same scope. -/
theorem scope_eq_of_last (o : Options) {as as' : List (String × Float)}
    (last : ∀ name, lastOf? (Write.value? name) (Write.ofAssignments as) =
      lastOf? (Write.value? name) (Write.ofAssignments as')) :
    scope { o with assignments := as } = scope { o with assignments := as' } := by
  rw [scope_eq_writeAll, scope_eq_writeAll]
  refine writeAll_eq_of_endAlike fun m => ?_
  rcases m with name | name | op
  · show Scope.valueAfter? _ _ name = Scope.valueAfter? _ _ name
    rw [Scope.valueAfter?, Scope.valueAfter?, last]
  · show Scope.handleAfter? _ _ name = Scope.handleAfter? _ _ name
    rw [handleAfter?_ofAssignments, handleAfter?_ofAssignments]
  · trivial

/-- Of the assignments nothing matters but the scope that they make. -/
theorem runWith_of_scope (o : Options) {as as' : List (String × Float)}
    (same : scope { o with assignments := as } = scope { o with assignments := as' })
    (spec : Option String) (input : ByteArray) :
    runWith { o with assignments := as } spec input =
      runWith { o with assignments := as' } spec input := by
  simp only [runWith, run, evaluate, expression?, valueText, same]

end Program

/-! ## Histories that end alike -/

/-- Nothing is left of a history of writes but what was written last.  A pair is listed exactly if
it is the last that its name was given, and under the name of a function the handle is found that
it was given last.  After histories that end alike for the names in a text the text is parsed
alike, whether or not it has errors; after histories that end alike for all names the listings are
the same.  And command lines that ask for the same, and assign the same last values, have the same
response, and what is assigned is what the options say, one after the other. -/
theorem last_writes_decide :
    (∀ (c : Scope) (ws : List Write) (name : String) (value : Float),
      (name, value) ∈ (c.writeAll ws).bindings.pairs ↔ c.valueAfter? ws name = some value) ∧
    (∀ (c : Scope) (ws : List Write) (name : String),
      (c.writeAll ws).functions.get? name = c.handleAfter? ws name) ∧
    (∀ (c : Scope) (ws ws' : List Write) (source : String),
      (∀ m ∈ mentionsIn source, EndAlike c ws ws' m) →
        (c.writeAll ws).parseRecovering source = (c.writeAll ws').parseRecovering source) ∧
    (∀ (c : Scope) (ws ws' : List Write), (∀ m, EndAlike c ws ws' m) →
      (c.writeAll ws).bindings.size = (c.writeAll ws').bindings.size ∧
        (c.writeAll ws).bindings.pairs = (c.writeAll ws').bindings.pairs ∧
          (c.writeAll ws).functions.names = (c.writeAll ws').functions.names) ∧
    (∀ (arguments arguments' : List String) (o : Options) (as as' : List (String × Float))
      (spec : Option String) (input : ByteArray),
      Options.ofArguments arguments = .ok { o with assignments := as } →
        Options.ofArguments arguments' = .ok { o with assignments := as' } →
          (∀ name, lastOf? (Write.value? name) (Write.ofAssignments as) =
            lastOf? (Write.value? name) (Write.ofAssignments as')) →
              Program.respond arguments spec input = Program.respond arguments' spec input) ∧
    ∀ (before behind : List Options.Choice) (source : String) (o : Options),
      (∀ c ∈ before ++ behind, c.Plain) → ¬ Options.Dashed source →
        Options.ofArguments (Options.argumentsOf before ++ source :: Options.argumentsOf behind) =
            .ok o →
          Options.Readings ((before ++ behind).filterMap Options.Choice.assigned?)
            o.assignments := by
  refine ⟨?listed, get?_functions_writeAll, ?parsed, ?listings, ?commandLines, ?assigned⟩
  case listed =>
    intro c ws name value
    rw [← get?_bindings_writeAll]
    exact Std.ExtTreeMap.mem_toList_iff_getElem?_eq_some
  case parsed =>
    intro c ws ws' source alike
    exact Scope.parseRecovering_of_agreed (agreed_writeAll alike)
  case listings =>
    intro c ws ws' alike
    rw [writeAll_eq_of_endAlike alike]
    exact ⟨rfl, rfl, rfl⟩
  case commandLines =>
    intro arguments arguments' o as as' spec input accepted accepted' last
    rw [Program.respond, Program.respond, accepted, accepted']
    exact Program.runWith_of_scope o (Program.scope_eq_of_last o last) spec input
  case assigned =>
    intro before behind source o plain bare
    exact Options.assignments_of_expression plain bare

/-- `A` and `f` are written twice, and in the other history the writes that are left come in
another order. -/
theorem last_writes_decide_overridden :
    let c := Scope.empty
    let ws : List Write := [.variable "A" 1, .function "f" ⟨7⟩, .variable "B" 2, .variable "A" 3,
      .function "f" ⟨8⟩]
    let ws' : List Write := [.function "f" ⟨8⟩, .variable "A" 3, .variable "B" 2]
    let line := ["--var", "A=inf", "--var", "B=0", "--var=A = 0", "A-B"]
    let line' := ["--var", "A=0", "--var", "B=0", "A-B"]
    (∀ m, EndAlike c ws ws' m) ∧ ("A", 3) ∈ (c.writeAll ws).bindings.pairs ∧
      (c.writeAll ws).functions.get? "f" = some ⟨8⟩ ∧
      (c.writeAll ws).parseRecovering "f(A" = (c.writeAll ws').parseRecovering "f(A" ∧
      (c.writeAll ws).functions.names = (c.writeAll ws').functions.names ∧
      Options.Readings ["A=inf", "B=0", "A = 0"]
        [("A", floatOfBits false infinityBits), ("B", 0), ("A", 0)] ∧
      Program.respond line none .empty = Program.respond line' none .empty := by
  intro c ws ws' line line'
  obtain ⟨listed, found, parsed, listings, lines, assigned⟩ := last_writes_decide
  have alike : ∀ m, EndAlike c ws ws' m := by
    rintro (name | name | op)
    · show (lastOf? (Write.value? name) ws).or _ = (lastOf? (Write.value? name) ws').or _
      rcases eq_or_ne "A" name with rfl | a
      · simp [ws, ws', lastOf?_cons, lastOf?_nil, Write.value?]
      · simp [ws, ws', lastOf?_cons, lastOf?_nil, Write.value?, a]
    · show (lastOf? (Write.handle? name) ws).or _ = (lastOf? (Write.handle? name) ws').or _
      rcases eq_or_ne "f" name with rfl | f
      · simp [ws, ws', lastOf?_cons, lastOf?_nil, Write.handle?]
      · simp [ws, ws', lastOf?_cons, lastOf?_nil, Write.handle?, f]
    · trivial
  let o : Options := ⟨0, [], false, false, false, some "A-B"⟩
  have accepted : Options.ofArguments line =
      .ok { o with
        assignments := [("A", floatOfBits false infinityBits), ("B", 0), ("A", 0)] } := by
    cbv
  have accepted' :
      Options.ofArguments line' = .ok { o with assignments := [("A", 0), ("B", 0)] } := by
    cbv
  refine ⟨alike, ?_, found c ws "f", ?_, ?_, ?_, ?_⟩
  · exact (listed c ws "A" 3).mpr rfl
  · exact parsed c ws ws' "f(A" fun m _ => alike m
  · exact (listings c ws ws' alike).2.2
  · refine assigned [.assign "A=inf", .assign "B=0", .assignInline "A = 0"] [] "A-B" _ ?_ ?_
      accepted
    · have plain : ∀ text ∈ ["A=inf", "B=0"], ¬ Options.Dashed text := by
        simp [Options.Dashed]
      simpa [Options.Choice.Plain] using plain
    · rintro ⟨c, cs, chars⟩
      cases chars
  · refine lines line line' o _ _ none .empty accepted accepted' fun name => ?_
    rcases eq_or_ne "A" name with rfl | a
    · simp [lastOf?_cons, lastOf?_nil, Write.ofAssignments, Write.value?]
    · simp [lastOf?_cons, lastOf?_nil, Write.ofAssignments, Write.value?, a]

end Arith
