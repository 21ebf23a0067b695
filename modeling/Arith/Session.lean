/-
# Sessions

A session is what a host program does with tables, scopes and trees over
time.  It keeps them under names of its own, and every function that is
registered on the way gets a handle that no function had before; copies
share their handles.  The counters of functions live as long as the session.

Every operation of the interface is a command (`Session.Command`), and a
session is run by carrying commands out one after the other (`Session.step`,
`Session.steps`).  A command that names something which is not kept changes
nothing.  What a property says about all that a host program can do is
therefore a statement about all lists of commands, by induction on the list.
-/
import Arith.Evaluator
import Arith.Host

namespace Arith

structure Session where
  host : Host
  world : World
  scopes : NameMap Scope
  tables : NameMap FunctionTable
  bindings : NameMap Bindings
  handles : NameMap Handle
  trees : NameMap Expr

namespace Session

def empty : Session := ⟨.empty, .initial, ∅, ∅, ∅, ∅, ∅⟩

/-- What a host program may do; a `String` in front of the others names what it is done to. -/
inductive Command where
  | newScope (scope : String)
  | newScopeWith (scope table : String)
  | copyScope (scope target : String)
  | setVariable (scope name : String) (value : Float)
  | setFunction (scope name : String) (function : HostFunction)
  /-- Replaces all variables at once. -/
  | setBindings (scope : String) (pairs : List (String × Float))
  | getVariable (scope name : String)
  | listBindings (scope : String)
  | listFunctions (scope : String)
  | evaluate (scope source : String)
  /-- Keeps the tree of an expression that has no error. -/
  | parse (scope source tree : String)
  /-- Keeps whatever tree could be made, if a name for it is given, and evaluates it. -/
  | recover (scope source : String) (tree : Option String)
  /-- Parses tokens and evaluates the tree; with `strict` there is none beside an error. -/
  | parseTokens (scope : String) (tokens : List Token) (strict : Bool)
  | build (tree : String) (sketch : Sketch)
  | evaluateTree (tree : String)
  | copyTree (tree target : String)
  | equalTrees (tree other : String)
  | newTable (table : String)
  | newBuiltinTable (table : String)
  | copyTable (table target : String)
  | insert (table name : String) (function : HostFunction)
  | lookUp (table name : String)
  | newHandle (handle : String) (function : HostFunction)
  | insertHandle (table name handle : String)
  | compareHandle (table name handle : String)
  | call (table name : String) (arguments : List Sketch)
  | newBindings (bindings : String) (pairs : List (String × Float))
  | setBinding (bindings name : String) (value : Float)
  | getBinding (bindings name : String)
  | equalBindings (bindings other : String)

/-- What a command answers. -/
inductive Reply where
  | done
  /-- The command names something that the session does not keep. -/
  | unknown
  | bindings (pairs : Bindings)
  | names (names : List String)
  | value (value : Option Float)
  | failed (error : ExpressionError)
  | tree (tree : Expr)
  /-- A tree and what it evaluates to. -/
  | evaluated (tree : Expr) (value : Float)
  /-- What could be made of an expression, evaluated. -/
  | recovered (tree : Option (Expr × Float)) (error : Option ParseError)
  | equal (equal : Bool)
  | entry (names : List String) (found : Bool)
  /-- Whether the function found under a name has some handle; none if there is no such function. -/
  | sameHandle (same : Option Bool)

/-! ## Steps -/

/-- The answer to a command, what was told meanwhile, and the session afterwards. -/
abbrev Outcome := Reply × List Record × Session

/-- An answer of which nothing is told. -/
def quiet (s : Session) (r : Reply) : Outcome := (r, [], s)

/-- Does something with what is kept under a name. -/
def look {α : Type} (s : Session) (kept : Option α) (f : α → Outcome) : Outcome :=
  match kept with
  | some a => f a
  | none => s.quiet .unknown

def register (s : Session) (f : HostFunction) : Handle × Session :=
  (s.host.fresh, { s with host := s.host.register f })

def run (s : Session) (e : Expr) : Float × List Record × Session :=
  let (value, records, world) := e.run s.host.dispatch s.world
  (value, records, { s with world })

def putScope (s : Session) (name : String) (scope : Scope) : Session :=
  { s with scopes := s.scopes.insert name scope }

def putTable (s : Session) (name : String) (table : FunctionTable) : Session :=
  { s with tables := s.tables.insert name table }

def putTree (s : Session) (name : String) (tree : Expr) : Session :=
  { s with trees := s.trees.insert name tree }

def putBindings (s : Session) (name : String) (bindings : Bindings) : Session :=
  { s with bindings := s.bindings.insert name bindings }

/-- Evaluates what a parse could make. -/
def settle (s : Session) (parsed : Parsed) (records : List Record) : Outcome :=
  match parsed.tree with
  | none => (.recovered none parsed.error, records, s)
  | some e =>
    let (value, warnings, s) := s.run e
    (.recovered (some (e, value)) parsed.error, records ++ warnings, s)

/-- Gives a function a name in a kept table. -/
def insertInto (s : Session) (table name : String) (h : Handle) : Outcome :=
  s.look s.tables[table]? fun t =>
    let inserted := t.insert name h
    (.names inserted.names, t.insertRecords name, s.putTable table inserted)

/-- Carries out one command. -/
def step (s : Session) : Command → Outcome
  | .newScope scope =>
    let (table, host) := FunctionTable.withBuiltins s.host
    ({ s with host }.putScope scope (.ofFunctions table)).quiet .done
  | .newScopeWith scope table =>
    s.look s.tables[table]? fun t => (s.putScope scope (.ofFunctions t)).quiet .done
  | .copyScope scope target =>
    s.look s.scopes[scope]? fun c => (s.putScope target c).quiet .done
  | .setVariable scope name value =>
    s.look s.scopes[scope]? fun c =>
      let c := c.setVariable name value
      (s.putScope scope c).quiet (.bindings c.bindings)
  | .setFunction scope name function =>
    s.look s.scopes[scope]? fun c =>
      let (h, s) := s.register function
      let changed := c.setFunction name h
      (.names changed.functions.names, c.functions.insertRecords name, s.putScope scope changed)
  | .setBindings scope pairs =>
    s.look s.scopes[scope]? fun c =>
      let c := { c with bindings := .ofList pairs }
      (s.putScope scope c).quiet (.bindings c.bindings)
  | .getVariable scope name =>
    s.look s.scopes[scope]? fun c => s.quiet (.value (c.bindings.get? name))
  | .listBindings scope => s.look s.scopes[scope]? fun c => s.quiet (.bindings c.bindings)
  | .listFunctions scope => s.look s.scopes[scope]? fun c => s.quiet (.names c.functions.names)
  | .evaluate scope source =>
    s.look s.scopes[scope]? fun c =>
      match c.parse source with
      | (.error e, records) => (.failed e, records, s)
      | (.ok e, records) =>
        let (value, warnings, s) := s.run e
        (.value value, records ++ warnings, s)
  | .parse scope source tree =>
    s.look s.scopes[scope]? fun c =>
      match c.parse source with
      | (.error e, records) => (.failed e, records, s)
      | (.ok e, records) => (.tree e, records, s.putTree tree e)
  | .recover scope source tree =>
    s.look s.scopes[scope]? fun c =>
      match c.parseRecovering source with
      | (.error e, records) => (.failed (.scan e), records, s)
      | (.ok parsed, records) =>
        let kept := match tree, parsed.tree with
          | some name, some e => s.putTree name e
          | _, _ => s
        kept.settle parsed records
  | .parseTokens scope tokens strict =>
    s.look s.scopes[scope]? fun c =>
      let (parsed, records) := Arith.parseTokens c tokens
      if strict then
        match parsed.result with
        | .error e => (.failed (.parse e), records, s)
        | .ok e =>
          let (value, warnings, s) := s.run e
          (.evaluated e value, records ++ warnings, s)
      else s.settle parsed records
  | .build tree sketch =>
    let (e, host) := sketch.build s.host
    ({ s with host }.putTree tree e).quiet (.tree e)
  | .evaluateTree tree =>
    s.look s.trees[tree]? fun e =>
      let (value, warnings, s) := s.run e
      (.evaluated e value, warnings, s)
  | .copyTree tree target => s.look s.trees[tree]? fun e => (s.putTree target e).quiet .done
  | .equalTrees tree other =>
    s.look s.trees[tree]? fun a => s.look s.trees[other]? fun b => s.quiet (.equal (a.same b))
  | .newTable table => (s.putTable table .empty).quiet .done
  | .newBuiltinTable table =>
    let (t, host) := FunctionTable.withBuiltins s.host
    ({ s with host }.putTable table t).quiet .done
  | .copyTable table target => s.look s.tables[table]? fun t => (s.putTable target t).quiet .done
  | .insert table name function =>
    let (h, s) := s.register function
    s.insertInto table name h
  | .lookUp table name =>
    s.look s.tables[table]? fun t => s.quiet (.entry t.names (t.contains name))
  | .newHandle handle function =>
    let (h, s) := s.register function
    { s with handles := s.handles.insert handle h }.quiet .done
  | .insertHandle table name handle =>
    s.look s.handles[handle]? fun h => s.insertInto table name h
  | .compareHandle table name handle =>
    s.look s.tables[table]? fun t => s.look s.handles[handle]? fun h =>
      s.quiet (.sameHandle ((t.get? name).map (· == h)))
  | .call table name arguments =>
    s.look s.tables[table]? fun t =>
      match t.get? name with
      | none => s.quiet (.value none)
      | some h =>
        let (args, host) := Sketch.buildAll s.host arguments
        let (value, warnings, s) := { s with host }.run (.call name h args)
        (.value value, warnings, s)
  | .newBindings bindings pairs =>
    let b := .ofList pairs
    (s.putBindings bindings b).quiet (.bindings b)
  | .setBinding bindings name value =>
    s.look s.bindings[bindings]? fun b =>
      let b := b.set name value
      (s.putBindings bindings b).quiet (.bindings b)
  | .getBinding bindings name =>
    s.look s.bindings[bindings]? fun b => s.quiet (.value (b.get? name))
  | .equalBindings bindings other =>
    s.look s.bindings[bindings]? fun a => s.look s.bindings[other]? fun b =>
      s.quiet (.equal (a.same b))

/-- What is answered to an evaluation, and the session afterwards. -/
theorem step_evaluate {s : Session} {name : String} {scope : Scope}
    (kept : s.scopes[name]? = some scope) (source : String) :
    ((s.step (.evaluate name source)).1, (s.step (.evaluate name source)).2.2) =
      match (scope.parse source).1 with
      | .error e => (.failed e, s)
      | .ok e => (.value (s.run e).1, (s.run e).2.2) := by
  simp only [step, look, kept]
  obtain ⟨outcome, records⟩ := scope.parse source
  cases outcome <;> rfl

/-- Carries out commands one after the other. -/
def steps (s : Session) : List Command → List (Reply × List Record) × Session
  | [] => ([], s)
  | c :: cs =>
    let (reply, records, s) := s.step c
    let (replies, s) := steps s cs
    ((reply, records) :: replies, s)

end Session

end Arith
