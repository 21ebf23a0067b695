/-
# Tables of names

The names that an expression may use: variables with their values, and
functions with their handles.

Both tables are determined by what a lookup answers: the order in which
names were added, and the values that were replaced, leave no trace.  That
is a property of the maps they are made of, which are equal if they answer
alike, so a table can be compared with the one that another history has
left.  Names are listed in ascending order.

The functions that are there from the start are registered anew for every
table that is made with them, so two such tables agree on the names and
never on the handles (`FunctionTable.withBuiltins`).
-/
import Std.Data.ExtTreeMap
import Arith.Expr
import Arith.Host
import Arith.Log

namespace Arith

/-- A finite map from names. -/
abbrev NameMap (α : Type) := Std.ExtTreeMap String α compare

/-- The values of variables. -/
structure Bindings where
  values : NameMap Float

namespace Bindings

def empty : Bindings := ⟨∅⟩

/-- Binds a name, replacing the value that it had. -/
def set (b : Bindings) (name : String) (value : Float) : Bindings := ⟨b.values.insert name value⟩

def get? (b : Bindings) (name : String) : Option Float := b.values[name]?

def size (b : Bindings) : Nat := b.values.size

/-- The names and their values, by name. -/
def pairs (b : Bindings) : List (String × Float) := b.values.toList

def ofList (pairs : List (String × Float)) : Bindings :=
  pairs.foldl (fun b (name, value) => b.set name value) empty

/-- Whether the same names are bound to equal numbers; an undefined number equals nothing. -/
def same (a b : Bindings) : Bool :=
  a.size == b.size && a.pairs.all fun (name, x) =>
    match b.get? name with
    | some y => x == y
    | none => false

end Bindings

/-- The handles of functions. -/
structure FunctionTable where
  handles : NameMap Handle

namespace FunctionTable

def empty : FunctionTable := ⟨∅⟩

/-- Gives a function a name, replacing the function that had it. -/
def insert (t : FunctionTable) (name : String) (h : Handle) : FunctionTable :=
  ⟨t.handles.insert name h⟩

def get? (t : FunctionTable) (name : String) : Option Handle := t.handles[name]?

def contains (t : FunctionTable) (name : String) : Bool := (t.get? name).isSome

/-- The names, in ascending order. -/
def names (t : FunctionTable) : List String := t.handles.keys

/-- What is told when a function gets a name: something only if the name was taken. -/
def insertRecords (t : FunctionTable) (name : String) : List Record :=
  if t.contains name then
    [⟨.debug, .functionTable, s!"function '{name}' overridden"⟩]
  else []

/-- Registers the functions that are there from the start, and a table of their names. -/
def withBuiltins (host : Host) : FunctionTable × Host :=
  Builtin.all.foldl
    (fun (t, host) b => (t.insert b.name host.fresh, host.register b.function)) (empty, host)

end FunctionTable

end Arith
