/-
# What the JSON of a tree keeps

The JSON of a tree keeps its shape, its operators, keys, names and finite
values, and nothing else: the functions behind calls are left out, and null
stands for a value that is not finite (`Expr.skeleton`).  That much can be
read off again, by the `type` of every node (`Skeleton.ofJson?`,
`ofJson?_json`).  So the text of a tree denotes a value that all of this can
be read from, and trees that differ in any of it have different texts
(`Expr.json_text`).

That the text of a tree has one value and no other comes from the grammar of
JSON, where every number is finite: that of a tree is, since null is written
for all others (`Expr.finite_json`).

A tree and what is kept of it have the same shape, and the reader goes by
the `type` of a node alone, so both directions are by induction on trees.
The reader itself recurses on the JSON value, which is larger than its
members.
-/
import Arith.Expr.Printer
import Arith.Proofs.Json.Writing

namespace Arith

/-! ## What is kept -/

/-- A tree without the functions behind its calls and without the values that are not finite. -/
inductive Skeleton where
  | number (value : Option Float)
  | binary (op : Operator) (left right : Skeleton)
  | var (key : String) (value : Option Float)
  | call (name : String) (arguments : List Skeleton)

def finite? (x : Float) : Option Float :=
  match magnitude x with
  | .finite _ => some x
  | _ => none

mutual

/-- What is kept of a tree. -/
def Expr.skeleton : Expr → Skeleton
  | .number value => .number (finite? value)
  | .binary op left right => .binary op left.skeleton right.skeleton
  | .var key value => .var key (finite? value)
  | .call name _ arguments => .call name (Expr.skeletonAll arguments)

def Expr.skeletonAll : List Expr → List Skeleton
  | [] => []
  | e :: es => e.skeleton :: Expr.skeletonAll es

end

/-! ## Reading it -/

namespace Json

/-- The member of an object that has some key. -/
def member? (key : String) : Json → Option Json
  | .object members => members.lookup key
  | _ => none

def string? : Json → Option String
  | .string text => some text
  | _ => none

def list? : Json → Option (List Json)
  | .list items => some items
  | _ => none

/-- The value that a number stands for; null stands for one that is left out. -/
def value? : Json → Option (Option Float)
  | .number negative bits => some (some (floatOfBits negative bits))
  | .null => some none
  | _ => none

theorem sizeOf_of_lookup {key : String} {child : Json} {members : List (String × Json)}
    (h : members.lookup key = some child) : sizeOf child < sizeOf members := by
  induction members with
  | nil => cases h
  | cons member members ih =>
    obtain ⟨k, j⟩ := member
    rw [List.lookup_cons] at h
    simp only [List.cons.sizeOf_spec, Prod.mk.sizeOf_spec]
    split at h
    next =>
      cases h
      omega
    next =>
      have := ih h
      omega

theorem sizeOf_of_member? {key : String} {j child : Json} (h : j.member? key = some child) :
    sizeOf child < sizeOf j := by
  cases j with
  | object members =>
    have := sizeOf_of_lookup h
    simp only [object.sizeOf_spec]
    omega
  | _ => cases h

theorem sizeOf_of_items {key : String} {j : Json} {items : List Json}
    (h : (j.member? key).bind list? = some items) : sizeOf items < sizeOf j := by
  obtain ⟨child, found, h⟩ := Option.bind_eq_some_iff.mp h
  have := sizeOf_of_member? found
  cases child with
  | list =>
    cases h
    simp only [list.sizeOf_spec] at this
    omega
  | _ => cases h

end Json

def Operator.ofLabel? (label : String) : Option Operator :=
  [.add, .sub, .mul, .quo, .rem, .pow].find? fun op => Operator.label op == label

namespace Skeleton

mutual

/-- Reads what is kept of a tree, the way its `type` says. -/
def ofJson? (j : Json) : Option Skeleton := do
  match ← (j.member? "type").bind Json.string? with
  | "Number" => return .number (← (j.member? "value").bind Json.value?)
  | "Variable" =>
    return .var (← (j.member? "key").bind Json.string?) (← (j.member? "value").bind Json.value?)
  | "Binary" =>
    let op ← ((j.member? "op").bind Json.string?).bind Operator.ofLabel?
    let left ← (j.member? "left").pbind fun left _ => ofJson? left
    let right ← (j.member? "right").pbind fun right _ => ofJson? right
    return .binary op left right
  | "Function" =>
    let name ← (j.member? "name").bind Json.string?
    let arguments ← ((j.member? "args").bind Json.list?).pbind fun items _ => ofJsonAll? items
    return .call name arguments
  | _ => none
termination_by sizeOf j
decreasing_by
  · exact Json.sizeOf_of_member? ‹_›
  · exact Json.sizeOf_of_member? ‹_›
  · exact Json.sizeOf_of_items ‹_›

def ofJsonAll? : List Json → Option (List Skeleton)
  | [] => some []
  | j :: js => do return (← ofJson? j) :: (← ofJsonAll? js)
termination_by js => sizeOf js

end

end Skeleton

/-! ## Values -/

/-- A finite double is its sign and the encoding of its magnitude. -/
theorem floatOfBits_isNegative {x : Float} {bits : Nat} (finite : magnitude x = .finite bits) :
    bits < infinityBits ∧ floatOfBits (isNegative x) bits = x := by
  simp only [magnitude] at finite
  split at finite
  next => cases finite
  next below =>
    split at finite
    next => cases finite
    next other =>
      injection finite with e
      rw [beq_iff_eq] at other
      refine ⟨by omega, ?_⟩
      have encoding : (if isNegative x then signBit + bits else bits) = x.toBits.toNat := by
        have small : x.toBits.toNat < 2 * signBit := x.toBits.toNat_lt
        rw [signBit] at e small
        by_cases negative : signBit ≤ x.toBits.toNat
        · rw [isNegative, decide_eq_true negative, if_pos rfl]
          rw [signBit] at negative ⊢
          omega
        · rw [isNegative, decide_eq_false negative, if_neg Bool.false_ne_true]
          rw [signBit] at negative
          omega
      calc floatOfBits (isNegative x) bits = floatOfBits false x.toBits.toNat := by
            rw [floatOfBits, encoding]
            rfl
        _ = x := floatOfBits_toBits x

theorem finite_ofFloat (x : Float) : (Json.ofFloat x).Finite := by
  rw [Json.ofFloat]
  split
  next bits finite => exact .number (floatOfBits_isNegative finite).1
  next => exact .null

theorem value?_ofFloat (x : Float) : (Json.ofFloat x).value? = some (finite? x) := by
  cases finite : magnitude x with
  | finite bits =>
    simp only [Json.ofFloat, finite?, finite, Json.value?, (floatOfBits_isNegative finite).2]
  | _ => simp only [Json.ofFloat, finite?, finite, Json.value?]

theorem Operator.ofLabel?_label (op : Operator) : Operator.ofLabel? op.label = some op := by
  cases op <;> rfl

/-! ## Trees -/

mutual

theorem Expr.finite_json : ∀ e : Expr, e.json.Finite
  | .number value => by
    have := finite_ofFloat value
    rw [json]
    refine .object ?_
    simp only [List.forall_mem_cons]
    exact ⟨.string _, this, List.forall_mem_nil _⟩
  | .binary op left right => by
    rw [json]
    refine .object ?_
    simp only [List.forall_mem_cons]
    exact ⟨.string _, .string _, left.finite_json, right.finite_json, List.forall_mem_nil _⟩
  | .var key value => by
    have := finite_ofFloat value
    rw [json]
    refine .object ?_
    simp only [List.forall_mem_cons]
    exact ⟨.string _, .string _, this, List.forall_mem_nil _⟩
  | .call name callee arguments => by
    have := finite_jsonAll arguments
    rw [json]
    refine .object ?_
    simp only [List.forall_mem_cons]
    exact ⟨.string _, .string _, .list this, List.forall_mem_nil _⟩

theorem Expr.finite_jsonAll : ∀ es : List Expr, ∀ j ∈ jsonAll es, j.Finite
  | [] => List.forall_mem_nil _
  | e :: es => List.forall_mem_cons.mpr ⟨e.finite_json, finite_jsonAll es⟩

end

mutual

theorem Skeleton.ofJson?_json : ∀ e : Expr, ofJson? e.json = some e.skeleton
  | .number value => by
    rw [Expr.json, ofJson?]
    show ((Json.ofFloat value).value?.bind fun x => some (Skeleton.number x)) = _
    rw [value?_ofFloat]
    rfl
  | .binary op left right => by
    rw [Expr.json, ofJson?]
    show ((Operator.ofLabel? op.label).bind fun op => (ofJson? left.json).bind fun l =>
      (ofJson? right.json).bind fun r => some (Skeleton.binary op l r)) = _
    rw [op.ofLabel?_label, ofJson?_json left, ofJson?_json right]
    rfl
  | .var key value => by
    rw [Expr.json, ofJson?]
    show ((Json.ofFloat value).value?.bind fun x => some (Skeleton.var key x)) = _
    rw [value?_ofFloat]
    rfl
  | .call name callee arguments => by
    rw [Expr.json, ofJson?]
    show ((ofJsonAll? (Expr.jsonAll arguments)).bind fun es => some (Skeleton.call name es)) = _
    rw [ofJsonAll?_jsonAll arguments]
    rfl

theorem Skeleton.ofJsonAll?_jsonAll : ∀ es : List Expr,
    ofJsonAll? (Expr.jsonAll es) = some (Expr.skeletonAll es)
  | [] => by rw [Expr.jsonAll, ofJsonAll?, Expr.skeletonAll]
  | e :: es => by
    rw [Expr.jsonAll, ofJsonAll?, ofJson?_json e, ofJsonAll?_jsonAll es]
    rfl

end

/-! ## Nothing else is kept -/

theorem ofFloat_eq_of_finite? {x y : Float} (same : finite? x = finite? y) :
    Json.ofFloat x = Json.ofFloat y := by
  cases finite : magnitude x with
  | finite =>
    cases finite' : magnitude y with
    | finite =>
      simp only [finite?, finite, finite'] at same
      rw [Option.some.inj same]
    | _ => simp only [finite?, finite, finite', reduceCtorEq] at same
  | _ =>
    cases finite' : magnitude y with
    | finite => simp only [finite?, finite, finite', reduceCtorEq] at same
    | _ => simp only [Json.ofFloat, finite, finite']

mutual

/-- The JSON of a tree depends on what is kept alone. -/
theorem Expr.json_eq_of_skeleton : ∀ e e' : Expr, e.skeleton = e'.skeleton → e.json = e'.json
  | .number _, e', same => by
    cases e' with
    | number =>
      injection same with value
      rw [json, json, ofFloat_eq_of_finite? value]
    | _ => cases same
  | .binary _ left right, e', same => by
    cases e' with
    | binary _ left' right' =>
      injection same with op l r
      rw [json, json, op, json_eq_of_skeleton left left' l, json_eq_of_skeleton right right' r]
    | _ => cases same
  | .var _ _, e', same => by
    cases e' with
    | var =>
      injection same with key value
      rw [json, json, key, ofFloat_eq_of_finite? value]
    | _ => cases same
  | .call _ _ arguments, e', same => by
    cases e' with
    | call _ _ arguments' =>
      injection same with name all
      rw [json, json, name, jsonAll_eq_of_skeletonAll arguments arguments' all]
    | _ => cases same

theorem Expr.jsonAll_eq_of_skeletonAll : ∀ es es' : List Expr,
    skeletonAll es = skeletonAll es' → jsonAll es = jsonAll es'
  | [], es', same => by
    cases es' with
    | nil => rfl
    | cons => cases same
  | e :: es, es', same => by
    cases es' with
    | nil => cases same
    | cons e' es' =>
      injection same with first more
      rw [jsonAll, jsonAll, json_eq_of_skeleton e e' first, jsonAll_eq_of_skeletonAll es es' more]

end

/-- The JSON text of a tree is well formed and has one value.  Read by the `type` of every node
this is the tree without its functions and without the values that are not finite; and two trees
have the same text exactly if they are the same up to these. -/
theorem Expr.json_text (e : Expr) :
    (∀ j, Json.Denotes e.json.text j ↔ j = e.json) ∧
      Skeleton.ofJson? e.json = some e.skeleton ∧
      ∀ e' : Expr, e'.json.text = e.json.text ↔ e'.skeleton = e.skeleton := by
  have denotes : ∀ (e : Expr) (j : Json), Json.Denotes e.json.text j ↔ j = e.json := by
    intro e j
    exact Json.denotes_text_iff e.finite_json
  refine ⟨denotes e, Skeleton.ofJson?_json e, fun e' => ⟨fun same => ?_, fun same => ?_⟩⟩
  · have value : e'.json = e.json := by
      apply (denotes e e'.json).mp
      rw [← same]
      exact (denotes e' e'.json).mpr rfl
    apply Option.some.inj
    rw [← Skeleton.ofJson?_json, value, Skeleton.ofJson?_json]
  · rw [Expr.json_eq_of_skeleton e' e same]

end Arith
