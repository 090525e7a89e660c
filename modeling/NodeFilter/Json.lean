import NodeFilter.Value

/-!
JSON values, and the passage between them and the values that filters test. Both
ways names and order stay as they are. JSON tells integers from other numbers, a
value does not: a whole number whose magnitude is at most 2^53 - 1 is written back
as an integer, and what is not finite has no JSON form but null.
-/

namespace NodeFilter

inductive Json where
  | null
  | boolean (value : Bool)
  | integer (value : Int)
  | float (value : Binary64)
  | string (text : String)
  | array (elements : List Json)
  | object (members : List (String × Json))

theorem Json.tree_induction {motive : Json → Prop}
    (scalar : ∀ tree, (∀ elements, tree ≠ .array elements) → (∀ members, tree ≠ .object members) →
      motive tree)
    (array : ∀ elements, (∀ element ∈ elements, motive element) → motive (.array elements))
    (object : ∀ members, (∀ member ∈ members, motive member.2) → motive (.object members)) :
    ∀ tree, motive tree
  | .array elements =>
      array elements fun element _ => tree_induction scalar array object element
  | .object members => by
      refine object members fun member held => ?_
      have smaller := sizeOf_member held
      exact tree_induction scalar array object member.2
  | .null | .boolean _ | .integer _ | .float _ | .string _ => scalar _ nofun nofun

theorem eq_map_of_cons {α β : Type} {each : α → β} {all : List α → List β} (nil : all [] = [])
    (cons : ∀ first rest, all (first :: rest) = each first :: all rest) (items : List α) :
    all items = items.map each := by
  induction items with
  | nil => exact nil
  | cons first rest ih => rw [cons, ih, List.map_cons]

def greatestSafeInteger : Nat := 0x1fffffffffffff

def Json.ofNumber (x : Binary64) : Json :=
  match x.toInt? with
  | some n => if n.natAbs ≤ greatestSafeInteger then .integer n else .float x
  | none => if x.isFinite then .float x else .null

namespace Value

mutual

def toJson : Value → Json
  | .null => .null
  | .boolean value => .boolean value
  | .number value => .ofNumber value
  | .string text => .string text
  | .array elements => .array (elementsToJson elements)
  | .object members => .object (membersToJson members)

def elementsToJson : List Value → List Json
  | [] => []
  | element :: rest => element.toJson :: elementsToJson rest

def membersToJson : List (String × Value) → List (String × Json)
  | [] => []
  | (name, value) :: rest => (name, value.toJson) :: membersToJson rest

end

theorem elementsToJson_eq (elements : List Value) :
    elementsToJson elements = elements.map toJson :=
  eq_map_of_cons rfl (fun _ _ => rfl) elements

theorem membersToJson_eq (members : List (String × Value)) :
    membersToJson members = members.map fun member => (member.1, member.2.toJson) :=
  eq_map_of_cons rfl (fun _ _ => rfl) members

mutual

def ofJson : Json → Value
  | .null => .null
  | .boolean value => .boolean value
  | .integer value => .number (.ofInt value)
  | .float value => .number value
  | .string text => .string text
  | .array elements => .array (elementsOfJson elements)
  | .object members => .object (membersOfJson members)

def elementsOfJson : List Json → List Value
  | [] => []
  | element :: rest => ofJson element :: elementsOfJson rest

def membersOfJson : List (String × Json) → List (String × Value)
  | [] => []
  | (name, value) :: rest => (name, ofJson value) :: membersOfJson rest

end

theorem elementsOfJson_eq (elements : List Json) :
    elementsOfJson elements = elements.map ofJson :=
  eq_map_of_cons rfl (fun _ _ => rfl) elements

theorem membersOfJson_eq (members : List (String × Json)) :
    membersOfJson members = members.map fun member => (member.1, ofJson member.2) :=
  eq_map_of_cons rfl (fun _ _ => rfl) members

end Value

end NodeFilter
