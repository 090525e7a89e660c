import NodeFilter.Token

/-!
The data that filters test. Members of an object keep the order in which their
names first came, and a name put in again changes the value where it stands.
-/

namespace NodeFilter

inductive Value where
  | null
  | boolean (value : Bool)
  | number (value : Binary64)
  | string (text : String)
  | array (elements : List Value)
  | object (members : List (String × Value))

theorem sizeOf_member {α : Type} [SizeOf α] {member : String × α} {members : List (String × α)}
    (held : member ∈ members) : sizeOf member.2 < sizeOf members := by
  have inside := List.sizeOf_lt_of_mem held
  rw [Prod.mk.sizeOf_spec] at inside
  omega

/-- What holds of scalars, and of arrays and objects made of what it holds of, holds of all. -/
theorem Value.tree_induction {motive : Value → Prop}
    (scalar : ∀ tree, (∀ elements, tree ≠ .array elements) → (∀ members, tree ≠ .object members) →
      motive tree)
    (array : ∀ elements, (∀ element ∈ elements, motive element) → motive (.array elements))
    (object : ∀ members, (∀ member ∈ members, motive member.2) → motive (.object members)) :
    ∀ tree, motive tree
  | .array elements =>
      array elements fun element _ => tree_induction scalar array object element
  | .object members => by
      refine object members fun member held => ?_
      have smaller := sizeOf_member held
      exact tree_induction scalar array object member.2
  | .null | .boolean _ | .number _ | .string _ => scalar _ nofun nofun

/-- Puts a member into a list of members with distinct names. -/
def insertMember {α : Type} (name : String) (value : α) : List (String × α) → List (String × α)
  | [] => [(name, value)]
  | (first, kept) :: rest =>
      if first = name then (first, value) :: rest
      else (first, kept) :: insertMember name value rest

def findMember? {α : Type} (name : String) : List (String × α) → Option α
  | [] => none
  | (first, value) :: rest => if first = name then some value else findMember? name rest

/-- A new name comes last, a known one stays where it is. -/
theorem names_insertMember {α : Type} (name : String) (value : α) (members : List (String × α)) :
    (insertMember name value members).map Prod.fst =
      if name ∈ members.map Prod.fst then members.map Prod.fst
      else members.map Prod.fst ++ [name] := by
  induction members with
  | nil => simp [insertMember]
  | cons member rest ih =>
      obtain ⟨first, kept⟩ := member
      by_cases same : first = name
      · simp [insertMember, same]
      · rw [insertMember, if_neg same, List.map_cons, ih]
        by_cases known : name ∈ rest.map Prod.fst <;> simp_all [Ne.symm same]

theorem findMember?_insertMember {α : Type} (wanted name : String) (value : α)
    (members : List (String × α)) :
    findMember? wanted (insertMember name value members) =
      if name = wanted then some value else findMember? wanted members := by
  induction members with
  | nil => simp [insertMember, findMember?]
  | cons member rest ih =>
      obtain ⟨first, kept⟩ := member
      by_cases same : first = name
      · subst first
        by_cases hit : name = wanted <;> simp [insertMember, findMember?, hit]
      · rw [insertMember, if_neg same, findMember?, ih, findMember?]
        by_cases hit : first = wanted
        · subst hit
          simp [Ne.symm same]
        · simp [hit]

namespace Value

inductive Kind where
  | null
  | boolean
  | number
  | string
  | array
  | object
  deriving DecidableEq

def Kind.name : Kind → String
  | .null => "null"
  | .boolean => "boolean"
  | .number => "number"
  | .string => "string"
  | .array => "array"
  | .object => "object"

def kind : Value → Kind
  | .null => .null
  | .boolean _ => .boolean
  | .number _ => .number
  | .string _ => .string
  | .array _ => .array
  | .object _ => .object

def isComposite : Value → Bool
  | .array _ | .object _ => true
  | _ => false

def text? : Value → Option String
  | .string text => some text
  | _ => none

def ofMembers (members : List (String × Value)) : Value :=
  .object (members.foldl (fun kept member => insertMember member.1 member.2 kept) [])

/-- Equality of a value and a literal of the same kind. Nothing is converted. -/
def strictlyEquals : Value → Literal → Bool
  | .null, .null => true
  | .boolean a, .boolean b => a == b
  | .number a, .number b => a.equals b
  | .string a, .string b => a == b
  | _, _ => false

/-- An array contains its elements, an object the names of its members. -/
def contains : Value → Literal → Bool
  | .array elements, literal => elements.any (·.strictlyEquals literal)
  | .object members, .string name => (findMember? name members).isSome
  | _, _ => false

end Value

/-!
The type names that a type test knows. They are looked up without regard to the
case of ASCII letters, and `bool` is another name of `boolean`.
-/

inductive Category where
  | array
  | boolean
  | number
  | object
  | string
  | null
  | primitive
  | undefined
  deriving DecidableEq

namespace Category

def name : Category → String
  | .array => "array"
  | .boolean => "boolean"
  | .number => "number"
  | .object => "object"
  | .string => "string"
  | .null => "null"
  | .primitive => "primitive"
  | .undefined => "undefined"

def lowercase (text : String) : String := String.ofList (text.toList.map Char.toLower)

def ofName? (text : String) : Option Category :=
  match lowercase text with
  | "array" => some .array
  | "boolean" | "bool" => some .boolean
  | "number" => some .number
  | "object" => some .object
  | "string" => some .string
  | "null" => some .null
  | "primitive" => some .primitive
  | "undefined" => some .undefined
  | _ => none

end Category

end NodeFilter
