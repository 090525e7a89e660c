import NodeFilter.Value

/-!
What a filter sees of the host's data: its value, if it has one, and its facets.
A table of fields says how to read each facet off the data. What a facet reads to
has no facets of its own.
-/

namespace NodeFilter

inductive EvalError where
  | missingAccessor (field : Field)
  | fieldNotFound (field : Field)
  | unknownType (name : String)
  | tooDeep (limit : Nat)
  deriving DecidableEq

def EvalError.message : EvalError → String
  | .missingAccessor field => s!"field {field.spelling} cannot be resolved here"
  | .fieldNotFound field => s!"field {field.spelling} not found"
  | .unknownType name => s!"unknown type '{name}'"
  | .tooDeep limit => s!"expression nested deeper than {limit} levels"

/-- What reading a facet gives: there may be no way to read it, or nothing to read. -/
inductive Facet where
  | unreadable
  | nothing
  | found (value : Value)

def Facet.resolve (field : Field) : Facet → Except EvalError Value
  | .unreadable => .error (.missingAccessor field)
  | .nothing => .error (.fieldNotFound field)
  | .found value => .ok value

structure Scope where
  value : Option Value
  facet : Field → Facet

def Scope.bare (value : Option Value) : Scope := ⟨value, fun _ => .unreadable⟩

structure Fields (data : Type) where
  key : Option (data → Option Value)
  value : Option (data → Option Value)
  type : Option (data → Option Value)

namespace Fields

variable {data : Type}

def empty : Fields data := ⟨none, none, none⟩

def accessor? (fields : Fields data) : Field → Option (data → Option Value)
  | .key => fields.key
  | .value => fields.value
  | .type => fields.type

def install (fields : Fields data) (field : Field) (accessor : data → Option Value) :
    Fields data :=
  match field with
  | .key => { fields with key := some accessor }
  | .value => { fields with value := some accessor }
  | .type => { fields with type := some accessor }

/-- The last accessor installed for a field is the one that is used. -/
theorem accessor?_install (fields : Fields data) (field wanted : Field)
    (accessor : data → Option Value) :
    (fields.install field accessor).accessor? wanted =
      if field = wanted then some accessor else fields.accessor? wanted := by
  cases field <;> cases wanted <;> rfl

def has (fields : Fields data) (field : Field) : Bool := (fields.accessor? field).isSome

def facet (fields : Fields data) (subject : data) (field : Field) : Facet :=
  match fields.accessor? field with
  | none => .unreadable
  | some accessor =>
      match accessor subject with
      | none => .nothing
      | some value => .found value

def resolve (fields : Fields data) (subject : data) (field : Field) : Except EvalError Value :=
  (fields.facet subject field).resolve field

def scope (fields : Fields data) (value : Option Value) (subject : data) : Scope :=
  ⟨value, fields.facet subject⟩

def describe (fields : Fields data) : String :=
  let flag := fun field => toString (fields.has field)
  "Fields \x7b key: " ++ flag .key ++ ", value: " ++ flag .value ++ ", type: " ++ flag .type ++
    " \x7d"

end Fields

end NodeFilter
