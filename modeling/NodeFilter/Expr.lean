import NodeFilter.Scope

/-!
The tree of a filter, whether data matches it, and what was asked of the host on the way.
Right operands and negations are followed on one level, with one flag for all negations
passed so far; left operands and the targets of fields go one level down, where anything but
a leaf counts against the limit.
-/

namespace NodeFilter

inductive Expr where
  | joined (operator : Connective) (left right : Expr)
  | not (operand : Expr)
  /-- The target is tested against a facet of the node. -/
  | facet (field : Field) (target : Expr)
  | value (literal : Literal)
  /-- A test for a type name. No filter text spells one. -/
  | type (name : String)
  deriving DecidableEq

namespace Expr

@[match_pattern] abbrev and (left right : Expr) : Expr := .joined .and left right

@[match_pattern] abbrev or (left right : Expr) : Expr := .joined .or left right

def isLeaf : Expr → Bool
  | .value _ | .type _ => true
  | _ => false

end Expr

abbrev Comparator := Value → Literal → Bool

inductive Call where
  | accessor (field : Field)
  | compare (value : Value) (literal : Literal) (result : Bool)

structure Run where
  result : Except EvalError Bool
  calls : List Call

namespace Run

def answer (result : Bool) : Run := ⟨.ok result, []⟩

def fail (fault : EvalError) : Run := ⟨.error fault, []⟩

def negatedIf (negate : Bool) (run : Run) : Run :=
  { run with result := run.result.map (· != negate) }

def after (calls : List Call) (run : Run) : Run := { run with calls := calls ++ run.calls }

end Run

/-- The answer of a left operand that makes the right one irrelevant. -/
def Connective.decisive : Connective → Bool
  | .and => false
  | .or => true

def matchLiteral (comparator : Option Comparator) (data : Option Value) (literal : Literal) : Run :=
  match data with
  | none => .answer false
  | some value =>
      if value.isComposite then
        match comparator with
        | none => .answer false
        | some compare =>
            let result := compare value literal
            ⟨.ok result, [.compare value literal result]⟩
      else .answer (value.strictlyEquals literal)

/-- Data passes a type test if it is text that names the type. The names `null`,
`primitive` and `undefined` also speak of the data itself. -/
def Category.admits (category : Category) (data : Option Value) : Bool :=
  let isNull := data.any (·.kind == .null)
  let tag := data.bind Value.text?
  match category with
  | .null => isNull
  | .undefined => data.isNone
  | .primitive => isNull || tag == some "boolean" || tag == some "number" || tag == some "string"
  | other => tag == some other.name

def matchType (data : Option Value) (name : String) : Run :=
  match Category.ofName? name with
  | some category => .answer (category.admits data)
  | none => .fail (.unknownType name)

namespace Expr

def isWithin (limit depth : Nat) (expr : Expr) : Bool := expr.isLeaf || depth ≤ limit

/-- The run of a filter at a depth, its answer inverted when the flag is set. -/
def follow (limit : Nat) (comparator : Option Comparator) (scope : Scope) (depth : Nat)
    (negate : Bool) : Expr → Run
  | .joined operator left right =>
      let first :=
        if left.isWithin limit (depth + 1) then follow limit comparator scope (depth + 1) false left
        else .fail (.tooDeep limit)
      match first.result with
      | .error fault => ⟨.error fault, first.calls⟩
      | .ok decided =>
          if decided = operator.decisive then ⟨.ok (decided != negate), first.calls⟩
          else (follow limit comparator scope depth negate right).after first.calls
  | .not operand => follow limit comparator scope depth (!negate) operand
  | .facet field target =>
      match scope.facet field with
      | .unreadable => .fail (.missingAccessor field)
      | .nothing => ⟨.error (.fieldNotFound field), [.accessor field]⟩
      | .found resolved =>
          let inner :=
            if target.isWithin limit (depth + 1) then
              follow limit comparator (.bare (some resolved)) (depth + 1) false target
            else .fail (.tooDeep limit)
          (inner.negatedIf negate).after [.accessor field]
  | .value literal => (matchLiteral comparator scope.value literal).negatedIf negate
  | .type name => (matchType scope.value name).negatedIf negate

def eval (limit : Nat) (comparator : Option Comparator) (scope : Scope) (expr : Expr) : Run :=
  expr.follow limit comparator scope 0 false

end Expr

end NodeFilter
