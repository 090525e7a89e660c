import NodeFilter.Expr.Parser

/-!
A document as a list of nodes. A node is a value with its location, the steps that
lead to it from the root; its key and its place among its siblings are those of
the last step. Nodes are listed in pre-order, siblings in the order they stand in.
-/

namespace NodeFilter

inductive Step where
  | member (name : String) (position : Nat)
  | element (position : Nat)
  deriving DecidableEq

def Step.position : Step → Nat
  | .member _ position => position
  | .element position => position

structure Node where
  location : List Step
  value : Value

namespace Node

def step? (node : Node) : Option Step := node.location.getLast?

def position (node : Node) : Nat := (node.step?.map Step.position).getD 0

def key? (node : Node) : Option Value :=
  node.step?.map fun
    | .member name _ => .string name
    | .element position => .number (.ofNat position)

def typeName (node : Node) : Value := .string node.value.kind.name

def fields : Fields Node :=
  ⟨some key?, some fun node => some node.value, some fun node => some node.typeName⟩

def scope (node : Node) : Scope := fields.scope (some node.value) node

end Node

mutual

def walkFrom (location : List Step) : Value → List Node
  | .array elements => ⟨location, .array elements⟩ :: walkElements location 0 elements
  | .object members => ⟨location, .object members⟩ :: walkMembers location 0 members
  | .null => [⟨location, .null⟩]
  | .boolean value => [⟨location, .boolean value⟩]
  | .number value => [⟨location, .number value⟩]
  | .string text => [⟨location, .string text⟩]

def walkElements (location : List Step) (position : Nat) : List Value → List Node
  | [] => []
  | element :: rest =>
      walkFrom (location ++ [.element position]) element ++
        walkElements location (position + 1) rest

def walkMembers (location : List Step) (position : Nat) : List (String × Value) → List Node
  | [] => []
  | (name, value) :: rest =>
      walkFrom (location ++ [.member name position]) value ++
        walkMembers location (position + 1) rest

end

def walk (root : Value) : List Node := walkFrom [] root

/-!
Locations as text. A path starts with `$`. A member whose name is a plain word
follows after a point; any other name is quoted in brackets, its quotes and
backslashes escaped; an element is its position in brackets.
-/

def isPlainName : List Char → Bool
  | [] => false
  | first :: rest => Text.isNameStart first && rest.all Text.isWordChar

def escapeName (c : Char) : List Char :=
  if c = '\\' ∨ c = '\'' then ['\\', c] else [c]

def Step.segment : Step → List Char
  | .member name _ =>
      if isPlainName name.toList then '.' :: name.toList
      else ['[', '\''] ++ name.toList.flatMap escapeName ++ ['\'', ']']
  | .element position => '[' :: (Nat.toDigits 10 position ++ [']'])

def pathText (location : List Step) : List Char := '$' :: location.flatMap Step.segment

def Node.path (node : Node) : String := String.ofList (pathText node.location)

/-!
The nodes of a document that a filter matches, in pre-order. A node without a
facet that the filter asks for does not match; any other fault ends the search.
-/

/-- The matching nodes, or the fault that ended the search, and the calls made. -/
structure Selection where
  nodes : Except EvalError (List Node)
  calls : List Call

namespace Selection

def fromNodes (comparator : Option Comparator) (expr : Expr) : List Node → Selection
  | [] => ⟨.ok [], []⟩
  | node :: rest =>
      let run := expr.eval defaultLimit comparator node.scope
      match run.result with
      | .ok true =>
          let others := fromNodes comparator expr rest
          ⟨others.nodes.map (node :: ·), run.calls ++ others.calls⟩
      | .ok false | .error (.fieldNotFound _) =>
          let others := fromNodes comparator expr rest
          ⟨others.nodes, run.calls ++ others.calls⟩
      | .error fault => ⟨.error fault, run.calls⟩

end Selection

def search (comparator : Option Comparator) (expr : Expr) (root : Value) : Selection :=
  Selection.fromNodes comparator expr (walk root)

def selectNodes (comparator : Option Comparator) (expr : Expr) (root : Value) :
    Except EvalError (List Node) :=
  (search comparator expr root).nodes

end NodeFilter
