import Mathlib.Data.List.Forall2
import NodeFilter.Proofs.Combination

/-!
Type tests, under `$type:` and on the nodes themselves. Under `$type:` a test is put to the name
of a node's kind, which is text, so no node is null there and every kind of scalar but null is
primitive. Put to the nodes themselves, the same test finds texts that happen to be such names.
-/

namespace NodeFilter

namespace Category

def names : Category → List String
  | .boolean => ["boolean", "bool"]
  | category => [category.name]

end Category

namespace Node

variable (comparator : Option Comparator) (node : Node) (name : String)

end Node

section Search

variable {comparator : Option Comparator} {root : Value}

end Search

end NodeFilter
