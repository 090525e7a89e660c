import NodeFilter.Document
import NodeFilter.Proofs.Locations

/-!
A search, seen as a whole. The first node in the order of the walk with a fault that
is not passed over ends it with that fault. Where there is no such node, it finds the
nodes on which the filter is true, in the order of the walk.
-/

namespace NodeFilter

namespace Node

def answer (comparator : Option Comparator) (expr : Expr) (node : Node) : Except EvalError Bool :=
  (expr.eval defaultLimit comparator node.scope).result

def isMatch (comparator : Option Comparator) (expr : Expr) (node : Node) : Bool :=
  match node.answer comparator expr with
  | .ok matched => matched
  | .error _ => false

/-- The fault that ends a search here. A facet that the node does not have ends none. -/
def fatal? (comparator : Option Comparator) (expr : Expr) (node : Node) : Option EvalError :=
  match node.answer comparator expr with
  | .ok _ | .error (.fieldNotFound _) => none
  | .error fault => some fault

variable {comparator : Option Comparator} {expr : Expr} {node : Node}

theorem fatal?_eq_some {fault : EvalError} :
    node.fatal? comparator expr = some fault ↔
      node.answer comparator expr = .error fault ∧ ∀ field, fault ≠ .fieldNotFound field := by
  unfold fatal?
  cases node.answer comparator expr with
  | ok matched => simp
  | error other =>
      cases other with
      | fieldNotFound field =>
          constructor
          · intro none
            cases none
          · rintro ⟨same, passed⟩
            cases same
            exact absurd rfl (passed field)
      | _ =>
          constructor
          · intro same
            cases same
            exact ⟨rfl, by simp⟩
          · rintro ⟨same, -⟩
            cases same
            rfl

theorem fatal?_eq_none :
    node.fatal? comparator expr = none ↔
      (∃ matched, node.answer comparator expr = .ok matched) ∨
        ∃ field, node.answer comparator expr = .error (.fieldNotFound field) := by
  unfold fatal?
  rcases node.answer comparator expr with fault | matched
  · cases fault <;> simp
  · simp

theorem isMatch_eq_true :
    node.isMatch comparator expr = true ↔ node.answer comparator expr = .ok true := by
  unfold isMatch
  rcases node.answer comparator expr with fault | matched <;> simp

end Node

variable (comparator : Option Comparator) (expr : Expr)

/-- One turn of the search: it stops at the node, or goes on and may keep the node. -/
theorem fromNodes_cons (node : Node) (rest : List Node) :
    (Selection.fromNodes comparator expr (node :: rest)).nodes =
      match node.fatal? comparator expr with
      | some fault => .error fault
      | none =>
          (Selection.fromNodes comparator expr rest).nodes.map fun others =>
            if node.isMatch comparator expr then node :: others else others := by
  cases said : (expr.eval defaultLimit comparator node.scope).result with
  | error fault =>
      cases fault with
      | fieldNotFound field =>
          simp only [Selection.fromNodes, Node.fatal?, Node.isMatch, Node.answer, said]
          cases (Selection.fromNodes comparator expr rest).nodes <;> rfl
      | _ => simp [Selection.fromNodes, Node.fatal?, Node.answer, said]
  | ok matched =>
      cases matched with
      | false =>
          simp only [Selection.fromNodes, Node.fatal?, Node.isMatch, Node.answer, said]
          cases (Selection.fromNodes comparator expr rest).nodes <;> rfl
      | true => simp [Selection.fromNodes, Node.fatal?, Node.isMatch, Node.answer, said]

theorem fromNodes_eq (nodes : List Node) :
    (Selection.fromNodes comparator expr nodes).nodes =
      match nodes.findSome? (Node.fatal? comparator expr) with
      | some fault => .error fault
      | none => .ok (nodes.filter (Node.isMatch comparator expr)) := by
  induction nodes with
  | nil => rfl
  | cons node rest ih =>
      rw [fromNodes_cons, ih, List.findSome?_cons, List.filter_cons]
      cases node.fatal? comparator expr with
      | some fault => rfl
      | none =>
          cases rest.findSome? (Node.fatal? comparator expr) with
          | some fault => rfl
          | none => rfl

theorem selectNodes_eq (root : Value) :
    selectNodes comparator expr root =
      match (walk root).findSome? (Node.fatal? comparator expr) with
      | some fault => .error fault
      | none => .ok ((walk root).filter (Node.isMatch comparator expr)) :=
  fromNodes_eq comparator expr (walk root)

variable {comparator expr} {root : Value}

theorem selectNodes_eq_ok {nodes : List Node} :
    selectNodes comparator expr root = .ok nodes ↔
      (∀ node : Node, node.IsIn root → node.fatal? comparator expr = none) ∧
        nodes = (walk root).filter (Node.isMatch comparator expr) := by
  simp only [← mem_walk]
  rw [selectNodes_eq, ← List.findSome?_eq_none_iff]
  cases (walk root).findSome? (Node.fatal? comparator expr) with
  | some fault => simp
  | none => simp [eq_comm]

/-- The fault of a search is that of a node which no other with such a fault precedes. -/
theorem selectNodes_eq_error {fault : EvalError} :
    selectNodes comparator expr root = .error fault ↔
      ∃ node : Node, node.IsIn root ∧ node.fatal? comparator expr = some fault ∧
        ∀ earlier : Node, earlier.IsIn root → Precedes earlier.location node.location →
          earlier.fatal? comparator expr = none := by
  have first : selectNodes comparator expr root = .error fault ↔
      (walk root).findSome? (Node.fatal? comparator expr) = some fault := by
    rw [selectNodes_eq]
    cases (walk root).findSome? (Node.fatal? comparator expr) <;> simp
  rw [first, List.findSome?_eq_some_iff]
  constructor
  · rintro ⟨before, node, after, order, fatal, passes⟩
    have listed : node ∈ walk root := by simp [order]
    refine ⟨node, mem_walk.mp listed, fatal, fun earlier isIn precedes => ?_⟩
    exact passes earlier ((mem_walk_before order).mpr ⟨isIn, precedes⟩)
  · rintro ⟨node, isIn, fatal, passes⟩
    obtain ⟨before, after, order⟩ := List.append_of_mem (mem_walk.mpr isIn)
    refine ⟨before, node, after, order, fatal, fun earlier isBefore => ?_⟩
    obtain ⟨earlierIsIn, precedes⟩ := (mem_walk_before order).mp isBefore
    exact passes earlier earlierIsIn precedes

theorem lists_of_selected {nodes : List Node}
    (selected : selectNodes comparator expr root = .ok nodes) :
    Lists root (·.answer comparator expr = .ok true) nodes := by
  obtain ⟨-, rfl⟩ := selectNodes_eq_ok.mp selected
  exact lists_filter_walk fun _ _ => Node.isMatch_eq_true

def Finds (root : Value) (wanted : Node → Prop) (outcome : Except EvalError (List Node)) : Prop :=
  ∃ nodes, outcome = .ok nodes ∧ Lists root wanted nodes

/-- What a search finds is told node by node. -/
theorem selectNodes_finds {wanted : Node → Prop} :
    Finds root wanted (selectNodes comparator expr root) ↔
      ∀ node : Node, node.IsIn root → node.fatal? comparator expr = none ∧
        (node.isMatch comparator expr = true ↔ wanted node) := by
  constructor
  · rintro ⟨nodes, selected, -, chosen⟩ node isIn
    obtain ⟨passes, rfl⟩ := selectNodes_eq_ok.mp selected
    refine ⟨passes node isIn, ?_⟩
    simpa [isIn, mem_walk] using chosen node
  · intro told
    refine ⟨_, selectNodes_eq_ok.mpr ⟨fun node isIn => (told node isIn).1, rfl⟩, ?_⟩
    exact lists_filter_walk fun node isIn => (told node isIn).2

theorem selectNodes_finds_of_answer {wanted : Node → Prop} {verdict : Node → Bool}
    (said : ∀ node : Node, node.answer comparator expr = .ok (verdict node)) :
    Finds root wanted (selectNodes comparator expr root) ↔
      ∀ node : Node, node.IsIn root → (verdict node = true ↔ wanted node) := by
  rw [selectNodes_finds]
  refine forall₂_congr fun node _ => ?_
  simp [Node.fatal?_eq_none, Node.isMatch_eq_true, said]

end NodeFilter
