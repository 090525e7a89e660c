import Mathlib.Data.List.Infix
import NodeFilter.Document
import NodeFilter.Proofs.Combination

/-!
A part of a document, searched as a document of its own. The walk of the whole goes through a
part just as the walk of the part does, only from further down. All below the top of the part is
seen as before. The top itself has lost its key, so an evaluation that asks for the key now ends
there, where it can be passed over, and any other goes as before.
-/

namespace NodeFilter

/-- What a scope shows, another shows too, but a facet may be missing. -/
def Scope.ShowsLess (scope other : Scope) : Prop :=
  scope.value = other.value ∧
    ∀ field, scope.facet field = .nothing ∨ scope.facet field = other.facet field

/-- The run ends for want of a field, or it is the other run. -/
def Run.EndsOrIs (run other : Run) : Prop :=
  (∃ field, run.result = .error (.fieldNotFound field)) ∨ run = other

theorem Run.EndsOrIs.andThen {run other : Run} {next onward : Bool → Run}
    (first : run.EndsOrIs other) (rest : ∀ answer, (next answer).EndsOrIs (onward answer)) :
    (run.andThen next).EndsOrIs (other.andThen onward) := by
  rcases first with ⟨field, missing⟩ | rfl
  · exact Or.inl ⟨field, Run.andThen_eq_error.mpr (Or.inl missing)⟩
  · rcases run with ⟨fault | answer, calls⟩
    · exact Or.inr rfl
    · rcases rest answer with ⟨field, missing⟩ | same
      · exact Or.inl ⟨field, missing⟩
      · exact Or.inr (congrArg (Run.after calls) same)

namespace Expr

/-- With less to see, an evaluation ends for want of a field or goes as before. -/
theorem follow_showsLess {scope other : Scope} (less : scope.ShowsLess other) (limit : Nat)
    (comparator : Option Comparator) (depth : Nat) (negate : Bool) (expr : Expr) :
    (expr.follow limit comparator scope depth negate).EndsOrIs
      (expr.follow limit comparator other depth negate) := by
  -- The scope is handed on to operands alone. What a field resolves to is bare in both.
  induction expr generalizing depth negate with
  | joined operator left right leftIh rightIh =>
      rw [follow_joined, follow_joined]
      refine Run.EndsOrIs.andThen ?_ fun decided => ?_
      · unfold descend
        split
        · exact leftIh (depth + 1) false
        · exact Or.inr rfl
      · split
        · exact Or.inr rfl
        · exact rightIh depth negate
  | not operand ih =>
      rw [follow, follow]
      exact ih depth (!negate)
  | facet field target _ =>
      rw [follow_facet, follow_facet]
      rcases less.2 field with missing | same
      · rw [missing]
        exact Or.inl ⟨field, rfl⟩
      · rw [same]
        exact Or.inr rfl
  | value literal =>
      rw [follow, follow, less.1]
      exact Or.inr rfl
  | type name =>
      rw [follow, follow, less.1]
      exact Or.inr rfl

end Expr

namespace Node

def under (above : List Step) (node : Node) : Node := ⟨above ++ node.location, node.value⟩

variable {above : List Step} {node : Node}

theorem step?_under (below : node.location ≠ []) : (node.under above).step? = node.step? := by
  rw [step?, step?, under, List.getLast?_append_of_ne_nil _ below]

theorem scope_under (below : node.location ≠ []) : (node.under above).scope = node.scope := by
  have facets : Fields.facet Node.fields (node.under above) = Fields.facet Node.fields node := by
    funext field
    cases field with
    | key => simp only [Fields.facet, Fields.accessor?, Node.fields, key?, step?_under below]
    | value => rfl
    | type => rfl
  simp only [scope, Fields.scope, facets]
  rfl

theorem scope_showsLess (above : List Step) (node : Node) :
    node.scope.ShowsLess (node.under above).scope := by
  by_cases top : node.location = []
  · refine ⟨rfl, fun field => ?_⟩
    cases field with
    | key =>
        left
        change Fields.facet Node.fields node .key = .nothing
        simp only [Fields.facet, Fields.accessor?, Node.fields, key?, step?, top,
          List.getLast?_nil, Option.map_none]
    | value => exact Or.inr rfl
    | type => exact Or.inr rfl
  · rw [scope_under top]
    exact ⟨rfl, fun _ => Or.inr rfl⟩

variable {comparator : Option Comparator} {expr : Expr}

theorem answer_under (below : node.location ≠ []) :
    (node.under above).answer comparator expr = node.answer comparator expr := by
  rw [answer, answer, scope_under below]

/-- A node that stands in a part is told the same in the whole, or its evaluation in the part
ends for want of a field. -/
theorem lacksField_or_answer_under (above : List Step) :
    node.LacksField comparator expr ∨
      node.answer comparator expr = (node.under above).answer comparator expr :=
  (Expr.follow_showsLess (node.scope_showsLess above) defaultLimit comparator 0 false expr).imp_right
    (congrArg Run.result)

theorem passes_of_under (passes : (node.under above).fatal? comparator expr = none) :
    node.fatal? comparator expr = none := by
  rcases lacksField_or_answer_under above with lacks | same
  · exact fatal?_eq_none.mpr (Or.inr lacks)
  · rw [fatal?, same]
    exact passes

theorem isMatch_under (matched : node.isMatch comparator expr = true) :
    (node.under above).isMatch comparator expr = true := by
  rw [isMatch_eq_true] at matched ⊢
  rcases lacksField_or_answer_under above with ⟨field, missing⟩ | same
  · rw [missing] at matched
    cases matched
  · rwa [← same]

/-- The path of a node of the whole is that of the part's top and then that within the part. -/
theorem path_under (top node : Node) :
    ∃ rest, node.path = "$" ++ rest ∧ (node.under top.location).path = top.path ++ rest := by
  refine ⟨String.ofList (node.location.flatMap Step.segment), ?_, ?_⟩
  · rw [path, pathText, String.ofList_cons]
    rfl
  · simp only [path, pathText, under, List.flatMap_append, ← String.ofList_append,
      List.cons_append]

end Node

theorem walkFrom_under (above location : List Step) (value : Value) :
    walkFrom (above ++ location) value = (walkFrom location value).map (Node.under above) := by
  induction value using Value.induction_children generalizing location with
  | parent value ih =>
      rw [walkFrom_eq, walkFrom_eq, List.map_cons, List.map_flatMap]
      congr 1
      refine List.flatMap_congr fun child isChild => ?_
      rw [List.append_assoc, ih child isChild]

/-- The walk of a document goes through all of a part before it goes on. -/
theorem walkFrom_infix {root part : Value} {above : List Step} (location : List Step)
    (held : root.at? above = some part) :
    walkFrom (location ++ above) part <:+: walkFrom location root := by
  induction above generalizing root location with
  | nil =>
      cases held
      rw [List.append_nil]
  | cons step rest ih =>
      obtain ⟨child, isChild, inside⟩ := Option.bind_eq_some_iff.mp held
      have deeper := ih (location ++ [step]) inside
      rw [List.append_assoc, List.singleton_append] at deeper
      have listed := Value.mem_children.mpr isChild
      rw [walkFrom_eq location root, List.flatMap_def]
      refine List.infix_cons (deeper.trans (List.infix_of_mem_flatten ?_))
      exact List.mem_map.mpr ⟨_, listed, rfl⟩

theorem walk_part {root part : Value} {above : List Step} (held : root.at? above = some part) :
    (walk part).map (Node.under above) <:+: walk root := by
  have inside := walkFrom_infix [] held
  have prefixed := walkFrom_under above [] part
  rw [List.append_nil] at prefixed
  rwa [List.nil_append, prefixed] at inside

section Search

variable {comparator : Option Comparator} {expr : Expr} {root part : Value} {above : List Step}
  {nodes : List Node}

/-- A search that no fault ends in a document is ended by none in a part of it. -/
theorem selectNodes_part (held : root.at? above = some part)
    (selected : selectNodes comparator expr root = .ok nodes) :
    selectNodes comparator expr part =
      .ok ((walk part).filter (Node.isMatch comparator expr)) := by
  refine selectNodes_eq_ok.mpr ⟨fun node isIn => ?_, rfl⟩
  have inWhole := (walk_part held).subset (List.mem_map_of_mem (mem_walk.mpr isIn))
  exact Node.passes_of_under (passes_selected selected (mem_walk.mp inWhole))

theorem matches_part (held : root.at? above = some part) :
    (((walk part).filter (Node.isMatch comparator expr)).map (Node.under above)).Sublist
      ((walk root).filter (Node.isMatch comparator expr)) := by
  have inWhole := (walk_part held).sublist.filter (Node.isMatch comparator expr)
  rw [List.filter_map] at inWhole
  refine List.Sublist.trans (List.Sublist.map _ (List.monotone_filter_right _ ?_)) inWhole
  intro node matched
  exact Node.isMatch_under matched

theorem match_below (held : root.at? above = some part)
    (selected : selectNodes comparator expr root = .ok nodes) {node : Node}
    (chosen : node ∈ nodes) {below : List Step} (strictly : below ≠ [])
    (place : node.location = above ++ below) :
    ⟨below, node.value⟩ ∈ (walk part).filter (Node.isMatch comparator expr) := by
  obtain ⟨-, rfl⟩ := selectNodes_eq_ok.mp selected
  obtain ⟨listed, isMatch⟩ := List.mem_filter.mp chosen
  have whole : node = Node.under above ⟨below, node.value⟩ := by
    cases node
    cases place
    rfl
  have found := mem_walk.mp listed
  rw [Node.IsIn, place, Value.at?_append, held] at found
  refine List.mem_filter.mpr ⟨mem_walk.mpr found, ?_⟩
  rw [whole, Node.isMatch_eq_true, Node.answer_under strictly] at isMatch
  exact Node.isMatch_eq_true.mpr isMatch

end Search

/-- Where a search of a document succeeds, so does the search of any part of it taken as a
document. What it finds is found in the whole too, in the same order, and all that is found in the
whole below the top of the part is found in the part. The paths in the whole are the path of the
part followed by the path within it. -/
theorem search_local (comparator : Option Comparator) (expr : Expr) (root : Value) (top : Node)
    (inside : top.IsIn root) (nodes : List Node)
    (selected : selectNodes comparator expr root = .ok nodes) :
    ∃ found, selectNodes comparator expr top.value = .ok found ∧
      (found.map (Node.under top.location)).Sublist nodes ∧
      (∀ node ∈ nodes, ∀ below, below ≠ [] → node.location = top.location ++ below →
        ⟨below, node.value⟩ ∈ found) ∧
      ∀ node ∈ found, ∃ rest, node.path = "$" ++ rest ∧
        (node.under top.location).path = top.path ++ rest := by
  refine ⟨_, selectNodes_part inside selected, ?_, ?_, fun node _ => Node.path_under top node⟩
  · obtain ⟨-, rfl⟩ := selectNodes_eq_ok.mp selected
    exact matches_part inside
  · intro node chosen below strictly place
    exact match_below inside selected chosen strictly place

/-- The member `a` of `{"a": {"b": 'x'}}` is found by `$key: a | b`, but not in the document that it
is by itself, where it has no key. Its own member is found in both. -/
theorem search_local_loses_key :
    let expr := Expr.facet .key (.or (.value (.string "a")) (.value (.string "b")))
    let leaf := Value.string "x"
    let top := Node.mk [.member "a" 0] (.object [("b", leaf)])
    let root := Value.object [("a", top.value)]
    let deep := Node.mk [.member "a" 0, .member "b" 0] leaf
    let found := [Node.mk [.member "b" 0] leaf]
    (top.IsIn root ∧ selectNodes none expr root = .ok [top, deep]) ∧
      (found.map (Node.under top.location)).Sublist [top, deep] ∧
      (∀ node ∈ [top, deep], ∀ below, below ≠ [] → node.location = top.location ++ below →
        ⟨below, node.value⟩ ∈ found) ∧
      (∀ node ∈ found, ∃ rest, node.path = "$" ++ rest ∧
        (node.under top.location).path = top.path ++ rest) ∧
      selectNodes none expr top.value = .ok found := by
  intro expr leaf top root deep found
  have inside : top.IsIn root := rfl
  have selected : selectNodes none expr root = .ok [top, deep] := by cbv
  have alone : selectNodes none expr top.value = .ok found := by cbv
  obtain ⟨others, same, kept, below, paths⟩ :=
    search_local none expr root top inside [top, deep] selected
  cases alone.symm.trans same
  exact ⟨⟨inside, selected⟩, kept, below, paths, alone⟩

end NodeFilter
