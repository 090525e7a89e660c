import NodeFilter.Proofs.Nesting
import NodeFilter.Proofs.Selection

/-!
Where the faults of a filter come from. A field is missing where the data does not have
it, and unreadable where there is no way to read it. On a node of a document every field
can be read, so what is unreadable stands inside the target of another field. There is no
other fault for a tree without type tests, which is what filter text spells.
-/

namespace NodeFilter

namespace Run

theorem andThen_eq_error {run : Run} {next : Bool → Run} {fault : EvalError} :
    (run.andThen next).result = .error fault ↔
      run.result = .error fault ∨
        ∃ answer, run.result = .ok answer ∧ (next answer).result = .error fault := by
  rcases run with ⟨other | answer, calls⟩ <;> simp [andThen, after]

end Run

theorem literalMeaning_ok (comparator : Option Comparator) (data : Option Value)
    (literal : Literal) :
    ∃ answer, (literalMeaning comparator data literal).result = .ok answer := by
  rw [← Expr.matchLiteral_eq_meaning]
  unfold matchLiteral
  cases data with
  | none => exact ⟨false, rfl⟩
  | some value => cases value <;> cases comparator <;> exact ⟨_, rfl⟩

namespace Expr

def fields : Expr → List Field
  | .joined _ left right => left.fields ++ right.fields
  | .not operand => operand.fields
  | .facet field target => field :: target.fields
  | .value _ | .type _ => []

/-- Those of them that it asks for inside the target of another field. -/
def buried : Expr → List Field
  | .joined _ left right => left.buried ++ right.buried
  | .not operand => operand.buried
  | .facet _ target => target.fields
  | .value _ | .type _ => []

/-- A fault that a tree without type tests can meet: a field that the data does not have,
or one that cannot be read in this scope or is inside another field. -/
def CanMeet (scope : Scope) (expr : Expr) (fault : EvalError) : Prop :=
  (∃ field, scope.facet field = .nothing ∧ fault = .fieldNotFound field) ∨
    ∃ field ∈ expr.fields, (scope.facet field = .unreadable ∨ field ∈ expr.buried) ∧
      fault = .missingAccessor field

/-- A tree can meet what a part of it can, in the same scope. -/
theorem canMeet_of_part {scope : Scope} {part whole : Expr} {fault : EvalError}
    (fields : part.fields ⊆ whole.fields) (buried : part.buried ⊆ whole.buried)
    (meets : part.CanMeet scope fault) : whole.CanMeet scope fault := by
  rcases meets with missing | ⟨field, asked, unread | inside, same⟩
  · exact Or.inl missing
  · exact Or.inr ⟨field, fields asked, Or.inl unread, same⟩
  · exact Or.inr ⟨field, fields asked, Or.inr (buried inside), same⟩

theorem meaning_fault (comparator : Option Comparator) {scope : Scope} {expr : Expr}
    {fault : EvalError} (typeless : expr.isTypeless = true)
    (failed : (expr.meaning comparator scope).result = .error fault) :
    expr.CanMeet scope fault := by
  induction expr generalizing scope with
  | joined operator left right leftIh rightIh =>
      simp only [isTypeless, Bool.and_eq_true] at typeless
      rw [meaning_joined, Run.andThen_eq_error] at failed
      rcases failed with failed | ⟨decided, -, failed⟩
      · have part := leftIh typeless.1 failed
        exact canMeet_of_part (List.subset_append_left ..) (List.subset_append_left ..) part
      · split at failed
        · simp [Run.answer] at failed
        · have part := rightIh typeless.2 failed
          exact canMeet_of_part (List.subset_append_right ..) (List.subset_append_right ..) part
  | not operand ih =>
      rw [meaning, Run.andThen_eq_error] at failed
      rcases failed with failed | ⟨answer, -, failed⟩
      · exact ih typeless failed
      · simp [Run.answer] at failed
  | facet field target ih =>
      rw [meaning] at failed
      cases resolution : scope.facet field with
      | unreadable =>
          simp only [resolution, Run.fail, Except.error.injEq] at failed
          exact Or.inr ⟨field, List.mem_cons_self, Or.inl resolution, failed.symm⟩
      | nothing =>
          simp only [resolution, Except.error.injEq] at failed
          exact Or.inl ⟨field, resolution, failed.symm⟩
      | found resolved =>
          -- In a bare scope nothing can be read, so all that the target asks for is a fault.
          simp only [resolution, Run.after] at failed
          rcases ih typeless failed with ⟨inner, missing, -⟩ | ⟨inner, asked, -, same⟩
          · cases missing
          · exact Or.inr ⟨inner, List.mem_cons_of_mem field asked, Or.inr asked, same⟩
  | value literal =>
      obtain ⟨answer, found⟩ := literalMeaning_ok comparator scope.value literal
      rw [meaning, found] at failed
      cases failed
  | type name => cases typeless

end Expr

namespace Node

theorem facet_readable (node : Node) (field : Field) : node.scope.facet field ≠ .unreadable := by
  cases field with
  | key =>
      change Fields.facet Node.fields node .key ≠ .unreadable
      simp only [Fields.facet, Fields.accessor?, Node.fields]
      cases node.key? <;> simp
  | value => exact nofun
  | type => exact nofun

/-- On a node, a filter that was read from text is ended only by a field inside another. -/
theorem fatal_buried {source : String} {tree : Expr} (parsed : parse source = .ok tree)
    {comparator : Option Comparator} {node : Node} {fault : EvalError}
    (fatal : node.fatal? comparator tree = some fault) :
    ∃ field ∈ tree.buried, fault = .missingAccessor field := by
  have typeless := (parsed_expressible parsed).typeless
  obtain ⟨failed, passed⟩ := fatal?_eq_some.mp fatal
  rw [answer, eval_of_parse parsed] at failed
  rcases Expr.meaning_fault comparator typeless failed with
    ⟨field, -, same⟩ | ⟨field, -, unread | inside, same⟩
  · exact absurd same (passed field)
  · exact absurd unread (node.facet_readable field)
  · exact ⟨field, inside, same⟩

end Node

/-- A filter that was read from text finds the nodes that it matches, or it is ended by a
field that it asks for inside the target of another. So without such a field it never fails,
whatever the document and the comparator are. -/
theorem read_filter_faults (source : String) (tree : Expr) (parsed : parse source = .ok tree)
    (comparator : Option Comparator) (root : Value) :
    ((∃ nodes, selectNodes comparator tree root = .ok nodes) ∨
      ∃ field ∈ tree.buried, selectNodes comparator tree root = .error (.missingAccessor field)) ∧
    (tree.buried = [] → ∃ nodes, selectNodes comparator tree root = .ok nodes) := by
  cases found : selectNodes comparator tree root with
  | ok nodes => exact ⟨Or.inl ⟨nodes, rfl⟩, fun _ => ⟨nodes, rfl⟩⟩
  | error fault =>
      obtain ⟨node, -, fatal, -⟩ := selectNodes_eq_error.mp found
      obtain ⟨field, inside, rfl⟩ := Node.fatal_buried parsed fatal
      refine ⟨Or.inr ⟨field, inside, rfl⟩, ?_⟩
      intro plain
      rw [plain] at inside
      cases inside

/-- The first `$key` takes all of `a & $key:b`, so the second stands inside it, but only at the
member `a` is it asked for. The root, where `$key` is not found, ends neither search. -/
theorem read_filter_faults_greedy_scope :
    let key := Expr.facet .key (.value (.string "a"))
    let tree := Expr.facet .key (.and (.value (.string "a")) (.facet .key (.value (.string "b"))))
    let root := Value.object [("b", .null), ("a", .null)]
    (parse "$key:a & $key:b" = .ok tree ∧ tree.buried = [.key] ∧
      ((∃ nodes, selectNodes none tree root = .ok nodes) ∨
        ∃ field ∈ tree.buried, selectNodes none tree root = .error (.missingAccessor field)) ∧
      selectNodes none tree root = .error (.missingAccessor .key)) ∧
    parse "!$key:a" = .ok (.not key) ∧ (Expr.not key).buried = [] ∧
      ∃ nodes, selectNodes none (.not key) root = .ok nodes := by
  intro key tree root
  have greedy : parse "$key:a & $key:b" = .ok tree :=
    parse_of_lexed rfl (by decide) (lex_of_calls 8 (by decide))
  have plain : parse "!$key:a" = .ok (.not key) :=
    parse_of_lexed rfl (by decide) (lex_of_calls 5 (by decide))
  exact ⟨⟨greedy, rfl, (read_filter_faults _ tree greedy none root).1, by cbv⟩,
    plain, rfl, (read_filter_faults _ (.not key) plain none root).2 rfl⟩

end NodeFilter
