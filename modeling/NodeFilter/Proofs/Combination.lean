import NodeFilter.Proofs.Faults

/-!
Connectives and negation as operations on what a search finds. A field that is not there
ends the evaluation on its node without an answer, and then there is nothing to negate and
no right operand to try. Only the root lacks a field, its key, so only there does a search
find less than the union or the complement.
-/

namespace NodeFilter

namespace Expr

/-- A field is reported missing only where the data does not have it. What stands inside
another field is never looked for in the data. -/
theorem meaning_fieldNotFound (comparator : Option Comparator) {scope : Scope} {expr : Expr}
    {field : Field}
    (failed : (expr.meaning comparator scope).result = .error (.fieldNotFound field)) :
    scope.facet field = .nothing := by
  induction expr generalizing scope with
  | joined operator left right leftIh rightIh =>
      rw [meaning_joined, Run.andThen_eq_error] at failed
      rcases failed with failed | ⟨decided, -, failed⟩
      · exact leftIh failed
      · split at failed
        · simp [Run.answer] at failed
        · exact rightIh failed
  | not operand ih =>
      rw [meaning, Run.andThen_eq_error] at failed
      rcases failed with failed | ⟨answer, -, failed⟩
      · exact ih failed
      · simp [Run.answer] at failed
  | facet asked target ih =>
      rw [meaning] at failed
      cases resolution : scope.facet asked with
      | unreadable => simp [resolution, Run.fail] at failed
      | nothing =>
          simp only [resolution, Except.error.injEq, EvalError.fieldNotFound.injEq] at failed
          rwa [← failed]
      | found resolved =>
          simp only [resolution, Run.after] at failed
          cases ih failed
  | value literal =>
      obtain ⟨answer, found⟩ := literalMeaning_ok comparator scope.value literal
      rw [meaning, found] at failed
      cases failed
  | type name =>
      rw [meaning, typeMeaning] at failed
      split at failed
      · simp [Run.fail] at failed
      · simp [Run.answer] at failed

end Expr

namespace Node

theorem location_of_nothing {node : Node} {field : Field}
    (missing : node.scope.facet field = .nothing) : node.location = [] := by
  cases field with
  | key =>
      change Fields.facet Node.fields node .key = .nothing at missing
      simp only [Fields.facet, Fields.accessor?, Node.fields, Node.key?, Node.step?] at missing
      cases last : node.location.getLast? with
      | none => exact List.getLast?_eq_none_iff.mp last
      | some step => simp [last] at missing
  | value => cases missing
  | type => cases missing

/-- The evaluation on the node ends for want of a field that the node does not have. -/
def LacksField (comparator : Option Comparator) (expr : Expr) (node : Node) : Prop :=
  ∃ field, node.answer comparator expr = .error (.fieldNotFound field)

def IsUncut (comparator : Option Comparator) (expr : Expr) (node : Node) : Prop :=
  ∀ limit, node.answer comparator expr ≠ .error (.tooDeep limit)

variable {comparator : Option Comparator} {node : Node} {expr left right : Expr}
  {operator : Connective}

theorem answer_eq_meaning (uncut : node.IsUncut comparator expr) :
    node.answer comparator expr = (expr.meaning comparator node.scope).result := by
  have run := Expr.follow_eq_meaning defaultLimit comparator node.scope 0 false expr
    fun ⟨limit, tooDeep⟩ => uncut limit tooDeep
  rw [Run.negatedIf_false] at run
  exact congrArg Run.result run

theorem uncut_of_passes (passes : node.fatal? comparator expr = none) :
    node.IsUncut comparator expr := by
  intro limit tooDeep
  rcases fatal?_eq_none.mp passes with ⟨matched, said⟩ | ⟨field, said⟩
  · rw [said] at tooDeep
    cases tooDeep
  · rw [said] at tooDeep
    cases tooDeep

theorem uncut_of_shallow (shallow : expr.need ≤ defaultLimit) : node.IsUncut comparator expr := by
  intro limit
  rw [answer, Expr.eval_eq_meaning shallow]
  exact Expr.meaning_not_tooDeep comparator node.scope expr limit

/-- What a facet holds is compared with a literal. -/
theorem answer_facet (comparator : Option Comparator) (node : Node) (field : Field)
    (literal : Literal) :
    node.answer comparator (.facet field (.value literal)) =
      match node.scope.facet field with
      | .unreadable => .error (.missingAccessor field)
      | .nothing => .error (.fieldNotFound field)
      | .found value => (literalMeaning comparator (some value) literal).result := by
  rw [answer_eq_meaning (uncut_of_shallow (Nat.le_of_ble_eq_true rfl)), Expr.meaning]
  cases node.scope.facet field <;> rfl

theorem root_of_lacksField (lacks : node.LacksField comparator expr) : node.location = [] := by
  obtain ⟨field, said⟩ := lacks
  have uncut : node.IsUncut comparator expr := fun limit tooDeep => by
    rw [said] at tooDeep
    cases tooDeep
  rw [answer_eq_meaning uncut] at said
  exact location_of_nothing (Expr.meaning_fieldNotFound comparator said)

/-- A search passes a node with a yes, with a no, or for want of a field. -/
theorem passes_cases (passes : node.fatal? comparator expr = none) :
    node.answer comparator expr = .ok true ∨ node.answer comparator expr = .ok false ∨
      node.LacksField comparator expr := by
  rcases fatal?_eq_none.mp passes with ⟨_ | _, said⟩ | lacks
  · exact Or.inr (Or.inl said)
  · exact Or.inl said
  · exact Or.inr (Or.inr lacks)

theorem answer_not (comparator : Option Comparator) (node : Node) (expr : Expr) :
    node.answer comparator (.not expr) = (node.answer comparator expr).map (!·) := by
  simp only [answer, Expr.eval_not, Run.negatedIf, Bool.bne_true]

theorem fatal?_not (comparator : Option Comparator) (expr : Expr) :
    fatal? comparator (.not expr) = fatal? comparator expr := by
  funext node
  rw [fatal?, fatal?, answer_not]
  rcases node.answer comparator expr with fault | matched <;> rfl

/-- Where neither operand ends a search and no limit is met, the right operand speaks
if the left one leaves the question open. -/
theorem answer_joined (leftPasses : node.fatal? comparator left = none)
    (rightPasses : node.fatal? comparator right = none)
    (uncut : node.IsUncut comparator (.joined operator left right)) :
    node.answer comparator (.joined operator left right) =
      (node.answer comparator left).bind fun decided =>
        if decided = operator.decisive then .ok decided else node.answer comparator right := by
  rw [answer_eq_meaning uncut, answer_eq_meaning (uncut_of_passes leftPasses),
    answer_eq_meaning (uncut_of_passes rightPasses), Expr.meaning_joined, Run.result_andThen]
  congr
  funext decided
  split <;> rfl

theorem joined_passes (leftPasses : node.fatal? comparator left = none)
    (rightPasses : node.fatal? comparator right = none)
    (uncut : node.IsUncut comparator (.joined operator left right)) :
    node.fatal? comparator (.joined operator left right) = none := by
  rw [fatal?_eq_none, answer_joined leftPasses rightPasses uncut]
  rcases fatal?_eq_none.mp leftPasses with ⟨decided, said⟩ | ⟨field, said⟩
  · simp only [said, Except.bind]
    split
    · exact Or.inl ⟨decided, rfl⟩
    · exact fatal?_eq_none.mp rightPasses
  · exact Or.inr ⟨field, by rw [said]; rfl⟩

theorem isMatch_and (leftPasses : node.fatal? comparator left = none)
    (rightPasses : node.fatal? comparator right = none)
    (uncut : node.IsUncut comparator (.and left right)) :
    node.isMatch comparator (.and left right) = true ↔
      node.isMatch comparator left = true ∧ node.isMatch comparator right = true := by
  simp only [isMatch_eq_true, answer_joined leftPasses rightPasses uncut]
  rcases passes_cases leftPasses with said | said | ⟨field, said⟩ <;>
    simp [said, Except.bind, Connective.decisive]

theorem isMatch_or (leftPasses : node.fatal? comparator left = none)
    (rightPasses : node.fatal? comparator right = none)
    (uncut : node.IsUncut comparator (.or left right)) :
    node.isMatch comparator (.or left right) = true ↔
      (node.isMatch comparator left = true ∨ node.isMatch comparator right = true) ∧
        ¬ node.LacksField comparator left := by
  simp only [isMatch_eq_true, LacksField, answer_joined leftPasses rightPasses uncut]
  rcases passes_cases leftPasses with said | said | ⟨field, said⟩ <;>
    simp [said, Except.bind, Connective.decisive]

theorem isMatch_not (passes : node.fatal? comparator expr = none) :
    node.isMatch comparator (.not expr) = true ↔
      node.isMatch comparator expr ≠ true ∧ ¬ node.LacksField comparator expr := by
  simp only [Ne, isMatch_eq_true, LacksField, answer_not]
  rcases passes_cases passes with said | said | ⟨field, said⟩ <;> simp [said, Except.map]

end Node

section Search

variable {comparator : Option Comparator} {root : Value} {a b : Expr} {chosen others : List Node}

/-- Of a node of the document, that it was found says that it matches. -/
theorem mem_selected (selected : selectNodes comparator a root = .ok chosen) {node : Node}
    (isIn : node.IsIn root) : node ∈ chosen ↔ node.isMatch comparator a = true := by
  obtain ⟨-, rfl⟩ := selectNodes_eq_ok.mp selected
  simp [mem_walk, isIn]

theorem passes_selected (selected : selectNodes comparator a root = .ok chosen) {node : Node}
    (isIn : node.IsIn root) : node.fatal? comparator a = none :=
  (selectNodes_eq_ok.mp selected).1 node isIn

theorem lacksField_root {node : Node} :
    node.LacksField comparator a ↔ node.location = [] ∧ node.LacksField comparator a :=
  ⟨fun lacks => ⟨Node.root_of_lacksField lacks, lacks⟩, And.right⟩

theorem selectNodes_and (first : selectNodes comparator a root = .ok chosen)
    (second : selectNodes comparator b root = .ok others)
    (uncut : ∀ node : Node, node.IsIn root → node.IsUncut comparator (.and a b)) :
    Finds root (fun node => node ∈ chosen ∧ node ∈ others)
      (selectNodes comparator (.and a b) root) := by
  refine selectNodes_finds.mpr fun node isIn => ?_
  have leftPasses := passes_selected first isIn
  have rightPasses := passes_selected second isIn
  refine ⟨Node.joined_passes leftPasses rightPasses (uncut node isIn), ?_⟩
  rw [mem_selected first isIn, mem_selected second isIn]
  exact Node.isMatch_and leftPasses rightPasses (uncut node isIn)

theorem selectNodes_or (first : selectNodes comparator a root = .ok chosen)
    (second : selectNodes comparator b root = .ok others)
    (uncut : ∀ node : Node, node.IsIn root → node.IsUncut comparator (.or a b)) :
    Finds root
      (fun node => (node ∈ chosen ∨ node ∈ others) ∧
        ¬ (node.location = [] ∧ node.LacksField comparator a))
      (selectNodes comparator (.or a b) root) := by
  refine selectNodes_finds.mpr fun node isIn => ?_
  have leftPasses := passes_selected first isIn
  have rightPasses := passes_selected second isIn
  refine ⟨Node.joined_passes leftPasses rightPasses (uncut node isIn), ?_⟩
  rw [mem_selected first isIn, mem_selected second isIn, ← lacksField_root]
  exact Node.isMatch_or leftPasses rightPasses (uncut node isIn)

theorem selectNodes_not (selected : selectNodes comparator a root = .ok chosen) :
    Finds root
      (fun node => node ∉ chosen ∧ ¬ (node.location = [] ∧ node.LacksField comparator a))
      (selectNodes comparator (.not a) root) := by
  refine selectNodes_finds.mpr fun node isIn => ?_
  have passes := passes_selected selected isIn
  refine ⟨by rwa [Node.fatal?_not], ?_⟩
  rw [mem_selected selected isIn, ← lacksField_root]
  exact Node.isMatch_not passes

theorem selectNodes_not_error {fault : EvalError} :
    selectNodes comparator (.not a) root = .error fault ↔
      selectNodes comparator a root = .error fault := by
  simp only [selectNodes_eq_error, Node.fatal?_not]

end Search

/-- A conjunction finds the nodes that both of its operands find, a disjunction those that
either finds, a negation those that its operand does not find; all but the root where the
evaluation of the first operand ends there for want of a key. A negation fails as its operand
does, whatever that is. -/
theorem selections_combine (comparator : Option Comparator) (root : Value) (a b : Expr) :
    (∀ chosen others, selectNodes comparator a root = .ok chosen →
      selectNodes comparator b root = .ok others →
      ((∀ node : Node, node.IsIn root → node.IsUncut comparator (.and a b)) →
        Finds root (fun node => node ∈ chosen ∧ node ∈ others)
          (selectNodes comparator (.and a b) root)) ∧
      ((∀ node : Node, node.IsIn root → node.IsUncut comparator (.or a b)) →
        Finds root
          (fun node => (node ∈ chosen ∨ node ∈ others) ∧
            ¬ (node.location = [] ∧ node.LacksField comparator a))
          (selectNodes comparator (.or a b) root))) ∧
    (∀ chosen, selectNodes comparator a root = .ok chosen →
      Finds root
        (fun node => node ∉ chosen ∧ ¬ (node.location = [] ∧ node.LacksField comparator a))
        (selectNodes comparator (.not a) root)) ∧
    ∀ fault, selectNodes comparator (.not a) root = .error fault ↔
      selectNodes comparator a root = .error fault := by
  refine ⟨?_, ?_, ?_⟩
  · intro chosen others first second
    exact ⟨selectNodes_and first second, selectNodes_or first second⟩
  · intro chosen selected
    exact selectNodes_not selected
  · intro fault
    exact selectNodes_not_error

/-- The filter `$type: object` finds the root of `{"a": {"b": null}}`. After `($key: a) |` it
does not, and the negation of `$key: a` does not find the root either. -/
theorem selections_combine_keyless_root :
    let a := Expr.facet .key (.value (.string "a"))
    let b := Expr.facet .type (.value (.string "object"))
    let inner := Node.mk [.member "a" 0] (.object [("b", .null)])
    let root := Value.object [("a", inner.value)]
    let leaf := Node.mk [.member "a" 0, .member "b" 0] .null
    (selectNodes none a root = .ok [inner] ∧ selectNodes none b root = .ok [⟨[], root⟩, inner] ∧
      (∀ node : Node, node.IsIn root → node.IsUncut none (.and a b)) ∧
      (∀ node : Node, node.IsIn root → node.IsUncut none (.or a b))) ∧
    Finds root (fun node => node ∈ [inner] ∧ node ∈ [⟨[], root⟩, inner])
      (selectNodes none (.and a b) root) ∧
    Finds root (fun node => (node ∈ [inner] ∨ node ∈ [⟨[], root⟩, inner]) ∧
      ¬ (node.location = [] ∧ node.LacksField none a)) (selectNodes none (.or a b) root) ∧
    Finds root (fun node => node ∉ [inner] ∧ ¬ (node.location = [] ∧ node.LacksField none a))
      (selectNodes none (.not a) root) ∧
    selectNodes none (.or a b) root = .ok [inner] ∧
    selectNodes none (.not a) root = .ok [leaf] := by
  intro a b inner root leaf
  have first : selectNodes none a root = .ok [inner] := by cbv
  have second : selectNodes none b root = .ok [⟨[], root⟩, inner] := by cbv
  have bothUncut : ∀ node : Node, node.IsIn root → node.IsUncut none (.and a b) :=
    fun _ _ => Node.uncut_of_shallow (by decide)
  have eitherUncut : ∀ node : Node, node.IsIn root → node.IsUncut none (.or a b) :=
    fun _ _ => Node.uncut_of_shallow (by decide)
  obtain ⟨joined, negated, -⟩ := selections_combine none root a b
  obtain ⟨both, either⟩ := joined _ _ first second
  exact ⟨⟨first, second, bothUncut, eitherUncut⟩, both bothUncut, either eitherUncut,
    negated _ first, by cbv, by cbv⟩

end NodeFilter
