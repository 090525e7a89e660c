import NodeFilter.Expr

/-!
The plain reading of filters: recursion on the tree, with no limit, no depth and
no flag. The evaluator follows right operands and negations on one level and
carries a flag for the negations passed so far. It makes the same run, its result
and its calls alike, except where it is cut at its limit.
-/

namespace NodeFilter

namespace Run

def andThen (run : Run) (next : Bool → Run) : Run :=
  match run.result with
  | .ok answer => (next answer).after run.calls
  | .error fault => ⟨.error fault, run.calls⟩

def IsCut (run : Run) : Prop := ∃ limit, run.result = .error (.tooDeep limit)

theorem negatedIf_false (run : Run) : run.negatedIf false = run := by
  rcases run with ⟨fault | answer, calls⟩ <;> simp [negatedIf, Except.map]

theorem negatedIf_after (negate : Bool) (calls : List Call) (run : Run) :
    (run.after calls).negatedIf negate = (run.negatedIf negate).after calls := rfl

theorem negatedIf_negatedIf (first second : Bool) (run : Run) :
    (run.negatedIf first).negatedIf second = run.negatedIf (first != second) := by
  rcases run with ⟨fault | answer, calls⟩
  · rfl
  · cases first <;> cases second <;> simp [negatedIf, Except.map]

theorem result_andThen (run : Run) (next : Bool → Run) :
    (run.andThen next).result = run.result.bind fun answer => (next answer).result := by
  rcases run with ⟨fault | answer, calls⟩ <;> rfl

theorem negatedIf_andThen (negate : Bool) (run : Run) (next : Bool → Run) :
    (run.andThen next).negatedIf negate =
      run.andThen fun answer => (next answer).negatedIf negate := by
  rcases run with ⟨fault | answer, calls⟩ <;> rfl

/-- Only the answer that is there has a continuation to compare. -/
theorem andThen_congr {run : Run} {next other : Bool → Run}
    (same : ∀ answer, run.result = .ok answer → next answer = other answer) :
    run.andThen next = run.andThen other := by
  rcases run with ⟨fault | answer, calls⟩
  · rfl
  · simp only [andThen, same answer rfl]

theorem isCut_negatedIf (negate : Bool) (run : Run) :
    (run.negatedIf negate).IsCut ↔ run.IsCut := by
  rcases run with ⟨fault | answer, calls⟩ <;> simp [IsCut, negatedIf, Except.map]

theorem isCut_after (calls : List Call) (run : Run) : (run.after calls).IsCut ↔ run.IsCut :=
  Iff.rfl

theorem isCut_andThen (run : Run) (next : Bool → Run) :
    (run.andThen next).IsCut ↔
      run.IsCut ∨ ∃ answer, run.result = .ok answer ∧ (next answer).IsCut := by
  rcases run with ⟨fault | answer, calls⟩ <;> simp [IsCut, andThen, after]

end Run

def consult : Option Comparator → Value → Literal → Run
  | none, _, _ => .answer false
  | some compare, value, literal =>
      ⟨.ok (compare value literal), [.compare value literal (compare value literal)]⟩

/-- Whether data is what a literal stands for. Absent data is nothing, a scalar
is what it is, and of a composite value the comparator decides. -/
def literalMeaning (comparator : Option Comparator) : Option Value → Literal → Run
  | some .null, .null => .answer true
  | some (.boolean a), .boolean b => .answer (a == b)
  | some (.number a), .number b => .answer (a.equals b)
  | some (.string a), .string b => .answer (a == b)
  | some (.array elements), literal => consult comparator (.array elements) literal
  | some (.object members), literal => consult comparator (.object members) literal
  | _, _ => .answer false

def typeMeaning (data : Option Value) (name : String) : Run :=
  -- An unknown name is a fault whatever the data is.
  match Category.ofName? name with
  | none => .fail (.unknownType name)
  | some category => .answer (category.admits data)

namespace Expr

/-- The plain reading of a filter. What a field resolves to has no fields of its own. -/
def meaning (comparator : Option Comparator) (scope : Scope) : Expr → Run
  | .and left right =>
      (meaning comparator scope left).andThen fun answer =>
        if answer then meaning comparator scope right else .answer false
  | .or left right =>
      (meaning comparator scope left).andThen fun answer =>
        if answer then .answer true else meaning comparator scope right
  | .not operand => (meaning comparator scope operand).andThen fun answer => .answer (!answer)
  | .facet field target =>
      match scope.facet field with
      | .unreadable => .fail (.missingAccessor field)
      | .nothing => ⟨.error (.fieldNotFound field), [.accessor field]⟩
      | .found resolved =>
          (meaning comparator (.bare (some resolved)) target).after [.accessor field]
  | .value literal => literalMeaning comparator scope.value literal
  | .type name => typeMeaning scope.value name

def descend (limit : Nat) (comparator : Option Comparator) (scope : Scope) (depth : Nat)
    (expr : Expr) : Run :=
  if expr.isWithin limit (depth + 1) then expr.follow limit comparator scope (depth + 1) false
  else .fail (.tooDeep limit)

theorem follow_joined (limit : Nat) (comparator : Option Comparator) (scope : Scope) (depth : Nat)
    (negate : Bool) (operator : Connective) (left right : Expr) :
    follow limit comparator scope depth negate (.joined operator left right) =
      (left.descend limit comparator scope depth).andThen fun decided =>
        if decided = operator.decisive then .answer (decided != negate)
        else right.follow limit comparator scope depth negate := by
  rw [follow]
  simp only [descend, Run.andThen]
  split <;> rename_i first
  · simp [first]
  · rename_i decided
    simp only [first]
    by_cases decides : decided = operator.decisive <;> simp [decides, Run.after, Run.answer]

theorem follow_facet (limit : Nat) (comparator : Option Comparator) (scope : Scope) (depth : Nat)
    (negate : Bool) (field : Field) (target : Expr) :
    follow limit comparator scope depth negate (.facet field target) =
      match scope.facet field with
      | .unreadable => .fail (.missingAccessor field)
      | .nothing => ⟨.error (.fieldNotFound field), [.accessor field]⟩
      | .found resolved =>
          ((target.descend limit comparator (.bare (some resolved)) depth).negatedIf negate).after
            [.accessor field] := by
  rw [follow]
  rfl

theorem matchLiteral_eq_meaning (comparator : Option Comparator) (data : Option Value)
    (literal : Literal) :
    matchLiteral comparator data literal = literalMeaning comparator data literal := by
  cases data with
  | none => rfl
  | some value => cases value <;> cases literal <;> cases comparator <;> rfl

theorem matchType_eq_meaning (data : Option Value) (name : String) :
    matchType data name = typeMeaning data name := by
  unfold matchType typeMeaning
  cases Category.ofName? name <;> rfl

/-- The plain reading of a joined pair, with what decides it left as a parameter. -/
theorem meaning_joined (comparator : Option Comparator) (scope : Scope) (operator : Connective)
    (left right : Expr) :
    (Expr.joined operator left right).meaning comparator scope =
      (left.meaning comparator scope).andThen fun decided =>
        if decided = operator.decisive then .answer decided
        else right.meaning comparator scope := by
  cases operator <;> rw [meaning] <;> congr 1 <;> funext decided <;>
    cases decided <;> rfl

theorem meaning_not (comparator : Option Comparator) (scope : Scope) (operand : Expr) :
    (Expr.not operand).meaning comparator scope =
      (operand.meaning comparator scope).negatedIf true := by
  rw [meaning]
  rcases operand.meaning comparator scope with ⟨fault | answer, calls⟩
  · rfl
  · cases answer <;> simp [Run.andThen, Run.negatedIf, Run.answer, Run.after, Except.map]

/-- The plain reading knows no limit. -/
theorem meaning_not_cut (comparator : Option Comparator) (scope : Scope) (expr : Expr) :
    ¬ (expr.meaning comparator scope).IsCut := by
  induction expr generalizing scope with
  | joined operator left right leftIh rightIh =>
      rw [meaning_joined, Run.isCut_andThen]
      rintro (cut | ⟨decided, -, cut⟩)
      · exact leftIh scope cut
      · split at cut
        · simp [Run.IsCut, Run.answer] at cut
        · exact rightIh scope cut
  | not operand ih =>
      rw [meaning, Run.isCut_andThen]
      rintro (cut | ⟨answer, -, cut⟩)
      · exact ih scope cut
      · simp [Run.IsCut, Run.answer] at cut
  | facet field target ih =>
      rw [meaning]
      cases scope.facet field with
      | unreadable => simp [Run.IsCut, Run.fail]
      | nothing => simp [Run.IsCut]
      | found resolved => exact ih _
  | value literal =>
      rw [meaning, ← matchLiteral_eq_meaning]
      unfold matchLiteral
      split
      · simp [Run.IsCut, Run.answer]
      · split
        · split <;> simp [Run.IsCut, Run.answer]
        · simp [Run.IsCut, Run.answer]
  | type name =>
      rw [meaning, typeMeaning]
      split <;> simp [Run.IsCut, Run.answer, Run.fail]

theorem descend_uncut {limit : Nat} {comparator : Option Comparator} {scope : Scope} {depth : Nat}
    {expr : Expr} (uncut : ¬ (expr.descend limit comparator scope depth).IsCut) :
    expr.descend limit comparator scope depth =
      expr.follow limit comparator scope (depth + 1) false := by
  unfold descend at uncut ⊢
  split at uncut
  · rw [if_pos ‹_›]
  · exact absurd ⟨limit, rfl⟩ uncut

/-- The invariant of the loop: at any depth and with any flag, a run that is not
cut is the plain reading with its answer inverted as the flag says. -/
theorem follow_eq_meaning (limit : Nat) (comparator : Option Comparator) (scope : Scope)
    (depth : Nat) (negate : Bool) (expr : Expr)
    (uncut : ¬ (expr.follow limit comparator scope depth negate).IsCut) :
    expr.follow limit comparator scope depth negate =
      (expr.meaning comparator scope).negatedIf negate := by
  -- Right operands and negations keep the depth and pass the flag on. Left operands
  -- and targets go one level down and start with no negation.
  induction expr generalizing scope depth negate with
  | joined operator left right leftIh rightIh =>
      rw [follow_joined] at uncut ⊢
      rw [Run.isCut_andThen, not_or] at uncut
      obtain ⟨leftUncut, restUncut⟩ := uncut
      have first : left.descend limit comparator scope depth = left.meaning comparator scope := by
        have lowered := descend_uncut leftUncut
        rw [lowered] at leftUncut
        rw [lowered, leftIh scope (depth + 1) false leftUncut, Run.negatedIf_false]
      rw [meaning_joined, Run.negatedIf_andThen, first]
      apply Run.andThen_congr
      intro decided reached
      by_cases decides : decided = operator.decisive
      · simp [decides, Run.negatedIf, Run.answer, Except.map]
      · -- The right operand runs only here, so only here is it known to be uncut.
        have rightUncut : ¬ (right.follow limit comparator scope depth negate).IsCut := by
          intro cut
          exact restUncut ⟨decided, first ▸ reached, by simpa only [if_neg decides] using cut⟩
        simpa only [if_neg decides] using rightIh scope depth negate rightUncut
  | not operand ih =>
      rw [follow] at uncut ⊢
      rw [ih scope depth (!negate) uncut, meaning_not, Run.negatedIf_negatedIf, Bool.true_bne]
  | facet field target ih =>
      rw [follow_facet] at uncut ⊢
      rw [meaning]
      cases resolution : scope.facet field with
      | unreadable => rfl
      | nothing => rfl
      | found resolved =>
          simp only [resolution, Run.isCut_after, Run.isCut_negatedIf] at uncut
          have lowered := descend_uncut uncut
          rw [lowered] at uncut
          have inner := ih (.bare (some resolved)) (depth + 1) false uncut
          simp only [lowered, inner, Run.negatedIf_false, Run.negatedIf_after]
  | value literal => rw [follow, matchLiteral_eq_meaning, meaning]
  | type name => rw [follow, matchType_eq_meaning, meaning]

/-- The flag inverts the answer and changes nothing else, also where the run is cut. -/
theorem follow_negated (limit : Nat) (comparator : Option Comparator) (scope : Scope)
    (depth : Nat) (negate : Bool) (expr : Expr) :
    expr.follow limit comparator scope depth negate =
      (expr.follow limit comparator scope depth false).negatedIf negate := by
  -- The loop hands the flag to right operands and negations only, at the same depth.
  induction expr generalizing negate with
  | joined operator left right _ rightIh =>
      rw [follow_joined, follow_joined, Run.negatedIf_andThen]
      apply Run.andThen_congr
      intro decided _
      by_cases decides : decided = operator.decisive
      · simp [decides, Run.negatedIf, Run.answer, Except.map]
      · simpa only [if_neg decides] using rightIh negate
  | not operand ih =>
      rw [follow, follow, ih (!negate), ih (!false), Run.negatedIf_negatedIf]
      cases negate <;> rfl
  | facet field target _ =>
      rw [follow_facet, follow_facet]
      cases scope.facet field with
      | unreadable => rfl
      | nothing => rfl
      | found resolved => simp only [Run.negatedIf_false, Run.negatedIf_after]
  | value literal => rw [follow, follow, Run.negatedIf_false]
  | type name => rw [follow, follow, Run.negatedIf_false]

theorem eval_not (limit : Nat) (comparator : Option Comparator) (scope : Scope) (expr : Expr) :
    (Expr.not expr).eval limit comparator scope =
      (expr.eval limit comparator scope).negatedIf true := by
  rw [eval, follow, follow_negated]
  rfl

end Expr

end NodeFilter
