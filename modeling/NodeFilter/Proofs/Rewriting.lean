import Mathlib.Logic.Relation
import NodeFilter.Proofs.Meaning

/-!
Rewriting of filters by the laws of logic. Both connectives are associative, a negation passes
through either by turning it into the other, and two negations are none. The laws hold for the
plain reading as a whole, faults and calls included, and so they hold wherever they are used in a
tree, as long as no evaluation is cut at its limit.
-/

namespace NodeFilter

namespace Run

theorem andThen_assoc (run : Run) (next last : Bool → Run) :
    (run.andThen next).andThen last = run.andThen fun answer => (next answer).andThen last := by
  rcases run with ⟨fault | answer, calls⟩
  · rfl
  · simp only [andThen]
    rcases next answer with ⟨fault | second, further⟩
    · rfl
    · simp only [after, List.append_assoc]

theorem negatedIf_true_andThen (run : Run) (next : Bool → Run) :
    (run.negatedIf true).andThen next = run.andThen fun answer => next !answer := by
  rcases run with ⟨fault | answer, calls⟩
  · rfl
  · cases answer <;> rfl

end Run

def Connective.dual : Connective → Connective
  | .and => .or
  | .or => .and

theorem Connective.decisive_dual (operator : Connective) :
    operator.dual.decisive = !operator.decisive := by
  cases operator <;> rfl

namespace Expr

/-- The laws, each with the tree that it allows in place of another. -/
inductive Law : Expr → Expr → Prop where
  | assoc (operator : Connective) (first second third : Expr) :
      Law (.joined operator (.joined operator first second) third)
        (.joined operator first (.joined operator second third))
  | deMorgan (operator : Connective) (left right : Expr) :
      Law (.not (.joined operator left right))
        (.joined operator.dual (.not left) (.not right))
  | notNot (operand : Expr) : Law (.not (.not operand)) operand

inductive Context where
  | here
  | inLeft (operator : Connective) (context : Context) (right : Expr)
  | inRight (operator : Connective) (left : Expr) (context : Context)
  | inOperand (context : Context)
  | inTarget (field : Field) (context : Context)

def Context.fill : Context → Expr → Expr
  | .here, expr => expr
  | .inLeft operator context right, expr => .joined operator (context.fill expr) right
  | .inRight operator left context, expr => .joined operator left (context.fill expr)
  | .inOperand context, expr => .not (context.fill expr)
  | .inTarget field context, expr => .facet field (context.fill expr)

def Rewrites (expr other : Expr) : Prop :=
  ∃ (context : Context) (old new : Expr),
    Law old new ∧ expr = context.fill old ∧ other = context.fill new

variable {comparator : Option Comparator} {expr other old new : Expr}

theorem Law.meaning_eq (law : Law old new) (scope : Scope) :
    old.meaning comparator scope = new.meaning comparator scope := by
  cases law with
  | assoc operator first second third =>
      rw [meaning_joined, meaning_joined, meaning_joined, Run.andThen_assoc]
      congr 1
      funext decided
      by_cases decides : decided = operator.decisive
      · simp [decides, Run.andThen, Run.answer, Run.after]
      · rw [if_neg decides, if_neg decides, meaning_joined]
  | deMorgan operator left right =>
      rw [meaning_not, meaning_joined, meaning_joined, meaning_not, meaning_not,
        Run.negatedIf_andThen, Run.negatedIf_true_andThen, operator.decisive_dual]
      congr 1
      funext decided
      by_cases decides : decided = operator.decisive
      · simp [decides, Run.negatedIf, Run.answer, Except.map]
      · simp [decides]
  | notNot operand =>
      rw [meaning_not, meaning_not, Run.negatedIf_negatedIf]
      exact Run.negatedIf_false _

/-- What means the same in every scope can stand for each other in every tree. -/
theorem Context.meaning_fill
    (same : ∀ scope, old.meaning comparator scope = new.meaning comparator scope)
    (context : Context) (scope : Scope) :
    (context.fill old).meaning comparator scope = (context.fill new).meaning comparator scope := by
  induction context generalizing scope with
  | here => exact same scope
  | inLeft operator context right ih => rw [fill, fill, meaning_joined, meaning_joined, ih]
  | inRight operator left context ih =>
      rw [fill, fill, meaning_joined, meaning_joined]
      congr 1
      funext decided
      rw [ih]
  | inOperand context ih => rw [fill, fill, meaning_not, meaning_not, ih]
  | inTarget field context ih =>
      rw [fill, fill, meaning, meaning]
      cases scope.facet field with
      | unreadable => rfl
      | nothing => rfl
      | found resolved => simp only [ih]

theorem Rewrites.meaning_eq (rewrites : Rewrites expr other) (scope : Scope) :
    expr.meaning comparator scope = other.meaning comparator scope := by
  obtain ⟨context, old, new, law, rfl, rfl⟩ := rewrites
  exact context.meaning_fill law.meaning_eq scope

theorem meaning_of_rewriting (rewriting : Relation.EqvGen Rewrites expr other) (scope : Scope) :
    expr.meaning comparator scope = other.meaning comparator scope := by
  induction rewriting with
  | rel expr other rewrites => exact rewrites.meaning_eq scope
  | refl expr => rfl
  | symm expr other _ ih => exact ih.symm
  | trans expr middle other _ _ first second => exact first.trans second

theorem eval_of_uncut {limit : Nat} {scope : Scope}
    (uncut : ¬ (expr.eval limit comparator scope).IsCut) :
    expr.eval limit comparator scope = expr.meaning comparator scope := by
  rw [eval, follow_eq_meaning limit comparator scope 0 false expr uncut, Run.negatedIf_false]

/-- Trees that the laws turn into each other, used any number of times in either direction and at
any places, make the same run where neither is cut. At the root a negation inverts the answer and
keeps the calls, and two leave all as it is, also where the run is cut. -/
theorem rewriting_exact (limit : Nat) (comparator : Option Comparator) (scope : Scope) :
    (∀ expr other, Relation.EqvGen Rewrites expr other →
      ¬ (expr.eval limit comparator scope).IsCut →
      ¬ (other.eval limit comparator scope).IsCut →
      expr.eval limit comparator scope = other.eval limit comparator scope) ∧
    (∀ expr, (Expr.not expr).eval limit comparator scope =
      ⟨(expr.eval limit comparator scope).result.map (!·),
        (expr.eval limit comparator scope).calls⟩) ∧
    ∀ expr, (Expr.not (.not expr)).eval limit comparator scope =
      expr.eval limit comparator scope := by
  refine ⟨?_, ?_, ?_⟩
  · intro expr other rewriting uncut otherUncut
    rw [eval_of_uncut uncut, eval_of_uncut otherUncut, meaning_of_rewriting rewriting]
  · intro expr
    simp only [eval_not, Run.negatedIf, Bool.bne_true]
  · intro expr
    rw [eval_not, eval_not, Run.negatedIf_negatedIf]
    exact Run.negatedIf_false _

/-- Inside `$value:`, where the list is compared with both strings. The second tree is one level
deeper, so two levels are enough for the first tree only. -/
theorem rewriting_exact_in_target :
    let context := Context.inTarget .value (.inLeft .or .here (.value .null))
    let a := Expr.value (.string "a")
    let b := Expr.value (.string "b")
    let expr := context.fill (.not (.and a b))
    let other := context.fill (.or (.not a) (.not b))
    let scope : Scope := ⟨none, fun _ => .found (.array [.string "b", .string "a"])⟩
    Relation.EqvGen Rewrites other expr ∧
      ¬ (other.eval 3 (some Value.contains) scope).IsCut ∧
      ¬ (expr.eval 3 (some Value.contains) scope).IsCut ∧
      other.eval 3 (some Value.contains) scope = expr.eval 3 (some Value.contains) scope ∧
      (expr.eval 3 (some Value.contains) scope).calls.length = 4 ∧
      ¬ (expr.eval 2 (some Value.contains) scope).IsCut ∧
      (other.eval 2 (some Value.contains) scope).IsCut := by
  intro context a b expr other scope
  have rewriting : Relation.EqvGen Rewrites other expr :=
    .symm _ _ (.rel _ _ ⟨context, _, _, .deMorgan .and a b, rfl, rfl⟩)
  have uncut : ¬ (expr.eval 3 (some Value.contains) scope).IsCut := nofun
  have otherUncut : ¬ (other.eval 3 (some Value.contains) scope).IsCut := nofun
  have same := (rewriting_exact 3 (some Value.contains) scope).1 other expr rewriting
  exact ⟨rewriting, otherUncut, uncut, same otherUncut uncut, rfl, nofun, 2, rfl⟩

end Expr

end NodeFilter
