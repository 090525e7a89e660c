import NodeFilter.Proofs.Meaning
import NodeFilter.Proofs.SourceText

/-!
Nesting, as the parser counts it and as the evaluator does. The parser counts groups,
negations and field scopes. The evaluator counts left operands and targets, unless they
are leaves. Whatever the spelling of a tree, a level that the evaluator enters was open
when the tree was read, so a limit that a tree was read under is enough to evaluate it.
-/

namespace NodeFilter

namespace Expr

/-- At this depth a leaf fits under any limit, and any other tree if its levels do. -/
def Fits (limit depth : Nat) (expr : Expr) : Prop :=
  expr.isLeaf = true ∨ depth + expr.need ≤ limit

section Fits

variable {limit depth : Nat}

theorem fits_isWithin {expr : Expr} (fits : expr.Fits limit depth) :
    expr.isWithin limit depth = true := by
  rcases fits with leaf | room
  · simp [isWithin, leaf]
  · have shallow : depth ≤ limit := by omega
    simp [isWithin, shallow]

theorem fits_room {expr : Expr} (branch : expr.isLeaf = false) (fits : expr.Fits limit depth) :
    depth + expr.need ≤ limit := by
  rcases fits with leaf | room
  · rw [branch] at leaf
    cases leaf
  · exact room

/-- A left operand is a leaf or stood in a group. -/
theorem fits_left {operator : Connective} {left right : Expr}
    (fits : (Expr.joined operator left right).Fits limit depth) :
    left.Fits limit (depth + 1) := by
  have room := fits_room rfl fits
  simp only [need] at room
  rcases left.literal_or_group with ⟨literal, rfl⟩ | ⟨-, deeper⟩
  · exact Or.inl rfl
  · exact Or.inr (by omega)

theorem fits_right {operator : Connective} {left right : Expr}
    (fits : (Expr.joined operator left right).Fits limit depth) : right.Fits limit depth := by
  have room := fits_room rfl fits
  simp only [need] at room
  exact Or.inr (by omega)

theorem fits_operand {operand : Expr} (fits : (Expr.not operand).Fits limit depth) :
    operand.Fits limit depth := by
  have room := fits_room rfl fits
  simp only [need] at room
  exact Or.inr (by omega)

theorem fits_target {field : Field} {target : Expr}
    (fits : (Expr.facet field target).Fits limit depth) : target.Fits limit (depth + 1) := by
  have room := fits_room rfl fits
  simp only [need] at room
  exact Or.inr (by omega)

end Fits

theorem descend_fits {limit depth : Nat} {expr : Expr} (fits : expr.Fits limit (depth + 1))
    (comparator : Option Comparator) (scope : Scope) :
    expr.descend limit comparator scope depth =
      expr.follow limit comparator scope (depth + 1) false := by
  rw [descend, if_pos (fits_isWithin fits)]

/-- What fits is not cut. The loop keeps the depth for right operands and negations,
and what it enters one level down fits there. -/
theorem follow_fits (limit : Nat) (comparator : Option Comparator) {expr : Expr} {depth : Nat}
    (fits : expr.Fits limit depth) (scope : Scope) (negate : Bool) :
    ¬ (expr.follow limit comparator scope depth negate).IsCut := by
  induction expr generalizing depth scope negate with
  | joined operator left right leftIh rightIh =>
      rw [follow_joined, descend_fits (fits_left fits), Run.isCut_andThen]
      rintro (cut | ⟨decided, -, cut⟩)
      · exact leftIh (fits_left fits) scope false cut
      · split at cut
        · simp [Run.IsCut, Run.answer] at cut
        · exact rightIh (fits_right fits) scope negate cut
  | not operand ih =>
      rw [follow]
      exact ih (fits_operand fits) scope (!negate)
  | facet field target ih =>
      rw [follow_facet]
      cases scope.facet field with
      | unreadable => simp [Run.IsCut, Run.fail]
      | nothing => simp [Run.IsCut]
      | found resolved =>
          simp only [descend_fits (fits_target fits), Run.isCut_after, Run.isCut_negatedIf]
          exact ih (fits_target fits) (.bare (some resolved)) false
  | value literal =>
      rw [follow, matchLiteral_eq_meaning, Run.isCut_negatedIf]
      exact meaning_not_cut comparator scope (.value literal)
  | type name =>
      rw [follow, matchType_eq_meaning, Run.isCut_negatedIf]
      exact meaning_not_cut comparator scope (.type name)

theorem eval_eq_meaning {limit : Nat} {expr : Expr} (shallow : expr.need ≤ limit)
    (comparator : Option Comparator) (scope : Scope) :
    expr.eval limit comparator scope = expr.meaning comparator scope := by
  have fits : expr.Fits limit 0 := Or.inr (by omega)
  have run := follow_eq_meaning limit comparator scope 0 false expr
    (follow_fits limit comparator fits scope false)
  rwa [Run.negatedIf_false] at run

theorem meaning_not_tooDeep (comparator : Option Comparator) (scope : Scope) (expr : Expr)
    (cut : Nat) : (expr.meaning comparator scope).result ≠ .error (.tooDeep cut) :=
  fun tooDeep => meaning_not_cut comparator scope expr ⟨cut, tooDeep⟩

end Expr

/-- With the limits that hold where none is given, what can be read is never cut. -/
theorem eval_of_parse {source : String} {tree : Expr} (parsed : parse source = .ok tree)
    (comparator : Option Comparator) (scope : Scope) :
    tree.eval defaultLimit comparator scope = tree.meaning comparator scope :=
  Expr.eval_eq_meaning (parsed_expressible parsed).shallow comparator scope

/-- A tree that was read with some levels is never cut where it is evaluated with at
least as many, whatever data and fields it is evaluated on. So with the limits that hold
where none is given, no filter that can be read is nested too deep to be evaluated. -/
theorem read_never_cut :
    (∀ levels tokens tree, parseTokens levels tokens = .ok tree →
      ∀ limit, levels ≤ limit → ∀ comparator scope cut,
        (tree.eval limit comparator scope).result ≠ .error (.tooDeep cut)) ∧
    ∀ source tree, parse source = .ok tree → ∀ comparator scope cut,
      (tree.eval defaultLimit comparator scope).result ≠ .error (.tooDeep cut) := by
  constructor
  · intro levels tokens tree parsed limit room comparator scope cut
    have opened := (Grammar.derives_suffices (Grammar.derives_of_parse parsed)).2
    rw [Expr.eval_eq_meaning (Nat.le_trans opened room)]
    exact Expr.meaning_not_tooDeep comparator scope tree cut
  · intro source tree parsed comparator scope cut
    rw [eval_of_parse parsed]
    exact Expr.meaning_not_tooDeep comparator scope tree cut

/-- The filter `((null & true) & true) & true` needs two levels for either. -/
theorem read_never_cut_groups_on_left :
    let yes := Expr.value (.boolean true)
    let tree := Expr.and (.and (.and (.value .null) yes) yes) yes
    let source := "((null & true) & true) & true"
    let scope := Scope.bare (some .null)
    parseTokens 2 tree.spell = .ok tree ∧ parse source = .ok tree ∧ 2 ≤ 2 ∧
      (tree.eval 1 none scope).result = .error (.tooDeep 1) ∧
      (tree.eval 2 none scope).result ≠ .error (.tooDeep 2) ∧
      (tree.eval defaultLimit none scope).result ≠ .error (.tooDeep defaultLimit) := by
  intro yes tree source scope
  have parsed : parseTokens 2 tree.spell = .ok tree := Grammar.parse_spell 2 rfl
  have lexed : lex "((null & true) & true) & true" = .ok tree.spell := lex_of_calls 14 (by decide)
  have sourceParsed : parse source = .ok tree := parse_of_lexed rfl (by decide) lexed
  exact ⟨parsed, sourceParsed, Nat.le_refl 2, rfl,
    read_never_cut.1 2 _ tree parsed 2 (Nat.le_refl 2) none scope 2,
    read_never_cut.2 source tree sourceParsed none scope defaultLimit⟩

end NodeFilter
