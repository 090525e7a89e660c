import Mathlib.Data.Finset.Lattice.Fold
import Mathlib.Order.Lattice.Nat
import NodeFilter.Proofs.Cutoff
import NodeFilter.Proofs.Nesting

/-!
How deep an evaluation goes. It goes one level down for each left operand and each target it comes
to, and stays on its level for right operands and negations. A limit is met by the first operand
or target below it that is no leaf. Until then the run is the same under every limit, so a limit
cuts off what goes deeper, after the calls that were made before, and changes nothing else.
-/

namespace NodeFilter

namespace Expr

def entered (limit depth : Nat) (expr : Expr) (below : List (Nat × Expr)) : List (Nat × Expr) :=
  (depth + 1, expr) :: if expr.isWithin limit (depth + 1) then below else []

/-- All that a run goes down to, in order, each operand or target with its depth. One that is
refused at its depth is listed as well. -/
def descents (limit : Nat) (comparator : Option Comparator) (scope : Scope) (depth : Nat) :
    Expr → List (Nat × Expr)
  | .joined operator left right =>
      left.entered limit depth (left.descents limit comparator scope (depth + 1)) ++
        match (left.descend limit comparator scope depth).result with
        | .error _ => []
        | .ok decided =>
            if decided = operator.decisive then []
            else right.descents limit comparator scope depth
  | .not operand => operand.descents limit comparator scope depth
  | .facet field target =>
      match scope.facet field with
      | .found resolved =>
          target.entered limit depth
            (target.descents limit comparator (.bare (some resolved)) (depth + 1))
      | _ => []
  | .value _ | .type _ => []

theorem entered_within {limit depth : Nat} {expr : Expr}
    (within : expr.isWithin limit (depth + 1) = true) (below : List (Nat × Expr)) :
    expr.entered limit depth below = (depth + 1, expr) :: below := by
  rw [entered, if_pos within]

theorem entered_le {limit depth : Nat} {expr : Expr} {below : List (Nat × Expr)}
    (reached : depth ≤ limit)
    (bounded : expr.isWithin limit (depth + 1) = true →
      ∀ descent ∈ below, descent.1 ≤ limit + 1) :
    ∀ descent ∈ expr.entered limit depth below, descent.1 ≤ limit + 1 := by
  intro descent member
  rcases List.mem_cons.mp member with rfl | inside
  · exact Nat.succ_le_succ reached
  · split at inside
    · rename_i within
      exact bounded within descent inside
    · cases inside

/-- No run goes further down than one depth below its limit. Leaves are tested there and all else
is refused. -/
theorem descents_le (limit : Nat) (comparator : Option Comparator) {scope : Scope} {depth : Nat}
    {expr : Expr} (within : expr.isWithin limit depth = true) :
    ∀ descent ∈ expr.descents limit comparator scope depth, descent.1 ≤ limit + 1 := by
  induction expr generalizing scope depth with
  | joined operator left right leftIh rightIh =>
      have reached : depth ≤ limit := by simpa [isWithin, isLeaf] using within
      have rightWithin : right.isWithin limit depth = true := by simp [isWithin, reached]
      intro descent member
      rw [descents] at member
      rcases List.mem_append.mp member with first | rest
      · exact entered_le reached (fun inside => leftIh inside) descent first
      · split at rest
        · cases rest
        · split at rest
          · cases rest
          · exact rightIh rightWithin descent rest
  | not operand ih =>
      have reached : depth ≤ limit := by simpa [isWithin, isLeaf] using within
      exact ih (by simp [isWithin, reached])
  | facet field target ih =>
      have reached : depth ≤ limit := by simpa [isWithin, isLeaf] using within
      intro descent member
      rw [descents] at member
      split at member
      · exact entered_le reached (fun inside => ih inside) descent member
      · cases member
  | value literal =>
      intro descent member
      cases member
  | type name =>
      intro descent member
      cases member

end Expr

namespace Run

variable {limit : Nat} {descents : List (Nat × Expr)} {run whole : Run}

/-- A limit and what a run goes down to where it is not cut. A run that is cut has made some of the
calls of the whole run by then. -/
def CutsAt (limit : Nat) : List (Nat × Expr) → Run → Run → Prop :=
  Cuts (fun descent => descent.2.isWithin limit descent.1 = true) fun run whole =>
    run.result = .error (.tooDeep limit) ∧ run.calls <+: whole.calls

namespace CutsAt

theorem negatedIf (cuts : CutsAt limit descents run whole) (negate : Bool) :
    CutsAt limit descents (run.negatedIf negate) (whole.negatedIf negate) := by
  apply Cuts.through _ cuts
  rintro ⟨result, before⟩
  constructor
  · simp only [Run.negatedIf, result, Except.map]
  · exact before

theorem after (cuts : CutsAt limit descents run whole) (calls : List Call) :
    CutsAt limit descents (run.after calls) (whole.after calls) := by
  apply Cuts.through _ cuts
  rintro ⟨result, before⟩
  constructor
  · exact result
  · exact (List.prefix_append_right_inj calls).mpr before

theorem calls_andThen (run : Run) (next : Bool → Run) : run.calls <+: (run.andThen next).calls := by
  rcases run with ⟨fault | answer, calls⟩
  · exact List.prefix_rfl
  · exact List.prefix_append calls _

/-- What comes after a run is entered only if the run was not cut. -/
theorem andThen {next nextWhole : Bool → Run} {later : Bool → List (Nat × Expr)}
    (first : CutsAt limit descents run whole)
    (rest : ∀ answer, CutsAt limit (later answer) (next answer) (nextWhole answer)) :
    CutsAt limit
      (descents ++ match whole.result with
        | .error _ => []
        | .ok answer => later answer)
      (run.andThen next) (whole.andThen nextWhole) := by
  apply Cuts.append
  · intro descent member beyond
    obtain ⟨result, before⟩ := first.cut descent member beyond
    have ended : run.andThen next = ⟨.error (.tooDeep limit), run.calls⟩ := by
      simp only [Run.andThen, result]
    rw [ended]
    exact ⟨rfl, before.trans (calls_andThen whole nextWhole)⟩
  · intro within
    rw [first.spared within]
    rcases whole with ⟨fault | answer, calls⟩
    · exact Cuts.nowhere _
    · exact (rest answer).after calls

end CutsAt

end Run

namespace Expr

open Run (CutsAt)

variable {limit ample depth : Nat} {comparator : Option Comparator} {scope : Scope} {expr : Expr}

/-- One level down the limit is met at once, with no call made, or it does what it does there. -/
theorem descend_cuts (fits : expr.Fits ample (depth + 1))
    (cuts : CutsAt limit (expr.descents ample comparator scope (depth + 1))
      (expr.follow limit comparator scope (depth + 1) false)
      (expr.follow ample comparator scope (depth + 1) false)) :
    CutsAt limit (expr.entered ample depth (expr.descents ample comparator scope (depth + 1)))
      (expr.descend limit comparator scope depth) (expr.descend ample comparator scope depth) := by
  rw [entered_within (fits_isWithin fits), descend_fits fits, descend]
  apply Cuts.cons
  · intro beyond
    rw [if_neg beyond]
    exact ⟨rfl, List.nil_prefix⟩
  · intro within
    rw [if_pos within]
    exact cuts

/-- Where a tree fits, its run is not cut, and any other limit cuts that run by what it goes down
to, at any depth and with any flag. -/
theorem follow_cuts (limit : Nat) (comparator : Option Comparator) (fits : expr.Fits ample depth)
    (scope : Scope) (negate : Bool) :
    CutsAt limit (expr.descents ample comparator scope depth)
      (expr.follow limit comparator scope depth negate)
      (expr.follow ample comparator scope depth negate) := by
  -- Right operands and negations stay at the depth, so nothing is entered for them.
  induction expr generalizing depth scope negate with
  | joined operator left right leftIh rightIh =>
      have leftFits := fits_left fits
      rw [follow_joined, follow_joined, descents]
      apply CutsAt.andThen (descend_cuts leftFits (leftIh leftFits scope false))
      intro decided
      by_cases decides : decided = operator.decisive
      · rw [if_pos decides, if_pos decides, if_pos decides]
        exact Cuts.nowhere _
      · rw [if_neg decides, if_neg decides, if_neg decides]
        exact rightIh (fits_right fits) scope negate
  | not operand ih =>
      rw [follow, follow, descents]
      exact ih (fits_operand fits) scope (!negate)
  | facet field target ih =>
      have targetFits := fits_target fits
      rw [follow_facet, follow_facet, descents]
      cases scope.facet field with
      | unreadable => exact Cuts.nowhere _
      | nothing => exact Cuts.nowhere _
      | found resolved =>
          have inner := descend_cuts targetFits (ih targetFits (.bare (some resolved)) false)
          exact (inner.negatedIf negate).after _
  | value literal =>
      rw [follow, follow, descents]
      exact Cuts.nowhere _
  | type name =>
      rw [follow, follow, descents]
      exact Cuts.nowhere _

def size : Expr → Nat
  | .joined _ left right => left.size + right.size + 1
  | .not operand => operand.size + 1
  | .facet _ target => target.size + 1
  | .value _ | .type _ => 1

theorem enclosedNeed_le (tree : Expr) : tree.enclosedNeed tree.need ≤ tree.need + 1 := by
  rcases tree.literal_or_group with ⟨literal, rfl⟩ | ⟨-, deeper⟩
  · exact Nat.zero_le _
  · omega

theorem need_le_size (tree : Expr) : tree.need ≤ tree.size := by
  induction tree with
  | joined operator left right leftIh rightIh =>
      have enclosed := left.enclosedNeed_le
      simp only [need, size]
      omega
  | not operand ih => simp only [need, size]; omega
  | facet field target ih => simp only [need, size]; omega
  | value literal => exact Nat.zero_le _
  | type name => exact Nat.zero_le _

/-- The greatest depth at which an evaluation comes to an operand or target that is no leaf, and 0
if it comes to none. -/
def deepest (limit : Nat) (comparator : Option Comparator) (scope : Scope) (expr : Expr) : Nat :=
  ((expr.descents limit comparator scope 0).toFinset.filter fun descent =>
    descent.2.isLeaf = false).sup Prod.fst

theorem deepest_le_iff {bound : Nat} :
    expr.deepest limit comparator scope ≤ bound ↔
      ∀ descent ∈ expr.descents limit comparator scope 0, descent.2.isWithin bound descent.1 = true := by
  simp only [deepest, Finset.sup_le_iff, Finset.mem_filter, List.mem_toFinset, isWithin,
    Bool.or_eq_true, decide_eq_true_eq]
  constructor
  · intro bounded descent member
    by_cases leaf : descent.2.isLeaf = true
    · exact Or.inl leaf
    · exact Or.inr (bounded descent ⟨member, Bool.eq_false_iff.mpr leaf⟩)
  · rintro bounded descent ⟨member, branch⟩
    rcases bounded descent member with leaf | shallow
    · rw [branch] at leaf
      cases leaf
    · exact shallow

/-- With as many levels as a tree has nodes, an evaluation makes the run of the plain reading. Any
limit that is no less than the greatest depth the run comes to leaves the same result by the same
calls. Every lesser limit is met after some of these calls. Under no limit does a run go further
down than to the depth after it, however many right operands and negations it passes. -/
theorem depth_limit_exact {expr : Expr} {ample : Nat} (room : expr.size ≤ ample)
    (comparator : Option Comparator) (scope : Scope) :
    expr.eval ample comparator scope = expr.meaning comparator scope ∧
    (∀ limit, expr.deepest ample comparator scope ≤ limit →
      expr.eval limit comparator scope = expr.eval ample comparator scope) ∧
    (∀ limit, limit < expr.deepest ample comparator scope →
      (expr.eval limit comparator scope).result = .error (.tooDeep limit) ∧
      (expr.eval limit comparator scope).calls <+: (expr.eval ample comparator scope).calls) ∧
    ∀ limit, ∀ descent ∈ expr.descents limit comparator scope 0, descent.1 ≤ limit + 1 := by
  have shallow : expr.need ≤ ample := Nat.le_trans expr.need_le_size room
  have fits : expr.Fits ample 0 := Or.inr (by omega)
  have cuts := fun limit => follow_cuts limit comparator fits scope false
  refine ⟨eval_eq_meaning shallow comparator scope, ?_, ?_, ?_⟩
  · intro limit within
    exact (cuts limit).spared (deepest_le_iff.mp within)
  · intro limit beyond
    have exceeded := mt deepest_le_iff.mpr (Nat.not_le.mpr beyond)
    push Not at exceeded
    obtain ⟨descent, member, refused⟩ := exceeded
    exact (cuts limit).cut descent member refused
  · intro limit
    exact descents_le limit comparator (by simp [isWithin])

/-- In `$key:!"x" & (null | deep)` the deep operand is passed over where the data is null, so two
levels are enough. With one, the key is read before the limit is met. -/
theorem depth_limit_exact_passed_over :
    let yes := Expr.value (.boolean true)
    let deep := Expr.and (.and (.and (.and yes yes) yes) yes) yes
    let tree := Expr.and (.facet .key (.not (.value (.string "x")))) (.or (.value .null) deep)
    let scope : Scope := ⟨some .null, fun _ => .found (.string "k")⟩
    tree.size ≤ 15 ∧ tree.deepest 15 none scope = 2 ∧ (tree.eval 15 none scope).result = .ok true ∧
      tree.eval 2 none scope = tree.eval 15 none scope ∧
      (tree.eval 1 none scope).result = .error (.tooDeep 1) ∧
      (tree.eval 1 none scope).calls = [.accessor .key] ∧
      (tree.eval 1 none scope).calls <+: (tree.eval 15 none scope).calls := by
  intro yes deep tree scope
  have room : tree.size ≤ 15 := by decide
  have two : tree.deepest 15 none scope = 2 := by decide
  obtain ⟨-, spared, cut, -⟩ := depth_limit_exact room none scope
  obtain ⟨tooDeep, before⟩ := cut 1 (by omega)
  exact ⟨room, two, by decide, spared 2 (by omega), tooDeep, rfl, before⟩

end Expr

end NodeFilter
