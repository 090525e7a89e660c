import NodeFilter.Proofs.Meaning
import NodeFilter.Proofs.SourceText

/-!
What can influence a match. A tree asks its data for the fields that stand in no other
field's target, and tests the data itself where a leaf stands in no target at all. All
else in it is put to what a field resolved to, which has no fields. A comparator is asked
only of composite values, and only with the literals of the tree. Under one comparator the
calls are determined with the result.
-/

namespace NodeFilter

/-- Facets that resolve alike are the same. -/
theorem Facet.resolve_injective (field : Field) : Function.Injective (Facet.resolve field) := by
  intro facet other same
  cases facet <;> cases other <;> simp_all [Facet.resolve]

/-- With no comparator, no composite value matches. -/
theorem matchLiteral_result (comparator : Option Comparator) (data : Option Value)
    (literal : Literal) :
    (matchLiteral comparator data literal).result =
      .ok (data.any fun value =>
        if value.isComposite then comparator.any (· value literal)
        else value.strictlyEquals literal) := by
  cases data with
  | none => rfl
  | some value =>
      unfold matchLiteral
      cases composite : value.isComposite with
      | false => simp [composite, Run.answer]
      | true => cases comparator <;> simp [composite, Run.answer]

/-- Comparators that judge every composite value alike against these literals. -/
def AgreeOn (literals : List Literal) (comparator other : Option Comparator) : Prop :=
  ∀ value literal, value.isComposite = true → literal ∈ literals →
    comparator.any (· value literal) = other.any (· value literal)

theorem AgreeOn.mono {literals part : List Literal} {comparator other : Option Comparator}
    (agree : AgreeOn literals comparator other) (within : part ⊆ literals) :
    AgreeOn part comparator other :=
  fun value literal composite member => agree value literal composite (within member)

theorem matchLiteral_congr {comparator other : Option Comparator} {literal : Literal}
    (agree : AgreeOn [literal] comparator other) (data : Option Value) :
    (matchLiteral comparator data literal).result = (matchLiteral other data literal).result := by
  rw [matchLiteral_result, matchLiteral_result]
  cases data with
  | none => rfl
  | some value =>
      cases composite : value.isComposite with
      | false => simp [composite]
      | true => simp [composite, agree value literal composite List.mem_cons_self]

namespace Expr

/-- The fields that a tree asks of its data, from left to right. Those inside the target
of another field are asked of what that field resolves to. -/
def outer : Expr → List Field
  | .joined _ left right => left.outer ++ right.outer
  | .not operand => operand.outer
  | .facet field _ => [field]
  | .value _ | .type _ => []

def testsData : Expr → Bool
  | .joined _ left right => left.testsData || right.testsData
  | .not operand => operand.testsData
  | .facet _ _ => false
  | .value _ | .type _ => true

structure SeesAlike (expr : Expr) (scope other : Scope) : Prop where
  facets : ∀ field ∈ expr.outer, scope.facet field = other.facet field
  value : expr.testsData = true → scope.value = other.value

theorem SeesAlike.refl (expr : Expr) (scope : Scope) : expr.SeesAlike scope scope :=
  ⟨fun _ _ => rfl, fun _ => rfl⟩

/-- What the whole of a tree sees alike, its part does. -/
theorem SeesAlike.mono {whole part : Expr} {scope other : Scope}
    (alike : whole.SeesAlike scope other) (asks : part.outer ⊆ whole.outer)
    (tests : part.testsData = true → whole.testsData = true) : part.SeesAlike scope other :=
  ⟨fun field asked => alike.facets field (asks asked), fun tested => alike.value (tests tested)⟩

theorem SeesAlike.left {operator : Connective} {left right : Expr} {scope other : Scope}
    (alike : (joined operator left right).SeesAlike scope other) : left.SeesAlike scope other :=
  alike.mono (List.subset_append_left ..) (by simp +contextual [testsData])

theorem SeesAlike.right {operator : Connective} {left right : Expr} {scope other : Scope}
    (alike : (joined operator left right).SeesAlike scope other) : right.SeesAlike scope other :=
  alike.mono (List.subset_append_right ..) (by simp +contextual [testsData])

/-- Going down cuts both runs or neither. -/
theorem descend_congr {limit depth : Nat} {comparator rival : Option Comparator}
    {scope other : Scope} {expr : Expr}
    (same : (expr.follow limit comparator scope (depth + 1) false).result =
      (expr.follow limit rival other (depth + 1) false).result) :
    (expr.descend limit comparator scope depth).result =
      (expr.descend limit rival other depth).result := by
  unfold descend
  split
  · exact same
  · rfl

/-- The invariant of two runs of one tree: what it sees alike at a depth and with a flag
comes to the same result, also where it is a fault or a cut. -/
theorem follow_congr (limit : Nat) {comparator rival : Option Comparator} {scope other : Scope}
    {expr : Expr} (alike : expr.SeesAlike scope other)
    (agree : AgreeOn expr.literals comparator rival) (depth : Nat) (negate : Bool) :
    (expr.follow limit comparator scope depth negate).result =
      (expr.follow limit rival other depth negate).result := by
  induction expr generalizing scope other depth negate with
  | joined operator left right leftIh rightIh =>
      have first := descend_congr
        (leftIh alike.left (agree.mono (List.subset_append_left ..)) (depth + 1) false)
      have rest := rightIh alike.right (agree.mono (List.subset_append_right ..)) depth negate
      rw [follow_joined, follow_joined, Run.result_andThen, Run.result_andThen, first]
      -- Equal answers on the left leave both runs to stop here or to go on to the right.
      congr 1
      funext decided
      split
      · rfl
      · exact rest
  | not operand ih =>
      rw [follow, follow]
      exact ih ⟨alike.facets, alike.value⟩ agree depth (!negate)
  | facet field target ih =>
      rw [follow_facet, follow_facet, alike.facets field List.mem_cons_self]
      cases other.facet field with
      | unreadable => rfl
      | nothing => rfl
      | found resolved =>
          -- Both targets are tested in one and the same bare scope, whatever the data was.
          have inner := descend_congr
            (ih (SeesAlike.refl target (.bare (some resolved))) agree (depth + 1) false)
          simp only [Run.after, Run.negatedIf, inner]
  | value literal =>
      rw [follow, follow, alike.value rfl]
      simp only [Run.negatedIf, matchLiteral_congr agree]
  | type name => rw [follow, follow, alike.value rfl]

/-- Going down makes one and the same run, or cuts it both times. -/
theorem descend_alike {limit depth : Nat} {comparator : Option Comparator} {scope other : Scope}
    {expr : Expr}
    (same : expr.follow limit comparator scope (depth + 1) false =
      expr.follow limit comparator other (depth + 1) false) :
    expr.descend limit comparator scope depth = expr.descend limit comparator other depth := by
  rw [descend, descend, same]

/-- The invariant of one tree run twice with one comparator: in scopes that look the same to
it, the runs are the same at any depth and with any flag, calls and all. -/
theorem follow_alike (limit : Nat) (comparator : Option Comparator) {scope other : Scope}
    {expr : Expr} (alike : expr.SeesAlike scope other) (depth : Nat) (negate : Bool) :
    expr.follow limit comparator scope depth negate =
      expr.follow limit comparator other depth negate := by
  induction expr generalizing scope other depth negate with
  | joined operator left right leftIh rightIh =>
      rw [follow_joined, follow_joined, descend_alike (leftIh alike.left (depth + 1) false),
        rightIh alike.right depth negate]
  | not operand ih =>
      rw [follow, follow]
      exact ih ⟨alike.facets, alike.value⟩ depth (!negate)
  | facet field target _ =>
      -- The target is tested against what the field resolves to, which no scope changes.
      rw [follow_facet, follow_facet, alike.facets field List.mem_cons_self]
  | value literal => rw [follow, follow, alike.value rfl]
  | type name => rw [follow, follow, alike.value rfl]

/-- Two tables of one host make the same run of a tree if they read alike what it asks of the
data, whatever else they hold. -/
theorem eval_alike {Host : Type} {fields others : Fields Host} {expr : Expr} {subject : Host}
    (readAlike : ∀ field ∈ expr.outer, fields.facet subject field = others.facet subject field)
    (limit : Nat) (comparator : Option Comparator) (value : Option Value) :
    expr.eval limit comparator (fields.scope value subject) =
      expr.eval limit comparator (others.scope value subject) := by
  have alike : expr.SeesAlike (fields.scope value subject) (others.scope value subject) :=
    ⟨readAlike, fun _ => rfl⟩
  exact follow_alike limit comparator alike 0 false

/-- An accessor for a field that is asked only of what another resolves to, or not at all,
makes no difference. -/
theorem eval_install {Host : Type} (fields : Fields Host) {field : Field} {expr : Expr}
    (unasked : field ∉ expr.outer) (accessor : Host → Option Value) (limit : Nat)
    (comparator : Option Comparator) (value : Option Value) (subject : Host) :
    expr.eval limit comparator ((fields.install field accessor).scope value subject) =
      expr.eval limit comparator (fields.scope value subject) := by
  apply eval_alike
  intro asked member
  have other : field ≠ asked := fun same => unasked (same ▸ member)
  simp only [Fields.facet, Fields.accessor?_install, if_neg other]

/-- Two evaluations of a tree under one limit have the same result if the fields that it
asks of its data resolve alike, if the data shows the same value where a leaf tests it, and
if the comparators judge composite values alike against its literals. The hosts, their
data and their tables of fields may differ in all else. -/
theorem eval_determined {Host Guest : Type} (expr : Expr) (limit : Nat)
    (fields : Fields Host) (view : Host → Option Value) (subject : Host)
    (guestFields : Fields Guest) (guestView : Guest → Option Value) (guest : Guest)
    (comparator rival : Option Comparator)
    (resolved : ∀ field ∈ expr.outer,
      fields.resolve subject field = guestFields.resolve guest field)
    (viewed : expr.testsData = true → view subject = guestView guest)
    (judged : ∀ value literal, value.isComposite = true → literal ∈ expr.literals →
      comparator.any (· value literal) = rival.any (· value literal)) :
    (expr.eval limit comparator (fields.scope (view subject) subject)).result =
      (expr.eval limit rival (guestFields.scope (guestView guest) guest)).result := by
  have alike : expr.SeesAlike (fields.scope (view subject) subject)
      (guestFields.scope (guestView guest) guest) :=
    ⟨fun field asked => Facet.resolve_injective field (resolved field asked), viewed⟩
  exact follow_congr limit alike judged 0 false

/-- A text whose key can be read, and a number whose key cannot, agree on
`($value:x) & !$value:null & $key:k`: `$key` stands only inside `$value`. Neither is tested
itself, and where the comparators differ, on scalars, they are not asked. -/
theorem eval_determined_across_hosts :
    let tree := Expr.and (.facet .value (.value (.string "x")))
      (.not (.facet .value (.and (.value .null) (.facet .key (.value (.string "k"))))))
    let shared := Value.array [.string "x"]
    let texts : Fields String :=
      ⟨some fun text => some (.string text), some fun _ => some shared, none⟩
    let counts : Fields Nat := ⟨none, some fun _ => some shared, some fun _ => none⟩
    let lenient : Comparator := fun value literal => !value.isComposite || value.contains literal
    (tree.outer = [.value, .value] ∧ tree.testsData = false) ∧
      (tree.eval 1 (some Value.contains) (texts.scope (some (.string "k")) "k")).result =
        (tree.eval 1 (some lenient) (counts.scope none 7)).result ∧
      (tree.eval 1 (some lenient) (counts.scope none 7)).result = .ok true := by
  intro tree shared texts counts lenient
  have resolved : ∀ field ∈ tree.outer, texts.resolve "k" field = counts.resolve 7 field := by
    intro field asked
    have onlyValue : field = .value := by simpa [tree, outer] using asked
    rw [onlyValue]
    rfl
  refine ⟨⟨rfl, rfl⟩, ?_, by cbv⟩
  exact eval_determined tree 1 texts (fun text => some (.string text)) "k" counts (fun _ => none) 7
    (some Value.contains) (some lenient) resolved (fun tested => by cases tested)
    fun value literal composite _ => by simp [lenient, composite]

end Expr

end NodeFilter
