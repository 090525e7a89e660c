import NodeFilter.Proofs.Influence

/-!
Tables of fields as finite maps. A table that is built by installing accessors one after
the other holds the last one of each field and nothing else: neither the order of the
steps nor an accessor that was replaced leaves a trace, in what the table resolves, in its
description or in a match.
-/

namespace NodeFilter

def Facet.ofReading : Option (Option Value) → Facet
  | none => .unreadable
  | some none => .nothing
  | some (some value) => .found value

namespace Fields

variable {Host : Type}

/-- A table is no more than the accessor it has for each field. -/
theorem accessor?_injective :
    Function.Injective (accessor? : Fields Host → Field → Option (Host → Option Value)) := by
  rintro ⟨key, value, type⟩ ⟨otherKey, otherValue, otherType⟩ same
  have keys : key = otherKey := congrFun same .key
  have values : value = otherValue := congrFun same .value
  have types : type = otherType := congrFun same .type
  rw [keys, values, types]

theorem accessor?_empty (field : Field) : (empty : Fields Host).accessor? field = none := by
  cases field <;> rfl

theorem facet_eq (fields : Fields Host) (subject : Host) (field : Field) :
    fields.facet subject field = .ofReading ((fields.accessor? field).map (· subject)) := by
  unfold facet
  cases fields.accessor? field with
  | none => rfl
  | some accessor =>
      simp only [Option.map_some]
      cases accessor subject <;> rfl

/-- The description of a table that has an accessor for these fields and for no others. -/
def described (readable : Field → Bool) : String :=
  "Fields \x7b key: " ++ toString (readable .key) ++ ", value: " ++ toString (readable .value) ++
    ", type: " ++ toString (readable .type) ++ " \x7d"

theorem describe_eq (fields : Fields Host) : fields.describe = described fields.has := by
  unfold describe described
  rfl

/-- Neither flag is the front of the other, so what stands behind it is known as well. -/
theorem flag_unique {flag other : Bool} {rest otherRest : List Char}
    (same : (toString flag).toList ++ rest = (toString other).toList ++ otherRest) :
    flag = other ∧ rest = otherRest := by
  cases flag <;> cases other <;> simp [toString] at same
  · exact ⟨rfl, same⟩
  · exact ⟨rfl, same⟩

theorem described_injective : Function.Injective described := by
  intro readable other same
  unfold described at same
  have letters := congrArg String.toList same
  simp only [String.toList_append, List.append_assoc, List.append_cancel_left_eq] at letters
  -- The flags are read from left to right, each with the label of the next one behind it.
  obtain ⟨keys, letters⟩ := flag_unique letters
  obtain ⟨values, letters⟩ := flag_unique (List.append_cancel_left letters)
  obtain ⟨types, -⟩ := flag_unique (List.append_cancel_left letters)
  funext field
  cases field with
  | key => exact keys
  | value => exact values
  | type => exact types

end Fields

abbrev Installs (Host : Type) := List (Field × (Host → Option Value))

namespace Installs

variable {Host : Type}

def onto (fields : Fields Host) (installs : Installs Host) : Fields Host :=
  installs.foldl (fun fields step => fields.install step.1 step.2) fields

def table (installs : Installs Host) : Fields Host := installs.onto .empty

/-- The accessor of the last step that installs one for a field. -/
def last? (installs : Installs Host) (field : Field) : Option (Host → Option Value) :=
  installs.reverse.lookup field

theorem last?_cons (step : Field × (Host → Option Value)) (rest : Installs Host) (field : Field) :
    last? (step :: rest) field =
      (last? rest field).or (if step.1 = field then some step.2 else none) := by
  obtain ⟨first, accessor⟩ := step
  rw [last?, List.reverse_cons, List.lookup_append, last?]
  by_cases same : first = field
  · simp [same]
  · have passedOver : (field == first) = false := beq_false_of_ne (Ne.symm same)
    simp [List.lookup_cons, same, passedOver]

theorem isSome_last? (installs : Installs Host) (field : Field) :
    (installs.last? field).isSome = true ↔ field ∈ installs.map Prod.fst := by
  simp [last?, List.lookup_isSome_iff]

/-- The invariant of a run of installations: what was installed for a field since is used,
and where nothing was, the table is as it was before. -/
theorem accessor?_onto (fields : Fields Host) (installs : Installs Host) (field : Field) :
    (installs.onto fields).accessor? field = (installs.last? field).or (fields.accessor? field) := by
  induction installs generalizing fields with
  | nil => rfl
  | cons step rest ih =>
      have first := Fields.accessor?_install fields step.1 field step.2
      rw [onto, List.foldl_cons, ← onto, ih, last?_cons, first, Option.or_assoc]
      split <;> rfl

theorem accessor?_table (installs : Installs Host) (field : Field) :
    installs.table.accessor? field = installs.last? field := by
  rw [table, accessor?_onto, Fields.accessor?_empty, Option.or_none]

theorem facet_table (installs : Installs Host) (subject : Host) (field : Field) :
    installs.table.facet subject field = .ofReading ((installs.last? field).map (· subject)) := by
  rw [Fields.facet_eq, accessor?_table]

theorem resolve_table (installs : Installs Host) (subject : Host) (field : Field) :
    installs.table.resolve subject field =
      match installs.last? field with
      | none => .error (.missingAccessor field)
      | some accessor =>
          match accessor subject with
          | none => .error (.fieldNotFound field)
          | some value => .ok value := by
  rw [Fields.resolve, facet_table]
  cases installs.last? field with
  | none => rfl
  | some accessor =>
      simp only [Option.map_some]
      cases accessor subject <;> rfl

theorem has_table (installs : Installs Host) (field : Field) :
    installs.table.has field = decide (field ∈ installs.map Prod.fst) := by
  rw [Fields.has, accessor?_table, Bool.eq_iff_iff, isSome_last?, decide_eq_true_iff]

theorem table_eq_iff (installs others : Installs Host) :
    installs.table = others.table ↔ ∀ field, installs.last? field = others.last? field := by
  rw [← Fields.accessor?_injective.eq_iff, funext_iff]
  simp only [accessor?_table]

theorem describe_eq_iff (installs others : Installs Host) :
    installs.table.describe = others.table.describe ↔
      ∀ field, field ∈ installs.map Prod.fst ↔ field ∈ others.map Prod.fst := by
  rw [Fields.describe_eq, Fields.describe_eq, Fields.described_injective.eq_iff, funext_iff]
  simp only [has_table, decide_eq_decide]

/-- A table that is built by installing accessors holds the last one of each field. It resolves
by that accessor, fails where there is none, and tells the fields that have one. Tables whose
last accessors are the same are the same. For one evaluation to make the same run with both, it
is enough that the last accessors give the same on this data, of the fields that the tree asks
of it: no other accessor, replaced or not, has any part in the run. -/
theorem table_exact (installs : Installs Host) :
    (∀ field, installs.table.accessor? field = installs.last? field) ∧
    (∀ subject field,
      installs.table.resolve subject field =
        match installs.last? field with
        | none => .error (.missingAccessor field)
        | some accessor =>
            match accessor subject with
            | none => .error (.fieldNotFound field)
            | some value => .ok value) ∧
    (∀ field, installs.table.has field = true ↔ field ∈ installs.map Prod.fst) ∧
    installs.table.describe =
      Fields.described (fun field => decide (field ∈ installs.map Prod.fst)) ∧
    ∀ others : Installs Host,
      (installs.table = others.table ↔ ∀ field, installs.last? field = others.last? field) ∧
      (installs.table.describe = others.table.describe ↔
        ∀ field, field ∈ installs.map Prod.fst ↔ field ∈ others.map Prod.fst) ∧
      ∀ (expr : Expr) (limit : Nat) (comparator : Option Comparator)
        (view : Host → Option Value) (subject : Host),
        (∀ field ∈ expr.outer,
          (installs.last? field).map (· subject) = (others.last? field).map (· subject)) →
        expr.eval limit comparator (installs.table.scope (view subject) subject) =
          expr.eval limit comparator (others.table.scope (view subject) subject) := by
  have tells : installs.table.has = fun field => decide (field ∈ installs.map Prod.fst) :=
    funext installs.has_table
  refine ⟨installs.accessor?_table, installs.resolve_table, fun field => ?_, ?_, fun others =>
    ⟨installs.table_eq_iff others, installs.describe_eq_iff others, ?_⟩⟩
  · rw [tells, decide_eq_true_iff]
  · rw [Fields.describe_eq, tells]
  · intro expr limit comparator view subject agree
    have readAlike : ∀ field ∈ expr.outer,
        installs.table.facet subject field = others.table.facet subject field := by
      intro field asked
      rw [facet_table, facet_table, agree field asked]
    exact Expr.eval_alike readAlike limit comparator (view subject)

/-- One table had its accessors replaced, in another order than the second got them, and only
the second reads `$type`. On `($key:a) & $value:null | $type:null` both compare the key, read
the value and then fail: inside `$value`, neither can read `$type`. -/
theorem table_exact_replaced :
    let tree := Expr.and (.facet .key (.value (.string "a")))
      (.facet .value (.or (.value .null) (.facet .type (.value .null))))
    let replaced : Installs String :=
      [(.value, fun _ => none), (.key, fun _ => some .null),
        (.value, fun text => some (.string text)), (.key, fun text => some (.array [.string text]))]
    let plain : Installs String :=
      [(.key, fun text => some (.array [.string text])), (.type, fun _ => some .null),
        (.value, fun text => some (.string text))]
    let run := fun installs : Installs String =>
      tree.eval 2 (some Value.contains) (installs.table.scope (some (.string "a")) "a")
    (∀ field ∈ tree.outer,
      (replaced.last? field).map (· "a") = (plain.last? field).map (· "a")) ∧
      run replaced = run plain ∧
      run plain = ⟨.error (.missingAccessor .type),
        [.accessor .key, .compare (.array [.string "a"]) (.string "a") true, .accessor .value]⟩ ∧
      replaced.table.describe ≠ plain.table.describe := by
  intro tree replaced plain run
  have agree : ∀ field ∈ tree.outer,
      (replaced.last? field).map (· "a") = (plain.last? field).map (· "a") := by
    intro field asked
    cases field with
    | key => rfl
    | value => rfl
    | type => simp [tree, Expr.outer] at asked
  obtain ⟨-, -, -, -, against⟩ := table_exact replaced
  obtain ⟨-, told, runs⟩ := against plain
  refine ⟨agree, runs tree 2 _ (fun text => some (.string text)) "a" agree, by rfl, ?_⟩
  intro same
  exact absurd ((told.mp same .type).mpr (by decide)) (by decide)

end Installs

end NodeFilter
