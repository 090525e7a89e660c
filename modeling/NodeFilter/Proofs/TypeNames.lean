import NodeFilter.Proofs.Combination
import NodeFilter.Proofs.Composition

/-!
Filters for the kind of a node, `$type:` and the name of the kind. A name that is an
ordinary word is read as text, and `$type` reads as text, so the filter finds the nodes of
that kind. But `null` is also a keyword of filters. It is read as the literal of that name,
which no text equals, so `$type: null` finds nothing.
-/

namespace NodeFilter

namespace Value.Kind

def filter (kind : Kind) : String := "$type: " ++ kind.name

def literal : Kind → Literal
  | .null => .null
  | kind => .string kind.name

def test (kind : Kind) : Expr := .facet .type (.value kind.literal)

theorem name_word (kind : Kind) :
    ∃ first tail, kind.name.toList = first :: tail ∧ Text.isNameStart first = true ∧
      ∀ c ∈ tail, Text.isWordChar c = true := by
  cases kind <;> exact ⟨_, _, rfl, by decide, List.all_eq_true.mp (by decide)⟩

theorem wordLiteral_name (kind : Kind) : Lexeme.wordLiteral kind.name.toList = kind.literal := by
  cases kind <;> decide

theorem filter_text (kind : Kind) : kind.filter.toList = fieldText .type kind.name.toList := by
  simp [filter, fieldText, Field.name]

theorem name_spells (kind : Kind) : Spells kind.name.toList (.literal kind.literal) [] := by
  obtain ⟨first, tail, word, start, inside⟩ := kind.name_word
  have spelled := Lexeme.wordLiteral_spells start inside Text.ends_nil
  rwa [← word, kind.wordLiteral_name] at spelled

theorem parseWithin_filter (kind : Kind) {limit : Nat} (room : 0 < limit) :
    parseWithin limit kind.filter = .ok kind.test :=
  parseWithin_fieldText room kind.filter_text kind.name_spells

theorem parse_filter (kind : Kind) : parse kind.filter = .ok kind.test :=
  kind.parseWithin_filter (by decide)

theorem parse_not_filter (kind : Kind) : parse ("!" ++ kind.filter) = .ok (.not kind.test) := by
  obtain ⟨-, front, back⟩ := kind.filter_text ▸ fieldText_tight (spelled_tight kind.name_spells)
  have whole : trimmed kind.filter = kind.filter := by
    rw [trimmed, Text.trim_eq_self front back, String.ofList_toList]
  have read := parse_negatedText (@parseWithin_filter kind 127 (by decide))
  rwa [negatedText, whole] at read

theorem name_injective {kind other : Kind} (same : kind.name = other.name) : kind = other := by
  cases kind <;> cases other <;> first | rfl | exact absurd same (by decide)

end Value.Kind

theorem Value.typeNamed_name {value : Value} {kind : Kind} :
    value.TypeNamed kind.name ↔ value.kind = kind := by
  rw [typeNamed_iff]
  exact ⟨Kind.name_injective, congrArg Kind.name⟩

namespace Node

variable (comparator : Option Comparator) (kind : Value.Kind) (node : Node)

theorem answer_typeLiteral (literal : Literal) :
    node.answer comparator (.facet .type (.value literal)) =
      .ok (node.typeName.strictlyEquals literal) := by
  rw [answer_facet]
  cases literal <;> rfl

/-- The name of a kind is the name that `$type` reports, except that no node is null. -/
theorem answer_kindTest :
    node.answer comparator kind.test =
      .ok (decide (node.value.kind = kind ∧ kind ≠ .null)) := by
  have ordinary (other : Value.Kind) :
      (node.value.kind.name == other.name) = decide (node.value.kind = other) := by
    rw [Bool.eq_iff_iff, beq_iff_eq, decide_eq_true_eq, ← Value.typeNamed_iff,
      Value.typeNamed_name]
  rw [Value.Kind.test, answer_typeLiteral]
  cases kind with
  | null => simp [Value.Kind.literal, typeName, Value.strictlyEquals]
  | _ => simp [Value.Kind.literal, typeName, Value.strictlyEquals, ordinary]

theorem answer_not_kindTest :
    node.answer comparator (.not kind.test) =
      .ok (!decide (node.value.kind = kind ∧ kind ≠ .null)) := by
  rw [answer_not, answer_kindTest]
  rfl

end Node

section Search

variable (comparator : Option Comparator) (kind : Value.Kind) (root : Value)

theorem kindTest_finds {wanted : Node → Prop} :
    Finds root wanted (selectNodes comparator kind.test root) ↔
      ∀ node : Node, node.IsIn root →
        (node.value.TypeNamed kind.name ∧ kind ≠ .null ↔ wanted node) := by
  rw [selectNodes_finds_of_answer (Node.answer_kindTest comparator kind)]
  simp only [decide_eq_true_eq, Value.typeNamed_name]

theorem kindTest_not_finds {wanted : Node → Prop} :
    Finds root wanted (selectNodes comparator (.not kind.test) root) ↔
      ∀ node : Node, node.IsIn root →
        (¬ (node.value.TypeNamed kind.name ∧ kind ≠ .null) ↔ wanted node) := by
  rw [selectNodes_finds_of_answer (Node.answer_not_kindTest comparator kind)]
  simp only [Bool.not_eq_true', decide_eq_false_iff_not, Value.typeNamed_name]

end Search

/-- Both filters for a kind can be read, and neither fails. They find the nodes of the kind and
all others for every kind but null. The filters for null take no node to be null, so they do so
just on the documents that hold none. -/
theorem kind_filter_exact (comparator : Option Comparator) (kind : Value.Kind) (root : Value) :
    ∃ tree, parse kind.filter = .ok tree ∧ parse ("!" ++ kind.filter) = .ok (.not tree) ∧
      Finds root (fun node => node.value.TypeNamed kind.name ∧ kind ≠ .null)
        (selectNodes comparator tree root) ∧
      Finds root (fun node => ¬ (node.value.TypeNamed kind.name ∧ kind ≠ .null))
        (selectNodes comparator (.not tree) root) ∧
      (Finds root (fun node => node.value.TypeNamed kind.name)
            (selectNodes comparator tree root) ∧
          Finds root (fun node => ¬ node.value.TypeNamed kind.name)
            (selectNodes comparator (.not tree) root) ↔
        kind ≠ .null ∨ ∀ node : Node, node.IsIn root → ¬ node.value.TypeNamed "null") := by
  refine ⟨kind.test, kind.parse_filter, kind.parse_not_filter, ?_, ?_, ?_⟩
  · exact (kindTest_finds comparator kind root).mpr fun _ _ => Iff.rfl
  · exact (kindTest_not_finds comparator kind root).mpr fun _ _ => Iff.rfl
  · rw [kindTest_finds, kindTest_not_finds]
    by_cases null : kind = .null
    · subst null
      simp [Value.Kind.name]
    · simp [null]

/-- In `{"a": null}` the member is null, but `$type: null` does not find it, and `!$type: null`
finds it beside the root. -/
theorem null_filter_misses_null :
    let tree := Expr.facet .type (.value .null)
    let root := Value.object [("a", .null)]
    let member := Node.mk [.member "a" 0] .null
    parse "$type: null" = .ok tree ∧ parse "!$type: null" = .ok (.not tree) ∧
      member.IsIn root ∧ member.value.TypeNamed "null" ∧
      selectNodes none tree root = .ok [] ∧
      selectNodes none (.not tree) root = .ok [⟨[], root⟩, member] ∧
      ¬ Finds root (fun node => node.value.TypeNamed "null") (selectNodes none tree root) ∧
      ¬ Finds root (fun node => ¬ node.value.TypeNamed "null")
        (selectNodes none (.not tree) root) := by
  intro tree root member
  have isIn : member.IsIn root := rfl
  have isNull : member.value.TypeNamed "null" := .null
  refine ⟨Value.Kind.null.parse_filter, Value.Kind.null.parse_not_filter, isIn, isNull,
    rfl, rfl, ?_, ?_⟩
  · intro found
    exact ((kindTest_finds none .null root).mp found member isIn).mpr isNull |>.2 rfl
  · intro found
    have wanted := (kindTest_not_finds none .null root).mp found member isIn
    exact wanted.mp (fun both => both.2 rfl) isNull

end NodeFilter
