import NodeFilter.Json.Reader
import NodeFilter.Proofs.Locations

/-!
Distinct names. No object that is built member by member has two members of one name, so
there are none in a document that was read from text, at any depth.
-/

namespace NodeFilter

/-- Under a name that no other member has stands one value. -/
theorem findMember?_of_mem {α : Type} {members : List (String × α)} {name : String} {value : α}
    (names : (members.map Prod.fst).Nodup) (inside : (name, value) ∈ members) :
    findMember? name members = some value := by
  induction members with
  | nil => cases inside
  | cons member rest ih =>
      obtain ⟨first, kept⟩ := member
      obtain ⟨new, others⟩ := List.nodup_cons.mp names
      rw [findMember?]
      rcases List.mem_cons.mp inside with same | later
      · cases same
        exact if_pos rfl
      · have different : first ≠ name := by
          rintro rfl
          exact new (List.mem_map.mpr ⟨(first, value), later, rfl⟩)
        rw [if_neg different, ih others later]

namespace Value

inductive Distinct : Value → Prop where
  | scalar {value : Value} : value.isComposite = false → Distinct value
  | array {elements : List Value} :
      (∀ element ∈ elements, Distinct element) → Distinct (.array elements)
  | object {members : List (String × Value)} :
      (members.map Prod.fst).Nodup → (∀ member ∈ members, Distinct member.2) →
      Distinct (.object members)

theorem distinct_elements {elements : List Value} (distinct : (Value.array elements).Distinct) :
    ∀ element ∈ elements, element.Distinct := by
  cases distinct with
  | scalar single => cases single
  | array inside => exact inside

theorem distinct_members {members : List (String × Value)}
    (distinct : (Value.object members).Distinct) :
    (members.map Prod.fst).Nodup ∧ ∀ member ∈ members, member.2.Distinct := by
  cases distinct with
  | scalar single => cases single
  | object names inside => exact ⟨names, inside⟩

theorem distinct_child {value child : Value} {step : Step} (distinct : value.Distinct)
    (held : value.child? step = some child) : child.Distinct := by
  cases step with
  | element position =>
      obtain ⟨elements, rfl, kept⟩ := child?_element.mp held
      exact distinct_elements distinct child (List.mem_of_getElem? kept)
  | member name position =>
      obtain ⟨members, rfl, kept⟩ := child?_member.mp held
      exact (distinct_members distinct).2 (name, child) (List.mem_of_getElem? kept)

theorem mem_insertMember {members : List (String × Value)} {name : String} {value : Value}
    {member : String × Value} (inside : member ∈ insertMember name value members) :
    member = (name, value) ∨ member ∈ members := by
  induction members with
  | nil => exact Or.inl (List.mem_singleton.mp inside)
  | cons first rest ih =>
      unfold insertMember at inside
      split at inside
      · rename_i same
        rcases List.mem_cons.mp inside with rfl | old
        · exact Or.inl (by rw [same])
        · exact Or.inr (List.mem_cons_of_mem first old)
      · rcases List.mem_cons.mp inside with rfl | later
        · exact Or.inr List.mem_cons_self
        · exact (ih later).imp_right (List.mem_cons_of_mem first)

/-- A known name is not added again. -/
theorem distinct_insertMember {members : List (String × Value)} {name : String} {value : Value}
    (distinct : (Value.object members).Distinct) (inside : value.Distinct) :
    (Value.object (insertMember name value members)).Distinct := by
  obtain ⟨names, others⟩ := distinct_members distinct
  refine .object ?_ ?_
  · rw [names_insertMember]
    by_cases known : name ∈ members.map Prod.fst
    · rwa [if_pos known]
    · rw [if_neg known, List.nodup_append]
      refine ⟨names, by simp, ?_⟩
      intro old member new same
      rw [List.mem_singleton.mp same]
      rintro rfl
      exact known member
  · intro member present
    rcases mem_insertMember present with rfl | old
    · exact inside
    · exact others member old

/-- Objects are built without a name twice. -/
theorem distinct_ofMembers {members : List (String × Value)}
    (inside : ∀ member ∈ members, member.2.Distinct) : (ofMembers members).Distinct := by
  have onward : ∀ kept, (Value.object kept).Distinct →
      (Value.object (members.foldl (fun kept member =>
        insertMember member.1 member.2 kept) kept)).Distinct := by
    induction members with
    | nil => exact fun _ distinct => distinct
    | cons member rest ih =>
        obtain ⟨first, others⟩ := List.forall_mem_cons.mp inside
        intro kept distinct
        exact ih others _ (distinct_insertMember distinct first)
  exact onward [] (.object List.nodup_nil nofun)

theorem membersOfJson_insertMember (name : String) (value : Json)
    (members : List (String × Json)) :
    membersOfJson (insertMember name value members) =
      insertMember name (ofJson value) (membersOfJson members) := by
  induction members with
  | nil => rfl
  | cons member rest ih =>
      by_cases same : member.1 = name <;> simp [insertMember, membersOfJson, same, ih]

end Value

namespace Json

variable {start : Place}

def ReadsDistinct : Except Fault (Json × Onward start) → Prop
  | .ok (json, _) => (Value.ofJson json).Distinct
  | .error _ => True

theorem readsDistinct_ite {condition : Prop} [Decidable condition]
    {first second : Except Fault (Json × Onward start)} (yes : ReadsDistinct first)
    (no : ReadsDistinct second) : ReadsDistinct (if condition then first else second) := by
  split
  · exact yes
  · exact no

/-! A number is one value, whatever its form. -/
section Number

variable (negative : Bool) (significand : Nat) (exponent : Int) (here : Onward start)

theorem float_distinct : ReadsDistinct (Number.float negative significand exponent here) := by
  unfold Number.float
  split
  · exact .scalar rfl
  · trivial

theorem exponentPart_distinct :
    ReadsDistinct (Number.exponentPart negative significand exponent here) := by
  simp only [Number.exponentPart]
  split
  · trivial
  · split
    · trivial
    · split
      · exact float_distinct ..
      · split
        · trivial
        · exact .scalar rfl

theorem floatEnd_distinct :
    ReadsDistinct (Number.floatEnd negative significand exponent here) := by
  unfold Number.floatEnd
  split
  · exact exponentPart_distinct ..
  · exact float_distinct ..

theorem fractionPart_distinct :
    ReadsDistinct (Number.fractionPart negative significand exponent here) := by
  simp only [Number.fractionPart]
  split
  · trivial
  · exact floatEnd_distinct ..

theorem integer_distinct : (Value.ofJson (Number.integer negative significand)).Distinct := by
  unfold Number.integer
  split
  · split <;> exact .scalar rfl
  · exact .scalar rfl

theorem number_distinct (place : Place) : ReadsDistinct (Number.read negative place) := by
  unfold Number.read
  split
  · trivial
  · dsimp only
    split
    · trivial
    · split
      · trivial
      · split
        · exact fractionPart_distinct ..
        · split
          · exact floatEnd_distinct ..
          · exact integer_distinct ..

end Number

theorem keyword_distinct {value : Json} (single : (Value.ofJson value).Distinct)
    (here : Onward start) (word : List Char) : ReadsDistinct (keyword value here word) := by
  induction word generalizing here with
  | nil => exact single
  | cons expected word ih =>
      unfold keyword
      split
      · trivial
      · split
        · exact ih _
        · trivial

mutual

theorem readValue_distinct (levels : Nat) (place : Place) :
    ReadsDistinct (readValue levels place) := by
  rw [readValue]
  rcases place.next? with _ | ⟨c, inside⟩
  · trivial
  · dsimp only
    -- One turn for each first character that a value can have.
    refine readsDistinct_ite (keyword_distinct (.scalar rfl) inside _) ?_
    refine readsDistinct_ite (keyword_distinct (.scalar rfl) inside _) ?_
    refine readsDistinct_ite (keyword_distinct (.scalar rfl) inside _) ?_
    refine readsDistinct_ite ?_ (readsDistinct_ite (number_distinct false place) ?_)
    · have number := number_distinct true inside.place
      split
      · trivial
      · rename_i read
        rwa [read] at number
    refine readsDistinct_ite ?_ ?_
    · split
      · trivial
      · exact .scalar rfl
    refine readsDistinct_ite (readsDistinct_ite trivial ?_) ?_
    · rcases inside.skipBlanks.place.next? with _ | ⟨first, after⟩
      · trivial
      · have shorter := inside.skipBlanks.further
        exact readsDistinct_ite (.array nofun)
          (readElements_distinct (levels - 1) [] inside.skipBlanks.within nofun)
    refine readsDistinct_ite (readsDistinct_ite trivial ?_) trivial
    · rcases inside.skipBlanks.place.next? with _ | ⟨first, after⟩
      · trivial
      · have shorter := (inside.skipBlanks.thence after).further
        refine readsDistinct_ite (.object List.nodup_nil nofun) (readsDistinct_ite ?_ trivial)
        exact readMembers_distinct (levels - 1) [] (inside.skipBlanks.thence after).within
          (.object List.nodup_nil nofun)
termination_by (place.rest.length, 0)

theorem readElements_distinct {start : Place} (levels : Nat) (collected : List Json)
    (here : Within start)
    (before : ∀ element ∈ collected, (Value.ofJson element).Distinct) :
    ReadsDistinct (readElements levels collected here) := by
  rw [readElements]
  have first := readValue_distinct levels here.place
  split
  · trivial
  · rename_i element after read
    rw [read] at first
    have elements : ∀ json ∈ element :: collected, (Value.ofJson json).Distinct :=
      List.forall_mem_cons.mpr ⟨first, before⟩
    split
    · trivial
    · rename_i more next goesOn
      have shorter := next.further
      split
      · exact readElements_distinct levels (element :: collected) (here.thence next).within elements
      · rw [ReadsDistinct, Value.ofJson, Value.elementsOfJson_eq]
        refine .array ?_
        intro value member
        obtain ⟨json, old, rfl⟩ := List.mem_map.mp member
        exact elements json (List.mem_reverse.mp old)
termination_by (here.place.rest.length, 1)

theorem readMembers_distinct {start : Place} (levels : Nat) (members : List (String × Json))
    (here : Within start)
    (before : (Value.ofJson (.object members)).Distinct) :
    ReadsDistinct (readMembers levels members here) := by
  rw [readMembers]
  split
  · trivial
  · rename_i name colon named
    dsimp only
    have nearer := colon.skipBlanks.further
    have first := readValue_distinct levels colon.skipBlanks.place
    split
    · trivial
    · rename_i value after read
      rw [read] at first
      have inserted : (Value.ofJson (.object (insertMember name value members))).Distinct := by
        rw [Value.ofJson, Value.membersOfJson_insertMember]
        exact Value.distinct_insertMember before first
      split
      · trivial
      · rename_i more next goesOn
        have shorter := next.further
        split
        · exact readMembers_distinct levels _ (here.thence next).within inserted
        · exact inserted
termination_by (here.place.rest.length, 1)

end

theorem readText_distinct {text : List Char} {document : Json}
    (found : readText text = .ok document) : (Value.ofJson document).Distinct := by
  unfold readText at found
  have root := readValue_distinct nestingLimit (Place.mk 0 text).skipBlanks
  split at found
  · cases found
  · rename_i json after read
    rw [read] at root
    dsimp only at found
    split at found
    · cases found
      exact root
    · cases found

/-- A document that was read has distinct names. -/
theorem read_distinct {text : String} {document : Json} (found : read text = .ok document) :
    (Value.ofJson document).Distinct := by
  unfold read at found
  cases parsed : readText text.toList with
  | error fault =>
      rw [parsed] at found
      cases found
  | ok json =>
      rw [parsed] at found
      cases found
      exact readText_distinct parsed

end Json

end NodeFilter
