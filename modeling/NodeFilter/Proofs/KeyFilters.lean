import NodeFilter.Proofs.Combination
import NodeFilter.Proofs.Rounding

/-!
Filters for keys. A name in single quotes is read as it stands, whatever else is in it, and digits
are read as the number they spell. After `$key:` a name finds the members of that name and a
number the elements at that place. After `$value:` a name finds what holds it, and of the objects
just those that have such a member.
-/

namespace NodeFilter

namespace Value

/-- The text itself, an array with the text among its elements, or an object with a member of
that name. -/
def Mentions (text : String) : Value → Prop
  | .string own => own = text
  | .array elements => .string text ∈ elements
  | .object members => text ∈ members.map Prod.fst
  | _ => False

theorem strictlyEquals_string {value : Value} {text : String} :
    value.strictlyEquals (.string text) = true ↔ value = .string text := by
  cases value <;> simp [strictlyEquals]

theorem findMember?_isSome {α : Type} {name : String} {members : List (String × α)} :
    (findMember? name members).isSome = true ↔ name ∈ members.map Prod.fst := by
  induction members with
  | nil => simp [findMember?]
  | cons member rest ih =>
      rw [findMember?, List.map_cons, List.mem_cons]
      split
      case isTrue same => simp [same]
      case isFalse other => rw [ih, or_iff_right (Ne.symm other)]

theorem contains_array {elements : List Value} {text : String} :
    (Value.array elements).contains (.string text) = true ↔ .string text ∈ elements := by
  rw [contains, List.any_eq_true]
  simp only [strictlyEquals_string, exists_eq_right]

/-- With the comparator of searches, a string literal says whether the value mentions it. -/
theorem literalMeaning_mentions (value : Value) (text : String) :
    ∃ answer, (literalMeaning (some contains) (some value) (.string text)).result = .ok answer ∧
      (answer = true ↔ value.Mentions text) := by
  cases value with
  | string own => exact ⟨_, rfl, beq_iff_eq⟩
  | array elements => exact ⟨_, rfl, contains_array⟩
  | object members => exact ⟨_, rfl, findMember?_isSome⟩
  | _ => exact ⟨false, rfl, by simp [Mentions]⟩

variable (root : Value) (node : Node)

def IsMember (name : String) : Prop :=
  ∃ above members position, root.at? above = some (.object members) ∧
    members[position]? = some (name, node.value) ∧
    node.location = above ++ [.member name position]

def IsElement (position : Nat) : Prop :=
  ∃ above elements, root.at? above = some (.array elements) ∧
    elements[position]? = some node.value ∧ node.location = above ++ [.element position]

variable {root node}

theorem IsMember.step? {name : String} (member : root.IsMember node name) :
    ∃ position, node.step? = some (.member name position) := by
  obtain ⟨above, members, position, -, -, place⟩ := member
  exact ⟨position, by rw [Node.step?, place, List.getLast?_concat]⟩

theorem IsElement.step? {position : Nat} (element : root.IsElement node position) :
    node.step? = some (.element position) := by
  obtain ⟨above, elements, -, -, place⟩ := element
  rw [Node.step?, place, List.getLast?_concat]

theorem IsMember.not_element {name : String} (member : root.IsMember node name) (position : Nat) :
    ¬ root.IsElement node position := by
  intro element
  obtain ⟨place, last⟩ := member.step?
  exact nomatch last.symm.trans element.step?

theorem IsMember.ne_root {name : String} (member : root.IsMember node name) :
    node.location ≠ [] := by
  obtain ⟨above, members, position, -, -, place⟩ := member
  rw [place]
  exact List.concat_ne_nil _ _

theorem isMember_iff (isIn : node.IsIn root) {name : String} :
    root.IsMember node name ↔ ∃ position, node.step? = some (.member name position) := by
  refine ⟨IsMember.step?, ?_⟩
  rintro ⟨position, last⟩
  cases placed_of_isIn isIn with
  | root _ _ none => exact nomatch none.symm.trans last
  | element _ _ _ _ _ _ other => exact nomatch other.symm.trans last
  | member above members _ _ held kept place same =>
      cases same.symm.trans last
      exact ⟨above, members, position, held, kept, place⟩

theorem isElement_iff (isIn : node.IsIn root) {position : Nat} :
    root.IsElement node position ↔ node.step? = some (.element position) := by
  refine ⟨IsElement.step?, fun last => ?_⟩
  cases placed_of_isIn isIn with
  | root _ _ none => exact nomatch none.symm.trans last
  | member _ _ _ _ _ _ _ other => exact nomatch other.symm.trans last
  | element above elements _ held kept place same =>
      cases same.symm.trans last
      exact ⟨above, elements, held, kept, place⟩

end Value

namespace Binary64

/-- Numbers made of counts below 2^53 are equal only where the counts are. -/
theorem equals_ofNat {count other : Nat} (small : count < 2 * binade) :
    (ofNat other).equals (ofNat count) = true ↔ other = count := by
  have numbers (n : Nat) : (ofNat n).isNaN = false := nearest_not_nan ..
  simp only [equals, numbers, Bool.not_false, Bool.true_and, Bool.or_eq_true, Bool.and_eq_true,
    decide_eq_true_eq, ofNat_inj small]
  refine or_iff_right_of_imp fun zeros => (ofNat_inj small).mp ?_
  have ranks : nearestRank other 1 = nearestRank count 1 :=
    (beq_iff_eq.mp zeros.1).trans (beq_iff_eq.mp zeros.2).symm
  simp only [ofNat, nearest, ranks]

end Binary64

def Step.keyValue : Step → Value
  | .member name _ => .string name
  | .element position => .number (.ofNat position)

theorem Step.keyValue_equals_string {step : Step} {name : String} :
    step.keyValue.strictlyEquals (.string name) = true ↔
      ∃ position, step = .member name position := by
  rw [Value.strictlyEquals_string]
  cases step <;> simp [keyValue]

theorem Step.keyValue_equals_ofNat {step : Step} {count : Nat}
    (small : count < 2 * Binary64.binade) :
    step.keyValue.strictlyEquals (.number (.ofNat count)) = true ↔ step = .element count := by
  cases step with
  | member name position => simp [keyValue, Value.strictlyEquals]
  | element position =>
      rw [Step.element.injEq, ← Binary64.equals_ofNat small]
      rfl

theorem Node.facet_key (node : Node) :
    node.scope.facet .key =
      match node.step? with
      | none => .nothing
      | some step => .found step.keyValue := by
  change Fields.facet Node.fields node .key = _
  simp only [Fields.facet, Fields.accessor?, Node.fields, Node.key?]
  rcases node.step? with _ | (_ | _) <;> rfl

theorem Node.answer_key {comparator : Option Comparator} (node : Node) (literal : Literal) :
    node.answer comparator (.facet .key (.value literal)) =
      match node.step? with
      | none => .error (.fieldNotFound .key)
      | some step => .ok (step.keyValue.strictlyEquals literal) := by
  rw [answer_facet, node.facet_key]
  rcases node.step? with _ | (_ | _)
  · rfl
  · cases literal <;> rfl
  · cases literal <;> rfl

section Search

variable {comparator : Option Comparator} {root : Value}

theorem finds_keys {literal : Literal} {wanted : Node → Prop}
    (told : ∀ node : Node, node.IsIn root → (wanted node ↔
      ∃ step, node.step? = some step ∧ step.keyValue.strictlyEquals literal = true)) :
    Finds root wanted (selectNodes comparator (.facet .key (.value literal)) root) := by
  refine selectNodes_finds.mpr fun node isIn => ?_
  rw [Node.fatal?_eq_none, Node.isMatch_eq_true, node.answer_key, told node isIn]
  cases node.step? <;> simp

theorem finds_members (name : String) :
    Finds root (root.IsMember · name)
      (selectNodes comparator (.facet .key (.value (.string name))) root) := by
  refine finds_keys fun node isIn => ?_
  simp only [Value.isMember_iff isIn, Step.keyValue_equals_string]
  constructor
  · rintro ⟨position, last⟩
    exact ⟨_, last, position, rfl⟩
  · rintro ⟨_, last, position, rfl⟩
    exact ⟨position, last⟩

theorem finds_elements {position : Nat} (small : position < 2 * Binary64.binade) :
    Finds root (root.IsElement · position)
      (selectNodes comparator (.facet .key (.value (.number (.ofNat position)))) root) := by
  refine finds_keys fun node isIn => ?_
  simp only [Value.isElement_iff isIn, Step.keyValue_equals_ofNat small, exists_eq_right]

theorem finds_mentions (text : String) :
    Finds root (fun node => node.value.Mentions text)
      (selectNodes (some Value.contains) (.facet .value (.value (.string text))) root) := by
  refine selectNodes_finds.mpr fun node _ => ?_
  obtain ⟨answer, said, mentions⟩ := node.value.literalMeaning_mentions text
  have verdict : node.answer (some Value.contains) (.facet .value (.value (.string text))) =
      .ok answer := by
    rw [Node.answer_facet]
    exact said
  rw [Node.fatal?_eq_none, Node.isMatch_eq_true, verdict, ← mentions]
  simp

def Node.IsChildOf (child parent : Node) : Prop :=
  ∃ step, child.location = parent.location ++ [step]

/-- An object mentions the names of its members, so these are what it is found by. -/
theorem mentions_iff_parent {node : Node} {name : String} (isIn : node.IsIn root) :
    node.value.Mentions name ∧ node.value.kind = .object ↔
      ∃ child : Node, child.IsIn root ∧ root.IsMember child name ∧ child.IsChildOf node := by
  have found := isIn
  rw [Node.IsIn] at found
  constructor
  · rintro ⟨mentions, object⟩
    cases same : node.value with
    | object members =>
        rw [same] at mentions found
        obtain ⟨⟨known, value⟩, member, rfl⟩ := List.mem_map.mp mentions
        obtain ⟨position, held⟩ := List.getElem?_of_mem member
        have step := Value.child?_member.mpr ⟨members, rfl, held⟩
        have place : root.at? (node.location ++ [.member known position]) = some value := by
          rw [Value.at?_append, found, Option.bind_some, Value.at?, step]
          rfl
        exact ⟨⟨_, value⟩, place, ⟨_, members, position, found, held, rfl⟩, _, rfl⟩
    | _ =>
        rw [same] at object
        cases object
  · rintro ⟨child, -, ⟨above, members, position, held, kept, place⟩, step, below⟩
    obtain ⟨rfl, -⟩ := List.append_inj' (place.symm.trans below) rfl
    have same := Option.some.inj (found.symm.trans held)
    rw [same]
    exact ⟨List.mem_map.mpr ⟨_, List.mem_of_getElem? kept, rfl⟩, rfl⟩

end Search

section Text

theorem quoted_spells {text : String} (plain : '\'' ∉ text.toList) :
    Spells ('\'' :: (text.toList ++ ['\''])) (.literal (.string text)) [] := by
  have spelled := @Spells.quoted _ _ [] (Or.inr rfl) plain
  rwa [String.ofList_toList] at spelled

theorem digits_spell (n : Nat) :
    Spells (Nat.toDigits 10 n) (.literal (.number (.ofNat n))) [] := by
  have digits : Numeral.AllDigits (Nat.toDigits 10 n) := fun c member =>
    Nat.isDigit_of_mem_toDigits (by omega) (Nat.le_refl 10) member
  have form : Numeral.Unsigned (Nat.toDigits 10 n) := .whole Nat.toDigits_ne_nil digits
  have value : Numeral.ofDigits (Nat.toDigits 10 n) = n := Nat.ofDigitChars_ten_toDigits
  refine .numeral (.plain form) ?_ Text.ends_nil
  rw [Numeral.read?_unsigned form, Numeral.unsigned?_whole false digits, value,
    if_neg (by simp)]
  simp [Binary64.ofDecimal, Binary64.ofNat]

theorem parse_keyName {name : String} (plain : '\'' ∉ name.toList) :
    parse ("$key: '" ++ name ++ "'") = .ok (.facet .key (.value (.string name))) :=
  parseWithin_fieldText (by decide) (by simp [fieldText, Field.name]) (quoted_spells plain)

theorem parse_valueText {text : String} (plain : '\'' ∉ text.toList) :
    parse ("$value: '" ++ text ++ "'") = .ok (.facet .value (.value (.string text))) :=
  parseWithin_fieldText (by decide) (by simp [fieldText, Field.name]) (quoted_spells plain)

theorem parse_keyPosition (position : Nat) :
    parse ("$key: " ++ toString position) =
      .ok (.facet .key (.value (.number (.ofNat position)))) :=
  parseWithin_fieldText (by decide) (by simp [fieldText, Field.name]) (digits_spell position)

end Text

/-- The filter text can be read, and the search for it finds the nodes. -/
def Selects (source : String) (root : Value) (nodes : List Node) : Prop :=
  ∃ tree, parse source = .ok tree ∧ selectNodes (some Value.contains) tree root = .ok nodes

theorem selects_of_finds {source : String} {tree : Expr} {root : Value} {wanted : Node → Prop}
    (read : parse source = .ok tree)
    (finds : Finds root wanted (selectNodes (some Value.contains) tree root)) :
    ∃ nodes, Selects source root nodes ∧ Finds root wanted (.ok nodes) := by
  obtain ⟨nodes, found, rest⟩ := finds
  exact ⟨nodes, ⟨tree, read, found⟩, nodes, rfl, rest⟩

theorem mem_of_finds {root : Value} {wanted : Node → Prop} {nodes : List Node}
    (finds : Finds root wanted (.ok nodes)) (node : Node) :
    node ∈ nodes ↔ node.IsIn root ∧ wanted node := by
  obtain ⟨_, same, -, told⟩ := finds
  cases same
  exact told node

/-- A quoted name after `$key:` finds the members of that name, and after `$value:` what mentions
it; the objects among the latter are the parents of the former. A number after `$key:` finds the
elements at that place. No name is taken for a number and no number for a name. -/
theorem key_filters_exact (root : Value) :
    (∀ name : String, '\'' ∉ name.toList → ∃ members holders,
      Selects ("$key: '" ++ name ++ "'") root members ∧
      Finds root (root.IsMember · name) (.ok members) ∧
      (∀ node ∈ members, node.location ≠ [] ∧ ∀ position, ¬ root.IsElement node position) ∧
      Selects ("$value: '" ++ name ++ "'") root holders ∧
      Finds root (fun node => node.value.Mentions name) (.ok holders) ∧
      ∀ node, node ∈ holders ∧ node.value.kind = .object ↔
        node.IsIn root ∧ ∃ member ∈ members, member.IsChildOf node) ∧
    ∀ position < 2 ^ 53, ∃ elements,
      Selects ("$key: " ++ toString position) root elements ∧
      Finds root (root.IsElement · position) (.ok elements) ∧
      ∀ node ∈ elements, ∀ name, ¬ root.IsMember node name := by
  constructor
  · intro name plain
    obtain ⟨members, selected, found⟩ := selects_of_finds (parse_keyName plain) (finds_members name)
    obtain ⟨holders, held, mentioned⟩ :=
      @selects_of_finds _ _ root _ (parse_valueText plain) (finds_mentions name)
    refine ⟨members, holders, selected, found, fun node member => ?_, held, mentioned,
      fun node => ?_⟩
    · have isMember := ((mem_of_finds found node).mp member).2
      exact ⟨isMember.ne_root, isMember.not_element⟩
    · rw [mem_of_finds mentioned, and_assoc, and_congr_right_iff]
      intro isIn
      rw [mentions_iff_parent isIn]
      simp only [mem_of_finds found, and_assoc]
  · intro position small
    obtain ⟨elements, selected, found⟩ :=
      @selects_of_finds _ _ root _ (parse_keyPosition position) (finds_elements small)
    refine ⟨elements, selected, found, fun node element name member => ?_⟩
    exact member.not_element position ((mem_of_finds found node).mp element).2

/-- A name made of what means something outside of quotes, in an object with one member. -/
theorem key_filters_exact_odd_name :
    let name := " !(\"a\" & $key: 1) | "
    let root := Value.object [(name, .array [.null, .string name])]
    let member := Node.mk [.member name 0] (.array [.null, .string name])
    let element := Node.mk [.member name 0, .element 1] (.string name)
    '\'' ∉ name.toList ∧ 1 < 2 ^ 53 ∧
      (∃ members holders, Selects ("$key: '" ++ name ++ "'") root members ∧
        Selects ("$value: '" ++ name ++ "'") root holders ∧
        member ∈ members ∧ element ∉ members ∧
        ⟨[], root⟩ ∈ holders ∧ member ∈ holders ∧ element ∈ holders) ∧
      ∃ elements, Selects ("$key: " ++ toString 1) root elements ∧
        element ∈ elements ∧ member ∉ elements := by
  intro name root member element
  have plain : '\'' ∉ name.toList := by decide
  have memberIsIn : member.IsIn root := rfl
  have elementIsIn : element.IsIn root := rfl
  have isMember : root.IsMember member name := ⟨[], _, 0, rfl, rfl, rfl⟩
  have isElement : root.IsElement element 1 := ⟨[.member name 0], _, rfl, rfl, rfl⟩
  obtain ⟨named, placed⟩ := key_filters_exact root
  obtain ⟨members, holders, first, found, apart, second, mentioned, -⟩ := named name plain
  obtain ⟨elements, third, standing, others⟩ := placed 1 (by decide)
  refine ⟨plain, by decide, ⟨members, holders, first, second, ?_, ?_, ?_, ?_, ?_⟩,
    elements, third, ?_, ?_⟩
  · exact (mem_of_finds found _).mpr ⟨memberIsIn, isMember⟩
  · exact fun inside => (apart _ inside).2 1 isElement
  · exact (mem_of_finds mentioned _).mpr ⟨rfl, List.mem_singleton.mpr rfl⟩
  · exact (mem_of_finds mentioned _).mpr
      ⟨memberIsIn, List.mem_cons_of_mem _ (List.mem_singleton.mpr rfl)⟩
  · exact (mem_of_finds mentioned _).mpr ⟨elementIsIn, rfl⟩
  · exact (mem_of_finds standing _).mpr ⟨elementIsIn, isElement⟩
  · exact fun inside => others _ inside name isMember

end NodeFilter
