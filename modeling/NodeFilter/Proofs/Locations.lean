import NodeFilter.Document

/-!
Locations. A location is there in a document if each of its steps leads from a value to a
child of it. The walk lists every location that is there, each once and in pre-order, and
a node says of itself what its parent says of it. A list of wanted nodes in pre-order is
told by the nodes that are wanted.
-/

namespace NodeFilter

namespace Value

inductive TypeNamed : Value → String → Prop where
  | null : TypeNamed .null "null"
  | boolean (truth : Bool) : TypeNamed (.boolean truth) "boolean"
  | number (number : Binary64) : TypeNamed (.number number) "number"
  | string (text : String) : TypeNamed (.string text) "string"
  | array (elements : List Value) : TypeNamed (.array elements) "array"
  | object (members : List (String × Value)) : TypeNamed (.object members) "object"

theorem typeNamed_iff {value : Value} {name : String} :
    value.TypeNamed name ↔ value.kind.name = name := by
  constructor
  · intro named
    cases named <;> rfl
  · rintro rfl
    cases value <;> constructor

def child? : Value → Step → Option Value
  | .array elements, .element position => elements[position]?
  | .object members, .member name position =>
      members[position]?.bind fun member => if member.1 = name then some member.2 else none
  | _, _ => none

theorem child?_element {value child : Value} {position : Nat} :
    value.child? (.element position) = some child ↔
      ∃ elements, value = .array elements ∧ elements[position]? = some child := by
  cases value <;> simp [child?]

theorem child?_member {value child : Value} {name : String} {position : Nat} :
    value.child? (.member name position) = some child ↔
      ∃ members, value = .object members ∧ members[position]? = some (name, child) := by
  cases value with
  | object members =>
      simp only [child?, Option.bind_eq_some_iff, object.injEq, exists_eq_left']
      constructor
      · rintro ⟨⟨known, kept⟩, held, chosen⟩
        split at chosen
        · rename_i same
          cases same
          cases chosen
          exact held
        · cases chosen
      · intro held
        exact ⟨(name, child), held, if_pos rfl⟩
  | _ => simp [child?]

def at? : Value → List Step → Option Value
  | value, [] => some value
  | value, step :: rest => (value.child? step).bind fun child => child.at? rest

theorem at?_append (value : Value) (above below : List Step) :
    value.at? (above ++ below) = (value.at? above).bind fun parent => parent.at? below := by
  induction above generalizing value with
  | nil => rfl
  | cons step rest ih =>
      rw [List.cons_append, at?, at?]
      cases value.child? step with
      | none => rfl
      | some child => exact ih child

def children : Value → List (Step × Value)
  | .array elements =>
      elements.zipIdx.map fun (element, position) => (.element position, element)
  | .object members =>
      members.zipIdx.map fun ((name, value), position) => (.member name position, value)
  | _ => []

theorem mem_children {value child : Value} {step : Step} :
    (step, child) ∈ value.children ↔ value.child? step = some child := by
  cases step with
  | element position =>
      rw [child?_element]
      cases value with
      | array elements =>
          simp only [children, List.mem_map, List.mem_zipIdx_iff_getElem?]
          constructor
          · rintro ⟨⟨element, place⟩, held, same⟩
            cases same
            exact ⟨elements, rfl, held⟩
          · rintro ⟨_, same, held⟩
            cases same
            exact ⟨(child, position), held, rfl⟩
      | _ => simp [children]
  | member name position =>
      rw [child?_member]
      cases value with
      | object members =>
          simp only [children, List.mem_map, List.mem_zipIdx_iff_getElem?]
          constructor
          · rintro ⟨⟨⟨known, kept⟩, place⟩, held, same⟩
            cases same
            exact ⟨members, rfl, held⟩
          · rintro ⟨_, same, held⟩
            cases same
            exact ⟨((name, child), position), held, rfl⟩
      | _ => simp [children]

theorem children_ordered (value : Value) :
    value.children.Pairwise fun first second => first.1.position < second.1.position := by
  have places {α : Type} (items : List α) :
      items.zipIdx.Pairwise fun first second => first.2 < second.2 := by
    have increasing := @List.pairwise_lt_range' 0 items.length 1 Nat.one_pos
    rwa [← List.zipIdx_map_snd, List.pairwise_map] at increasing
  cases value with
  | array elements => exact List.pairwise_map.mpr (places elements)
  | object members => exact List.pairwise_map.mpr (places members)
  | _ => exact List.Pairwise.nil

/-- What holds of a value if it holds of its children holds of every value. -/
theorem induction_children {motive : Value → Prop}
    (parent : ∀ value, (∀ child ∈ value.children, motive child.2) → motive value) (value : Value) :
    motive value := by
  induction value using tree_induction with
  | scalar value notArray notObject =>
      refine parent value fun child isChild => ?_
      cases value with
      | array elements => exact absurd rfl (notArray elements)
      | object members => exact absurd rfl (notObject members)
      | _ => cases isChild
  | array elements ih =>
      refine parent (.array elements) fun child isChild => ?_
      obtain ⟨⟨element, position⟩, held, rfl⟩ := List.mem_map.mp isChild
      exact ih element (List.fst_mem_of_mem_zipIdx held)
  | object members ih =>
      refine parent (.object members) fun child isChild => ?_
      obtain ⟨⟨member, position⟩, held, rfl⟩ := List.mem_map.mp isChild
      exact ih member (List.fst_mem_of_mem_zipIdx held)

end Value

theorem walkElements_eq (location : List Step) (position : Nat) (elements : List Value) :
    walkElements location position elements =
      (elements.zipIdx position).flatMap fun (element, place) =>
        walkFrom (location ++ [.element place]) element := by
  induction elements generalizing position with
  | nil => rfl
  | cons element rest ih => rw [walkElements, ih, List.zipIdx_cons, List.flatMap_cons]

theorem walkMembers_eq (location : List Step) (position : Nat)
    (members : List (String × Value)) :
    walkMembers location position members =
      (members.zipIdx position).flatMap fun ((name, value), place) =>
        walkFrom (location ++ [.member name place]) value := by
  induction members generalizing position with
  | nil => rfl
  | cons member rest ih => rw [walkMembers, ih, List.zipIdx_cons, List.flatMap_cons]

/-- A node comes first, then its children from the first to the last, each with all below it. -/
theorem walkFrom_eq (location : List Step) (value : Value) :
    walkFrom location value = ⟨location, value⟩ ::
      value.children.flatMap fun child => walkFrom (location ++ [child.1]) child.2 := by
  cases value with
  | array elements =>
      rw [walkFrom, walkElements_eq, Value.children, List.flatMap_map]
  | object members =>
      rw [walkFrom, walkMembers_eq, Value.children, List.flatMap_map]
  | _ => rw [walkFrom]; rfl

theorem mem_walkFrom {location : List Step} {root : Value} {node : Node} :
    node ∈ walkFrom location root ↔
      ∃ below, node.location = location ++ below ∧ root.at? below = some node.value := by
  induction root using Value.induction_children generalizing location with
  | parent root ih =>
      rw [walkFrom_eq, List.mem_cons, List.mem_flatMap]
      constructor
      · rintro (rfl | ⟨⟨step, child⟩, isChild, inside⟩)
        · exact ⟨[], (List.append_nil location).symm, rfl⟩
        · obtain ⟨below, place, found⟩ := (ih _ isChild).mp inside
          refine ⟨step :: below, by simp [place], ?_⟩
          rw [Value.at?, Value.mem_children.mp isChild]
          exact found
      · rintro ⟨below, place, found⟩
        cases below with
        | nil =>
            left
            cases found
            cases node
            simpa using place
        | cons step below =>
            right
            obtain ⟨child, isChild, inside⟩ := Option.bind_eq_some_iff.mp found
            have listed := Value.mem_children.mpr isChild
            exact ⟨(step, child), listed, (ih _ listed).mpr ⟨below, by simp [place], inside⟩⟩

def Node.IsIn (root : Value) (node : Node) : Prop := root.at? node.location = some node.value

theorem mem_walk {root : Value} {node : Node} : node ∈ walk root ↔ node.IsIn root := by
  rw [walk, mem_walkFrom, Node.IsIn]
  simp

/-- Pre-order. A location comes before those below it, and where two part, the one that takes
the child further ahead comes first. -/
inductive Precedes : List Step → List Step → Prop where
  | below (above : List Step) (step : Step) (rest : List Step) :
      Precedes above (above ++ step :: rest)
  | beside (above : List Step) {first second : Step} (rest others : List Step) :
      first.position < second.position →
      Precedes (above ++ first :: rest) (above ++ second :: others)

/-- Of two locations the earlier has the lesser places along it, read like words. -/
theorem Precedes.positions_lt {first second : List Step} (before : Precedes first second) :
    first.map Step.position < second.map Step.position := by
  cases before with
  | below _ step rest =>
      rw [List.map_append]
      induction first with
      | nil => exact .nil
      | cons _ _ ih => exact .cons ih
  | beside above rest others ahead =>
      rw [List.map_append, List.map_append]
      induction above with
      | nil => exact .rel ahead
      | cons _ _ ih => exact .cons ih

theorem Precedes.asymm {first second : List Step} (before : Precedes first second) :
    ¬ Precedes second first :=
  fun after => List.lt_asymm before.positions_lt after.positions_lt

theorem Precedes.ne {first second : List Step} (before : Precedes first second) :
    first ≠ second := by
  rintro rfl
  exact before.asymm before

theorem walkFrom_ordered (location : List Step) (root : Value) :
    (walkFrom location root).Pairwise fun first second =>
      Precedes first.location second.location := by
  induction root using Value.induction_children generalizing location with
  | parent root ih =>
      rw [walkFrom_eq, List.pairwise_cons, List.pairwise_flatMap]
      refine ⟨?_, ?_, ?_⟩
      · intro node inside
        obtain ⟨child, -, inside⟩ := List.mem_flatMap.mp inside
        obtain ⟨below, place, -⟩ := mem_walkFrom.mp inside
        rw [place, List.append_assoc]
        exact .below location child.1 below
      · intro child isChild
        exact ih child isChild _
      · apply root.children_ordered.imp
        intro first second ahead node inFirst other inSecond
        obtain ⟨below, place, -⟩ := mem_walkFrom.mp inFirst
        obtain ⟨others, otherPlace, -⟩ := mem_walkFrom.mp inSecond
        rw [place, otherPlace, List.append_assoc, List.append_assoc]
        exact .beside location below others ahead

theorem walk_ordered (root : Value) : ((walk root).map Node.location).Pairwise Precedes :=
  List.pairwise_map.mpr (walkFrom_ordered [] root)

theorem walk_locations_nodup (root : Value) : ((walk root).map Node.location).Nodup :=
  (walk_ordered root).imp Precedes.ne

/-- What the walk lists before a node is what precedes it. -/
theorem mem_walk_before {root : Value} {node earlier : Node} {before after : List Node}
    (order : walk root = before ++ node :: after) :
    earlier ∈ before ↔ earlier.IsIn root ∧ Precedes earlier.location node.location := by
  have ordered := walkFrom_ordered [] root
  rw [← walk, order, List.pairwise_append, List.pairwise_cons] at ordered
  obtain ⟨-, ⟨later, -⟩, across⟩ := ordered
  rw [← mem_walk, order, List.mem_append, List.mem_cons]
  constructor
  · intro isBefore
    exact ⟨.inl isBefore, across earlier isBefore node List.mem_cons_self⟩
  · rintro ⟨isBefore | rfl | isAfter, precedes⟩
    · exact isBefore
    · exact absurd rfl precedes.ne
    · exact absurd (later earlier isAfter) precedes.asymm

/-- The wanted nodes of a document and no others, each once and in pre-order. -/
def Lists (root : Value) (wanted : Node → Prop) (nodes : List Node) : Prop :=
  (nodes.map Node.location).Pairwise Precedes ∧
    ∀ node, node ∈ nodes ↔ node.IsIn root ∧ wanted node

theorem lists_filter_walk {root : Value} {wanted : Node → Prop} {verdict : Node → Bool}
    (told : ∀ node : Node, node.IsIn root → (verdict node = true ↔ wanted node)) :
    Lists root wanted ((walk root).filter verdict) := by
  refine ⟨(walk_ordered root).sublist (List.filter_sublist.map Node.location), fun node => ?_⟩
  rw [List.mem_filter, mem_walk]
  exact and_congr_right (told node)

theorem Lists.nodup {root : Value} {wanted : Node → Prop} {nodes : List Node}
    (listed : Lists root wanted nodes) : nodes.Nodup := by
  refine (List.pairwise_map.mp listed.1).imp fun before same => ?_
  exact before.ne (congrArg Node.location same)

theorem Lists.unique {root : Value} {wanted : Node → Prop} {first second : List Node}
    (isFirst : Lists root wanted first) (isSecond : Lists root wanted second) :
    first = second := by
  have alike : first.Perm second := by
    refine (List.perm_ext_iff_of_nodup isFirst.nodup isSecond.nodup).mpr fun node => ?_
    rw [isFirst.2, isSecond.2]
  refine alike.eq_of_pairwise (fun _ _ _ _ before after => ?_)
    (List.pairwise_map.mp isFirst.1) (List.pairwise_map.mp isSecond.1)
  exact absurd after before.asymm

/-- What a node says of itself: nothing above the root, and elsewhere the place and the key
under which its parent holds its value. -/
inductive Node.Placed (root : Value) (node : Node) : Prop where
  | root : node.location = [] → node.value = root → node.step? = none → node.key? = none →
      node.position = 0 → Placed root node
  | element (above : List Step) (elements : List Value) (position : Nat) :
      root.at? above = some (.array elements) → elements[position]? = some node.value →
      node.location = above ++ [.element position] → node.step? = some (.element position) →
      node.key? = some (.number (.ofNat position)) → node.position = position → Placed root node
  | member (above : List Step) (members : List (String × Value)) (name : String)
      (position : Nat) :
      root.at? above = some (.object members) → members[position]? = some (name, node.value) →
      node.location = above ++ [.member name position] →
      node.step? = some (.member name position) → node.key? = some (.string name) →
      node.position = position → Placed root node

theorem step?_below (above : List Step) (step : Step) (value : Value) :
    (Node.mk (above ++ [step]) value).step? = some step := by
  simp [Node.step?]

theorem placed_of_isIn {root : Value} {node : Node} (found : node.IsIn root) :
    node.Placed root := by
  obtain ⟨location, value⟩ := node
  rw [Node.IsIn] at found
  rcases List.eq_nil_or_concat location with rfl | ⟨above, step, rfl⟩
  · cases found
    exact .root rfl rfl rfl rfl rfl
  · rw [List.concat_eq_append] at found ⊢
    rw [Value.at?_append] at found
    obtain ⟨parent, isParent, below⟩ := Option.bind_eq_some_iff.mp found
    obtain ⟨child, held, same⟩ := Option.bind_eq_some_iff.mp below
    cases same
    have last := step?_below above step value
    cases step with
    | element position =>
        obtain ⟨elements, rfl, kept⟩ := Value.child?_element.mp held
        refine .element above elements position isParent kept rfl last ?_ ?_
        · rw [Node.key?, last, Option.map_some]
        · rw [Node.position, last, Option.map_some, Option.getD_some, Step.position]
    | member name position =>
        obtain ⟨members, rfl, kept⟩ := Value.child?_member.mp held
        refine .member above members name position isParent kept rfl last ?_ ?_
        · rw [Node.key?, last, Option.map_some]
        · rw [Node.position, last, Option.map_some, Option.getD_some, Step.position]

end NodeFilter
