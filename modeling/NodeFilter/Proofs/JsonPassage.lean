import NodeFilter.Json
import NodeFilter.Proofs.Rounding

/-!
The passage between JSON and values. Either way only numbers change. A value comes back with null
for what is not finite and with one zero for the two, and after that nothing changes any more. A
JSON value comes back with the nearest binary number for every integer that has none of its own.
All these passages go through arrays and objects alike, so they are told apart by scalars.
-/

namespace NodeFilter

class Tree (α : Type) where
  array : List α → α
  object : List (String × α) → α
  induction {motive : α → Prop}
    (scalar : ∀ tree, (∀ elements, tree ≠ array elements) → (∀ members, tree ≠ object members) →
      motive tree)
    (array : ∀ elements, (∀ element ∈ elements, motive element) → motive (array elements))
    (object : ∀ members, (∀ member ∈ members, motive member.2) → motive (object members)) :
    ∀ tree, motive tree

/-- A passage goes through arrays and objects to what they hold. -/
structure Descends {α β : Type} [Tree α] [Tree β] (passage : α → β) : Prop where
  array (elements : List α) : passage (Tree.array elements) = Tree.array (elements.map passage)
  object (members : List (String × α)) : passage (Tree.object members) =
    Tree.object (members.map fun member => (member.1, passage member.2))

namespace Descends

variable {α β γ : Type} [Tree α] [Tree β] [Tree γ]

theorem comp {after : β → γ} {before : α → β} (second : Descends after) (first : Descends before) :
    Descends fun tree => after (before tree) where
  array elements := by rw [first.array, second.array, List.map_map]; rfl
  object members := by rw [first.object, second.object, List.map_map]; rfl

/-- Passages that agree on scalars agree on what is made of them. -/
theorem agree {passage other : α → β} (isFirst : Descends passage) (isSecond : Descends other)
    (scalars : ∀ tree, (∀ elements, tree ≠ Tree.array elements) →
      (∀ members, tree ≠ Tree.object members) → passage tree = other tree)
    (tree : α) : passage tree = other tree := by
  induction tree using Tree.induction with
  | scalar tree notArray notObject => exact scalars tree notArray notObject
  | array elements ih => rw [isFirst.array, isSecond.array, List.map_congr_left ih]
  | object members ih =>
      rw [isFirst.object, isSecond.object]
      refine congrArg Tree.object (List.map_congr_left fun member isMember => ?_)
      rw [ih member isMember]

end Descends

instance : Tree Value := ⟨.array, .object, Value.tree_induction⟩

instance : Tree Json := ⟨.array, .object, Json.tree_induction⟩

namespace Value

mutual

def mapNumbers (replace : Binary64 → Value) : Value → Value
  | .null => .null
  | .boolean value => .boolean value
  | .number value => replace value
  | .string text => .string text
  | .array elements => .array (mapElements replace elements)
  | .object members => .object (mapMembers replace members)

def mapElements (replace : Binary64 → Value) : List Value → List Value
  | [] => []
  | element :: rest => mapNumbers replace element :: mapElements replace rest

def mapMembers (replace : Binary64 → Value) : List (String × Value) → List (String × Value)
  | [] => []
  | (name, value) :: rest => (name, mapNumbers replace value) :: mapMembers replace rest

end

/-- What JSON leaves of a number. -/
def settledNumber (x : Binary64) : Value :=
  if x.isFinite then .number x.plainZero else .null

def settled : Value → Value := mapNumbers settledNumber

end Value

namespace Json

mutual

def mapNumbers (integer : Int → Json) (float : Binary64 → Json) : Json → Json
  | .null => .null
  | .boolean value => .boolean value
  | .integer value => integer value
  | .float value => float value
  | .string text => .string text
  | .array elements => .array (mapElements integer float elements)
  | .object members => .object (mapMembers integer float members)

def mapElements (integer : Int → Json) (float : Binary64 → Json) : List Json → List Json
  | [] => []
  | element :: rest => mapNumbers integer float element :: mapElements integer float rest

def mapMembers (integer : Int → Json) (float : Binary64 → Json) :
    List (String × Json) → List (String × Json)
  | [] => []
  | (name, value) :: rest =>
      (name, mapNumbers integer float value) :: mapMembers integer float rest

end

/-- What values leave of an integer. -/
def settledInteger (n : Int) : Json :=
  if n.natAbs ≤ 2 ^ 53 - 1 then .integer n else .ofNumber (.ofInt n)

def settled : Json → Json := mapNumbers settledInteger .ofNumber

end Json

/-! One number. -/
section Number

variable {x : Binary64} {n : Int}

theorem greatestSafeInteger_eq : greatestSafeInteger = 2 ^ 53 - 1 := by decide

theorem Binary64.toInt?_eq_none (infinite : x.isFinite = false) : x.toInt? = none := by
  rw [Binary64.toInt?, infinite, Bool.false_and, if_neg Bool.false_ne_true]

theorem Binary64.isExactly_zero (finite : x.isFinite = true) (zero : x.isZero = true) :
    x.IsExactly 0 := by
  refine ⟨finite, ?_⟩
  rw [Binary64.signedUnits, Binary64.units_eq_zero.mpr (beq_iff_eq.mp zero), Int.zero_mul]
  split <;> rfl

theorem Binary64.plainZero_of_nonzero (nonzero : x.isZero = false) : x.plainZero = x := by
  simp only [Binary64.plainZero, nonzero, Bool.not_false, Bool.and_true]

theorem Json.ofNumber_eq_integer :
    Json.ofNumber x = .integer n ↔ x.IsExactly n ∧ n.natAbs ≤ 2 ^ 53 - 1 := by
  rw [Json.ofNumber, greatestSafeInteger_eq, ← Binary64.toInt?_eq_some]
  rcases x.toInt? with _ | whole
  · refine ⟨fun same => ?_, nofun⟩
    dsimp only at same
    split at same <;> exact nomatch same
  · dsimp only
    split
    case isTrue small =>
      rw [Json.integer.injEq, Option.some.injEq]
      exact ⟨fun same => ⟨same, same ▸ small⟩, And.left⟩
    case isFalse large =>
      rw [Option.some.injEq]
      exact ⟨nofun, fun same => absurd (same.1 ▸ same.2) large⟩

theorem Json.ofNumber_of_infinite (infinite : x.isFinite = false) : Json.ofNumber x = .null := by
  rw [Json.ofNumber, Binary64.toInt?_eq_none infinite, infinite]
  rfl

/-- A finite number that is not a small integer stays as it is. -/
theorem Json.ofNumber_of_finite (finite : x.isFinite = true)
    (large : ∀ n, x.IsExactly n → ¬ n.natAbs ≤ 2 ^ 53 - 1) : Json.ofNumber x = .float x := by
  rw [Json.ofNumber, greatestSafeInteger_eq, finite]
  cases whole : x.toInt? with
  | none => rfl
  | some n => exact if_neg (large n (Binary64.toInt?_eq_some.mp whole))

theorem ofJson_ofNumber (x : Binary64) :
    Value.ofJson (.ofNumber x) = Value.settledNumber x := by
  rw [Value.settledNumber]
  cases finite : x.isFinite with
  | false =>
      rw [Json.ofNumber_of_infinite finite]
      rfl
  | true =>
      by_cases small : ∃ n, x.IsExactly n ∧ n.natAbs ≤ 2 ^ 53 - 1
      · obtain ⟨n, exact, bound⟩ := small
        rw [Json.ofNumber_eq_integer.mpr ⟨exact, bound⟩, Value.ofJson,
          Binary64.ofInt_of_isExactly exact]
        rfl
      · have nonzero : x.isZero = false := Bool.eq_false_iff.mpr fun zero =>
          small ⟨0, Binary64.isExactly_zero finite zero, Nat.zero_le _⟩
        rw [Json.ofNumber_of_finite finite fun n exact bound => small ⟨n, exact, bound⟩,
          Binary64.plainZero_of_nonzero nonzero]
        rfl

theorem toJson_settledNumber (x : Binary64) : (Value.settledNumber x).toJson = .ofNumber x := by
  rw [Value.settledNumber]
  cases finite : x.isFinite with
  | false => exact (Json.ofNumber_of_infinite finite).symm
  | true =>
      cases zero : x.isZero with
      | false => rw [Binary64.plainZero_of_nonzero zero]; rfl
      | true =>
          rw [Json.ofNumber_eq_integer.mpr ⟨Binary64.isExactly_zero finite zero, Nat.zero_le _⟩]
          exact Json.ofNumber_eq_integer.mpr
            ⟨Binary64.isExactly_zero (x := x.plainZero) finite zero, Nat.zero_le _⟩

theorem ofNumber_ofInt (n : Int) : Json.ofNumber (.ofInt n) = Json.settledInteger n := by
  rw [Json.settledInteger]
  split
  case isTrue small =>
    have exact := Binary64.ofInt_exact (Nat.le_trans small (by decide))
    exact Json.ofNumber_eq_integer.mpr ⟨exact, small⟩
  case isFalse => rfl

end Number

/-! All numbers of a tree. -/
section Tree

theorem toJson_descends : Descends Value.toJson where
  array elements := congrArg Json.array (Value.elementsToJson_eq elements)
  object members := congrArg Json.object (Value.membersToJson_eq members)

theorem ofJson_descends : Descends Value.ofJson where
  array elements := congrArg Value.array (Value.elementsOfJson_eq elements)
  object members := congrArg Value.object (Value.membersOfJson_eq members)

theorem valueNumbers_descend (replace : Binary64 → Value) :
    Descends (Value.mapNumbers replace) where
  array elements := congrArg Value.array (eq_map_of_cons rfl (fun _ _ => rfl) elements)
  object members := congrArg Value.object (eq_map_of_cons rfl (fun _ _ => rfl) members)

theorem jsonNumbers_descend (integer : Int → Json) (float : Binary64 → Json) :
    Descends (Json.mapNumbers integer float) where
  array elements := congrArg Json.array (eq_map_of_cons rfl (fun _ _ => rfl) elements)
  object members := congrArg Json.object (eq_map_of_cons rfl (fun _ _ => rfl) members)

theorem ofJson_toJson : ∀ value : Value, Value.ofJson value.toJson = value.settled := by
  refine (ofJson_descends.comp toJson_descends).agree (valueNumbers_descend _) ?_
  intro value notArray notObject
  cases value with
  | array elements => exact absurd rfl (notArray elements)
  | object members => exact absurd rfl (notObject members)
  | number x => exact ofJson_ofNumber x
  | _ => rfl

theorem toJson_settled : ∀ value : Value, value.settled.toJson = value.toJson := by
  refine (toJson_descends.comp (valueNumbers_descend _)).agree toJson_descends ?_
  intro value notArray notObject
  cases value with
  | array elements => exact absurd rfl (notArray elements)
  | object members => exact absurd rfl (notObject members)
  | number x => exact toJson_settledNumber x
  | _ => rfl

theorem toJson_ofJson : ∀ json : Json, (Value.ofJson json).toJson = json.settled := by
  refine (toJson_descends.comp ofJson_descends).agree (jsonNumbers_descend _ _) ?_
  intro json notArray notObject
  cases json with
  | array elements => exact absurd rfl (notArray elements)
  | object members => exact absurd rfl (notObject members)
  | integer n => exact ofNumber_ofInt n
  | _ => rfl

end Tree

/-- Values and JSON each come back from the other with nothing but their numbers changed: what is
not finite is lost, the zeros become one, and every integer too great to be kept becomes the
nearest number, those of 64 bits and far beyond. What comes back once comes back the same ever
after. -/
theorem Json.passage_exact :
    (∀ value : Value, Value.ofJson value.toJson = value.settled ∧
        (Value.ofJson value.toJson).toJson = value.toJson) ∧
      (∀ (x : Binary64) (n : Int), (Value.number x).toJson = .integer n ↔
        x.IsExactly n ∧ n.natAbs ≤ 2 ^ 53 - 1) ∧
      (∀ json : Json, (Value.ofJson json).toJson = json.settled) ∧
      ∀ n : Int, n.natAbs ≤ 2 ^ 1023 → (Binary64.ofInt n).IsNearest n := by
  refine ⟨fun value => ?_, fun x n => Json.ofNumber_eq_integer, toJson_ofJson,
    fun n small => Binary64.ofInt_nearest small⟩
  rw [ofJson_toJson]
  exact ⟨rfl, toJson_settled value⟩

theorem Json.passage_exact_at_edges :
    Value.ofJson (Value.array [.number ⟨true, 0, by decide⟩, .object
        [("b", .number ⟨true, Binary64.binade, by decide⟩),
          ("a", .number ⟨true, Binary64.infinityRank, by decide⟩)]]).toJson =
      .array [.number ⟨false, 0, by decide⟩, .object
        [("b", .number ⟨true, Binary64.binade, by decide⟩), ("a", .null)]] ∧
      (Value.number (.ofInt 9007199254740991)).toJson = .integer 9007199254740991 ∧
      (Value.number (.ofInt 9007199254740992)).toJson ≠ .integer 9007199254740992 ∧
      (Value.ofJson (.object [("n", .array [.integer 9007199254740993])])).toJson =
        .object [("n", .array [.ofNumber (.ofInt 9007199254740993)])] ∧
      (9007199254740993 : Int).natAbs ≤ 2 ^ 1023 ∧
      (Binary64.ofInt 9007199254740993).IsNearest 9007199254740993 := by
  obtain ⟨back, whole, again, nearest⟩ := Json.passage_exact
  have small : (9007199254740993 : Int).natAbs ≤ 2 ^ 1023 := by decide +kernel
  refine ⟨(back _).1, (whole _ _).mpr ⟨Binary64.ofInt_exact (by decide), by decide⟩,
    fun kept => absurd ((whole _ _).mp kept).2 (by decide), (again _).trans ?_,
    small, nearest _ small⟩
  rw [Json.settled, Json.mapNumbers, Json.mapMembers, Json.mapMembers, Json.mapNumbers,
    Json.mapElements, Json.mapElements, Json.mapNumbers, Json.settledInteger,
    if_neg (by decide)]

end NodeFilter
