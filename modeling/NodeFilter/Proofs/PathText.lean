import Mathlib.Data.List.Nodup
import NodeFilter.Document
import NodeFilter.Proofs.Lexemes
import NodeFilter.Proofs.Names

/-!
Paths are read back. A reader that knows nothing of the document takes a path apart into
names and positions. Followed from the root they lead to the location that the path was
written for, so no two nodes of a document share a path.
-/

namespace NodeFilter

open Text (Ends)

namespace Path

inductive Key where
  | name (text : String)
  | position (index : Nat)
  deriving DecidableEq

/-- A name up to its closing quote and bracket, and what follows them. A backslash stands
before a character that is part of the name. -/
def readQuoted : List Char → Option (List Char × List Char)
  | '\'' :: ']' :: rest => some ([], rest)
  | '\\' :: c :: rest => (readQuoted rest).map fun (name, after) => (c :: name, after)
  | c :: rest =>
      if c = '\'' ∨ c = '\\' then none
      else (readQuoted rest).map fun (name, after) => (c :: name, after)
  | [] => none

/-- One part of a path: a point and a word, a quoted name in brackets, or digits in brackets. -/
def readKey : List Char → Option (Key × List Char)
  | '.' :: rest =>
      let word := rest.takeWhile Text.isWordChar
      if isPlainName word then some (.name (String.ofList word), rest.dropWhile Text.isWordChar)
      else none
  | '[' :: '\'' :: rest =>
      (readQuoted rest).map fun (name, after) => (.name (String.ofList name), after)
  | '[' :: rest =>
      let digits := rest.takeWhile Char.isDigit
      match rest.dropWhile Char.isDigit with
      | ']' :: after =>
          if digits.isEmpty then none else some (.position (Nat.ofDigitChars 10 digits 0), after)
      | _ => none
  | _ => none

end Path

def Step.key : Step → Path.Key
  | .member name _ => .name name
  | .element position => .position position

namespace Path

theorem readQuoted_shorter {text name after : List Char}
    (found : readQuoted text = some (name, after)) : after.length < text.length := by
  fun_induction readQuoted text generalizing name after with
  | case1 rest =>
      cases found
      simp only [List.length_cons]
      omega
  | case2 c rest ih =>
      obtain ⟨⟨tail, last⟩, inner, same⟩ := Option.map_eq_some_iff.mp found
      cases same
      have shorter := ih inner
      simp only [List.length_cons]
      omega
  | case3 => cases found
  | case4 c rest _ _ _ ih =>
      obtain ⟨⟨tail, last⟩, inner, same⟩ := Option.map_eq_some_iff.mp found
      cases same
      have shorter := ih inner
      simp only [List.length_cons]
      omega
  | case5 => cases found

theorem readKey_shorter {text after : List Char} {key : Key}
    (found : readKey text = some (key, after)) : after.length < text.length := by
  unfold readKey at found
  split at found
  · rename_i rest
    dsimp only at found
    split at found
    · cases found
      exact Nat.lt_succ_of_le (List.dropWhile_suffix _).length_le
    · cases found
  · rename_i rest
    obtain ⟨⟨name, last⟩, inner, same⟩ := Option.map_eq_some_iff.mp found
    cases same
    have shorter := readQuoted_shorter inner
    simp only [List.length_cons]
    omega
  · rename_i rest _
    have bound := (List.dropWhile_suffix (l := rest) Char.isDigit).length_le
    dsimp only at found
    split at found
    · rename_i last closing
      rw [closing, List.length_cons] at bound
      split at found
      · cases found
      · cases found
        simp only [List.length_cons]
        omega
    · cases found
  · cases found

def readKeys (text : List Char) : Option (List Key) :=
  match text with
  | [] => some []
  | c :: rest =>
      match _found : readKey (c :: rest) with
      | none => none
      | some (key, after) => (readKeys after).map (key :: ·)
termination_by text.length
decreasing_by exact readKey_shorter _found

def read (path : String) : Option (List Key) :=
  match path.toList with
  | '$' :: rest => readKeys rest
  | _ => none

theorem readQuoted_cons {c : Char} (plain : c ≠ '\'' ∧ c ≠ '\\') (rest : List Char) :
    readQuoted (c :: rest) = (readQuoted rest).map fun (name, after) => (c :: name, after) := by
  rw [readQuoted]
  · exact if_neg (by simp [plain])
  · intro after opens
    exact absurd opens plain.1
  · intro d after opens
    exact absurd opens plain.2

/-- A quoted name is read back, and nothing after its bracket is looked at. -/
theorem readQuoted_escaped (name rest : List Char) :
    readQuoted (name.flatMap escapeName ++ '\'' :: ']' :: rest) = some (name, rest) := by
  induction name with
  | nil => rfl
  | cons c name ih =>
      rw [List.flatMap_cons, List.append_assoc]
      by_cases special : c = '\\' ∨ c = '\''
      · rw [escapeName, if_pos special]
        simp only [List.cons_append, List.nil_append, readQuoted, ih, Option.map_some]
      · rw [escapeName, if_neg special, List.singleton_append]
        rw [readQuoted_cons (by grind), ih]
        rfl

/-! One part of a path is read back where no word goes on after it. -/
section Segment

variable {rest : List Char}

theorem wordChar_of_plainName {name : List Char} (plain : isPlainName name = true) :
    ∀ c ∈ name, Text.isWordChar c = true := by
  cases name with
  | nil => cases plain
  | cons first tail =>
      obtain ⟨start, others⟩ := Bool.and_eq_true_iff.mp plain
      have front := ((Lexeme.isNameStart_iff first).mp start).1
      exact List.forall_mem_cons.mpr ⟨front, List.all_eq_true.mp others⟩

theorem readKey_word {name : List Char} (plain : isPlainName name = true)
    (ends : Ends Text.isWordChar rest) :
    readKey ('.' :: (name ++ rest)) = some (.name (String.ofList name), rest) := by
  have inside := wordChar_of_plainName plain
  simp only [readKey, Text.takeWhile_run inside ends, Text.dropWhile_run inside ends, plain,
    if_true]

theorem readKey_quoted (name : List Char) :
    readKey ('[' :: '\'' :: (name.flatMap escapeName ++ '\'' :: ']' :: rest)) =
      some (.name (String.ofList name), rest) := by
  rw [readKey, readQuoted_escaped]
  rfl

theorem readKey_position (position : Nat) :
    readKey ('[' :: (Nat.toDigits 10 position ++ ']' :: rest)) =
      some (.position position, rest) := by
  have digits : ∀ c ∈ Nat.toDigits 10 position, c.isDigit = true := fun c member =>
    Nat.isDigit_of_mem_toDigits (by omega) (Nat.le_refl 10) member
  have ends : Ends Char.isDigit (']' :: rest) := Text.ends_cons rfl
  have filled : (Nat.toDigits 10 position).isEmpty = false := by simp
  rw [readKey]
  · simp only [Text.takeWhile_run digits ends, Text.dropWhile_run digits ends, filled,
      Nat.ofDigitChars_ten_toDigits]
    rfl
  · -- A quote is not a digit, so no quoted name is read here.
    intro after quoted
    obtain ⟨first, tail, spelled⟩ := List.exists_cons_of_ne_nil (@Nat.toDigits_ne_nil position 10)
    rw [spelled] at quoted digits
    cases quoted
    exact absurd (digits _ List.mem_cons_self) (by decide)

theorem readKey_segment (step : Step) (ends : Ends Text.isWordChar rest) :
    readKey (step.segment ++ rest) = some (step.key, rest) := by
  cases step with
  | member name position =>
      rw [Step.segment, Step.key]
      split
      · rename_i plain
        rw [List.cons_append, readKey_word plain ends, String.ofList_toList]
      · have quoted := @readKey_quoted rest name.toList
        rw [String.ofList_toList] at quoted
        simpa only [List.append_assoc, List.cons_append, List.nil_append] using quoted
  | element position =>
      rw [Step.segment, Step.key, List.cons_append, List.append_assoc]
      exact readKey_position position

end Segment

theorem segments_end (location : List Step) :
    Ends Text.isWordChar (location.flatMap Step.segment) := by
  cases location with
  | nil => exact Text.ends_nil
  | cons step rest =>
      rw [List.flatMap_cons]
      cases step with
      | member name position =>
          rw [Step.segment]
          split <;> exact Text.ends_cons (by decide)
      | element position => exact Text.ends_cons (by decide)

theorem readKeys_cons {text after : List Char} {key : Key}
    (found : readKey text = some (key, after)) :
    readKeys text = (readKeys after).map (key :: ·) := by
  cases text with
  | nil => cases found
  | cons c rest =>
      rw [readKeys]
      split
      · rename_i missing
        rw [found] at missing
        cases missing
      · rename_i _ _ other
        rw [found] at other
        cases other
        rfl

theorem readKeys_segments (location : List Step) :
    readKeys (location.flatMap Step.segment) = some (location.map Step.key) := by
  induction location with
  | nil => rw [List.flatMap_nil, readKeys, List.map_nil]
  | cons step rest ih =>
      rw [List.flatMap_cons, readKeys_cons (readKey_segment step (segments_end rest)), ih]
      rfl

end Path

theorem Node.read_path (node : Node) : Path.read node.path = some (node.location.map Step.key) := by
  rw [Node.path, Path.read, String.toList_ofList]
  exact Path.readKeys_segments node.location

namespace Value

def choose? (value : Value) (key : Path.Key) : Option (Step × Value) :=
  value.children.find? fun child => child.1.key = key

def locate : Value → List Path.Key → Option (List Step)
  | _, [] => some []
  | value, key :: rest =>
      (value.choose? key).bind fun (step, child) => (child.locate rest).map (step :: ·)

theorem children_keys_nodup {value : Value} (distinct : value.Distinct) :
    (value.children.map (·.1.key)).Nodup := by
  cases value with
  | array elements =>
      have places : (elements.zipIdx.map Prod.snd).Nodup := by
        rw [List.zipIdx_map_snd]
        exact List.nodup_range'
      have keys := places.map (fun _ _ => Path.Key.position.inj)
      rw [List.map_map] at keys
      rw [children, List.map_map]
      exact keys
  | object members =>
      have names := (distinct_members distinct).1
      rw [← List.zipIdx_map_fst 0 members] at names
      have keys := names.map (fun _ _ => Path.Key.name.inj)
      rw [List.map_map, List.map_map] at keys
      rw [children, List.map_map]
      exact keys
  | _ => exact List.nodup_nil

/-- No two children go by one key, so a key tells all there is to a step. -/
theorem choose?_key {value child : Value} {step : Step} (distinct : value.Distinct)
    (held : value.child? step = some child) : value.choose? step.key = some (step, child) := by
  have listed := mem_children.mpr held
  have chosen : (value.choose? step.key).isSome :=
    List.find?_isSome.mpr ⟨(step, child), listed, decide_eq_true rfl⟩
  obtain ⟨other, found⟩ := Option.isSome_iff_exists.mp chosen
  unfold choose? at found ⊢
  have sameKey : other.1.key = step.key := by simpa using List.find?_some found
  have same := List.inj_on_of_nodup_map (children_keys_nodup distinct)
    (List.mem_of_find?_eq_some found) listed sameKey
  rw [found, same]

theorem locate_keys {root value : Value} {location : List Step} (distinct : root.Distinct)
    (found : root.at? location = some value) :
    root.locate (location.map Step.key) = some location := by
  induction location generalizing root with
  | nil => rfl
  | cons step rest ih =>
      obtain ⟨child, held, below⟩ := Option.bind_eq_some_iff.mp found
      rw [List.map_cons, locate, choose?_key distinct held]
      have onward := ih (distinct_child distinct held) below
      simp only [Option.bind_some, onward, Option.map_some]

end Value

section Walk

variable {root : Value}

theorem path_located {node : Node} (distinct : root.Distinct) (isIn : node.IsIn root) :
    ∃ keys, Path.read node.path = some keys ∧ root.locate keys = some node.location :=
  ⟨_, node.read_path, Value.locate_keys distinct isIn⟩

theorem walk_paths_nodup (distinct : root.Distinct) : ((walk root).map Node.path).Nodup := by
  have apart := List.pairwise_map.mp (walk_locations_nodup root)
  refine List.pairwise_map.mpr (apart.imp_of_mem ?_)
  intro first second inFirst inSecond different samePath
  obtain ⟨keys, read, led⟩ := path_located distinct (mem_walk.mp inFirst)
  obtain ⟨otherKeys, otherRead, otherLed⟩ := path_located distinct (mem_walk.mp inSecond)
  rw [samePath, otherRead] at read
  cases read
  rw [led] at otherLed
  exact different (Option.some.inj otherLed)

end Walk

/-- The walk lists each location of a document once and in pre-order, every node with what its
location holds, and each path leads back to the one location it was written for. -/
theorem walk_exact (root : Value) :
    (∀ location value, ⟨location, value⟩ ∈ walk root ↔ root.at? location = some value) ∧
    ((walk root).map Node.location).Nodup ∧
    ((walk root).map Node.location).Pairwise Precedes ∧
    (∀ node ∈ walk root, node.Placed root ∧
      ∃ name, node.value.TypeNamed name ∧ node.typeName = .string name) ∧
    (root.Distinct →
      (∀ node ∈ walk root,
        ∃ keys, Path.read node.path = some keys ∧ root.locate keys = some node.location) ∧
      ((walk root).map Node.path).Nodup) := by
  refine ⟨fun _ _ => mem_walk, walk_locations_nodup root, walk_ordered root, ?_, ?_⟩
  · intro node listed
    exact ⟨placed_of_isIn (mem_walk.mp listed), _, Value.typeNamed_iff.mpr rfl, rfl⟩
  · intro distinct
    refine ⟨fun node listed => ?_, walk_paths_nodup distinct⟩
    exact path_located distinct (mem_walk.mp listed)

/-- Names that look like parts of a path. -/
theorem walk_exact_misleading_names :
    let root := Value.ofMembers
      [("x", .ofMembers [("y", .null)]), ("x.y", .boolean true), ("", .string "x"),
        ("\\", .number (.ofNat 0)), ("a']['b", .null), ("0", .array [.null])]
    root.Distinct ∧
      (∀ node ∈ walk root,
        ∃ keys, Path.read node.path = some keys ∧ root.locate keys = some node.location) ∧
      ((walk root).map Node.path).Nodup ∧
      (walk root).map Node.path =
        ["$", "$.x", "$.x.y", "$['x.y']", "$['']", "$['\\\\']", "$['a\\'][\\'b']", "$['0']",
          "$['0'][0]"] ∧
      (walk root).map Node.typeName =
        [.string "object", .string "object", .string "null", .string "boolean", .string "string",
          .string "number", .string "null", .string "array", .string "null"] := by
  intro root
  have inner : (Value.ofMembers [("y", .null)]).Distinct :=
    Value.distinct_ofMembers (List.forall_mem_singleton.mpr (.scalar rfl))
  have list : (Value.array [.null]).Distinct :=
    .array (List.forall_mem_singleton.mpr (.scalar rfl))
  have distinct : root.Distinct := by
    apply Value.distinct_ofMembers
    simp only [List.forall_mem_cons]
    exact ⟨inner, .scalar rfl, .scalar rfl, .scalar rfl, .scalar rfl, list, nofun⟩
  obtain ⟨located, apart⟩ := (walk_exact root).2.2.2.2 distinct
  exact ⟨distinct, located, apart, rfl, rfl⟩

end NodeFilter
