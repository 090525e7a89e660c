import NodeFilter.Check
import NodeFilter.Proofs.PathText
import NodeFilter.Proofs.Selection
import NodeFilter.Proofs.SourceText

/-!
A check, seen as a whole. What ends it first decides its result: the filter, the wish for
its syntax alone, the lack of a document, the document's text, the first fault of the
search. Otherwise it reports the matching nodes, each with its path and with what the path
reaches in the document.
-/

namespace NodeFilter

namespace Json

def child? : Json → Path.Key → Option Json
  | .array elements, .position index => elements[index]?
  | .object members, .name text => findMember? text members
  | _, _ => none

def reach? : Json → List Path.Key → Option Json
  | document, [] => some document
  | document, key :: rest => (document.child? key).bind fun child => child.reach? rest

end Json

namespace Value

theorem child?_toJson {value child : Value} {step : Step} (distinct : value.Distinct)
    (held : value.child? step = some child) :
    value.toJson.child? step.key = some child.toJson := by
  cases step with
  | element position =>
      obtain ⟨elements, rfl, kept⟩ := child?_element.mp held
      rw [toJson, elementsToJson_eq, Step.key, Json.child?, List.getElem?_map, kept]
      rfl
  | member name position =>
      obtain ⟨members, rfl, kept⟩ := child?_member.mp held
      rw [toJson, membersToJson_eq, Step.key, Json.child?]
      apply findMember?_of_mem
      · rw [List.map_map]
        exact (distinct_members distinct).1
      · exact List.mem_map_of_mem (List.mem_of_getElem? kept)

theorem reach?_toJson {root value : Value} {location : List Step} (distinct : root.Distinct)
    (found : root.at? location = some value) :
    root.toJson.reach? (location.map Step.key) = some value.toJson := by
  induction location generalizing root with
  | nil =>
      cases found
      rfl
  | cons step rest ih =>
      obtain ⟨child, held, below⟩ := Option.bind_eq_some_iff.mp found
      rw [List.map_cons, Json.reach?, child?_toJson distinct held, Option.bind_some]
      exact ih (distinct_child distinct held) below

end Value

def Match.IsAt (document : Json) (found : Match) : Prop :=
  ∃ keys, Path.read found.path = some keys ∧ document.reach? keys = some found.value

theorem Match.ofNode_isAt {root : Value} {node : Node} (distinct : root.Distinct)
    (isIn : node.IsIn root) : (Match.ofNode node).IsAt root.toJson :=
  ⟨_, node.read_path, Value.reach?_toJson distinct isIn⟩

/-- One path reaches one value. -/
theorem Match.eq_of_path {document : Json} {first second : Match} (isFirst : first.IsAt document)
    (isSecond : second.IsAt document) (samePath : first.path = second.path) : first = second := by
  obtain ⟨keys, read, reached⟩ := isFirst
  obtain ⟨others, otherRead, otherReached⟩ := isSecond
  rw [samePath, otherRead] at read
  cases read
  rw [otherReached] at reached
  cases first
  cases second
  cases samePath
  cases reached
  rfl

theorem Match.eq_of_paths {document : Json} {first second : List Match}
    (isFirst : ∀ each ∈ first, each.IsAt document) (isSecond : ∀ each ∈ second, each.IsAt document)
    (samePaths : first.map Match.path = second.map Match.path) : first = second := by
  induction first generalizing second with
  | nil => exact (List.map_eq_nil_iff.mp samePaths.symm).symm
  | cons found rest ih =>
      cases second with
      | nil => cases samePaths
      | cons other others =>
          obtain ⟨samePath, sameRest⟩ := List.cons.inj samePaths
          obtain ⟨foundAt, restAt⟩ := List.forall_mem_cons.mp isFirst
          obtain ⟨otherAt, othersAt⟩ := List.forall_mem_cons.mp isSecond
          rw [Match.eq_of_path foundAt otherAt samePath, ih restAt othersAt sameRest]

theorem Json.read_nested : read "[[null]]" = .ok (.array [.array [.null]]) := by
  let inside : Place := ⟨1, "[null]]".toList⟩
  have elements : readElements 126 [] (⟨⟨2, "null]]".toList⟩, by decide⟩ : Within inside) =
      .ok (.array [.null], ⟨⟨7, "]".toList⟩, by decide⟩) := by
    rw [readElements, readValue]
    rfl
  have element : readValue 127 inside = .ok (.array [.null], ⟨⟨7, "]".toList⟩, by decide⟩) := by
    rw [readValue]
    exact elements
  have outer : readElements 127 [] (⟨inside, by decide⟩ : Within ⟨0, "[[null]]".toList⟩) =
      .ok (.array [.array [.null]], ⟨⟨8, []⟩, by decide⟩) := by
    rw [readElements, element]
    rfl
  have whole : readValue nestingLimit (Place.mk 0 "[[null]]".toList).skipBlanks =
      .ok (.array [.array [.null]], ⟨⟨8, []⟩, by decide⟩) := by
    rw [readValue]
    exact outer
  rw [read, readText, whole]
  rfl

namespace Check

/-- What a search reports that no fault ends: the paths of the nodes on which the filter is true,
in pre-order and none twice, each with the value it reaches. -/
structure Reports (expr : Expr) (root : Value) (found : List Match) : Prop where
  passes : ∀ node : Node, node.IsIn root → node.fatal? (some Value.contains) expr = none
  paths : ∃ nodes, Lists root (·.answer (some Value.contains) expr = .ok true) nodes ∧
    found.map Match.path = nodes.map Node.path
  once : (found.map Match.path).Nodup
  values : ∀ each ∈ found, each.IsAt root.toJson

inductive Ends (check : Check) : Except CommandError CheckResult → Prop where
  | badFilter {fault : SourceError} :
      parse check.filter = .error fault → Ends check (.error (.filter fault))
  | syntaxValid {expr : Expr} :
      parse check.filter = .ok expr → check.syntaxOnly = true → Ends check (.ok .syntaxValid)
  | noInput {expr : Expr} :
      parse check.filter = .ok expr → check.syntaxOnly = false → check.input = none →
      Ends check (.error .noInput)
  | badInput {expr : Expr} {text : String} {fault : Json.ReadError} :
      parse check.filter = .ok expr → check.syntaxOnly = false → check.input = some text →
      Json.read text = .error fault → Ends check (.error (.json fault))
  | fault {expr : Expr} {text : String} {document : Json} {node : Node} {fault : EvalError} :
      parse check.filter = .ok expr → check.syntaxOnly = false → check.input = some text →
      Json.read text = .ok document → node.IsIn (Value.ofJson document) →
      node.fatal? (some Value.contains) expr = some fault →
      (∀ earlier : Node, earlier.IsIn (Value.ofJson document) →
        Precedes earlier.location node.location →
        earlier.fatal? (some Value.contains) expr = none) →
      Ends check (.error (.evaluation fault))
  | found {expr : Expr} {text : String} {document : Json} {found : List Match} :
      parse check.filter = .ok expr → check.syntaxOnly = false → check.input = some text →
      Json.read text = .ok document → Reports expr (Value.ofJson document) found →
      Ends check (.ok (.found found))

theorem reports_ofNodes {expr : Expr} {root : Value} {nodes : List Node}
    (distinct : root.Distinct) (selected : selectNodes (some Value.contains) expr root = .ok nodes) :
    Reports expr root (nodes.map Match.ofNode) := by
  have listed := lists_of_selected selected
  have paths : (nodes.map Match.ofNode).map Match.path = nodes.map Node.path := List.map_map
  refine ⟨(selectNodes_eq_ok.mp selected).1, ⟨nodes, listed, paths⟩, ?_, ?_⟩
  · obtain ⟨-, rfl⟩ := selectNodes_eq_ok.mp selected
    rw [paths]
    exact (walk_paths_nodup distinct).sublist (List.filter_sublist.map Node.path)
  · intro each reported
    obtain ⟨node, chosen, rfl⟩ := List.mem_map.mp reported
    exact Match.ofNode_isAt distinct ((listed.2 node).mp chosen).1

theorem reports_unique {expr : Expr} {root : Value} {first second : List Match}
    (isFirst : Reports expr root first) (isSecond : Reports expr root second) :
    first = second := by
  obtain ⟨nodes, listed, paths⟩ := isFirst.paths
  obtain ⟨others, othersListed, otherPaths⟩ := isSecond.paths
  rw [listed.unique othersListed] at paths
  exact Match.eq_of_paths isFirst.values isSecond.values (paths.trans otherPaths.symm)

theorem exists_ends (check : Check) : ∃ result, check.Ends result := by
  cases parsed : parse check.filter with
  | error fault => exact ⟨_, .badFilter parsed⟩
  | ok expr =>
      by_cases alone : check.syntaxOnly = true
      · exact ⟨_, .syntaxValid parsed alone⟩
      have whole := eq_false_of_ne_true alone
      cases given : check.input with
      | none => exact ⟨_, .noInput parsed whole given⟩
      | some text =>
          cases read : Json.read text with
          | error fault => exact ⟨_, .badInput parsed whole given read⟩
          | ok document =>
              cases selected :
                  selectNodes (some Value.contains) expr (Value.ofJson document) with
              | error fault =>
                  obtain ⟨node, isIn, fatal, passes⟩ := selectNodes_eq_error.mp selected
                  exact ⟨_, .fault parsed whole given read isIn fatal passes⟩
              | ok nodes =>
                  have reports := reports_ofNodes (Json.read_distinct read) selected
                  exact ⟨_, .found parsed whole given read reports⟩

-- Each way to end is the way of the run, so a check ends in one way.
theorem ends_run {check : Check} {result : Except CommandError CheckResult}
    (ends : check.Ends result) : check.run = result := by
  cases ends with
  | badFilter parsed => simp only [run, parsed]
  | syntaxValid parsed alone => simp only [run, parsed, alone, if_true]
  | noInput parsed whole given => simp [run, parsed, whole, given]
  | badInput parsed whole given read => simp [run, parsed, whole, given, read]
  | fault parsed whole given read isIn fatal passes =>
      have selected := selectNodes_eq_error.mpr ⟨_, isIn, fatal, passes⟩
      simp [run, parsed, whole, given, read, searchDocument, selected]
  | found parsed whole given read reports =>
      have selected := selectNodes_eq_ok.mpr ⟨reports.passes, rfl⟩
      have written := reports_ofNodes (Json.read_distinct read) selected
      rw [reports_unique reports written]
      simp [run, parsed, whole, given, read, searchDocument, selected]

theorem run_exact (check : Check) (result : Except CommandError CheckResult) :
    check.run = result ↔ check.Ends result := by
  constructor
  · rintro rfl
    obtain ⟨result, ends⟩ := check.exists_ends
    rwa [ends_run ends]
  · exact ends_run

/-- The root has no key, so it is left out and ends no search. Inside `$key` no node has a type,
but the arrays are found before this is asked. -/
theorem run_exact_late_fault :
    let text := "[[null]]"
    let found : List Match := [⟨"$[0]", .array [.null]⟩, ⟨"$[0][0]", .null⟩]
    let keyed : Check := ⟨"!$key: a", some text, false⟩
    let faulty : Check := ⟨"($type: array) | $key: a | $type: b", some text, false⟩
    keyed.Ends (.ok (.found found)) ∧ keyed.run = .ok (.found found) ∧
      ¬ keyed.Ends (.ok (.found [])) ∧
      faulty.Ends (.error (.evaluation (.missingAccessor .type))) ∧
      faulty.run = .error (.evaluation (.missingAccessor .type)) ∧
      ¬ faulty.Ends (.ok (.found found)) := by
  intro text found keyed faulty
  let byKey := Expr.not (.facet .key (.value (.string "a")))
  let late := Expr.or (.facet .type (.value (.string "array")))
    (.facet .key (.or (.value (.string "a")) (.facet .type (.value (.string "b")))))
  let root := Value.array [.array [.null]]
  have keyLexed : lex "!$key: a" = .ok byKey.spell := lex_of_calls 5 (by decide)
  have lateLexed : lex "($type: array) | $key: a | $type: b" = .ok late.spell :=
    lex_of_calls 14 (by decide)
  have keyParsed : parse keyed.filter = .ok byKey := parse_of_lexed rfl (by decide) keyLexed
  have lateParsed : parse faulty.filter = .ok late := parse_of_lexed rfl (by decide) lateLexed
  have selected : selectNodes (some Value.contains) byKey root =
      .ok [⟨[.element 0], .array [.null]⟩, ⟨[.element 0, .element 0], .null⟩] := rfl
  have failed : selectNodes (some Value.contains) late root = .error (.missingAccessor .type) := rfl
  have reports := reports_ofNodes (Json.read_distinct Json.read_nested) selected
  have finds : keyed.Ends (.ok (.found found)) :=
    .found keyParsed rfl rfl Json.read_nested reports
  obtain ⟨node, isIn, fatal, passes⟩ := selectNodes_eq_error.mp failed
  have fails : faulty.Ends (.error (.evaluation (.missingAccessor .type))) :=
    .fault lateParsed rfl rfl Json.read_nested isIn fatal passes
  have ran := (run_exact keyed _).mpr finds
  have ranLate := (run_exact faulty _).mpr fails
  refine ⟨finds, ran, fun none => ?_, fails, ranLate, fun others => ?_⟩
  · have same := Except.ok.inj (ran.symm.trans ((run_exact keyed _).mpr none))
    exact List.cons_ne_nil _ _ (CheckResult.found.inj same)
  · exact nomatch ranLate.symm.trans ((run_exact faulty _).mpr others)

end Check

end NodeFilter
