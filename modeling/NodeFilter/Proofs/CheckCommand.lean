import NodeFilter.Command.Execution
import NodeFilter.Proofs.JsonLayout

/-!
The check as a command. Its document may be given or piped in, and makes no difference then. A fault
of what is piped in comes before any other, and a check that fails prints nothing but its message.
The wish for a report that is spread out changes no more than the blanks between strings.
-/

namespace NodeFilter

def checkExit (filter : String) (given : Option String) (pretty syntaxOnly : Bool)
    (piped : Option ByteArray) : Exit :=
  Invocation.run ⟨.check filter given pretty syntaxOnly, 0⟩ piped

def checkOutcome (filter : String) (given : Option String) (syntaxOnly : Bool)
    (piped : Option ByteArray) : Except CommandError CheckResult :=
  (Command.checkInput given syntaxOnly piped).bind fun input =>
    (Check.mk filter input syntaxOnly).run

theorem checkExit_eq (filter : String) (given : Option String) (pretty syntaxOnly : Bool)
    (piped : Option ByteArray) :
    checkExit filter given pretty syntaxOnly piped =
      match checkOutcome filter given syntaxOnly piped with
      | .ok result => ⟨0, Command.showResult pretty result, ""⟩
      | .error fault => ⟨1, "", fault.message ++ "\n"⟩ := by
  simp only [checkExit, checkOutcome, Invocation.run, Invocation.notes, Command.output]
  cases Command.checkInput given syntaxOnly piped with
  | error fault => simp [Except.bind]
  | ok input =>
      dsimp only [Except.bind]
      cases (Check.mk filter input syntaxOnly).run <;> simp [Except.map]

section Input

theorem fromUTF8?_toUTF8 (text : String) : String.fromUTF8? text.toUTF8 = some text := by
  rw [String.fromUTF8?, String.toUTF8_eq_toByteArray, dif_pos text.isValidUTF8]
  rfl

theorem fromUTF8?_eq_none {bytes : ByteArray} (foreign : ¬∃ text : String, text.toUTF8 = bytes) :
    String.fromUTF8? bytes = none := by
  rw [String.fromUTF8?, dif_neg]
  exact fun valid => foreign ⟨.fromUTF8 bytes valid, rfl⟩

variable (filter : String)

theorem checkOutcome_syntaxOnly (given : Option String) (piped : Option ByteArray) :
    checkOutcome filter given true piped =
      match parse filter with
      | .ok _ => .ok .syntaxValid
      | .error fault => .error (.filter fault) := by
  have input : Command.checkInput given true piped = .ok given := by cases given <;> rfl
  simp only [checkOutcome, input, Except.bind, Check.run, if_true]
  cases parse filter <;> rfl

theorem checkOutcome_piped (text : String) (syntaxOnly : Bool) (piped : Option ByteArray) :
    checkOutcome filter (some text) syntaxOnly piped =
      checkOutcome filter none syntaxOnly (some text.toUTF8) := by
  cases syntaxOnly with
  | true => rw [checkOutcome_syntaxOnly, checkOutcome_syntaxOnly]
  | false => simp only [checkOutcome, Command.checkInput, fromUTF8?_toUTF8]

theorem checkOutcome_foreign {bytes : ByteArray}
    (foreign : ¬∃ text : String, text.toUTF8 = bytes) :
    checkOutcome filter none false (some bytes) = .error .invalidUtf8 := by
  simp only [checkOutcome, Command.checkInput, fromUTF8?_eq_none foreign, Except.bind]

end Input

/-- The texts differ in no more than blanks and line breaks outside the strings of JSON. -/
def Alike (text other : String) : Prop :=
  Json.unspaced .outside text.toList = Json.unspaced .outside other.toList

theorem alike_layouts (json : Json) : Alike (json.pretty ++ "\n") (json.compact ++ "\n") := by
  have line (spread : Bool) :
      Json.unspaced .outside (json.write spread 0 [] ++ ['\n']) = json.write false 0 [] := by
    rw [← Json.write_append, Json.unspaced_write]
    rfl
  simp only [Alike, Json.pretty, Json.compact, String.toList_append, String.toList_ofList]
  exact (line true).trans (line false).symm

theorem alike_showResult (result : CheckResult) :
    Alike (Command.showResult true result) (Command.showResult false result) := by
  cases result with
  | syntaxValid => rfl
  | found nodes => exact alike_layouts _

/-- How the document comes in and how the report is laid out are no part of a check. A document that
is piped in is as good as one that is given, for its syntax alone a filter needs none, and bytes
that are no text end the check before its filter is looked at. A check that fails prints nothing,
one that does not fail says nothing, and its report may be spread out or not. -/
theorem check_uniform (filter : String) :
    (∀ text pretty syntaxOnly piped,
      checkExit filter (some text) pretty syntaxOnly piped =
        checkExit filter none pretty syntaxOnly (some text.toUTF8)) ∧
    (∀ given pretty piped,
      checkExit filter given pretty true piped =
        match parse filter with
        | .ok _ => ⟨0, "Syntax is valid\n", ""⟩
        | .error fault => ⟨1, "", (CommandError.filter fault).message ++ "\n"⟩) ∧
    (∀ bytes pretty, (¬∃ text : String, text.toUTF8 = bytes) →
      checkExit filter none pretty false (some bytes) =
        ⟨1, "", "IO error: stream did not contain valid UTF-8\n"⟩) ∧
    ∀ given syntaxOnly piped,
      (∃ fault, checkOutcome filter given syntaxOnly piped = .error fault ∧
        ∀ pretty, checkExit filter given pretty syntaxOnly piped =
          ⟨1, "", fault.message ++ "\n"⟩) ∨
      ∃ result, checkOutcome filter given syntaxOnly piped = .ok result ∧
        (∀ pretty, checkExit filter given pretty syntaxOnly piped =
          ⟨0, Command.showResult pretty result, ""⟩) ∧
        Alike (Command.showResult true result) (Command.showResult false result) := by
  refine ⟨?_, ?_, ?_, ?_⟩
  · intro text pretty syntaxOnly piped
    rw [checkExit_eq, checkExit_eq, checkOutcome_piped]
  · intro given pretty piped
    rw [checkExit_eq, checkOutcome_syntaxOnly]
    cases parse filter <;> rfl
  · intro bytes pretty foreign
    rw [checkExit_eq, checkOutcome_foreign filter foreign]
    rfl
  · intro given syntaxOnly piped
    cases outcome : checkOutcome filter given syntaxOnly piped with
    | error fault => exact Or.inl ⟨fault, rfl, fun pretty => by rw [checkExit_eq, outcome]⟩
    | ok result =>
        exact Or.inr ⟨result, rfl, fun pretty => by rw [checkExit_eq, outcome],
          alike_showResult result⟩

/-- Neither the filter `#` nor the byte 255 can be read. -/
theorem check_uniform_unreadable :
    let bytes : ByteArray := ⟨#[255]⟩
    (¬∃ text : String, text.toUTF8 = bytes) ∧
      lex "#" = .error (.unexpectedChar '#' 0) ∧
      checkExit "#" none true false (some bytes) =
        ⟨1, "", "IO error: stream did not contain valid UTF-8\n"⟩ := by
  intro bytes
  have foreign : ¬∃ text : String, text.toUTF8 = bytes := by
    rintro ⟨text, same⟩
    have valid := text.isValidUTF8
    rw [← String.toUTF8_eq_toByteArray, same, ← ByteArray.validateUTF8_eq_true_iff] at valid
    exact absurd valid (by decide)
  have failed : lex "#" = .error (.unexpectedChar '#' 0) := by cbv
  exact ⟨foreign, failed, (check_uniform "#").2.2.1 bytes true foreign⟩

end NodeFilter
