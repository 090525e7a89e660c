import NodeFilter.Json.Printer
import NodeFilter.Proofs.NumberText

/-!
The two layouts of JSON text. A scanner that keeps to the quotes and backslashes of a text drops the
blanks and line breaks that stand outside its strings. What it leaves of a value that is spread out
is the value on one line.
-/

namespace NodeFilter.Json

inductive Scan where
  | outside
  | inside
  /-- After a backslash in a string. -/
  | escaped
  deriving DecidableEq

def Scan.next : Scan → Char → Scan
  | .outside, c => if c = '"' then .inside else .outside
  | .inside, c => if c = '"' then .outside else if c = '\\' then .escaped else .inside
  | .escaped, _ => .inside

def isSpace (c : Char) : Bool := c == ' ' || c == '\n'

/-- A text without the blanks and line breaks that stand outside its strings. -/
def unspaced : Scan → List Char → List Char
  | _, [] => []
  | state, c :: rest =>
      if state = .outside ∧ isSpace c = true then unspaced state rest
      else c :: unspaced (state.next c) rest

/-- All of the text is kept, and it leads the scanner on from one state to another. -/
def Passes (state : Scan) (text : List Char) (next : Scan) : Prop :=
  ∀ rest, unspaced state (text ++ rest) = text ++ unspaced next rest

section Passes

variable {state next last : Scan} {text more : List Char}

theorem passes_nil (state : Scan) : Passes state [] state := fun _ => rfl

theorem Passes.append (first : Passes state text next) (second : Passes next more last) :
    Passes state (text ++ more) last := by
  intro rest
  rw [List.append_assoc, List.append_assoc, first, second]

theorem passes_cons {c : Char} (kept : state ≠ .outside ∨ isSpace c = false)
    (passes : Passes (state.next c) text last) : Passes state (c :: text) last := by
  intro rest
  have stays : ¬(state = .outside ∧ isSpace c = true) := by
    rcases kept with within | solid
    · exact fun both => within both.1
    · exact fun both => absurd both.2 (Bool.eq_false_iff.mp solid)
  rw [List.cons_append, unspaced, if_neg stays, passes rest, List.cons_append]

/-- A scanner that no character of the text moves, and that drops none, keeps all of it. -/
theorem passes_staying (stays : ∀ c ∈ text,
    (state ≠ .outside ∨ isSpace c = false) ∧ state.next c = state) : Passes state text state := by
  induction text with
  | nil => exact passes_nil state
  | cons c text ih =>
      obtain ⟨⟨kept, same⟩, later⟩ := List.forall_mem_cons.mp stays
      refine passes_cons kept ?_
      rw [same]
      exact ih later

def isSolid (c : Char) : Bool := c != '"' && !isSpace c

theorem passes_solid (solid : ∀ c ∈ text, isSolid c = true) : Passes .outside text .outside := by
  refine passes_staying fun c member => ?_
  have both := solid c member
  simp only [isSolid, Bool.and_eq_true, bne_iff_ne, Bool.not_eq_true'] at both
  exact ⟨Or.inr both.2, if_neg both.1⟩

theorem passes_inside (plain : ∀ c ∈ text, c ≠ '"' ∧ c ≠ '\\') : Passes .inside text .inside := by
  refine passes_staying fun c member => ⟨Or.inl nofun, ?_⟩
  obtain ⟨noQuote, noBackslash⟩ := plain c member
  rw [Scan.next, if_neg noQuote, if_neg noBackslash]

theorem passes_escape (c : Char) : Passes .inside (escape c) .inside := by
  have pair (letter : Char) : Passes .inside ['\\', letter] .inside :=
    passes_cons (Or.inl nofun) (passes_cons (Or.inl nofun) (passes_nil .inside))
  have digits : ∀ digit ∈ Nat.toDigits 16 c.toNat, digit ≠ '"' ∧ digit ≠ '\\' := by
    intro digit member
    have letter := Numeral.toDigits_alphanum (by decide) (Nat.le_refl 16) _ digit member
    constructor <;>
    · rintro rfl
      exact absurd letter (by decide)
  have zeros (count : Nat) : ∀ zero ∈ List.replicate count '0', zero ≠ '"' ∧ zero ≠ '\\' := by
    intro zero member
    rw [List.eq_of_mem_replicate member]
    decide
  unfold escape
  split_ifs with quote backslash
  any_goals exact pair _
  · rw [controlEscape, List.append_assoc]
    exact (pair 'u').append (passes_inside (List.forall_mem_append.mpr ⟨zeros _, digits⟩))
  · exact passes_inside (List.forall_mem_singleton.mpr ⟨quote, backslash⟩)

theorem passes_stringText (text : String) : Passes .outside (stringText text) .outside := by
  have content : Passes .inside (text.toList.flatMap escape) .inside := by
    induction text.toList with
    | nil => exact passes_nil .inside
    | cons c text ih => exact (passes_escape c).append ih
  exact passes_cons (Or.inr rfl)
    (content.append (passes_cons (Or.inl nofun) (passes_nil .outside)))

theorem solid_of_numberChar (c : Char) (number : Layout.isNumberChar c = true) :
    isSolid c = true := by
  simp only [isSolid, isSpace, Bool.and_eq_true, bne_iff_ne, Bool.not_eq_true',
    Bool.or_eq_false_iff, beq_eq_false_iff_ne]
  refine ⟨?_, ?_, ?_⟩ <;>
  · rintro rfl
    exact absurd number (by decide)

theorem passes_integer (value : Int) : Passes .outside (toString value).toList .outside := by
  have digits (n : Nat) : ∀ c ∈ n.repr.toList, isSolid c = true := by
    intro c member
    rw [Nat.toList_repr] at member
    exact solid_of_numberChar c
      (Layout.numberChar_of_digits (Numeral.allDigits_toDigits n) c member)
  apply passes_solid
  rw [Int.toString_eq_repr, Int.repr_eq_if]
  split
  · exact digits _
  · rw [String.toList_append]
    exact List.forall_mem_append.mpr ⟨List.all_eq_true.mp (by decide), digits _⟩

theorem passes_float (value : Binary64) :
    Passes .outside (numberLayout.write value).toList .outside := by
  have word : ∀ c ∈ "null".toList, isSolid c = true := List.all_eq_true.mp (by decide)
  exact passes_solid (Layout.write_chars solid_of_numberChar word word value)

end Passes

section Layouts

theorem unspaced_solid {c : Char} (solid : isSolid c = true) (rest : List Char) :
    unspaced .outside (c :: rest) = c :: unspaced .outside rest :=
  passes_solid (List.forall_mem_singleton.mpr solid) rest

theorem unspaced_lineBreak (spread : Bool) (level : Nat) (rest : List Char) :
    unspaced .outside (lineBreak spread level ++ rest) = unspaced .outside rest := by
  have blanks (count : Nat) :
      unspaced .outside (List.replicate count ' ' ++ rest) = unspaced .outside rest := by
    induction count with
    | zero => rfl
    | succ count ih => exact ih
  cases spread with
  | false => rfl
  | true => exact blanks (2 * level)

theorem unspaced_colon (spread : Bool) (rest : List Char) :
    unspaced .outside (colon spread ++ rest) = colon false ++ unspaced .outside rest := by
  cases spread <;> rfl

mutual

/-- What the scanner leaves of a value is the value on one line. -/
theorem unspaced_write (spread : Bool) (level : Nat) (rest : List Char) :
    (json : Json) → unspaced .outside (write spread level rest json) =
      write false level (unspaced .outside rest) json
  | .null => rfl
  | .boolean true => rfl
  | .boolean false => rfl
  | .integer value => passes_integer value rest
  | .float value => passes_float value rest
  | .string text => passes_stringText text rest
  | .array [] => rfl
  | .array (first :: more) => by
      rw [write, write, unspaced_solid (by decide), unspaced_lineBreak, unspaced_write,
        unspaced_writeElements]
      rfl
  | .object [] => rfl
  | .object ((name, value) :: more) => by
      rw [write, write, unspaced_solid (by decide), List.append_assoc, List.append_assoc,
        unspaced_lineBreak, passes_stringText, unspaced_colon, unspaced_write,
        unspaced_writeMembers, List.append_assoc, List.append_assoc]
      rfl

theorem unspaced_writeElements (spread : Bool) (level : Nat) (rest : List Char) :
    (elements : List Json) → unspaced .outside (writeElements spread level rest elements) =
      writeElements false level (unspaced .outside rest) elements
  | [] => by
      rw [writeElements, writeElements, unspaced_lineBreak, unspaced_solid (by decide)]
      rfl
  | element :: more => by
      rw [writeElements, writeElements, unspaced_solid (by decide), unspaced_lineBreak,
        unspaced_write, unspaced_writeElements]
      rfl

theorem unspaced_writeMembers (spread : Bool) (level : Nat) (rest : List Char) :
    (members : List (String × Json)) → unspaced .outside (writeMembers spread level rest members) =
      writeMembers false level (unspaced .outside rest) members
  | [] => by
      rw [writeMembers, writeMembers, unspaced_lineBreak, unspaced_solid (by decide)]
      rfl
  | (name, value) :: more => by
      rw [writeMembers, writeMembers, unspaced_solid (by decide), List.append_assoc,
        List.append_assoc, unspaced_lineBreak, passes_stringText, unspaced_colon, unspaced_write,
        unspaced_writeMembers, List.append_assoc, List.append_assoc]
      rfl

end

mutual

theorem write_append (spread : Bool) (level : Nat) (rest more : List Char) :
    (json : Json) → write spread level (rest ++ more) json = write spread level rest json ++ more
  | .null | .boolean true | .boolean false | .integer _ | .float _ | .string _ | .array []
  | .object [] => by simp [write]
  | .array (first :: others) => by
      simp [write, write_append, writeElements_append]
  | .object ((name, value) :: others) => by
      simp [write, write_append, writeMembers_append]

theorem writeElements_append (spread : Bool) (level : Nat) (rest more : List Char) :
    (elements : List Json) → writeElements spread level (rest ++ more) elements =
      writeElements spread level rest elements ++ more
  | [] => by simp [writeElements]
  | element :: others => by simp [writeElements, write_append, writeElements_append]

theorem writeMembers_append (spread : Bool) (level : Nat) (rest more : List Char) :
    (members : List (String × Json)) → writeMembers spread level (rest ++ more) members =
      writeMembers spread level rest members ++ more
  | [] => by simp [writeMembers]
  | (name, value) :: others => by simp [writeMembers, write_append, writeMembers_append]

end

end Layouts

end NodeFilter.Json
