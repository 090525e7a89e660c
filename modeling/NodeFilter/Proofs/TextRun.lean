import NodeFilter.Token.Lexer

/-!
Runs of characters of one kind. A run ends where the text ends or a character of
another kind stands, so a text splits into a first run and a rest in one way.
-/

namespace NodeFilter.Text

-- No character of the kind stands in front, as after a whole run of them.
def Ends (kind : Char → Bool) (rest : List Char) : Prop :=
  ∀ c, rest.head? = some c → kind c = false

section Run

variable {kind : Char → Bool} {run rest : List Char}

theorem ends_nil : Ends kind [] := fun _ head => nomatch head

theorem ends_cons {c : Char} (other : kind c = false) : Ends kind (c :: rest) := by
  intro first head
  cases head
  exact other

theorem ends_append (first : Ends kind run) (second : run = [] → Ends kind rest) :
    Ends kind (run ++ rest) := by
  intro c head
  cases run with
  | nil => exact second rfl c head
  | cons front tail => exact first c head

theorem takeWhile_run (inside : ∀ c ∈ run, kind c = true) (ends : Ends kind rest) :
    (run ++ rest).takeWhile kind = run := by
  rw [List.takeWhile_append_of_pos inside]
  cases rest with
  | nil => simp
  | cons c rest => simp [ends c rfl]

theorem dropWhile_run (inside : ∀ c ∈ run, kind c = true) (ends : Ends kind rest) :
    (run ++ rest).dropWhile kind = rest := by
  rw [List.dropWhile_append_of_pos inside]
  cases rest with
  | nil => rfl
  | cons c rest => simp [ends c rfl]

/-- A text is split into a run and what ends it in one way. -/
theorem run_unique {other others : List Char} (inside : ∀ c ∈ run, kind c = true)
    (ends : Ends kind rest) (also : ∀ c ∈ other, kind c = true) (stops : Ends kind others)
    (same : run ++ rest = other ++ others) : run = other ∧ rest = others := by
  have runs : run = other := by rw [← takeWhile_run inside ends, same, takeWhile_run also stops]
  subst runs
  exact ⟨rfl, List.append_cancel_left same⟩

theorem dropWhile_ends (ends : Ends kind rest) : rest.dropWhile kind = rest :=
  @dropWhile_run kind [] rest (fun _ member => nomatch member) ends

end Run

theorem ends_dropWhile (kind : Char → Bool) (text : List Char) :
    Ends kind (text.dropWhile kind) := by
  intro c head
  have outside := List.head?_dropWhile_not kind text
  rw [head] at outside
  simpa using outside

theorem exists_run (kind : Char → Bool) (text : List Char) :
    ∃ run rest, text = run ++ rest ∧ (∀ c ∈ run, kind c = true) ∧ Ends kind rest := by
  refine ⟨text.takeWhile kind, text.dropWhile kind, ?_, ?_, ends_dropWhile kind text⟩
  · exact List.takeWhile_append_dropWhile.symm
  · intro c member
    exact List.all_eq_true.mp List.all_takeWhile c member

/-- A character of the kind in front belongs to the first run. -/
theorem exists_run_cons {kind : Char → Bool} {c : Char} (front : kind c = true)
    (text : List Char) :
    ∃ tail rest, text = tail ++ rest ∧ (∀ x ∈ c :: tail, kind x = true) ∧ Ends kind rest ∧
      (c :: text).takeWhile kind = c :: tail := by
  obtain ⟨tail, rest, rfl, inside, ends⟩ := exists_run kind text
  have all : ∀ x ∈ c :: tail, kind x = true := List.forall_mem_cons.mpr ⟨front, inside⟩
  exact ⟨tail, rest, rfl, all, ends, takeWhile_run all ends⟩

theorem trim_back (text : List Char) : Ends isWhiteSpace (trim text).reverse := by
  rw [trim, List.reverse_reverse]
  exact ends_dropWhile isWhiteSpace _

-- Trimming leaves a text that neither starts nor ends with white space.
theorem trim_eq_self {text : List Char} (front : Ends isWhiteSpace text)
    (back : Ends isWhiteSpace text.reverse) : trim text = text := by
  rw [trim, dropWhile_ends front, dropWhile_ends back, List.reverse_reverse]

end NodeFilter.Text
