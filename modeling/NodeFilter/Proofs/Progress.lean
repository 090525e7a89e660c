import NodeFilter.Proofs.LexicalFault

/-!
Calling a lexer again, also after a fault. A call that takes nothing has come to the end of the
text or to a character that no lexeme starts with, and every later call comes to the same. All other
calls take at least one character, so no more of them are made than the text has characters.
-/

namespace NodeFilter

open Text (isBlank)

def LexError.IsUnexpected : LexError → Prop
  | .unexpectedChar .. => True
  | .unterminatedString .. | .invalidNumber .. | .expectedFieldKey .. => False

namespace Faulty

variable {position : Nat} {text : List Char} {fault : LexError}

theorem taken_le (faulty : Faulty position text fault) : fault.taken text ≤ text.length := by
  cases faulty with
  | unterminated => exact Nat.le_refl _
  | @numeral run rest =>
      rw [LexError.taken, String.toList_ofList, List.length_append]
      exact Nat.le_add_right ..
  | field => exact Nat.succ_le_succ (Nat.zero_le _)
  | character => exact Nat.zero_le _

theorem taken_pos (faulty : Faulty position text fault) (other : ¬ fault.IsUnexpected) :
    0 < fault.taken text := by
  cases faulty with
  | unterminated => exact Nat.succ_pos _
  | numeral nonempty =>
      rw [LexError.taken, String.toList_ofList]
      exact List.length_pos_iff.mpr nonempty
  | field => exact Nat.one_pos
  | character => exact absurd trivial other

end Faulty

namespace Cursor

/-- What a call gives and where it leaves the cursor, by the text that is left. -/
inductive Called (cursor : Cursor) : Except LexError (Option Token) × Cursor → Prop where
  | ended :
      (∀ c ∈ cursor.rest, isBlank c = true) →
      Called cursor (.ok none, cursor.advance cursor.rest.length)
  | token {blanks text rest : List Char} {token : Token} :
      cursor.rest = blanks ++ (text ++ rest) → (∀ c ∈ blanks, isBlank c = true) →
      Spells text token rest →
      Called cursor (.ok (some token), cursor.advance (blanks.length + text.length))
  | fault {blanks rest : List Char} {fault : LexError} :
      cursor.rest = blanks ++ rest → (∀ c ∈ blanks, isBlank c = true) →
      Faulty (cursor.position + blanks.length) rest fault →
      Called cursor (.error fault, cursor.advance (blanks.length + fault.taken rest))

theorem next_called (cursor : Cursor) : Called cursor cursor.next := by
  rcases cursor with ⟨position, text⟩
  obtain ⟨blanks, rest, rfl, inside, ends⟩ := Text.exists_run isBlank text
  cases rest with
  | nil =>
      rw [List.append_nil, next_blanks inside]
      have called : Called ⟨position, blanks⟩ _ := .ended inside
      rwa [advance, List.drop_length] at called
  | cons c rest =>
      rw [next_lexeme inside (ends c rfl)]
      have onward (count : Nat) : advance ⟨position + blanks.length, c :: rest⟩ count =
          advance ⟨position, blanks ++ c :: rest⟩ (blanks.length + count) := by
        simp only [advance, Nat.add_assoc, List.drop_append, Nat.add_sub_cancel_left]
        rw [List.drop_eq_nil_of_le (Nat.le_add_right ..), List.nil_append]
      rw [onward]
      cases read : (Lexeme.atFront (position + blanks.length) c rest).outcome with
      | ok token =>
          obtain ⟨tail, after, rfl, length, spelled⟩ := Lexeme.atFront_spells _ read
          rw [length]
          exact .token rfl inside spelled
      | error fault =>
          have faulty := Lexeme.atFront_faulty (ends c rfl) read
          obtain ⟨_, _, same, -, found⟩ := Lexeme.faulty_atFront faulty
          cases same
          rw [found]
          exact .fault rfl inside faulty

structure StandsIn (text : List Char) (cursor : Cursor) : Prop where
  inside : cursor.position ≤ text.length
  rest : cursor.rest = text.drop cursor.position

section Call

variable {text : List Char} {cursor : Cursor}

theorem start_standsIn (text : List Char) : (start text).StandsIn text :=
  ⟨Nat.zero_le _, List.drop_zero.symm⟩

theorem StandsIn.length_rest (stands : cursor.StandsIn text) :
    cursor.position + cursor.rest.length = text.length := by
  have inside := stands.inside
  rw [stands.rest, List.length_drop]
  omega

/-- How far a call goes: past what it took and no further. -/
theorem exists_advance (cursor : Cursor) :
    ∃ count ≤ cursor.rest.length, cursor.next.2 = cursor.advance count := by
  have called := cursor.next_called
  generalize cursor.next = call at called
  cases called with
  | ended blank => exact ⟨_, Nat.le_refl _, rfl⟩
  | token left blank spelled =>
      refine ⟨_, ?_, rfl⟩
      simp only [left, List.length_append]
      omega
  | fault left blank faulty =>
      refine ⟨_, ?_, rfl⟩
      have taken := faulty.taken_le
      simp only [left, List.length_append]
      omega

theorem StandsIn.next (stands : cursor.StandsIn text) : cursor.next.2.StandsIn text := by
  obtain ⟨count, bound, after⟩ := cursor.exists_advance
  have whole := stands.length_rest
  rw [after]
  constructor
  · simp only [advance]
    omega
  · simp only [advance, stands.rest, List.drop_drop]

theorem le_next (cursor : Cursor) : cursor.position ≤ cursor.next.2.position := by
  obtain ⟨count, -, after⟩ := cursor.exists_advance
  rw [after]
  exact Nat.le_add_right ..

theorem next_ended : cursor.next.1 = .ok none ↔ ∀ c ∈ cursor.rest, isBlank c = true := by
  constructor
  · intro ended
    have called := cursor.next_called
    generalize cursor.next = call at called ended
    cases called with
    | ended blank => exact blank
    | token => cases ended
    | fault => cases ended
  · intro blank
    rw [next_blanks blank]

theorem lt_next_of_token {token : Token} (found : cursor.next.1 = .ok (some token)) :
    cursor.position < cursor.next.2.position := by
  have called := cursor.next_called
  generalize cursor.next = call at called found
  cases called with
  | ended => cases found
  | token left blank spelled =>
      obtain ⟨c, tail, rfl, -, -⟩ := Lexeme.spells_atFront 0 spelled
      simp only [advance, List.length_cons]
      omega
  | fault => cases found

/-- A call fails at the first character that is left and not blank. -/
theorem next_error {fault : LexError} (failed : cursor.next.1 = .error fault) :
    ∃ blanks rest, cursor.rest = blanks ++ rest ∧
      Faulty (cursor.position + blanks.length) rest fault ∧
      cursor.next.2 = cursor.advance (blanks.length + fault.taken rest) := by
  have called := cursor.next_called
  generalize cursor.next = call at called failed
  cases called with
  | ended => cases failed
  | token => cases failed
  | fault left _ faulty =>
      cases failed
      exact ⟨_, _, left, faulty, rfl⟩

theorem lt_next_of_fault {fault : LexError} (failed : cursor.next.1 = .error fault)
    (other : ¬ fault.IsUnexpected) : cursor.position < cursor.next.2.position := by
  obtain ⟨blanks, rest, -, faulty, after⟩ := next_error failed
  have taken := faulty.taken_pos other
  rw [after]
  simp only [advance]
  omega

/-- An unexpected character stays in front of the cursor. -/
theorem next_unexpected {found : Char} {place : Nat}
    (failed : cursor.next.1 = .error (.unexpectedChar found place)) :
    cursor.next.2.position = place ∧ cursor.next.2.rest.head? = some found ∧
      cursor.next.2.next.1 = .error (.unexpectedChar found place) := by
  obtain ⟨blanks, rest, left, faulty, after⟩ := next_error failed
  have here : cursor.next.2 = ⟨cursor.position + blanks.length, rest⟩ := by
    rw [after, LexError.taken, Nat.add_zero, advance, left, List.drop_left]
  rw [here]
  cases faulty with
  | @character _ rest visible none =>
      have again := @next_lexeme (cursor.position + blanks.length) [] rest found
        (List.forall_mem_nil _) visible
      rw [List.nil_append, List.length_nil, Nat.add_zero, Lexeme.atFront_unstarted _ rest none]
        at again
      rw [again]
      exact ⟨rfl, rfl, rfl⟩

end Call

def afterCalls (cursor : Cursor) : Nat → Cursor
  | 0 => cursor
  | calls + 1 => (cursor.afterCalls calls).next.2

/-- What is given again by every call after one that gives it. -/
def IsLast (outcome : Except LexError (Option Token)) : Prop :=
  outcome = .ok none ∨ ∃ found place, outcome = .error (.unexpectedChar found place)

section Calls

variable {text : List Char} {cursor : Cursor}

theorem afterCalls_add (cursor : Cursor) (first more : Nat) :
    (cursor.afterCalls first).afterCalls more = cursor.afterCalls (more + first) := by
  induction more with
  | zero => rw [Nat.zero_add, afterCalls]
  | succ more ih => rw [afterCalls, ih, Nat.add_right_comm, ← afterCalls]

theorem StandsIn.afterCalls (stands : cursor.StandsIn text) (calls : Nat) :
    (cursor.afterCalls calls).StandsIn text := by
  induction calls with
  | zero => exact stands
  | succ calls ih => exact ih.next

theorem next_lasts (last : IsLast cursor.next.1) : cursor.next.2.next.1 = cursor.next.1 := by
  rcases last with ended | ⟨found, place, failed⟩
  · have blank := next_ended.mp ended
    rw [ended, next_ended, next_blanks blank]
    exact nofun
  · rw [(next_unexpected failed).2.2, failed]

theorem afterCalls_lasts (last : IsLast cursor.next.1) (calls : Nat) :
    (cursor.afterCalls calls).next.1 = cursor.next.1 := by
  induction calls with
  | zero => rfl
  | succ calls ih => exact (next_lasts (ih ▸ last)).trans ih

theorem last_or_further (cursor : Cursor) :
    IsLast cursor.next.1 ∨ cursor.position < cursor.next.2.position := by
  cases given : cursor.next.1 with
  | ok found =>
      cases found with
      | none => exact Or.inl (Or.inl rfl)
      | some token => exact Or.inr (lt_next_of_token given)
  | error fault =>
      cases fault with
      | unexpectedChar found place => exact Or.inl (Or.inr ⟨found, place, rfl⟩)
      | _ => exact Or.inr (lt_next_of_fault given id)

/-- As long as no call was the last of its sort, each has taken a character. -/
theorem last_or_position (cursor : Cursor) (calls : Nat) :
    IsLast (cursor.afterCalls calls).next.1 ∨
      cursor.position + calls ≤ (cursor.afterCalls calls).position := by
  induction calls with
  | zero => exact Or.inr (Nat.le_refl _)
  | succ calls ih =>
      rcases last_or_further (cursor.afterCalls calls) with last | further
      · exact Or.inl ((next_lasts last).symm ▸ last)
      · rcases ih with last | taken
        · exact Or.inl ((next_lasts last).symm ▸ last)
        · exact Or.inr (Nat.lt_of_le_of_lt taken further)

theorem StandsIn.last (stands : cursor.StandsIn text) :
    IsLast (cursor.afterCalls cursor.rest.length).next.1 := by
  rcases last_or_position cursor cursor.rest.length with last | taken
  · exact last
  · have reached := stands.afterCalls cursor.rest.length
    have whole := stands.length_rest
    have left := reached.length_rest
    have none : (cursor.afterCalls cursor.rest.length).rest = [] := by
      apply List.length_eq_zero_iff.mp
      omega
    refine Or.inl (next_ended.mpr ?_)
    rw [none]
    exact nofun

/-- All tokens from a cursor on are what calls give, one after the other, until one gives none or
fails. -/
structure Collects (cursor : Cursor) (found : List Token) : Prop where
  each : ∀ call token, found[call]? = some token →
    (cursor.afterCalls call).next.1 = .ok (some token)
  whole : ((cursor.afterCalls found.length).next.1 = .ok none ∧ cursor.tokens = .ok found) ∨
    ∃ fault, (cursor.afterCalls found.length).next.1 = .error fault ∧ cursor.tokens = .error fault

theorem Collects.token {token : Token} {found : List Token}
    (given : cursor.next.1 = .ok (some token)) (later : cursor.next.2.Collects found) :
    cursor.Collects (token :: found) := by
  have more : cursor.tokens = cursor.next.2.tokens.map (token :: ·) := by
    rw [tokens_eq]
    cases call : cursor.next with
    | mk outcome after =>
        rw [call] at given
        cases given
        rfl
  have shifted (calls : Nat) : cursor.next.2.afterCalls calls = cursor.afterCalls (calls + 1) :=
    cursor.afterCalls_add 1 calls
  constructor
  · intro call other
    cases call with
    | zero =>
        intro same
        cases same
        exact given
    | succ call =>
        intro listed
        rw [← shifted]
        exact later.each call other listed
  · rw [List.length_cons, ← shifted, more]
    rcases later.whole with ⟨ended, collected⟩ | ⟨fault, failed, collected⟩
    · rw [collected]
      exact Or.inl ⟨ended, rfl⟩
    · rw [collected]
      exact Or.inr ⟨fault, failed, rfl⟩

theorem exists_collects (cursor : Cursor) :
    ∃ found, cursor.Collects found ∧ found.length ≤ cursor.rest.length := by
  -- A call that gives a token leaves less of the text.
  induction length : cursor.rest.length using Nat.strongRecOn generalizing cursor with
  | _ size ih =>
  cases call : cursor.next with
  | mk given after =>
      cases given with
      | error fault =>
          have failed : cursor.tokens = .error fault := by rw [tokens_eq, call]
          exact ⟨[], ⟨nofun, Or.inr ⟨fault, congrArg Prod.fst call, failed⟩⟩, Nat.zero_le _⟩
      | ok found =>
          cases found with
          | none =>
              have ended : cursor.tokens = .ok [] := by rw [tokens_eq, call]
              exact ⟨[], ⟨nofun, Or.inl ⟨congrArg Prod.fst call, ended⟩⟩, Nat.zero_le _⟩
          | some token =>
              have shorter : after.rest.length < size := length ▸ next_shorter call
              obtain ⟨found, collects, bound⟩ := ih after.rest.length shorter after rfl
              have later : cursor.next.2.Collects found := (congrArg Prod.snd call) ▸ collects
              exact ⟨token :: found, later.token (congrArg Prod.fst call),
                Nat.lt_of_le_of_lt bound shorter⟩

end Calls

/-- What a call does where a cursor stands in a text. -/
structure Proceeds (text : List Char) (cursor : Cursor) : Prop where
  stands : cursor.StandsIn text
  onward : cursor.position ≤ cursor.next.2.position
  token : ∀ token, cursor.next.1 = .ok (some token) → cursor.position < cursor.next.2.position
  fault : ∀ fault, cursor.next.1 = .error fault → ¬ fault.IsUnexpected →
    cursor.position < cursor.next.2.position
  ended : cursor.next.1 = .ok none ↔ ∀ c ∈ cursor.rest, isBlank c = true
  /-- With none left, none is given by this call and every later one. -/
  exhausted : cursor.next.1 = .ok none → ∀ more, (cursor.afterCalls more).next.1 = .ok none
  /-- An unexpected character is met by this call and every later one. -/
  unexpected : ∀ found place, cursor.next.1 = .error (.unexpectedChar found place) →
    cursor.next.2.position = place ∧ text[place]? = some found ∧
      ∀ more, (cursor.afterCalls more).next.1 = .error (.unexpectedChar found place)

theorem proceeds_of_stands {text : List Char} {cursor : Cursor} (stands : cursor.StandsIn text) :
    Proceeds text cursor where
  stands := stands
  onward := cursor.le_next
  token _ found := lt_next_of_token found
  fault _ failed other := lt_next_of_fault failed other
  ended := next_ended
  exhausted ended more := (afterCalls_lasts (Or.inl ended) more).trans ended
  unexpected found place failed := by
    obtain ⟨here, front, -⟩ := next_unexpected failed
    refine ⟨here, ?_, fun more => ?_⟩
    · rw [← here, ← List.head?_drop, ← stands.next.rest]
      exact front
    · exact (afterCalls_lasts (Or.inr ⟨found, place, failed⟩) more).trans failed

/-- However often a lexer is called, going on after faults, its cursor never goes back or leaves
the text, and a call that takes nothing gives the same as every later one: none where only blanks
are left, or else one character that no lexeme starts with. There are at most as many other calls
as characters. To collect all tokens is to call until none is given or a call fails, and this gives
no more tokens than there are characters left. -/
theorem calls_settle (text : List Char) :
    (∀ calls, Proceeds text ((start text).afterCalls calls)) ∧
    (∃ outcome, IsLast outcome ∧
      ∀ calls, text.length ≤ calls → ((start text).afterCalls calls).next.1 = outcome) ∧
    ∀ calls, ∃ found, ((start text).afterCalls calls).Collects found ∧
      ((start text).afterCalls calls).position + found.length ≤ text.length := by
  have stands := start_standsIn text
  refine ⟨?_, ?_, ?_⟩
  · intro calls
    exact proceeds_of_stands (stands.afterCalls calls)
  · refine ⟨_, stands.last, ?_⟩
    intro calls enough
    obtain ⟨more, rfl⟩ := Nat.exists_eq_add_of_le' enough
    rw [← afterCalls_add]
    exact afterCalls_lasts stands.last more
  · intro calls
    obtain ⟨found, collects, bound⟩ := exists_collects ((start text).afterCalls calls)
    have whole := (stands.afterCalls calls).length_rest
    exact ⟨found, collects, by omega⟩

/-- A dollar sign without a field and a run that is no numeral are passed over. The third call comes
to a character that starts no lexeme, and so does every later one. -/
theorem calls_settle_after_faults :
    (start "$ 1+ #".toList).next.1 = .error (.expectedFieldKey (some ' ') 1) ∧
    ((start "$ 1+ #".toList).afterCalls 1).next.1 = .error (.invalidNumber "1+" 2) ∧
    ∀ more, (((start "$ 1+ #".toList).afterCalls 2).afterCalls more).next.1 =
      .error (.unexpectedChar '#' 5) := by
  have first : (start "$ 1+ #".toList).next.1 = .error (.expectedFieldKey (some ' ') 1) := rfl
  have second : ((start "$ 1+ #".toList).afterCalls 1).next.1 =
      .error (.invalidNumber "1+" 2) := rfl
  have third : ((start "$ 1+ #".toList).afterCalls 2).next.1 =
      .error (.unexpectedChar '#' 5) := rfl
  exact ⟨first, second, (((calls_settle "$ 1+ #".toList).1 2).unexpected '#' 5 third).2.2⟩

end Cursor

end NodeFilter
