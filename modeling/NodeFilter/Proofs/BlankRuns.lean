import NodeFilter.Proofs.LexicalFault
import NodeFilter.Proofs.SourceText

/-!
Texts with blanks between them. No lexeme goes on over a blank, so a text behind blanks is read as
it is read by itself, and a fault in it is the same fault further on.
-/

namespace NodeFilter

open Text (Ends isBlank)

namespace LexError

def shift (distance : Nat) : LexError → LexError
  | .unterminatedString quote position => .unterminatedString quote (position + distance)
  | .invalidNumber text position => .invalidNumber text (position + distance)
  | .expectedFieldKey found position => .expectedFieldKey found (position + distance)
  | .unexpectedChar found position => .unexpectedChar found (position + distance)

/-- A fault that no text behind it can mend or change. A quote may still be closed, and at the end
of the text it may be a blank that comes in place of a field. -/
def Lasts : LexError → Prop
  | .invalidNumber .. | .unexpectedChar .. => True
  | .unterminatedString .. | .expectedFieldKey .. => False

end LexError

namespace Faulty

variable {position : Nat} {text : List Char} {fault : LexError}

theorem shift (faulty : Faulty position text fault) (distance : Nat) :
    Faulty (position + distance) text (fault.shift distance) := by
  cases faulty with
  | unterminated sort absent => exact .unterminated sort absent
  | numeral nonempty all unread ends => exact .numeral nonempty all unread ends
  | field absent =>
      rw [LexError.shift, Nat.add_right_comm]
      exact .field absent
  | character visible none => exact .character visible none

theorem before {more : List Char} (faulty : Faulty position text fault) (lasts : fault.Lasts)
    (delimited : Delimits more) : Faulty position (text ++ more) fault := by
  cases faulty with
  | unterminated => cases lasts
  | numeral nonempty all unread ends =>
      rw [List.append_assoc]
      exact .numeral nonempty all unread (Text.ends_append ends fun _ => delimited.1)
  | field => cases lasts
  | character visible none => exact .character visible none

end Faulty

theorem delimits_blanks {blanks : List Char} (nonempty : blanks ≠ [])
    (inside : ∀ c ∈ blanks, isBlank c = true) (rest : List Char) : Delimits (blanks ++ rest) := by
  obtain ⟨c, others, rfl⟩ := List.exists_cons_of_ne_nil nonempty
  exact delimits_blank (inside c List.mem_cons_self) (others ++ rest)

theorem leads_of_splits {before rest : List Char} {found : List Token}
    (split : Splits before found) (delimited : Delimits rest) : Leads before found rest := by
  induction split with
  | blanks inside => exact .blanks inside
  | lexeme inside spelled _ ih => exact .lexeme inside (spells_before spelled delimited) ih

theorem leads_before {before rest more : List Char} {found : List Token}
    (leads : Leads before found rest) (delimited : Delimits more) :
    Leads before found (rest ++ more) := by
  induction leads with
  | blanks inside => exact .blanks inside
  | lexeme inside spelled _ ih =>
      have longer := spells_before spelled delimited
      rw [List.append_assoc] at longer
      exact .lexeme inside longer ih

namespace Cursor

/-- Where a cursor starts to count shows in the positions of faults only. -/
theorem tokens_shift (position distance : Nat) (text : List Char) :
    tokens ⟨position + distance, text⟩ =
      (tokens ⟨position, text⟩).mapError (LexError.shift distance) := by
  cases read : tokens ⟨position, text⟩ with
  | ok found => exact tokens_of_splits (splits_of_tokens read) (position + distance)
  | error fault =>
      obtain ⟨before, found, rest, same, leads, faulty⟩ := tokens_eq_error.mp read
      apply tokens_eq_error.mpr
      refine ⟨before, found, rest, same, leads, ?_⟩
      rw [Nat.add_right_comm]
      exact faulty.shift distance

theorem tokens_lasting {position : Nat} {text more : List Char} {fault : LexError}
    (failed : tokens ⟨position, text⟩ = .error fault) (lasts : fault.Lasts)
    (delimited : Delimits more) : tokens ⟨position, text ++ more⟩ = .error fault := by
  obtain ⟨before, found, rest, rfl, leads, faulty⟩ := tokens_eq_error.mp failed
  apply tokens_eq_error.mpr
  refine ⟨before, found, rest ++ more, ?_, leads_before leads delimited, ?_⟩
  · rw [List.append_assoc]
  · exact faulty.before lasts delimited

theorem tokens_over_blanks {first blanks : List Char} {found : List Token}
    (read : (start first).tokens = .ok found) (nonempty : blanks ≠ [])
    (inside : ∀ c ∈ blanks, isBlank c = true) (second : List Char) :
    (start (first ++ blanks ++ second)).tokens =
      ((start second).tokens.mapError (LexError.shift (first ++ blanks).length)).map
        (found ++ ·) := by
  have leads := leads_of_splits (splits_of_tokens read) (delimits_blanks nonempty inside second)
  calc (start (first ++ blanks ++ second)).tokens
      = (tokens ⟨0 + first.length, blanks ++ second⟩).map (found ++ ·) := by
        rw [List.append_assoc, start, tokens_leads leads]
    _ = (tokens ⟨0 + (first ++ blanks).length, second⟩).map (found ++ ·) := by
        rw [tokens_blanks inside, List.length_append, Nat.add_assoc]
    _ = _ := by rw [tokens_shift, start]

end Cursor

/-- Blanks between two texts keep them apart. What is read of the first comes before what is read
of the second, a fault in the second is the same fault as many characters further on as come before
it, and a number or a character that is at fault in the first is at fault in the same place. -/
theorem blanks_between {blanks : List Char} (nonempty : blanks ≠ [])
    (inside : ∀ c ∈ blanks, isBlank c = true) (first second : List Char) :
    (∀ found, (Cursor.start first).tokens = .ok found →
      (∀ others, (Cursor.start second).tokens = .ok others →
        (Cursor.start (first ++ blanks ++ second)).tokens = .ok (found ++ others)) ∧
      ∀ fault, (Cursor.start second).tokens = .error fault →
        (Cursor.start (first ++ blanks ++ second)).tokens =
          .error (fault.shift (first ++ blanks).length)) ∧
    (∀ text position, (Cursor.start first).tokens = .error (.invalidNumber text position) →
      (Cursor.start (first ++ blanks ++ second)).tokens =
        .error (.invalidNumber text position)) ∧
    (∀ found position, (Cursor.start first).tokens = .error (.unexpectedChar found position) →
      (Cursor.start (first ++ blanks ++ second)).tokens =
        .error (.unexpectedChar found position)) := by
  have delimited := delimits_blanks nonempty inside second
  refine ⟨?_, ?_, ?_⟩
  · intro found read
    rw [Cursor.tokens_over_blanks read nonempty inside]
    constructor
    · intro others later
      rw [later]
      rfl
    · intro fault later
      rw [later]
      rfl
  · intro text position failed
    rw [List.append_assoc]
    exact Cursor.tokens_lasting failed trivial delimited
  · intro found position failed
    rw [List.append_assoc]
    exact Cursor.tokens_lasting failed trivial delimited

-- The string that is not closed starts two characters into the second text. Behind a number that
-- is at fault it is not reached.
theorem blanks_between_open_string :
    (Cursor.start "$key\t & 'x".toList).tokens = .error (.unterminatedString '\'' 8) ∧
    (Cursor.start "(1+\t & 'x".toList).tokens = .error (.invalidNumber "1+" 1) := by
  have read : (Cursor.start "$key".toList).tokens = .ok [.field .key] := by cbv
  have unclosed : (Cursor.start "& 'x".toList).tokens = .error (.unterminatedString '\'' 2) := by
    cbv
  have failed : (Cursor.start "(1+".toList).tokens = .error (.invalidNumber "1+" 1) := by cbv
  have nonempty : ['\t', ' '] ≠ [] := by decide
  have inside : ∀ c ∈ ['\t', ' '], isBlank c = true := by simp [isBlank]
  constructor
  · exact ((blanks_between nonempty inside "$key".toList "& 'x".toList).1 _ read).2 _ unclosed
  · exact (blanks_between nonempty inside "(1+".toList "& 'x".toList).2.1 _ _ failed

end NodeFilter
