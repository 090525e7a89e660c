import NodeFilter.Proofs.Lexemes

/-!
A text as a split into blanks and lexemes. The cursor finds the tokens of a split
wherever it starts to count, and finds no other tokens than those of a split.
-/

namespace NodeFilter

open Text (Ends isBlank)

inductive Splits : List Char → List Token → Prop where
  | blanks {blanks : List Char} : (∀ c ∈ blanks, isBlank c = true) → Splits blanks []
  | lexeme {blanks text rest : List Char} {token : Token} {tokens : List Token} :
      (∀ c ∈ blanks, isBlank c = true) → Spells text token rest → Splits rest tokens →
      Splits (blanks ++ (text ++ rest)) (token :: tokens)

namespace Cursor

variable {position : Nat} {blanks rest : List Char}

theorem skipBlanks_run (inside : ∀ c ∈ blanks, isBlank c = true) (ends : Ends isBlank rest) :
    skipBlanks ⟨position, blanks ++ rest⟩ = ⟨position + blanks.length, rest⟩ := by
  simp only [skipBlanks, advance, Text.takeWhile_run inside ends, List.drop_left]

theorem next_blanks (inside : ∀ c ∈ blanks, isBlank c = true) :
    next ⟨position, blanks⟩ = (.ok none, ⟨position + blanks.length, []⟩) := by
  have skipped := @skipBlanks_run position blanks [] inside Text.ends_nil
  rw [List.append_nil] at skipped
  simp only [next, skipped]

theorem next_lexeme {c : Char} (inside : ∀ c ∈ blanks, isBlank c = true)
    (front : isBlank c = false) :
    next ⟨position, blanks ++ c :: rest⟩ =
      ((Lexeme.atFront (position + blanks.length) c rest).outcome.map some,
        advance ⟨position + blanks.length, c :: rest⟩
          (Lexeme.atFront (position + blanks.length) c rest).length) := by
  simp only [next, skipBlanks_run inside (Text.ends_cons front)]

theorem tokens_eq (cursor : Cursor) :
    cursor.tokens =
      match cursor.next with
      | (.error fault, _) => .error fault
      | (.ok none, _) => .ok []
      | (.ok (some token), after) => after.tokens.map (token :: ·) := by
  rw [tokens]
  split <;> simp_all

/-- The tokens, if there are so few that these calls come to the end. -/
def tokensIn : Nat → Cursor → Option (List Token)
  | 0, _ => none
  | calls + 1, cursor =>
      match cursor.next with
      | (.error _, _) => none
      | (.ok none, _) => some []
      | (.ok (some token), after) => (after.tokensIn calls).map (token :: ·)

theorem tokens_of_tokensIn {calls : Nat} {cursor : Cursor} {tokens : List Token}
    (read : cursor.tokensIn calls = some tokens) : cursor.tokens = .ok tokens := by
  induction calls generalizing cursor tokens with
  | zero => cases read
  | succ calls ih =>
      rw [tokensIn] at read
      rw [tokens_eq]
      rcases called : cursor.next with ⟨result, after⟩
      rw [called] at read
      match result with
      | .error _ => cases read
      | .ok none => cases read; rfl
      | .ok (some token) =>
          obtain ⟨others, later, rfl⟩ := Option.map_eq_some_iff.mp read
          change after.tokens.map (token :: ·) = .ok (token :: others)
          rw [ih later]
          rfl

theorem next_spelled {text : List Char} {token : Token}
    (inside : ∀ c ∈ blanks, isBlank c = true) (spelled : Spells text token rest) :
    next ⟨position, blanks ++ (text ++ rest)⟩ =
      (.ok (some token), ⟨position + blanks.length + text.length, rest⟩) := by
  obtain ⟨c, tail, rfl, front, found⟩ :=
    Lexeme.spells_atFront (position + blanks.length) spelled
  rw [List.cons_append, next_lexeme inside front, found, advance, ← List.cons_append]
  rw [List.drop_left]
  rfl

theorem tokens_of_splits {text : List Char} {found : List Token} (split : Splits text found)
    (position : Nat) : tokens ⟨position, text⟩ = .ok found := by
  induction split generalizing position with
  | blanks inside => rw [tokens_eq, next_blanks inside]
  | lexeme inside spelled _ ih =>
      rw [tokens_eq, next_spelled inside spelled]
      simp only [ih]
      rfl

theorem splits_of_tokens {text : List Char} {found : List Token}
    (read : tokens ⟨position, text⟩ = .ok found) : Splits text found := by
  -- Every lexeme takes at least its first character, so what is left is shorter.
  induction length : text.length using Nat.strongRecOn generalizing position text found with
  | _ size ih =>
  obtain ⟨blanks, rest, rfl, inside, ends⟩ := Text.exists_run isBlank text
  rw [tokens_eq] at read
  cases rest with
  | nil =>
      rw [List.append_nil, next_blanks inside] at read
      cases read
      simpa using Splits.blanks inside
  | cons c rest =>
      rw [next_lexeme inside (ends c rfl)] at read
      cases lexeme : (Lexeme.atFront (position + blanks.length) c rest).outcome with
      | error fault => simp [lexeme, Except.map] at read
      | ok token =>
          obtain ⟨tail, after, rfl, taken, spelled⟩ := Lexeme.atFront_spells _ lexeme
          have left : (c :: (tail ++ after)).drop (tail.length + 1) = after := by simp
          have shorter : after.length < size := by
            simp only [List.length_append, List.length_cons] at length
            omega
          simp only [lexeme, Except.map, advance, taken, left] at read
          split at read
          · cases read
          · rename_i more later
            cases read
            exact .lexeme inside spelled (ih after.length shorter later rfl)

end Cursor

end NodeFilter
