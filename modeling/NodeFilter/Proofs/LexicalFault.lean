import NodeFilter.Proofs.Splitting

/-!
Where a text fails to be read as tokens. The lexemes before the fault are read as they would be if
nothing came after them, and where the fault is reported no lexeme can be read: a quote is not
closed, a run of numeral characters is no numeral, a dollar sign has no field behind it, or a
character starts no lexeme at all.
-/

namespace NodeFilter

open Text (Ends isBlank)

def Lexeme.starts (c : Char) : Bool :=
  (symbol? c).isSome || isQuote c || Numeral.isNumeralChar c || c == '$' || Text.isNameStart c

/-- Text that has no lexeme at its front, and the fault that this is. -/
inductive Faulty (position : Nat) : List Char → LexError → Prop where
  | unterminated {quote : Char} {rest : List Char} :
      quote = '"' ∨ quote = '\'' → quote ∉ rest →
      Faulty position (quote :: rest) (.unterminatedString quote position)
  | numeral {run rest : List Char} :
      run ≠ [] → (∀ c ∈ run, Numeral.isNumeralChar c = true) → ¬ Numeral.IsNumeral run →
      Ends Numeral.isNumeralChar rest →
      Faulty position (run ++ rest) (.invalidNumber (String.ofList run) position)
  | field {rest : List Char} :
      (∀ field : Field, ¬ field.name.toList <+: rest) →
      Faulty position ('$' :: rest) (.expectedFieldKey rest.head? (position + 1))
  | character {c : Char} {rest : List Char} :
      isBlank c = false → Lexeme.starts c = false →
      Faulty position (c :: rest) (.unexpectedChar c position)

def LexError.taken (text : List Char) : LexError → Nat
  | .unterminatedString .. => text.length
  | .invalidNumber run _ => run.toList.length
  | .expectedFieldKey .. => 1
  | .unexpectedChar .. => 0

namespace Lexeme

/-! What is found at the front of a text is a fault exactly if the text is faulty there. -/
section AtFront

variable {position : Nat} {c : Char} {rest : List Char}

theorem atFront?_eq_none {text : List Char} :
    Field.atFront? text = none ↔ ∀ field : Field, ¬ field.name.toList <+: text := by
  rw [Field.atFront?, List.find?_eq_none]
  constructor
  · intro none field front
    apply none field
    · cases field <;> decide
    · exact List.isPrefixOf_iff_prefix.mpr front
  · intro none field _ front
    exact none field (List.isPrefixOf_iff_prefix.mp front)

theorem atFront_unstarted (position : Nat) (rest : List Char) (none : starts c = false) :
    atFront position c rest = ⟨.error (.unexpectedChar c position), 0⟩ := by
  simp only [starts, Bool.or_eq_false_iff, Option.isSome_eq_false_iff, Option.isNone_iff_eq_none,
    beq_eq_false_iff_ne] at none
  obtain ⟨⟨⟨⟨symbol, quote⟩, numeral⟩, dollar⟩, name⟩ := none
  exact atFront_other position rest symbol quote numeral dollar name

/-- A lexeme starts with one of the characters that lexemes start with. -/
theorem spells_starts {tail after : List Char} {token : Token}
    (spelled : Spells (c :: tail) token after) : starts c = true := by
  obtain ⟨first, others, same, -, found⟩ := spells_atFront 0 spelled
  cases same
  cases start : starts c with
  | true => rfl
  | false =>
      rw [atFront_unstarted 0 _ start] at found
      cases found

theorem atFront_faulty {fault : LexError} (visible : isBlank c = false)
    (failed : (atFront position c rest).outcome = .error fault) :
    Faulty position (c :: rest) fault := by
  -- The sorts of lexeme are tried in the order in which the lexer tries them.
  cases symbol : symbol? c with
  | some sign =>
      rw [atFront_symbol position rest symbol] at failed
      cases failed
  | none =>
  by_cases quote : c = '"' ∨ c = '\''
  · rw [atFront_quote position rest quote] at failed
    by_cases closed : c ∈ rest
    · obtain ⟨text, after, rfl, absent⟩ := List.eq_append_cons_of_mem closed
      rw [quotedString_closed position after absent] at failed
      cases failed
    · rw [quotedString_open position closed] at failed
      cases failed
      exact .unterminated quote closed
  by_cases inside : Numeral.isNumeralChar c = true
  · obtain ⟨tail, after, rfl, all, ends, run⟩ := Text.exists_run_cons inside rest
    rw [atFront_numeral position _ inside, run, numeral] at failed
    cases read : Numeral.read? (c :: tail) with
    | some number => simp [read] at failed
    | none =>
        have unread : ¬ Numeral.IsNumeral (c :: tail) := by
          rw [← Numeral.read?_isSome, read]
          simp
        simp only [read] at failed
        cases failed
        exact @Faulty.numeral position (c :: tail) after (by simp) all unread ends
  by_cases dollar : c = '$'
  · subst dollar
    rw [atFront_field, fieldKey] at failed
    cases key : Field.atFront? rest with
    | some field => simp [key] at failed
    | none =>
        simp only [key] at failed
        cases failed
        exact .field (atFront?_eq_none.mp key)
  by_cases start : Text.isNameStart c = true
  · rw [atFront_word position _ start] at failed
    cases failed
  · have other : isQuote c = false := by simpa [isQuote] using quote
    have none : starts c = false := by simp [starts, symbol, other, inside, dollar, start]
    rw [atFront_unstarted position rest none] at failed
    cases failed
    exact .character visible none

theorem faulty_atFront {text : List Char} {fault : LexError} (faulty : Faulty position text fault) :
    ∃ c rest, text = c :: rest ∧ isBlank c = false ∧
      atFront position c rest = ⟨.error fault, fault.taken text⟩ := by
  cases faulty with
  | @unterminated quote rest sort absent =>
      refine ⟨quote, rest, rfl, ?_, ?_⟩
      · rcases sort with rfl | rfl <;> decide
      · rw [atFront_quote position _ sort, quotedString_open position absent]
        rfl
  | @numeral run rest nonempty all unread ends =>
      obtain ⟨first, tail, rfl⟩ := List.exists_cons_of_ne_nil nonempty
      have front := all first List.mem_cons_self
      have none : Numeral.read? (first :: tail) = none := by
        rwa [← Numeral.read?_isSome, Option.not_isSome_iff_eq_none] at unread
      refine ⟨first, tail ++ rest, rfl, isBlank_false (by decide) front, ?_⟩
      rw [atFront_numeral position _ front, ← List.cons_append, Text.takeWhile_run all ends,
        numeral, none, LexError.taken, String.toList_ofList]
  | @field rest absent =>
      refine ⟨'$', rest, rfl, by decide, ?_⟩
      rw [atFront_field, fieldKey, atFront?_eq_none.mpr absent]
      rfl
  | @character c rest visible none =>
      refine ⟨c, rest, rfl, visible, ?_⟩
      rw [atFront_unstarted position rest none]
      rfl

end AtFront

end Lexeme

/-- Text that is read as some tokens in front of what follows it, which does not go on with the
last of them. -/
inductive Leads : List Char → List Token → List Char → Prop where
  | blanks {blanks rest : List Char} : (∀ c ∈ blanks, isBlank c = true) → Leads blanks [] rest
  | lexeme {blanks text more rest : List Char} {token : Token} {tokens : List Token} :
      (∀ c ∈ blanks, isBlank c = true) → Spells text token (more ++ rest) →
      Leads more tokens rest → Leads (blanks ++ (text ++ more)) (token :: tokens) rest

theorem ends_front {kind : Char → Bool} {front back : List Char} (ends : Ends kind (front ++ back)) :
    Ends kind front := by
  intro c head
  apply ends c
  rw [List.head?_append, head]
  rfl

/-- A lexeme is one as well where the text is broken off after it. -/
theorem spells_front {text front back : List Char} {token : Token}
    (spelled : Spells text token (front ++ back)) : Spells text token front := by
  cases spelled with
  | field field => exact .field field
  | quoted sort absent => exact .quoted sort absent
  | numeral form read ends => exact .numeral form read (ends_front ends)
  | trueWord ends => exact .trueWord (ends_front ends)
  | falseWord ends => exact .falseWord (ends_front ends)
  | nullWord ends => exact .nullWord (ends_front ends)
  | word start inside other ends => exact .word start inside other (ends_front ends)
  | _ => constructor

theorem splits_of_leads {before rest : List Char} {found : List Token}
    (leads : Leads before found rest) : Splits before found := by
  induction leads with
  | blanks inside => exact .blanks inside
  | lexeme inside spelled _ ih => exact .lexeme inside (spells_front spelled) ih

namespace Cursor

variable {position : Nat} {fault : LexError}

theorem tokens_blanks {blanks : List Char} (inside : ∀ c ∈ blanks, isBlank c = true)
    (rest : List Char) :
    tokens ⟨position, blanks ++ rest⟩ = tokens ⟨position + blanks.length, rest⟩ := by
  have skipped : skipBlanks ⟨position, blanks ++ rest⟩ =
      skipBlanks ⟨position + blanks.length, rest⟩ := by
    simp only [skipBlanks, advance, List.takeWhile_append_of_pos inside, List.length_append,
      Nat.add_assoc, List.drop_append, Nat.add_sub_cancel_left]
    rw [List.drop_eq_nil_of_le (Nat.le_add_right ..), List.nil_append]
  rw [tokens_eq, tokens_eq]
  simp only [next, skipped]

/-- The lexer takes what leads up to a rest and goes on with the rest from there. -/
theorem tokens_leads {before rest : List Char} {found : List Token}
    (leads : Leads before found rest) (position : Nat) :
    tokens ⟨position, before ++ rest⟩ =
      (tokens ⟨position + before.length, rest⟩).map (found ++ ·) := by
  induction leads generalizing position with
  | @blanks blanks rest inside =>
      rw [tokens_blanks inside]
      cases tokens ⟨position + blanks.length, rest⟩ <;> rfl
  | @lexeme blanks text more rest token found inside spelled _ ih =>
      rw [List.append_assoc, List.append_assoc, tokens_eq, next_spelled inside spelled]
      simp only [ih, List.length_append, Nat.add_assoc]
      cases tokens ⟨position + (blanks.length + (text.length + more.length)), rest⟩ <;> rfl

theorem tokens_faulty {text : List Char} (faulty : Faulty position text fault) :
    tokens ⟨position, text⟩ = .error fault := by
  obtain ⟨c, rest, rfl, visible, failed⟩ := Lexeme.faulty_atFront faulty
  have step := @next_lexeme position [] rest c (fun _ member => nomatch member) visible
  rw [List.nil_append, List.length_nil, Nat.add_zero, failed] at step
  rw [tokens_eq, step]
  rfl

theorem exists_faulty {text : List Char} (failed : tokens ⟨position, text⟩ = .error fault) :
    ∃ before found rest, text = before ++ rest ∧ Leads before found rest ∧
      Faulty (position + before.length) rest fault := by
  -- Every lexeme takes at least its first character, so what is left is shorter.
  induction length : text.length using Nat.strongRecOn generalizing position text with
  | _ size ih =>
  obtain ⟨blanks, rest, rfl, inside, ends⟩ := Text.exists_run isBlank text
  cases rest with
  | nil =>
      rw [List.append_nil, tokens_eq, next_blanks inside] at failed
      cases failed
  | cons c rest =>
      cases lexeme : (Lexeme.atFront (position + blanks.length) c rest).outcome with
      | error found =>
          rw [tokens_eq, next_lexeme inside (ends c rfl), lexeme] at failed
          cases failed
          exact ⟨blanks, [], c :: rest, rfl, .blanks inside,
            Lexeme.atFront_faulty (ends c rfl) lexeme⟩
      | ok token =>
          obtain ⟨tail, after, rfl, -, spelled⟩ := Lexeme.atFront_spells _ lexeme
          rw [← List.cons_append, tokens_eq, next_spelled inside spelled] at failed
          simp only at failed
          have shorter : after.length < size := by
            simp only [List.length_append, List.length_cons] at length
            omega
          cases later : tokens ⟨position + blanks.length + (c :: tail).length, after⟩ with
          | ok tokens =>
              rw [later] at failed
              cases failed
          | error laterFault =>
              rw [later] at failed
              cases failed
              obtain ⟨before, found, rest, rfl, leads, faulty⟩ := ih after.length shorter later rfl
              refine ⟨blanks ++ (c :: tail ++ before), token :: found, rest, by simp,
                .lexeme inside spelled leads, ?_⟩
              simpa only [List.length_append, Nat.add_assoc] using faulty

/-- A text fails with a fault exactly if it is faulty behind a part that is read. -/
theorem tokens_eq_error {text : List Char} :
    tokens ⟨position, text⟩ = .error fault ↔
      ∃ before found rest, text = before ++ rest ∧ Leads before found rest ∧
        Faulty (position + before.length) rest fault := by
  constructor
  · exact exists_faulty
  · rintro ⟨before, found, rest, rfl, leads, faulty⟩
    rw [tokens_leads leads, tokens_faulty faulty]
    rfl

end Cursor

namespace LexError

def start : LexError → Nat
  -- Where the lexeme at fault starts. A missing field is reported behind its dollar sign.
  | .unterminatedString _ position => position
  | .invalidNumber _ position => position
  | .expectedFieldKey _ position => position - 1
  | .unexpectedChar _ position => position

/-- What stands in a text at the place that a fault names. -/
def Located (text : List Char) : LexError → Prop
  | .unterminatedString quote position =>
      (quote = '"' ∨ quote = '\'') ∧ text[position]? = some quote ∧
        quote ∉ text.drop (position + 1)
  | .invalidNumber run position =>
      run ≠ "" ∧ run.toList = (text.drop position).takeWhile Numeral.isNumeralChar ∧
        ¬ Numeral.IsNumeral run.toList
  | .expectedFieldKey found position =>
      0 < position ∧ text[position - 1]? = some '$' ∧ found = text[position]? ∧
        ∀ field : Field, ¬ field.name.toList <+: text.drop position
  | .unexpectedChar found position =>
      text[position]? = some found ∧ isBlank found = false ∧
        ∀ tail token rest, ¬ Spells (found :: tail) token rest

theorem located_of_faulty {before rest : List Char} {fault : LexError}
    (faulty : Faulty before.length rest fault) :
    fault.start = before.length ∧ fault.Located (before ++ rest) := by
  cases faulty with
  | @unterminated quote rest sort absent =>
      refine ⟨rfl, sort, by simp, ?_⟩
      rw [List.drop_append, Nat.add_sub_cancel_left, List.drop_eq_nil_of_le (Nat.le_succ _)]
      exact absent
  | @numeral run rest nonempty all unread ends =>
      refine ⟨rfl, ?_, ?_, ?_⟩
      · intro empty
        apply nonempty
        rw [← @String.toList_ofList run, empty]
        rfl
      · rw [String.toList_ofList, List.drop_left, Text.takeWhile_run all ends]
      · rwa [String.toList_ofList]
  | @field rest absent =>
      have left : (before ++ '$' :: rest).drop (before.length + 1) = rest := by
        rw [List.drop_append, Nat.add_sub_cancel_left, List.drop_eq_nil_of_le (Nat.le_succ _)]
        rfl
      refine ⟨rfl, Nat.succ_pos _, by simp, ?_, ?_⟩
      · rw [← List.head?_drop, left]
      · rwa [left]
  | @character c rest visible none =>
      refine ⟨rfl, by simp, visible, ?_⟩
      intro tail token after spelled
      rw [Lexeme.spells_starts spelled] at none
      cases none

end LexError

/-- Where a filter fails to be read as tokens, the text before the lexeme at fault is read without
a fault, as the same tokens by itself and where it stands. The fault tells what stands there: the
quote that is not closed, all of the run that is no numeral, what comes in place of a field, or the
character that no lexeme starts with. -/
theorem fault_located {source : String} {fault : LexError} (failed : lex source = .error fault) :
    let text := Text.trim source.toList
    (∃ found, (Cursor.start (text.take fault.start)).tokens = .ok found ∧
      Leads (text.take fault.start) found (text.drop fault.start)) ∧
    fault.Located text := by
  intro text
  obtain ⟨before, found, rest, same, leads, faulty⟩ := Cursor.exists_faulty failed
  rw [Nat.zero_add] at faulty
  obtain ⟨start, located⟩ := LexError.located_of_faulty faulty
  have divided : text = before ++ rest := same
  rw [divided, start, List.take_left, List.drop_left]
  exact ⟨⟨found, Cursor.tokens_of_splits (splits_of_leads leads) 0, leads⟩, located⟩

-- A string is not closed either, but behind the number.
theorem fault_located_of_two :
    lex " $key: 1.5.2 'x" = .error (.invalidNumber "1.5.2" 6) ∧
    (∃ found, (Cursor.start "$key: ".toList).tokens = .ok found ∧
      Leads "$key: ".toList found "1.5.2 'x".toList) ∧
    LexError.Located "$key: 1.5.2 'x".toList (.invalidNumber "1.5.2" 6) := by
  have failed : lex " $key: 1.5.2 'x" = .error (.invalidNumber "1.5.2" 6) := by cbv
  have trimmed : Text.trim " $key: 1.5.2 'x".toList = "$key: 1.5.2 'x".toList := by decide +kernel
  have located := fault_located failed
  rw [trimmed] at located
  exact ⟨failed, located⟩

end NodeFilter
