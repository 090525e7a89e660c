import NodeFilter.Proofs.NumeralForm
import NodeFilter.Token.Lexer

/-!
What a lexeme is, apart from how it is found. A text spells a token in front of
what follows it: runs of numeral or word characters must be whole, everything
else shows where it ends.
-/

namespace NodeFilter

open Text (Ends)

inductive Spells : List Char → Token → List Char → Prop where
  | and {rest : List Char} : Spells ['&'] (.connective .and) rest
  | or {rest : List Char} : Spells ['|'] (.connective .or) rest
  | not {rest : List Char} : Spells ['!'] .not rest
  | colon {rest : List Char} : Spells [':'] .colon rest
  | leftParen {rest : List Char} : Spells ['('] .leftParen rest
  | rightParen {rest : List Char} : Spells [')'] .rightParen rest
  | field {rest : List Char} (field : Field) : Spells ('$' :: field.name.toList) (.field field) rest
  | quoted {quote : Char} {text rest : List Char} :
      quote = '"' ∨ quote = '\'' → quote ∉ text →
      Spells (quote :: (text ++ [quote])) (.literal (.string (String.ofList text))) rest
  | numeral {text rest : List Char} {number : Binary64} :
      Numeral.IsNumeral text → Numeral.read? text = some number →
      Ends Numeral.isNumeralChar rest → Spells text (.literal (.number number)) rest
  | trueWord {rest : List Char} : Ends Text.isWordChar rest →
      Spells ['t', 'r', 'u', 'e'] (.literal (.boolean true)) rest
  | falseWord {rest : List Char} : Ends Text.isWordChar rest →
      Spells ['f', 'a', 'l', 's', 'e'] (.literal (.boolean false)) rest
  | nullWord {rest : List Char} : Ends Text.isWordChar rest →
      Spells ['n', 'u', 'l', 'l'] (.literal .null) rest
  | word {first : Char} {tail rest : List Char} :
      Text.isNameStart first = true → (∀ c ∈ tail, Text.isWordChar c = true) →
      first :: tail ∉ [['t', 'r', 'u', 'e'], ['f', 'a', 'l', 's', 'e'], ['n', 'u', 'l', 'l']] →
      Ends Text.isWordChar rest →
      Spells (first :: tail) (.literal (.string (String.ofList (first :: tail)))) rest

namespace Lexeme

/-! The first character tells what sort of lexeme it starts. -/
section FirstCharacter

theorem symbol?_none {kind : Char → Bool} {c : Char}
    (outside : ['&', '|', '!', ':', '(', ')'].any kind = false)
    (inside : kind c = true) : symbol? c = none := by
  simp only [List.any_cons, Bool.or_eq_false_iff] at outside
  unfold symbol?
  split <;> simp_all

theorem isQuote_false {kind : Char → Bool} {c : Char}
    (outside : ['"', '\''].any kind = false) (inside : kind c = true) : isQuote c = false := by
  simp only [List.any_cons, Bool.or_eq_false_iff] at outside
  simp only [isQuote, Bool.or_eq_false_iff, beq_eq_false_iff_ne]
  constructor <;>
  · rintro rfl
    simp_all

theorem outside_of_isBlank {kind : Char → Bool} {c : Char}
    (outside : [' ', '\t', '\n', '\r'].any kind = false)
    (blank : Text.isBlank c = true) : kind c = false := by
  simp only [List.any_cons, Bool.or_eq_false_iff] at outside
  simp only [Text.isBlank, Bool.or_eq_true, beq_iff_eq] at blank
  rcases blank with ((rfl | rfl) | rfl) | rfl <;> simp_all

theorem isBlank_false {kind : Char → Bool} {c : Char}
    (outside : [' ', '\t', '\n', '\r'].any kind = false)
    (inside : kind c = true) : Text.isBlank c = false := by
  apply Bool.eq_false_iff.mpr
  intro blank
  rw [outside_of_isBlank outside blank] at inside
  cases inside

theorem isDigit_false_of_isAlpha {c : Char} (letter : c.isAlpha = true) : c.isDigit = false := by
  have beyond : '9'.val < c.val := by
    rcases Bool.or_eq_true_iff.mp letter with upper | lower
    · have first : 'A'.val ≤ c.val := (of_decide_eq_true upper).1
      exact UInt32.lt_of_lt_of_le (by decide) first
    · have first : 'a'.val ≤ c.val := of_decide_eq_true (Bool.and_eq_true_iff.mp lower).1
      exact UInt32.lt_of_lt_of_le (by decide) first
  exact Bool.and_eq_false_iff.mpr (Or.inr (decide_eq_false (UInt32.not_le.mpr beyond)))

-- A word that is no name starts with a digit, and is read as a numeral.
theorem isNameStart_iff (c : Char) :
    Text.isNameStart c = true ↔ Text.isWordChar c = true ∧ Numeral.isNumeralChar c = false := by
  have digit : Numeral.isDigit c = c.isDigit := rfl
  simp only [Text.isNameStart, Text.isWordChar, Numeral.isNumeralChar, digit, Char.isAlphanum,
    Bool.or_eq_true, Bool.or_eq_false_iff, beq_iff_eq, beq_eq_false_iff_ne]
  constructor
  · rintro (letter | rfl)
    · refine ⟨Or.inl (Or.inl letter), ⟨⟨isDigit_false_of_isAlpha letter, ?_⟩, ?_⟩, ?_⟩ <;>
      · rintro rfl
        exact absurd letter (by decide)
    · decide
  · rintro ⟨(letter | isDigit) | underscore, other⟩
    · exact Or.inl letter
    · rw [other.1.1.1] at isDigit
      cases isDigit
    · exact Or.inr underscore

end FirstCharacter

/-! What stands at the front, by the sort of lexeme it starts. -/
section AtFront

variable (position : Nat) {c : Char} (rest : List Char)

theorem atFront_symbol {token : Token} (symbol : symbol? c = some token) :
    atFront position c rest = ⟨.ok token, 1⟩ := by
  simp only [atFront, symbol]

theorem atFront_quote (quote : c = '"' ∨ c = '\'') :
    atFront position c rest = quotedString position c rest := by
  rcases quote with rfl | rfl <;> rfl

theorem atFront_numeral (inside : Numeral.isNumeralChar c = true) :
    atFront position c rest = numeral position ((c :: rest).takeWhile Numeral.isNumeralChar) := by
  have symbol := symbol?_none (by decide) inside
  have quote := isQuote_false (by decide) inside
  simp only [atFront, symbol, quote, inside, if_true, Bool.false_eq_true, if_false]

theorem atFront_field : atFront position '$' rest = fieldKey position rest := rfl

theorem atFront_word (start : Text.isNameStart c = true) :
    atFront position c rest =
      ⟨.ok (.literal (wordLiteral ((c :: rest).takeWhile Text.isWordChar))),
        ((c :: rest).takeWhile Text.isWordChar).length⟩ := by
  have symbol := symbol?_none (by decide) start
  have quote := isQuote_false (by decide) start
  obtain ⟨inside, numeral⟩ := (isNameStart_iff c).mp start
  have dollar : c ≠ '$' := by
    rintro rfl
    exact absurd start (by decide)
  simp only [atFront, symbol, quote, numeral, inside, dollar, if_true, Bool.false_eq_true, if_false]

theorem atFront_other (symbol : symbol? c = none) (quote : isQuote c = false)
    (numeral : Numeral.isNumeralChar c = false) (dollar : c ≠ '$')
    (name : Text.isNameStart c = false) :
    atFront position c rest = ⟨.error (.unexpectedChar c position), 0⟩ := by
  have word : Text.isWordChar c = false := by
    apply Bool.eq_false_iff.mpr
    intro word
    rw [(isNameStart_iff c).mpr ⟨word, numeral⟩] at name
    cases name
  simp only [atFront, symbol, quote, numeral, word, dollar, Bool.false_eq_true, if_false]

end AtFront

/-! Each sort of lexeme, found and spelled. -/
section Found

variable (position : Nat)

theorem quotedString_closed {quote : Char} {text : List Char} (rest : List Char)
    (absent : quote ∉ text) :
    quotedString position quote (text ++ quote :: rest) =
      ⟨.ok (.literal (.string (String.ofList text))), text.length + 2⟩ := by
  have inside : ∀ c ∈ text, (c != quote) = true := by
    intro c member
    exact bne_iff_ne.mpr fun same => absent (same ▸ member)
  have ends : Ends (· != quote) (quote :: rest) := Text.ends_cons (by simp)
  rw [quotedString, Text.takeWhile_run inside ends, Text.dropWhile_run inside ends]

theorem quotedString_open {quote : Char} {rest : List Char} (absent : quote ∉ rest) :
    quotedString position quote rest =
      ⟨.error (.unterminatedString quote position), rest.length + 1⟩ := by
  have inside : ∀ c ∈ rest, (c != quote) = true := by
    intro c member
    exact bne_iff_ne.mpr fun same => absent (same ▸ member)
  have remaining := Text.dropWhile_run inside Text.ends_nil
  rw [List.append_nil] at remaining
  rw [quotedString, remaining]

theorem field_atFront? (field : Field) (rest : List Char) :
    Field.atFront? (field.name.toList ++ rest) = some field := by
  cases field <;> rfl

theorem name_of_atFront? {text : List Char} {field : Field}
    (found : Field.atFront? text = some field) : ∃ rest, text = field.name.toList ++ rest := by
  have fits := List.find?_some found
  obtain ⟨rest, same⟩ := List.isPrefixOf_iff_prefix.mp fits
  exact ⟨rest, same.symm⟩

theorem wordLiteral_spells {first : Char} {tail rest : List Char}
    (start : Text.isNameStart first = true) (inside : ∀ c ∈ tail, Text.isWordChar c = true)
    (ends : Ends Text.isWordChar rest) :
    Spells (first :: tail) (.literal (wordLiteral (first :: tail))) rest := by
  unfold wordLiteral
  split
  · rename_i keyword
    rw [keyword]
    exact .trueWord ends
  · split
    · rename_i keyword
      rw [keyword]
      exact .falseWord ends
    · split
      · rename_i keyword
        rw [keyword]
        exact .nullWord ends
      · exact .word start inside (by simp_all) ends

/-- A lexeme found at the front spells its token, and its length is the text's. -/
theorem atFront_spells {c : Char} {rest : List Char} {token : Token}
    (found : (atFront position c rest).outcome = .ok token) :
    ∃ tail after, rest = tail ++ after ∧
      (atFront position c rest).length = tail.length + 1 ∧ Spells (c :: tail) token after := by
  -- The sorts of lexeme are tried in the order in which the lexer tries them.
  cases symbol : symbol? c with
  | some sign =>
      rw [atFront_symbol position rest symbol] at found ⊢
      cases found
      refine ⟨[], rest, rfl, rfl, ?_⟩
      unfold symbol? at symbol
      split at symbol <;> cases symbol <;> constructor
  | none =>
  by_cases quote : c = '"' ∨ c = '\''
  · rw [atFront_quote position rest quote] at found ⊢
    by_cases closed : c ∈ rest
    · obtain ⟨text, after, rfl, absent⟩ := List.eq_append_cons_of_mem closed
      rw [quotedString_closed position after absent] at found ⊢
      cases found
      exact ⟨text ++ [c], after, by simp, by simp, .quoted quote absent⟩
    · rw [quotedString_open position closed] at found
      cases found
  by_cases inside : Numeral.isNumeralChar c = true
  · obtain ⟨tail, after, rfl, _, ends, run⟩ := Text.exists_run_cons inside rest
    rw [atFront_numeral position _ inside, run] at found ⊢
    cases read : Numeral.read? (c :: tail) with
    | none => simp [numeral, read] at found
    | some number =>
        have form := (Numeral.read?_isSome (c :: tail)).mp (by rw [read]; rfl)
        simp only [numeral, read] at found ⊢
        cases found
        exact ⟨tail, after, rfl, rfl, .numeral form read ends⟩
  by_cases dollar : c = '$'
  · subst dollar
    rw [atFront_field, fieldKey] at found ⊢
    cases key : Field.atFront? rest with
    | none => simp [key] at found
    | some field =>
        obtain ⟨after, rfl⟩ := name_of_atFront? key
        simp only [key] at found ⊢
        cases found
        exact ⟨field.name.toList, after, rfl, rfl, .field field⟩
  by_cases start : Text.isNameStart c = true
  · have word := ((isNameStart_iff c).mp start).1
    obtain ⟨tail, after, rfl, all, ends, run⟩ := Text.exists_run_cons word rest
    rw [atFront_word position _ start, run] at found ⊢
    cases found
    refine ⟨tail, after, rfl, rfl, wordLiteral_spells start ?_ ends⟩
    exact fun x member => all x (List.mem_cons_of_mem c member)
  · have other : isQuote c = false := by simpa [isQuote] using quote
    rw [atFront_other position rest symbol other (by simpa using inside) dollar
      (by simpa using start)] at found
    cases found

theorem word_atFront {first : Char} {tail rest : List Char}
    (start : Text.isNameStart first = true) (inside : ∀ c ∈ tail, Text.isWordChar c = true)
    (ends : Ends Text.isWordChar rest) :
    ∃ c word, first :: tail = c :: word ∧ Text.isBlank c = false ∧
      atFront position c (word ++ rest) =
        ⟨.ok (.literal (wordLiteral (first :: tail))), (first :: tail).length⟩ := by
  have front := ((isNameStart_iff first).mp start).1
  refine ⟨first, tail, rfl, isBlank_false (by decide) start, ?_⟩
  have all : ∀ c ∈ first :: tail, Text.isWordChar c = true :=
    List.forall_mem_cons.mpr ⟨front, inside⟩
  rw [atFront_word position _ start, ← List.cons_append, Text.takeWhile_run all ends]

/-- A text that spells a token is found at the front of what follows it. -/
theorem spells_atFront {text : List Char} {token : Token} {rest : List Char}
    (spelled : Spells text token rest) :
    ∃ c tail, text = c :: tail ∧ Text.isBlank c = false ∧
      atFront position c (tail ++ rest) = ⟨.ok token, text.length⟩ := by
  cases spelled with
  | field field =>
      refine ⟨'$', field.name.toList, rfl, by decide, ?_⟩
      rw [atFront_field, fieldKey, field_atFront?]
      rfl
  | @quoted quote text _ sort absent =>
      refine ⟨quote, text ++ [quote], rfl, ?_, ?_⟩
      · rcases sort with rfl | rfl <;> decide
      · rw [atFront_quote position _ sort, List.append_assoc]
        simpa using quotedString_closed position rest absent
  | @numeral _ _ number form read ends =>
      obtain ⟨first, tail, rfl⟩ := List.exists_cons_of_ne_nil (Numeral.isNumeral_ne_nil form)
      have all := Numeral.isNumeralChar_of_isNumeral form
      have front := all first List.mem_cons_self
      refine ⟨first, tail, rfl, isBlank_false (by decide) front, ?_⟩
      rw [atFront_numeral position _ front, ← List.cons_append, Text.takeWhile_run all ends,
        numeral, read]
  | trueWord ends => exact word_atFront position (by decide) (List.all_eq_true.mp (by decide)) ends
  | falseWord ends => exact word_atFront position (by decide) (List.all_eq_true.mp (by decide)) ends
  | nullWord ends => exact word_atFront position (by decide) (List.all_eq_true.mp (by decide)) ends
  | @word first tail _ start inside other ends =>
      have plain : wordLiteral (first :: tail) = .string (String.ofList (first :: tail)) := by
        simp only [List.mem_cons, not_or] at other
        simp only [wordLiteral, other.1, other.2.1, other.2.2.1, if_false]
      rw [← plain]
      exact word_atFront position start inside ends
  | _ => exact ⟨_, [], rfl, by decide, rfl⟩

end Found

end Lexeme

end NodeFilter
