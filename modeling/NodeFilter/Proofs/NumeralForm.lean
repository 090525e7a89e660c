import NodeFilter.Decimal
import NodeFilter.Proofs.TextRun

/-!
The numerals that can be read: an optional sign, and then digits, digits with a
point and perhaps more digits after them, or a point and digits. What a numeral
stands for is always a number, an infinite one where it is too large.
-/

namespace NodeFilter

namespace Binary64

theorem nearest_not_nan (negative : Bool) (numerator denominator : Nat) :
    (nearest negative numerator denominator).isNaN = false := by
  have bound : nearestRank numerator denominator ≤ infinityRank := Nat.min_le_right _ _
  exact decide_eq_false (Nat.not_lt.mpr bound)

theorem ofDecimal_not_nan (negative : Bool) (coefficient : Nat) (exponent : Int) :
    (ofDecimal negative coefficient exponent).isNaN = false := by
  cases exponent <;> exact nearest_not_nan ..

end Binary64

namespace Numeral

open Text (Ends)

def AllDigits (text : List Char) : Prop := ∀ c ∈ text, isDigit c = true

inductive Unsigned : List Char → Prop where
  | whole {digits : List Char} : digits ≠ [] → AllDigits digits → Unsigned digits
  | point {whole fraction : List Char} : whole ≠ [] → AllDigits whole → AllDigits fraction →
      Unsigned (whole ++ '.' :: fraction)
  | fraction {digits : List Char} : digits ≠ [] → AllDigits digits → Unsigned ('.' :: digits)

inductive IsNumeral : List Char → Prop where
  | plain {text : List Char} : Unsigned text → IsNumeral text
  | plus {text : List Char} : Unsigned text → IsNumeral ('+' :: text)
  | minus {text : List Char} : Unsigned text → IsNumeral ('-' :: text)

theorem ends_point (fraction : List Char) : Ends isDigit ('.' :: fraction) :=
  Text.ends_cons (by decide)

/-! What the digits in front are worth, by what follows them. -/
section Unsigned

variable (negative : Bool) {whole : List Char}

theorem unsigned?_whole (digits : AllDigits whole) :
    unsigned? negative whole =
      if whole.isEmpty then none else some (.ofDecimal negative (ofDigits whole) 0) := by
  have run := Text.takeWhile_run digits Text.ends_nil
  have left := Text.dropWhile_run digits Text.ends_nil
  rw [List.append_nil] at run left
  simp only [unsigned?, run, left]

theorem unsigned?_point (digits : AllDigits whole) (fraction : List Char) :
    unsigned? negative (whole ++ '.' :: fraction) =
      if fraction.all isDigit && !(whole ++ fraction).isEmpty then
        some (.ofDecimal negative (ofDigits (whole ++ fraction)) (-fraction.length))
      else none := by
  simp only [unsigned?, Text.takeWhile_run digits (ends_point fraction),
    Text.dropWhile_run digits (ends_point fraction)]

theorem unsigned?_other (digits : AllDigits whole) {c : Char} (rest : List Char)
    (ends : Ends isDigit (c :: rest)) (other : c ≠ '.') :
    unsigned? negative (whole ++ c :: rest) = none := by
  simp only [unsigned?, Text.dropWhile_run digits ends]
  split
  · rename_i none
    cases none
  · rename_i point
    cases point
    exact absurd rfl other
  · rfl

end Unsigned

theorem unsigned?_isSome (negative : Bool) (text : List Char) :
    (unsigned? negative text).isSome ↔ Unsigned text := by
  constructor
  · intro read
    obtain ⟨whole, rest, rfl, digits, ends⟩ := Text.exists_run isDigit text
    cases rest with
    | nil =>
        rw [List.append_nil] at read ⊢
        rw [unsigned?_whole negative digits] at read
        exact .whole (by rintro rfl; simp at read) digits
    | cons c fraction =>
        by_cases point : c = '.'
        · subst point
          rw [unsigned?_point negative digits] at read
          split at read
          · rename_i form
            simp only [Bool.and_eq_true, List.all_eq_true] at form
            obtain ⟨fractionDigits, nonempty⟩ := form
            cases whole with
            | nil => exact .fraction (by rintro rfl; simp at nonempty) fractionDigits
            | cons first whole => exact .point (by simp) digits fractionDigits
          · simp at read
        · rw [unsigned?_other negative digits fraction ends point] at read
          cases read
  · intro form
    cases form with
    | whole nonempty digits => simp [unsigned?_whole negative digits, nonempty]
    | @point whole fraction nonempty digits fractionDigits =>
        have all : fraction.all isDigit = true := List.all_eq_true.mpr fractionDigits
        simp [unsigned?_point negative digits, all, nonempty]
    | @fraction digits nonempty allDigits =>
        have all : digits.all isDigit = true := List.all_eq_true.mpr allDigits
        have read := @unsigned?_point negative [] (fun _ member => nomatch member) digits
        rw [List.nil_append] at read
        simp [read, all, nonempty]

/-- The characters of a numeral, and how it starts. -/
theorem unsigned_chars {text : List Char} (form : Unsigned text) :
    (∃ first rest, text = first :: rest ∧ (isDigit first = true ∨ first = '.')) ∧
      ∀ c ∈ text, isDigit c = true ∨ c = '.' := by
  cases form with
  | @whole digits nonempty allDigits =>
      obtain ⟨first, rest, rfl⟩ := List.exists_cons_of_ne_nil nonempty
      exact ⟨⟨first, rest, rfl, Or.inl (allDigits first List.mem_cons_self)⟩,
        fun c member => Or.inl (allDigits c member)⟩
  | @point whole fraction nonempty digits fractionDigits =>
      obtain ⟨first, rest, rfl⟩ := List.exists_cons_of_ne_nil nonempty
      refine ⟨⟨first, _, rfl, Or.inl (digits first List.mem_cons_self)⟩, ?_⟩
      intro c member
      rcases List.mem_append.mp member with inWhole | inRest
      · exact Or.inl (digits c inWhole)
      · rcases List.mem_cons.mp inRest with same | inFraction
        · exact Or.inr same
        · exact Or.inl (fractionDigits c inFraction)
  | @fraction digits _ allDigits =>
      refine ⟨⟨'.', digits, rfl, Or.inr rfl⟩, ?_⟩
      intro c member
      rcases List.mem_cons.mp member with same | inDigits
      · exact Or.inr same
      · exact Or.inl (allDigits c inDigits)

theorem read?_unsigned {text : List Char} (form : Unsigned text) :
    read? text = unsigned? false text := by
  obtain ⟨⟨first, rest, rfl, start⟩, -⟩ := unsigned_chars form
  unfold read?
  split
  · rename_i same
    cases same
    simp [isDigit] at start
  · rename_i same
    cases same
    simp [isDigit] at start
  · rfl

theorem read?_isSome (text : List Char) : (read? text).isSome ↔ IsNumeral text := by
  constructor
  · unfold read?
    split
    · exact fun read => .minus ((unsigned?_isSome _ _).mp read)
    · exact fun read => .plus ((unsigned?_isSome _ _).mp read)
    · exact fun read => .plain ((unsigned?_isSome _ _).mp read)
  · intro form
    cases form with
    | plain form =>
        rw [read?_unsigned form]
        exact (unsigned?_isSome _ _).mpr form
    | plus form => exact (unsigned?_isSome false _).mpr form
    | minus form => exact (unsigned?_isSome true _).mpr form

theorem isNumeralChar_of_unsigned {text : List Char} (form : Unsigned text) :
    ∀ c ∈ text, isNumeralChar c = true := by
  intro c member
  rcases (unsigned_chars form).2 c member with digit | rfl
  · simp [isNumeralChar, digit]
  · decide

theorem isNumeralChar_of_isNumeral {text : List Char} (form : IsNumeral text) :
    ∀ c ∈ text, isNumeralChar c = true := by
  cases form with
  | plain form => exact isNumeralChar_of_unsigned form
  | plus form => exact List.forall_mem_cons.mpr ⟨by decide, isNumeralChar_of_unsigned form⟩
  | minus form => exact List.forall_mem_cons.mpr ⟨by decide, isNumeralChar_of_unsigned form⟩

theorem isNumeral_ne_nil {text : List Char} (form : IsNumeral text) : text ≠ [] := by
  rintro rfl
  cases form with
  | plain form =>
      obtain ⟨⟨first, rest, same, -⟩, -⟩ := unsigned_chars form
      cases same

theorem unsigned?_not_nan {negative : Bool} {text : List Char} {number : Binary64}
    (read : unsigned? negative text = some number) : number.isNaN = false := by
  obtain ⟨coefficient, exponent, rfl⟩ : ∃ coefficient exponent,
      number = .ofDecimal negative coefficient exponent := by
    -- Both branches that give a number give the one nearest to a decimal.
    simp only [unsigned?] at read
    split at read
    · split at read <;> cases read
      exact ⟨_, _, rfl⟩
    · split at read <;> cases read
      exact ⟨_, _, rfl⟩
    · cases read
  exact Binary64.ofDecimal_not_nan negative coefficient exponent

theorem read?_not_nan {text : List Char} {number : Binary64} (read : read? text = some number) :
    number.isNaN = false := by
  unfold read? at read
  split at read <;> exact unsigned?_not_nan read

end Numeral

end NodeFilter
