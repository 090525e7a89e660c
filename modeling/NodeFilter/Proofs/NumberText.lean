import Mathlib.Tactic.Ring
import NodeFilter.Decimal
import NodeFilter.Proofs.NumeralForm
import NodeFilter.Proofs.Rounding

/-!
Written numbers. What a layout writes for a finite number stands for a decimal, whether it has a
power of ten or not, and the decimal was taken because the number is the nearest to it. Rounding
depends on the quotient alone, so what is written tells which number it was written for.
-/

namespace NodeFilter

namespace Binary64

variable {numerator denominator : Nat}

theorem nearestRank_scale {factor : Nat} (positive : 0 < factor) (numerator denominator : Nat) :
    nearestRank (factor * numerator) (factor * denominator) =
      nearestRank numerator denominator := by
  rw [nearestRank, nearestRank, Nat.mul_assoc]
  generalize numerator * unitsPerOne = total
  rw [Nat.mul_div_mul_left _ _ positive]
  generalize (total / denominator).log2 - 52 = shift
  have steps : (factor * denominator) <<< shift = factor * (denominator <<< shift) := by
    rw [Nat.shiftLeft_eq, Nat.shiftLeft_eq, Nat.mul_assoc]
  rw [steps, Nat.mul_div_mul_left _ _ positive, Nat.mul_mod_mul_left]
  generalize denominator <<< shift = step
  generalize total % step = rest
  have above : factor * step < 2 * (factor * rest) ↔ step < 2 * rest := by
    rw [Nat.mul_left_comm, Nat.mul_lt_mul_left positive]
  have half : 2 * (factor * rest) = factor * step ↔ 2 * rest = step := by
    rw [Nat.mul_left_comm, Nat.mul_right_inj (Nat.ne_of_gt positive)]
  simp only [above, beq_eq_decide, half]

/-- Quotients that are equal are rounded alike. -/
theorem nearestRank_congr {other divisor : Nat} (positive : 0 < denominator) (also : 0 < divisor)
    (same : numerator * divisor = other * denominator) :
    nearestRank numerator denominator = nearestRank other divisor := by
  rw [← nearestRank_scale also, ← nearestRank_scale positive other, Nat.mul_comm divisor,
    Nat.mul_comm denominator other, same, Nat.mul_comm divisor]

end Binary64

namespace Decimal

def value (decimal : Decimal) : ℚ := decimal.coefficient * 10 ^ decimal.exponent

theorem rank_eq_nearestRank (decimal : Decimal) :
    ∃ numerator denominator : Nat, 0 < denominator ∧
      decimal.rank = Binary64.nearestRank numerator denominator ∧
      (numerator : ℚ) / denominator = decimal.value := by
  obtain ⟨coefficient, power | less⟩ := decimal
  · exact ⟨coefficient * 10 ^ power, 1, Nat.one_pos, rfl, by simp [value]⟩
  · refine ⟨coefficient, 10 ^ (less + 1), by positivity, rfl, ?_⟩
    simp [value, zpow_negSucc, div_eq_mul_inv]

theorem rank_congr {decimal other : Decimal} (same : decimal.value = other.value) :
    decimal.rank = other.rank := by
  obtain ⟨numerator, denominator, positive, rank, isValue⟩ := decimal.rank_eq_nearestRank
  obtain ⟨dividend, divisor, also, otherRank, isOther⟩ := other.rank_eq_nearestRank
  have nonzero : (denominator : ℚ) ≠ 0 := by positivity
  have otherNonzero : (divisor : ℚ) ≠ 0 := by positivity
  rw [rank, otherRank]
  apply Binary64.nearestRank_congr positive also
  rw [← isValue, ← isOther, div_eq_div_iff nonzero otherNonzero] at same
  exact_mod_cast same

theorem rank_of_value_zero {decimal : Decimal} (zero : decimal.value = 0) : decimal.rank = 0 := by
  obtain ⟨numerator, denominator, positive, rank, isValue⟩ := decimal.rank_eq_nearestRank
  have nonzero : (denominator : ℚ) ≠ 0 := by positivity
  rw [zero, div_eq_zero_iff, or_iff_left nonzero, Nat.cast_eq_zero] at isValue
  rw [rank]
  apply Binary64.nearestRank_exact positive (Nat.zero_le _)
  rw [Binary64.units_eq_zero.mpr rfl, isValue, Nat.zero_mul, Nat.zero_mul]

theorem rank_exact {rank : Nat} (finite : rank < Binary64.infinityRank) :
    (exact rank).rank = rank := by
  have negative : (-1074 : Int) = .negSucc 1073 := rfl
  have unit := Binary64.unitsPerOne_eq
  simp only [exact, Decimal.rank, negative, Binary64.ofDecimal, Binary64.nearest, Nat.reduceAdd]
  -- For any power, so that none of this size is computed. Ten is five times two.
  generalize 1074 = power at unit ⊢
  refine Binary64.nearestRank_exact (Nat.pow_pos (by decide)) (Nat.le_of_lt finite) ?_
  rw [unit, Nat.mul_assoc]
  exact congrArg (Binary64.units rank * ·) (Nat.mul_pow 5 2 power)

/-- The decimal that is found for a finite number is read back as that number. -/
theorem rank_shortest (tie : Tie) {rank : Nat} (finite : rank < Binary64.infinityRank) :
    (shortest tie rank).rank = rank := by
  rw [shortest]
  cases found : (List.range 17).findSome? _ with
  | none => exact rank_exact finite
  | some decimal =>
      obtain ⟨count, -, onGrid⟩ := List.exists_of_findSome?_eq_some found
      have sameRank := List.find?_some onGrid
      exact beq_iff_eq.mp sameRank

end Decimal

namespace Numeral

theorem ofDigits_append (digits others : List Char) :
    ofDigits (digits ++ others) = ofDigits digits * 10 ^ others.length + ofDigits others := by
  change Nat.ofDigitChars 10 (digits ++ others) 0 = _
  rw [Nat.ofDigitChars_append, Nat.ofDigitChars_eq_ofDigitChars_zero, Nat.mul_comm]
  rfl

theorem ofDigits_zeros (count : Nat) : ofDigits (List.replicate count '0') = 0 :=
  (@Nat.ofDigitChars_replicate_zero 10 0 count).trans (Nat.mul_zero _)

theorem ofDigits_zeros_append (count : Nat) (digits : List Char) :
    ofDigits (List.replicate count '0' ++ digits) = ofDigits digits := by
  rw [ofDigits_append, ofDigits_zeros, Nat.zero_mul, Nat.zero_add]

/-- A number has other digits than another, in decimals as in hexadecimals. -/
theorem toDigits_injective {base : Nat} (least : 1 < base) (most : base ≤ 16) :
    Function.Injective (Nat.toDigits base) := by
  have digit : ∀ first < 16, ∀ second < 16,
      Nat.digitChar first = Nat.digitChar second → first = second := by decide
  intro n
  induction n using Nat.strong_induction_on with
  | h n ih =>
      intro m same
      have lastOf (k : Nat) : k % base < 16 := Nat.lt_of_lt_of_le (Nat.mod_lt k (by omega)) most
      -- Numbers are equal that have the same last digit and the same digits before it.
      rcases Nat.lt_or_ge n base with short | long <;>
        rcases Nat.lt_or_ge m base with other | longer
      · rw [Nat.toDigits_of_lt_base short, Nat.toDigits_of_lt_base other] at same
        exact digit n (by omega) m (by omega) (List.singleton_inj.mp same)
      · rw [Nat.toDigits_of_lt_base short, Nat.toDigits_of_base_le least longer] at same
        have front := (List.append_inj' (@Eq.trans _ ([] ++ [_]) _ _ rfl same) rfl).1
        exact absurd front.symm Nat.toDigits_ne_nil
      · rw [Nat.toDigits_of_base_le least long, Nat.toDigits_of_lt_base other] at same
        have front := (List.append_inj' (@Eq.trans _ _ _ ([] ++ [_]) same rfl) rfl).1
        exact absurd front Nat.toDigits_ne_nil
      · rw [Nat.toDigits_of_base_le least long, Nat.toDigits_of_base_le least longer] at same
        obtain ⟨front, last⟩ := List.append_inj' same rfl
        have before := ih (n / base) (Nat.div_lt_self (by omega) least) front
        have after := digit _ (lastOf n) _ (lastOf m) (List.singleton_inj.mp last)
        rw [← Nat.div_add_mod n base, ← Nat.div_add_mod m base, before, after]

theorem toDigits_alphanum {base : Nat} (least : 1 < base) (most : base ≤ 16) (n : Nat) :
    ∀ c ∈ Nat.toDigits base n, c.isAlphanum = true := by
  have digit : ∀ value < 16, (Nat.digitChar value).isAlphanum = true := by decide
  induction n using Nat.strong_induction_on with
  | h n ih =>
      rcases Nat.lt_or_ge n base with short | long
      · rw [Nat.toDigits_of_lt_base short]
        exact List.forall_mem_singleton.mpr (digit n (by omega))
      · have last : n % base < 16 := Nat.lt_of_lt_of_le (Nat.mod_lt n (by omega)) most
        rw [Nat.toDigits_of_base_le least long]
        exact List.forall_mem_append.mpr ⟨ih (n / base) (Nat.div_lt_self (by omega) least),
          List.forall_mem_singleton.mpr (digit _ last)⟩

theorem allDigits_toDigits (n : Nat) : AllDigits (Nat.toDigits 10 n) := fun _ member =>
  Nat.isDigit_of_mem_toDigits (by omega) (Nat.le_refl 10) member

theorem allDigits_zeros (count : Nat) : AllDigits (List.replicate count '0') := by
  intro c member
  rw [List.eq_of_mem_replicate member]
  decide

theorem AllDigits.append {digits others : List Char} (first : AllDigits digits)
    (second : AllDigits others) : AllDigits (digits ++ others) :=
  List.forall_mem_append.mpr ⟨first, second⟩

theorem AllDigits.avoids {digits : List Char} (all : AllDigits digits) {c : Char}
    (other : isDigit c = false) : ∀ d ∈ digits, (d != c) = true := by
  intro d member
  rw [bne_iff_ne]
  rintro rfl
  rw [all d member] at other
  cases other

end Numeral

namespace Decimal

open Numeral (AllDigits)

variable (decimal : Decimal)

theorem digits_zeros : ∃ zeros,
    Nat.toDigits 10 decimal.coefficient = decimal.digits ++ List.replicate zeros '0' := by
  rw [digits]
  generalize Nat.toDigits 10 decimal.coefficient = written
  have zeros : ∀ c ∈ written.reverse.takeWhile (· == '0'), c = '0' := fun c member =>
    beq_iff_eq.mp (List.all_eq_true.mp List.all_takeWhile c member)
  refine ⟨(written.reverse.takeWhile (· == '0')).length, ?_⟩
  rw [← List.reverse_replicate, ← List.eq_replicate_of_mem zeros, ← List.reverse_append,
    List.takeWhile_append_dropWhile, List.reverse_reverse]

theorem allDigits_digits : AllDigits decimal.digits := by
  obtain ⟨zeros, whole⟩ := decimal.digits_zeros
  intro c member
  apply Numeral.allDigits_toDigits decimal.coefficient
  rw [whole]
  exact List.mem_append_left _ member

theorem value_digits :
    (Numeral.ofDigits decimal.digits : ℚ) * 10 ^ (decimal.point - decimal.digits.length) =
      decimal.value := by
  obtain ⟨zeros, whole⟩ := decimal.digits_zeros
  have count : digitCount decimal.coefficient = decimal.digits.length + zeros := by
    rw [digitCount, whole, List.length_append, List.length_replicate]
  have coefficient : decimal.coefficient = Numeral.ofDigits decimal.digits * 10 ^ zeros := by
    have read : Numeral.ofDigits (Nat.toDigits 10 decimal.coefficient) = decimal.coefficient :=
      Nat.ofDigitChars_ten_toDigits
    rw [whole, Numeral.ofDigits_append, Numeral.ofDigits_zeros, List.length_replicate] at read
    exact read.symm
  have shifted : decimal.point - decimal.digits.length = zeros + decimal.exponent := by
    rw [point, count]
    omega
  rw [value, coefficient, shifted, zpow_add₀ (by norm_num), zpow_natCast]
  push_cast
  ring

end Decimal

namespace Layout

open Numeral (AllDigits isDigit)
open Text (Ends)

def textPower (text : List Char) : Int :=
  (if '-' ∈ text then -1 else 1) * Numeral.ofDigits (text.filter isDigit)

/-- What a text of digits, with or without a point and a power of ten, stands for. -/
def textValue (text : List Char) : ℚ :=
  let mantissa := text.takeWhile (· != 'e')
  let fraction := (mantissa.dropWhile (· != '.')).length - 1
  Numeral.ofDigits (mantissa.filter isDigit) *
    10 ^ (textPower (text.dropWhile (· != 'e')) - fraction)

section Reading

variable {whole fraction rest : List Char}

theorem filter_digits (digits : AllDigits whole) : whole.filter isDigit = whole :=
  List.filter_eq_self.mpr digits

theorem textValue_whole (digits : AllDigits whole) (ends : Ends (· != 'e') rest) :
    textValue (whole ++ rest) = Numeral.ofDigits whole * 10 ^ textPower rest := by
  have inside := digits.avoids (by decide : isDigit 'e' = false)
  have noPoint := Text.dropWhile_run (digits.avoids (by decide : isDigit '.' = false)) Text.ends_nil
  rw [List.append_nil] at noPoint
  simp only [textValue, Text.takeWhile_run inside ends, Text.dropWhile_run inside ends, noPoint,
    filter_digits digits]
  simp

theorem textValue_point (digits : AllDigits whole) (others : AllDigits fraction)
    (ends : Ends (· != 'e') rest) :
    textValue (whole ++ '.' :: fraction ++ rest) =
      Numeral.ofDigits (whole ++ fraction) * 10 ^ (textPower rest - fraction.length) := by
  have inside : ∀ c ∈ whole ++ '.' :: fraction, (c != 'e') = true :=
    List.forall_mem_append.mpr ⟨digits.avoids (by decide),
      List.forall_mem_cons.mpr ⟨by decide, others.avoids (by decide)⟩⟩
  have mark : Ends (· != '.') ('.' :: fraction) := Text.ends_cons (by decide)
  have point := Text.dropWhile_run (digits.avoids (by decide : isDigit '.' = false)) mark
  have pointless : isDigit '.' = false := by decide
  simp only [textValue, Text.takeWhile_run inside ends, Text.dropWhile_run inside ends, point,
    List.filter_append, List.filter_cons, pointless, filter_digits digits, filter_digits others,
    Bool.false_eq_true, if_false, List.length_cons, Nat.add_sub_cancel]

theorem textPower_nil : textPower [] = 0 := rfl

theorem textPower_power (plus : Bool) (exponent : Int) :
    textPower (power plus exponent) = exponent := by
  have digits := Numeral.allDigits_toDigits exponent.natAbs
  have read : Numeral.ofDigits (Nat.toDigits 10 exponent.natAbs) = exponent.natAbs :=
    Nat.ofDigitChars_ten_toDigits
  have unsigned : '-' ∉ Nat.toDigits 10 exponent.natAbs := fun member =>
    absurd (digits _ member) (by decide)
  have mark : isDigit 'e' = false := by decide
  have minus : isDigit '-' = false := by decide
  have plusSign : isDigit '+' = false := by decide
  rw [textPower, power]
  by_cases below : exponent < 0
  · simp [below, mark, minus, filter_digits digits, read, abs_of_neg below]
  · have size := abs_of_nonneg (Int.not_lt.mp below)
    cases plus <;> simp [below, mark, plusSign, filter_digits digits, read, unsigned, size]

theorem power_ends (plus : Bool) (exponent : Int) : Ends (· != 'e') (power plus exponent) :=
  Text.ends_cons (by decide)

end Reading

section Writing

variable {digits : List Char}

theorem textValue_positional (all : AllDigits digits) (point : Int) :
    textValue (positional digits point) =
      Numeral.ofDigits digits * 10 ^ (point - digits.length) := by
  have zeros (count : Nat) := Numeral.allDigits_zeros count
  rw [positional]
  split
  case isTrue before =>
    -- All digits come after the point, and zeros stand before them.
    have read := textValue_point (zeros 1) ((zeros point.natAbs).append all) Text.ends_nil
    rw [List.append_nil, Numeral.ofDigits_zeros_append, Numeral.ofDigits_zeros_append,
      List.length_append, List.length_replicate, textPower_nil] at read
    refine read.trans ?_
    congr 2
    omega
  case isFalse after =>
    rcases Nat.lt_or_ge point.toNat digits.length with within | beyond
    · -- The point stands among the digits.
      have count : (digits.take point.toNat).length = point.toNat := List.length_take_of_le within.le
      have more : (digits.drop point.toNat).isEmpty = false := by simpa using within
      have front : AllDigits (digits.take point.toNat) := fun c member =>
        all c (List.mem_of_mem_take member)
      have back : AllDigits (digits.drop point.toNat) := fun c member =>
        all c (List.mem_of_mem_drop member)
      have read := textValue_point front back Text.ends_nil
      rw [List.append_nil, List.take_append_drop, textPower_nil, List.length_drop] at read
      simp only [count, more, Nat.sub_self, List.replicate_zero, List.append_nil]
      refine read.trans ?_
      congr 2
      omega
    · -- The digits end before the point, and zeros fill the gap.
      have read := textValue_point (all.append (zeros (point.toNat - digits.length))) (zeros 1)
        Text.ends_nil
      rw [List.append_nil, Numeral.ofDigits_append, Numeral.ofDigits_zeros, textPower_nil,
        Numeral.ofDigits_append, Numeral.ofDigits_zeros, List.length_replicate,
        List.length_replicate] at read
      rw [List.take_of_length_le beyond, List.drop_of_length_le beyond]
      refine read.trans ?_
      have gap : point - digits.length = ((point.toNat - digits.length : Nat) : Int) := by omega
      rw [gap, zpow_natCast]
      push_cast
      norm_num
      ring

theorem textValue_scientific (all : AllDigits digits) (plus : Bool) (exponent : Int) :
    textValue (scientific plus digits exponent) =
      Numeral.ofDigits digits * 10 ^ (exponent + 1 - digits.length) := by
  have ends := power_ends plus exponent
  rcases digits with _ | ⟨first, _ | ⟨second, rest⟩⟩
  · refine (textValue_whole all ends).trans ?_
    simp [Numeral.ofDigits]
  · refine (textValue_whole all ends).trans ?_
    rw [textPower_power]
    simp
  · obtain ⟨front, others⟩ := List.forall_mem_cons.mp all
    refine (textValue_point (List.forall_mem_singleton.mpr front) others ends).trans ?_
    rw [textPower_power, List.singleton_append]
    congr 2
    simp only [List.length_cons]
    omega

end Writing

/-- What is written for a finite number stands for a decimal that is read back as the number. -/
theorem magnitude_decimal (layout : Layout) {rank : Nat} (finite : rank < Binary64.infinityRank) :
    ∃ decimal : Decimal, decimal.rank = rank ∧
      textValue (layout.magnitude rank) = decimal.value := by
  rw [magnitude]
  split
  case isTrue zero =>
    subst zero
    refine ⟨⟨0, 0⟩, Decimal.rank_of_value_zero (by simp [Decimal.value]), ?_⟩
    have read := @textValue_point ['0'] ['0'] [] (Numeral.allDigits_zeros 1)
      (Numeral.allDigits_zeros 1) Text.ends_nil
    refine read.trans ?_
    simp [Numeral.ofDigits, Decimal.value]
  case isFalse =>
    refine ⟨_, Decimal.rank_shortest layout.tie finite, ?_⟩
    generalize Decimal.shortest layout.tie rank = decimal
    have all := decimal.allDigits_digits
    dsimp only
    split
    · rw [textValue_positional all, decimal.value_digits]
    · rw [textValue_scientific all, Int.sub_add_cancel, decimal.value_digits]

/-! The characters that numbers are written with. -/
section Characters

def isNumberChar (c : Char) : Bool := Numeral.isNumeralChar c || c == 'e'

theorem numberChar_of_digits {digits : List Char} (all : AllDigits digits) :
    ∀ c ∈ digits, isNumberChar c = true := by
  intro c member
  simp [isNumberChar, Numeral.isNumeralChar, all c member]

theorem unsigned_of_digits {digits : List Char} (all : AllDigits digits) :
    Ends (· == '-') digits := by
  intro c head
  have digit := all c (List.mem_of_head? head)
  exact beq_eq_false_iff_ne.mpr fun minus => by simp [minus, isDigit] at digit

theorem positional_chars {digits : List Char} (all : AllDigits digits) (point : Int) :
    (∀ c ∈ positional digits point, isNumberChar c = true) ∧
      Ends (· == '-') (positional digits point) := by
  have zeros (count : Nat) := numberChar_of_digits (Numeral.allDigits_zeros count)
  have plain := numberChar_of_digits all
  have mark : isNumberChar '.' = true := by decide
  rw [positional]
  split
  · refine ⟨?_, Text.ends_cons (by decide)⟩
    simp only [List.forall_mem_cons, List.forall_mem_append]
    exact ⟨by decide, mark, zeros _, plain⟩
  · have front : AllDigits (digits.take point.toNat ++ List.replicate
        (point.toNat - (digits.take point.toNat).length) '0') :=
      AllDigits.append (fun c member => all c (List.mem_of_mem_take member))
        (Numeral.allDigits_zeros _)
    refine ⟨?_, Text.ends_append (unsigned_of_digits front) fun _ => Text.ends_cons (by decide)⟩
    refine List.forall_mem_append.mpr ⟨numberChar_of_digits front,
      List.forall_mem_cons.mpr ⟨mark, ?_⟩⟩
    split
    · exact zeros 1
    · exact fun c member => plain c (List.mem_of_mem_drop member)

theorem power_chars (plus : Bool) (exponent : Int) :
    ∀ c ∈ power plus exponent, isNumberChar c = true := by
  have digits := numberChar_of_digits (Numeral.allDigits_toDigits exponent.natAbs)
  refine List.forall_mem_cons.mpr ⟨by decide, List.forall_mem_append.mpr ⟨?_, digits⟩⟩
  cases plus <;> split <;> exact List.all_eq_true.mp (by decide)

theorem scientific_chars {digits : List Char} (all : AllDigits digits) (plus : Bool)
    (exponent : Int) :
    (∀ c ∈ scientific plus digits exponent, isNumberChar c = true) ∧
      Ends (· == '-') (scientific plus digits exponent) := by
  have mark := power_chars plus exponent
  have marked : Ends (· == '-') (power plus exponent) := Text.ends_cons (by decide)
  rcases digits with _ | ⟨first, _ | ⟨second, rest⟩⟩
  · exact ⟨mark, marked⟩
  · exact ⟨List.forall_mem_cons.mpr ⟨numberChar_of_digits all first List.mem_cons_self, mark⟩,
      Text.ends_cons (unsigned_of_digits all first rfl)⟩
  · have plain := numberChar_of_digits all
    obtain ⟨front, others⟩ := List.forall_mem_cons.mp plain
    refine ⟨List.forall_mem_cons.mpr ⟨front, List.forall_mem_cons.mpr ⟨by decide,
      List.forall_mem_append.mpr ⟨others, mark⟩⟩⟩, ?_⟩
    exact Text.ends_cons (unsigned_of_digits all first rfl)

theorem magnitude_chars (layout : Layout) (rank : Nat) :
    (∀ c ∈ layout.magnitude rank, isNumberChar c = true) ∧
      Ends (· == '-') (layout.magnitude rank) := by
  rw [magnitude]
  split
  · exact ⟨List.all_eq_true.mp (by decide), Text.ends_cons (by decide)⟩
  · have all := (Decimal.shortest layout.tie rank).allDigits_digits
    dsimp only
    split
    · exact positional_chars all _
    · exact scientific_chars all _ _

theorem magnitude_ne_nil (layout : Layout) (rank : Nat) : layout.magnitude rank ≠ [] := by
  rw [magnitude]
  split
  · exact List.cons_ne_nil _ _
  · dsimp only
    split
    · unfold positional
      split <;> simp
    · simp [scientific, power]

end Characters

def NamesInfinity (layout : Layout) : Prop :=
  ∃ c rest, layout.infinity.toList = c :: rest ∧ isNumberChar c = false

section Write

variable {layout : Layout} {x y : Binary64}

def unsigned (layout : Layout) (x : Binary64) : List Char :=
  if x.isFinite then layout.magnitude x.rank else layout.infinity.toList

theorem toList_write (number : x.isNaN = false) :
    (layout.write x).toList = (if x.negative then ['-'] else []) ++ layout.unsigned x := by
  rw [write, number, unsigned]
  cases x.negative <;> cases x.isFinite <;> simp

/-- A number is written in characters of numbers, or by the word for what is not finite. -/
theorem write_chars {kind : Char → Bool} (numbers : ∀ c, isNumberChar c = true → kind c = true)
    (infinity : ∀ c ∈ layout.infinity.toList, kind c = true)
    (notANumber : ∀ c ∈ layout.notANumber.toList, kind c = true) (x : Binary64) :
    ∀ c ∈ (layout.write x).toList, kind c = true := by
  cases number : x.isNaN with
  | true => simpa only [write, number, if_true] using notANumber
  | false =>
      rw [toList_write number]
      refine List.forall_mem_append.mpr ⟨?_, ?_⟩
      · cases x.negative
        · exact fun _ member => nomatch member
        · exact List.forall_mem_singleton.mpr (numbers '-' (by decide))
      · rw [unsigned]
        split
        · exact fun c member => numbers c ((layout.magnitude_chars x.rank).1 c member)
        · exact infinity

theorem write_nonempty (names : layout.NamesInfinity) (number : x.isNaN = false) :
    (layout.write x).toList ≠ [] := by
  rw [toList_write number]
  refine List.append_ne_nil_of_right_ne_nil _ ?_
  rw [unsigned]
  split
  · exact layout.magnitude_ne_nil x.rank
  · obtain ⟨c, rest, word, -⟩ := names
    rw [word]
    exact List.cons_ne_nil c rest

theorem unsigned_ends (names : layout.NamesInfinity) (x : Binary64) :
    Ends (· == '-') (layout.unsigned x) := by
  rw [unsigned]
  split
  · exact (layout.magnitude_chars x.rank).2
  · obtain ⟨c, rest, word, other⟩ := names
    rw [word]
    refine Text.ends_cons (beq_eq_false_iff_ne.mpr ?_)
    rintro rfl
    exact absurd other (by decide)

theorem magnitude_ne_infinity (names : layout.NamesInfinity) (rank : Nat) :
    layout.magnitude rank ≠ layout.infinity.toList := by
  obtain ⟨c, rest, word, other⟩ := names
  intro same
  have inside := (layout.magnitude_chars rank).1 c (by rw [same, word]; exact List.mem_cons_self)
  rw [other] at inside
  cases inside

theorem magnitude_injective {rank other : Nat} (finite : rank < Binary64.infinityRank)
    (also : other < Binary64.infinityRank) (same : layout.magnitude rank = layout.magnitude other) :
    rank = other := by
  obtain ⟨decimal, isRank, value⟩ := layout.magnitude_decimal finite
  obtain ⟨second, isOther, otherValue⟩ := layout.magnitude_decimal also
  rw [← isRank, ← isOther]
  exact Decimal.rank_congr (value.symm.trans ((congrArg textValue same).trans otherValue))

theorem infinite_rank (number : x.isNaN = false) (infinite : x.isFinite = false) :
    x.rank = Binary64.infinityRank :=
  Nat.le_antisymm (Nat.not_lt.mp (of_decide_eq_false number))
    (Nat.not_lt.mp (of_decide_eq_false infinite))

theorem unsigned_injective (names : layout.NamesInfinity) (number : x.isNaN = false)
    (also : y.isNaN = false) (same : layout.unsigned x = layout.unsigned y) : x.rank = y.rank := by
  rw [unsigned, unsigned] at same
  cases finite : x.isFinite <;> cases otherFinite : y.isFinite <;>
    simp only [finite, otherFinite, if_true, if_false, Bool.false_eq_true] at same
  · rw [infinite_rank number finite, infinite_rank also otherFinite]
  · exact absurd same.symm (magnitude_ne_infinity names _)
  · exact absurd same (magnitude_ne_infinity names _)
  · exact magnitude_injective (Binary64.rank_lt_of_isFinite finite)
      (Binary64.rank_lt_of_isFinite otherFinite) same

/-- No two numbers are written alike, of whatever sign and size. -/
theorem write_injective (names : layout.NamesInfinity) (number : x.isNaN = false)
    (also : y.isNaN = false) (same : layout.write x = layout.write y) : x = y := by
  have texts := congrArg String.toList same
  rw [toList_write number, toList_write also] at texts
  have signs (sign : Bool) (z : Binary64) :
      ((if sign then ['-'] else []) ++ layout.unsigned z).head? = some '-' ↔ sign = true := by
    cases sign with
    | false =>
        simp only [Bool.false_eq_true, if_false, List.nil_append, iff_false]
        exact fun head => absurd (unsigned_ends names z _ head) (by decide)
    | true => simp
  have negative : x.negative = y.negative := by
    rw [Bool.eq_iff_iff, ← signs x.negative x, ← signs y.negative y, texts]
  rw [negative, List.append_cancel_left_eq] at texts
  have rank := unsigned_injective names number also texts
  cases x
  cases y
  cases negative
  cases rank
  rfl

end Write

end Layout

end NodeFilter
