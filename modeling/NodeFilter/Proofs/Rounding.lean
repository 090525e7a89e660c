import Mathlib.Data.Nat.Dist
import Mathlib.Tactic.Positivity
import NodeFilter.Binary64

/-!
Rounding. The magnitudes increase with their ranks, and the rank that is nearest to a quotient is
one of the two around it, so no other magnitude is nearer. A quotient that is a magnitude itself is
kept. Whole numbers are magnitudes up to 2^53.
-/

namespace NodeFilter.Binary64

theorem unitsPerOne_eq : unitsPerOne = 2 ^ 1074 := by
  -- Stated for any exponent, so that no power of this size is computed.
  have shifted (exponent : Nat) : 1 <<< exponent = 2 ^ exponent := Nat.one_shiftLeft exponent
  exact shifted 1074

theorem unitsPerOne_pos : 0 < unitsPerOne := by
  rw [unitsPerOne_eq]
  positivity

theorem binade_eq : binade = 2 ^ 52 := by decide

/-! Magnitudes of one exponent are the multiples of a power of two, as many as go into a binade. -/
section Grid

variable {shift significand : Nat}

theorem units_binade (shift : Nat) {fraction : Nat} (inside : fraction < binade) :
    units ((shift + 1) * binade + fraction) = (binade + fraction) * 2 ^ shift := by
  have positive : 0 < binade := Nat.zero_lt_of_lt inside
  cases shift with
  | zero =>
      rw [units, if_pos (by omega)]
      omega
  | succ shift =>
      have beyond : 2 * binade ≤ (shift + 1 + 1) * binade :=
        Nat.mul_le_mul_right binade (by omega)
      have exponent : ((shift + 1 + 1) * binade + fraction) / binade = shift + 1 + 1 := by
        rw [Nat.mul_comm, Nat.mul_add_div positive, Nat.div_eq_of_lt inside, Nat.add_zero]
      have rest : ((shift + 1 + 1) * binade + fraction) % binade = fraction := by
        rw [Nat.mul_comm, Nat.mul_add_mod, Nat.mod_eq_of_lt inside]
      rw [units, if_neg (by omega), exponent, rest, Nat.add_sub_cancel, Nat.shiftLeft_eq]

/-- A significand of full length, or of any length where the steps are least units. -/
def Normal (shift significand : Nat) : Prop := shift = 0 ∨ binade ≤ significand

theorem units_grid (normal : Normal shift significand) (bound : significand ≤ 2 * binade) :
    units (shift * binade + significand) = significand * 2 ^ shift := by
  by_cases short : significand < binade
  · obtain rfl : shift = 0 := normal.resolve_right (Nat.not_le.mpr short)
    rw [units, if_pos (by omega)]
    omega
  · obtain ⟨fraction, rfl⟩ := Nat.exists_eq_add_of_le (Nat.not_lt.mp short)
    rcases Nat.lt_or_ge fraction binade with inside | full
    · rw [← units_binade shift inside, Nat.succ_mul, Nat.add_assoc]
    · -- One step past the greatest significand stands the least of the next exponent.
      obtain rfl : fraction = binade := by omega
      have next := units_binade (shift + 1) (by decide : 0 < binade)
      have place : (shift + 1 + 1) * binade = shift * binade + (binade + binade) := by
        rw [Nat.succ_mul, Nat.succ_mul, Nat.add_assoc]
      rw [Nat.add_zero, Nat.add_zero binade, Nat.pow_succ', Nat.mul_left_comm, ← Nat.mul_assoc,
        Nat.two_mul, place] at next
      exact next

theorem exists_grid (rank : Nat) :
    ∃ shift significand, rank = shift * binade + significand ∧ Normal shift significand ∧
      significand < 2 * binade := by
  by_cases least : rank < 2 * binade
  · exact ⟨0, rank, by omega, Or.inl rfl, least⟩
  · have positive : 0 < binade := by decide
    have whole := Nat.div_add_mod rank binade
    have fraction := Nat.mod_lt rank positive
    have two : 2 ≤ rank / binade := (Nat.le_div_iff_mul_le positive).mpr (Nat.not_lt.mp least)
    refine ⟨rank / binade - 1, binade + rank % binade, ?_, Or.inr (Nat.le_add_right ..), by omega⟩
    rw [Nat.sub_mul, Nat.mul_comm (rank / binade)]
    have enough := Nat.mul_le_mul_left binade two
    omega

theorem units_strictMono : StrictMono units := by
  apply strictMono_nat_of_lt_succ
  intro rank
  obtain ⟨shift, significand, rfl, normal, bound⟩ := exists_grid rank
  have next : Normal shift (significand + 1) := normal.imp_right Nat.le_succ_of_le
  rw [Nat.add_assoc, units_grid normal (Nat.le_of_lt bound), units_grid next bound]
  exact Nat.mul_lt_mul_of_pos_right (Nat.lt_succ_self _) (Nat.two_pow_pos shift)

end Grid

/-! The quotient of a numerator, counted in least units, and a denominator. -/
section Nearest

variable {numerator denominator : Nat}

/-- A quotient without what is shifted out of it is a significand. -/
theorem normal_quotient (quotient : Nat) :
    Normal (quotient.log2 - 52) (quotient / 2 ^ (quotient.log2 - 52)) ∧
      quotient / 2 ^ (quotient.log2 - 52) < 2 * binade := by
  have double : 2 * binade = 2 ^ 53 := by decide
  by_cases short : quotient.log2 ≤ 52
  · rw [Nat.sub_eq_zero_of_le short, Nat.pow_zero, Nat.div_one, double]
    refine ⟨Or.inl rfl, ?_⟩
    have below := @Nat.lt_log2_self quotient
    exact Nat.lt_of_lt_of_le below (Nat.pow_le_pow_right Nat.two_pos (by omega))
  · have nonzero : quotient ≠ 0 := by
      rintro rfl
      exact short (by decide)
    have least := Nat.log2_self_le nonzero
    have below := @Nat.lt_log2_self quotient
    have positive : 0 < 2 ^ (quotient.log2 - 52) := Nat.two_pow_pos _
    constructor
    · right
      rw [Nat.le_div_iff_mul_le positive, binade_eq, ← Nat.pow_add]
      rwa [Nat.add_sub_of_le (by omega)]
    · rw [Nat.div_lt_iff_lt_mul positive, double, ← Nat.pow_add]
      rwa [show 53 + (quotient.log2 - 52) = quotient.log2 + 1 by omega]

/-- The two ranks around a quotient, and which of them is taken. -/
theorem nearestRank_cases (numerator : Nat) (positive : 0 < denominator) :
    ∃ rank, units rank * denominator ≤ numerator * unitsPerOne ∧
      numerator * unitsPerOne < units (rank + 1) * denominator ∧
      (nearestRank numerator denominator = min rank infinityRank ∧
          2 * (numerator * unitsPerOne) ≤ (units rank + units (rank + 1)) * denominator ∨
        nearestRank numerator denominator = min (rank + 1) infinityRank ∧
          (units rank + units (rank + 1)) * denominator ≤ 2 * (numerator * unitsPerOne)) := by
  rw [nearestRank]
  generalize numerator * unitsPerOne = total
  obtain ⟨normal, bound⟩ := normal_quotient (total / denominator)
  generalize (total / denominator).log2 - 52 = shift at normal bound
  have steps : 0 < denominator * 2 ^ shift := Nat.mul_pos positive (Nat.two_pow_pos shift)
  rw [Nat.div_div_eq_div_mul] at normal bound
  have next : Normal shift (total / (denominator * 2 ^ shift) + 1) :=
    normal.imp_right Nat.le_succ_of_le
  have lower := units_grid normal (Nat.le_of_lt bound)
  have upper := units_grid next bound
  have whole := Nat.div_add_mod total (denominator * 2 ^ shift)
  have inside := Nat.mod_lt total steps
  simp only [Nat.shiftLeft_eq]
  generalize total / (denominator * 2 ^ shift) = below at *
  generalize total % (denominator * 2 ^ shift) = rest at *
  refine ⟨shift * binade + below, ?_⟩
  rw [Nat.add_assoc (shift * binade), lower, upper]
  have first : below * 2 ^ shift * denominator = denominator * 2 ^ shift * below := by
    rw [Nat.mul_comm, Nat.mul_comm below, Nat.mul_assoc]
  have second : (below + 1) * 2 ^ shift * denominator =
      denominator * 2 ^ shift * below + denominator * 2 ^ shift := by
    rw [Nat.add_mul, Nat.one_mul, Nat.add_mul, first, Nat.mul_comm (2 ^ shift)]
  rw [Nat.add_mul (below * 2 ^ shift) ((below + 1) * 2 ^ shift), first, second]
  refine ⟨by omega, by omega, ?_⟩
  cases up : decide (denominator * 2 ^ shift < 2 * rest) ||
      2 * rest == denominator * 2 ^ shift && below % 2 == 1 with
  | false =>
      simp only [Bool.or_eq_false_iff, decide_eq_false_iff_not] at up
      exact Or.inl ⟨by rw [Bool.toNat_false, Nat.add_zero], by omega⟩
  | true =>
      simp only [Bool.or_eq_true, decide_eq_true_eq, Bool.and_eq_true, beq_iff_eq] at up
      exact Or.inr ⟨by rw [Bool.toNat_true, Nat.add_assoc], by omega⟩

theorem nearestRank_le {rank : Nat} (positive : 0 < denominator)
    (above : numerator * unitsPerOne ≤ units rank * denominator) :
    nearestRank numerator denominator ≤ rank := by
  obtain ⟨below, lower, -, taken⟩ := nearestRank_cases numerator positive
  have order : below ≤ rank :=
    units_strictMono.le_iff_le.mp (Nat.le_of_mul_le_mul_right (Nat.le_trans lower above) positive)
  rcases taken with ⟨same, -⟩ | ⟨same, nearer⟩
  · rw [same]
    exact Nat.le_trans (Nat.min_le_left ..) order
  · rw [same]
    refine Nat.le_trans (Nat.min_le_left ..) (Nat.lt_of_le_of_ne order ?_)
    rintro rfl
    have gap := Nat.mul_lt_mul_of_pos_right (units_strictMono (Nat.lt_add_one below)) positive
    rw [Nat.add_mul] at nearer
    omega

theorem le_nearestRank {rank : Nat} (positive : 0 < denominator) (finite : rank ≤ infinityRank)
    (below : units rank * denominator ≤ numerator * unitsPerOne) :
    rank ≤ nearestRank numerator denominator := by
  obtain ⟨taken, -, upper, cases⟩ := nearestRank_cases numerator positive
  have order : rank < taken + 1 :=
    units_strictMono.lt_iff_lt.mp (Nat.lt_of_mul_lt_mul_right (Nat.lt_of_le_of_lt below upper))
  rcases cases with ⟨same, -⟩ | ⟨same, -⟩
  · rw [same]
    exact Nat.le_min.mpr ⟨Nat.le_of_lt_succ order, finite⟩
  · rw [same]
    exact Nat.le_min.mpr ⟨Nat.le_of_lt order, finite⟩

/-- A quotient that is a magnitude keeps its rank. -/
theorem nearestRank_exact {rank : Nat} (positive : 0 < denominator) (finite : rank ≤ infinityRank)
    (same : units rank * denominator = numerator * unitsPerOne) :
    nearestRank numerator denominator = rank :=
  Nat.le_antisymm (nearestRank_le positive (Nat.le_of_eq same.symm))
    (le_nearestRank positive finite (Nat.le_of_eq same))

/-- No magnitude is nearer to a quotient than the one that is taken for it. -/
theorem nearestRank_nearest (positive : 0 < denominator)
    (finite : nearestRank numerator denominator < infinityRank) (rank : Nat) :
    Nat.dist (numerator * unitsPerOne) (units (nearestRank numerator denominator) * denominator) ≤
      Nat.dist (numerator * unitsPerOne) (units rank * denominator) := by
  obtain ⟨below, lower, upper, taken⟩ := nearestRank_cases numerator positive
  -- Any other rank lies on the far side of one of the two.
  have side : units rank * denominator ≤ units below * denominator ∨
      units (below + 1) * denominator ≤ units rank * denominator := by
    rcases Nat.lt_or_ge below rank with beyond | within
    · exact Or.inr (Nat.mul_le_mul_right _ (units_strictMono.monotone beyond))
    · exact Or.inl (Nat.mul_le_mul_right _ (units_strictMono.monotone within))
  rcases taken with ⟨same, nearer⟩ | ⟨same, nearer⟩
  · have kept : nearestRank numerator denominator = below := by omega
    rw [Nat.add_mul] at nearer
    rw [kept, Nat.dist, Nat.dist]
    omega
  · have kept : nearestRank numerator denominator = below + 1 := by omega
    rw [Nat.add_mul] at nearer
    rw [kept, Nat.dist, Nat.dist]
    omega

end Nearest

/-! Whole numbers. -/
section Whole

/-- The ranks from which on nothing is finite, in binades. -/
theorem infinityRank_eq : infinityRank = 2047 * binade := by decide

theorem exists_rank {n : Nat} (small : n ≤ 2 * binade) :
    ∃ rank < infinityRank, units rank = n * unitsPerOne := by
  have double : 2 * binade = 2 ^ 53 := by decide
  rcases Nat.lt_or_eq_of_le small with less | rfl
  · by_cases zero : n = 0
    · subst zero
      exact ⟨0, by decide, by rw [Nat.zero_mul]; rfl⟩
    · have log := (Nat.log2_lt zero).mpr (double ▸ less)
      have least := Nat.log2_self_le zero
      have most := @Nat.lt_log2_self n
      have full : 2 ^ n.log2 * 2 ^ (52 - n.log2) = binade := by
        rw [← Nat.pow_add, Nat.add_sub_of_le (by omega), binade_eq]
      have normal : Normal (1022 + n.log2) (n * 2 ^ (52 - n.log2)) :=
        Or.inr (full ▸ Nat.mul_le_mul_right _ least)
      have bound : n * 2 ^ (52 - n.log2) < 2 * binade := by
        rw [← full, ← Nat.mul_assoc, ← Nat.pow_succ']
        exact Nat.mul_lt_mul_of_pos_right most (Nat.two_pow_pos _)
      refine ⟨(1022 + n.log2) * binade + n * 2 ^ (52 - n.log2), ?_, ?_⟩
      · have low : (1022 + n.log2) * binade ≤ 1074 * binade :=
          Nat.mul_le_mul_right binade (by omega)
        have positive : 0 < binade := by decide
        rw [infinityRank_eq]
        omega
      · rw [units_grid normal (Nat.le_of_lt bound), unitsPerOne_eq, Nat.mul_assoc, ← pow_add,
          show 52 - n.log2 + (1022 + n.log2) = 1074 by omega]
  · have top := units_grid (Or.inr (by decide) : Normal 1074 (2 * binade)) (Nat.le_refl _)
    exact ⟨1074 * binade + 2 * binade, by decide, by rw [top, unitsPerOne_eq]⟩

def signedUnits (x : Binary64) : Int :=
  if x.negative then -(units x.rank : Int) else units x.rank

def IsExactly (x : Binary64) (n : Int) : Prop :=
  x.isFinite = true ∧ x.signedUnits = n * unitsPerOne

/-- No finite number is nearer to the integer. -/
def IsNearest (x : Binary64) (n : Int) : Prop :=
  x.isFinite = true ∧ ∀ other : Binary64, other.isFinite = true →
    (n * unitsPerOne - x.signedUnits).natAbs ≤ (n * unitsPerOne - other.signedUnits).natAbs

variable {x : Binary64} {n : Int}

theorem rank_lt_of_isFinite (finite : x.isFinite = true) : x.rank < infinityRank :=
  of_decide_eq_true finite

theorem IsExactly.units_rank (exact : x.IsExactly n) :
    units x.rank = n.natAbs * unitsPerOne := by
  have sizes := congrArg Int.natAbs exact.2
  rw [Int.natAbs_mul, Int.natAbs_natCast] at sizes
  rw [← sizes, signedUnits]
  split <;> omega

theorem toInt?_eq_some : x.toInt? = some n ↔ x.IsExactly n := by
  have positive := unitsPerOne_pos
  constructor
  · intro found
    rw [toInt?] at found
    split at found
    case isTrue whole =>
      simp only [Bool.and_eq_true, beq_iff_eq] at whole
      obtain ⟨finite, even⟩ := whole
      have size := Nat.div_mul_cancel (Nat.dvd_of_mod_eq_zero even)
      refine ⟨finite, ?_⟩
      rw [← Option.some.inj found, signedUnits]
      split
      · rw [Int.neg_mul, ← Int.natCast_mul, size]
      · rw [← Int.natCast_mul, size]
    case isFalse => exact nomatch found
  · intro exact
    have size := exact.units_rank
    have sign := exact.2
    have unit : (unitsPerOne : Int) ≠ 0 := by omega
    rw [toInt?, exact.1, size, Nat.mul_mod_left, Nat.mul_div_cancel _ positive]
    rw [signedUnits, size] at sign
    simp only [beq_self_eq_true, Bool.and_self, if_true, Option.some.injEq]
    split at sign
    case isTrue negative =>
      rw [Int.natCast_mul, ← Int.neg_mul] at sign
      rw [if_pos negative]
      exact Int.eq_of_mul_eq_mul_right unit sign
    case isFalse positive =>
      rw [Int.natCast_mul] at sign
      rw [if_neg positive]
      exact Int.eq_of_mul_eq_mul_right unit sign

theorem units_eq_zero {rank : Nat} : units rank = 0 ↔ rank = 0 := by
  have least : units 0 = 0 := by rw [units, if_pos (by decide)]
  constructor
  · intro none
    exact units_strictMono.injective (none.trans least.symm)
  · rintro rfl
    exact least

def plainZero (x : Binary64) : Binary64 := { x with negative := x.negative && !x.isZero }

theorem IsExactly.neg_iff (exact : x.IsExactly n) : n < 0 ↔ x.signedUnits < 0 := by
  have unit : (0 : Int) < unitsPerOne := Int.natCast_pos.mpr unitsPerOne_pos
  rw [exact.2]
  refine ⟨fun below => Int.mul_neg_of_neg_of_pos below unit, fun below => ?_⟩
  refine Int.not_le.mp fun above => ?_
  have least := Int.mul_nonneg above (Int.le_of_lt unit)
  omega

theorem plainZero_negative : x.plainZero.negative = true ↔ x.signedUnits < 0 := by
  have large : x.isZero = false ↔ units x.rank ≠ 0 := by
    rw [isZero, beq_eq_false_iff_ne, ne_eq, ne_eq, units_eq_zero]
  rw [plainZero, Bool.and_eq_true, Bool.not_eq_true', large, signedUnits]
  split
  case isTrue negative =>
    rw [and_iff_right negative]
    omega
  case isFalse positive =>
    exact ⟨fun both => absurd both.1 positive, fun below => by omega⟩

/-- A number that is an integer comes back from it, except that a zero loses its sign. -/
theorem ofInt_of_isExactly (exact : x.IsExactly n) : ofInt n = x.plainZero := by
  have rank : nearestRank n.natAbs 1 = x.rank :=
    nearestRank_exact Nat.one_pos (Nat.le_of_lt (rank_lt_of_isFinite exact.1))
      (by rw [Nat.mul_one, exact.units_rank])
  have sign : decide (n < 0) = x.plainZero.negative := by
    rw [Bool.eq_iff_iff, decide_eq_true_eq, plainZero_negative, exact.neg_iff]
  rw [plainZero] at sign ⊢
  simp only [ofInt, nearest, rank, sign]

theorem signedUnits_ofInt (n : Int) :
    (ofInt n).signedUnits =
      if n < 0 then -(units (nearestRank n.natAbs 1) : Int)
      else units (nearestRank n.natAbs 1) := by
  simp only [signedUnits, ofInt, nearest, decide_eq_true_eq]

/-- An integer is its size, with its sign put back. -/
theorem mul_unitsPerOne (n : Int) :
    n * unitsPerOne =
      if n < 0 then -((n.natAbs * unitsPerOne : Nat) : Int)
      else (n.natAbs * unitsPerOne : Nat) := by
  rw [Int.natCast_mul, ← Int.neg_mul]
  split
  · rw [show -(n.natAbs : Int) = n by omega]
  · rw [show (n.natAbs : Int) = n by omega]

theorem ofInt_exact (small : n.natAbs ≤ 2 * binade) : (ofInt n).IsExactly n := by
  obtain ⟨rank, finite, size⟩ := exists_rank small
  have kept : nearestRank n.natAbs 1 = rank :=
    nearestRank_exact Nat.one_pos (Nat.le_of_lt finite) (by rw [Nat.mul_one, size])
  constructor
  · rw [isFinite, ofInt, nearest]
    exact decide_eq_true (kept.symm ▸ finite)
  · rw [signedUnits_ofInt, kept, size, mul_unitsPerOne]

theorem ofInt_nearest (small : n.natAbs ≤ 2 ^ 1023) : (ofInt n).IsNearest n := by
  have top := units_grid (Or.inr (Nat.le_refl _) : Normal 2045 binade)
    (Nat.le_mul_of_pos_left binade Nat.two_pos)
  have finite : nearestRank n.natAbs 1 < infinityRank := by
    refine Nat.lt_of_le_of_lt (@nearestRank_le _ _ (2045 * binade + binade) Nat.one_pos ?_)
      (by decide)
    rw [Nat.mul_one, top, binade_eq, ← pow_add 2 52 2045, unitsPerOne_eq,
      show 52 + 2045 = 1023 + 1074 by decide, pow_add 2 1023 1074]
    generalize 2 ^ 1023 = most at small ⊢
    exact Nat.mul_le_mul_right _ small
  refine ⟨by rw [isFinite, ofInt, nearest]; exact decide_eq_true finite, fun other within => ?_⟩
  have nearer := nearestRank_nearest Nat.one_pos finite other.rank
  have least := nearestRank_nearest Nat.one_pos finite 0
  rw [signedUnits_ofInt, mul_unitsPerOne, signedUnits]
  rw [units_eq_zero.mpr rfl] at least
  simp only [Nat.dist, Nat.mul_one] at nearer least
  generalize n.natAbs * unitsPerOne = total at *
  generalize units (nearestRank n.natAbs 1) = taken at *
  -- A number of the other sign is farther away than zero.
  split <;> split <;> omega

/-- Counts below 2^53 are told apart from every other count. -/
theorem nearestRank_lt_of_lt {count other : Nat} (small : count < 2 * binade)
    (less : count < other) : nearestRank count 1 < nearestRank other 1 := by
  obtain ⟨rank, finite, size⟩ := exists_rank (Nat.le_of_lt small)
  obtain ⟨next, within, beyond⟩ := exists_rank (Nat.succ_le_of_lt small)
  have kept : nearestRank count 1 = rank :=
    nearestRank_exact Nat.one_pos (Nat.le_of_lt finite) (by rw [Nat.mul_one, size])
  have order : rank < next := by
    rw [← units_strictMono.lt_iff_lt, size, beyond]
    exact Nat.mul_lt_mul_of_pos_right (Nat.lt_succ_self count) unitsPerOne_pos
  rw [kept]
  refine Nat.lt_of_lt_of_le order (le_nearestRank Nat.one_pos (Nat.le_of_lt within) ?_)
  rw [Nat.mul_one, beyond]
  exact Nat.mul_le_mul_right _ less

theorem ofNat_inj {count other : Nat} (small : count < 2 * binade) :
    ofNat other = ofNat count ↔ other = count := by
  refine ⟨fun same => ?_, congrArg ofNat⟩
  have ranks := congrArg Binary64.rank same
  simp only [ofNat, nearest] at ranks
  rcases Nat.lt_trichotomy other count with less | equal | more
  · exact absurd ranks (Nat.ne_of_lt (nearestRank_lt_of_lt (Nat.lt_trans less small) less))
  · exact equal
  · exact absurd ranks (Nat.ne_of_gt (nearestRank_lt_of_lt small more))

end Whole

end NodeFilter.Binary64
