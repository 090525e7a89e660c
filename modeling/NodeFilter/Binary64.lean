/-!
Binary numbers of 64 bits. A number is a sign and a rank, the place of its
magnitude in the increasing list of all magnitudes, so the low 63 bits of the
interchange word are the rank itself. Every finite magnitude is a whole count of
least units, and rounding is exact arithmetic on natural numbers.
-/

namespace NodeFilter

structure Binary64 where
  negative : Bool
  rank : Nat
  rank_lt : rank < 0x8000000000000000
  deriving DecidableEq

namespace Binary64

def signBit : Nat := 0x8000000000000000

/-- Ranks below this one are finite, ranks above it are not numbers. -/
def infinityRank : Nat := 0x7ff0000000000000

theorem infinityRank_lt : infinityRank < 0x8000000000000000 := by decide

/-- Magnitudes of one exponent differ by equal steps, and there are this many of them. -/
def binade : Nat := 0x10000000000000

def unitsPerOne : Nat := 1 <<< 1074

def units (rank : Nat) : Nat :=
  if rank < 2 * binade then rank
  else (binade + rank % binade) <<< (rank / binade - 1)

/-- The rank nearest to a quotient, a tie going to the even rank. -/
def nearestRank (numerator denominator : Nat) : Nat :=
  let total := numerator * unitsPerOne
  let shift := (total / denominator).log2 - 52
  let step := denominator <<< shift
  let below := total / step
  let rest := total % step
  let up := step < 2 * rest || (2 * rest == step && below % 2 == 1)
  min (shift * binade + below + up.toNat) infinityRank

theorem nearestRank_lt (numerator denominator : Nat) :
    nearestRank numerator denominator < 0x8000000000000000 :=
  Nat.lt_of_le_of_lt (Nat.min_le_right _ _) infinityRank_lt

def nearest (negative : Bool) (numerator denominator : Nat) : Binary64 :=
  ⟨negative, nearestRank numerator denominator, nearestRank_lt numerator denominator⟩

def ofNat (n : Nat) : Binary64 := nearest false n 1

def ofInt (n : Int) : Binary64 := nearest (n < 0) n.natAbs 1

def ofDecimal (negative : Bool) (coefficient : Nat) : Int → Binary64
  | .ofNat exponent => nearest negative (coefficient * Nat.pow 10 exponent) 1
  | .negSucc less => nearest negative coefficient (Nat.pow 10 (less + 1))

def isNaN (x : Binary64) : Bool := infinityRank < x.rank

def isFinite (x : Binary64) : Bool := x.rank < infinityRank

def isZero (x : Binary64) : Bool := x.rank == 0

def equals (x y : Binary64) : Bool :=
  -- The two zeros are equal, what is not a number equals nothing.
  !x.isNaN && !y.isNaN && (x.isZero && y.isZero || decide (x = y))

def negate (x : Binary64) : Binary64 := { x with negative := !x.negative }

def product (x y : Binary64) : Binary64 :=
  nearest (x.negative != y.negative) (units x.rank * units y.rank) (unitsPerOne * unitsPerOne)

def quotient (x y : Binary64) : Binary64 :=
  nearest (x.negative != y.negative) (units x.rank) (units y.rank)

def toInt? (x : Binary64) : Option Int :=
  if x.isFinite && units x.rank % unitsPerOne == 0 then
    let size : Int := (units x.rank / unitsPerOne : Nat)
    some (if x.negative then -size else size)
  else none

def ofBits (bits : UInt64) : Binary64 :=
  ⟨signBit ≤ bits.toNat, bits.toNat % signBit, Nat.mod_lt _ (by decide)⟩

def toBits (x : Binary64) : UInt64 :=
  UInt64.ofNat (if x.negative then signBit + x.rank else x.rank)

end Binary64

end NodeFilter
