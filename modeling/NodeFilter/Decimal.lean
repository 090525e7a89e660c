import NodeFilter.Binary64

/-!
Numbers as decimal text: numerals, the shortest decimal that reads back, and how its digits
are laid out.
-/

/-!
Numerals: an optional sign, then digits with at most one point among them and at
least one digit in all. There is no exponent. A numeral stands for the binary
number nearest to the decimal it spells.
-/

namespace NodeFilter.Numeral

def isDigit (c : Char) : Bool := '0' ≤ c && c ≤ '9'

def isNumeralChar (c : Char) : Bool := isDigit c || c == '.' || c == '+' || c == '-'

def ofDigits (digits : List Char) : Nat :=
  digits.foldl (fun n c => 10 * n + (c.toNat - '0'.toNat)) 0

def unsigned? (negative : Bool) (text : List Char) : Option Binary64 :=
  let whole := text.takeWhile isDigit
  match text.dropWhile isDigit with
  | [] => if whole.isEmpty then none else some (.ofDecimal negative (ofDigits whole) 0)
  | '.' :: fraction =>
      let digits := whole ++ fraction
      if fraction.all isDigit && !digits.isEmpty then
        some (.ofDecimal negative (ofDigits digits) (-fraction.length))
      else none
  | _ => none

def read? : List Char → Option Binary64
  | '-' :: text => unsigned? true text
  | '+' :: text => unsigned? false text
  | text => unsigned? false text

end NodeFilter.Numeral

namespace NodeFilter

/-!
The shortest decimal that reads back. On the grid of one significant digit, then
of two, and so on, the two neighbours of the number are tried; the first grid on
which one of them reads back gives the decimal, the nearer one if both do. Each
candidate is read back before it is given, so distinct magnitudes never share a
decimal.
-/

/-- The number `coefficient * 10 ^ exponent`. -/
structure Decimal where
  coefficient : Nat
  exponent : Int
  deriving DecidableEq

namespace Decimal

inductive Tie where
  | even
  | up
  deriving DecidableEq

def rank (decimal : Decimal) : Nat :=
  (Binary64.ofDecimal false decimal.coefficient decimal.exponent).rank

def digitCount (n : Nat) : Nat := (Nat.toDigits 10 n).length

def leadingExponent (numerator denominator : Nat) : Int :=
  if denominator ≤ numerator then digitCount (numerator / denominator) - 1
  else -(digitCount ((denominator - 1) / numerator) : Int)

/-- The neighbours of `numerator / denominator` among the multiples of `10 ^ exponent`,
the nearer one first. -/
def neighbours (tie : Tie) (numerator denominator : Nat) (exponent : Int) : List Decimal :=
  let (numerator, denominator) := match exponent with
    | .ofNat power => (numerator, denominator * Nat.pow 10 power)
    | .negSucc less => (numerator * Nat.pow 10 (less + 1), denominator)
  let below := numerator / denominator
  let rest := numerator % denominator
  let upFirst := denominator < 2 * rest ||
    (2 * rest == denominator && (tie == .up || below % 2 == 1))
  if upFirst then [⟨below + 1, exponent⟩, ⟨below, exponent⟩]
  else [⟨below, exponent⟩, ⟨below + 1, exponent⟩]

def exact (rank : Nat) : Decimal :=
  ⟨Binary64.units rank * Nat.pow 5 1074, -1074⟩

/-- The shortest decimal whose nearest magnitude has this finite rank. -/
def shortest (tie : Tie) (rank : Nat) : Decimal :=
  let leading := leadingExponent (Binary64.units rank) Binary64.unitsPerOne
  let onGrid := fun (count : Nat) =>
    (neighbours tie (Binary64.units rank) Binary64.unitsPerOne (leading - count)).find?
      fun decimal => decimal.rank == rank
  ((List.range 17).findSome? onGrid).getD (exact rank)

def digits (decimal : Decimal) : List Char :=
  ((Nat.toDigits 10 decimal.coefficient).reverse.dropWhile (· == '0')).reverse

def point (decimal : Decimal) : Int :=
  -- How many digits stand before the point; negative when zeros follow it first.
  decimal.exponent + digitCount decimal.coefficient

end Decimal

/-!
How a number is laid out: positionally with a point and at least one digit on
each side of it, or as digits and a power of ten. A layout says which magnitudes
are positional and how the power is marked.
-/

structure Layout where
  tie : Decimal.Tie
  /-- The least power of ten of a first digit that is written positionally. -/
  leastPositional : Int
  /-- The greatest such power. -/
  greatestPositional : Int
  /-- Whether a positive power is written with its sign. -/
  plusOnPower : Bool
  infinity : String
  notANumber : String

namespace Layout

def positional (digits : List Char) (point : Int) : List Char :=
  if point ≤ 0 then
    '0' :: '.' :: (List.replicate point.natAbs '0' ++ digits)
  else
    let whole := digits.take point.toNat
    let fraction := digits.drop point.toNat
    whole ++ List.replicate (point.toNat - whole.length) '0' ++ '.' ::
      (if fraction.isEmpty then ['0'] else fraction)

def power (plus : Bool) (exponent : Int) : List Char :=
  let sign := if exponent < 0 then ['-'] else if plus then ['+'] else []
  'e' :: (sign ++ Nat.toDigits 10 exponent.natAbs)

def scientific (plus : Bool) (digits : List Char) (exponent : Int) : List Char :=
  let mantissa := match digits with
    | first :: second :: rest => first :: '.' :: second :: rest
    | short => short
  mantissa ++ power plus exponent

def magnitude (layout : Layout) (rank : Nat) : List Char :=
  if rank = 0 then ['0', '.', '0']
  else
    let decimal := Decimal.shortest layout.tie rank
    let leading := decimal.point - 1
    if layout.leastPositional ≤ leading && leading ≤ layout.greatestPositional then
      positional decimal.digits decimal.point
    else scientific layout.plusOnPower decimal.digits leading

def write (layout : Layout) (x : Binary64) : String :=
  if x.isNaN then layout.notANumber
  else
    let sign := if x.negative then "-" else ""
    sign ++ (if x.isFinite then String.ofList (layout.magnitude x.rank) else layout.infinity)

end Layout

end NodeFilter
