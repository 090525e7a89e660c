import NodeFilter.Decimal
import NodeFilter.Json
import NodeFilter.Json.Place

/-!
Numbers in a JSON text. A number with neither point nor exponent is an integer if
64 bits hold it. Otherwise the digits are gathered into a significand of 64 bits,
what does not fit being dropped, and the significand is multiplied or divided by a
power of ten in binary arithmetic, each step rounded.
-/

namespace NodeFilter.Json.Number

open Numeral (isDigit)

def greatestSignificand : Nat := 0xffffffffffffffff

def greatestExponent : Nat := 0x7fffffff

def digitValue (c : Char) : Nat := c.toNat - '0'.toNat

/-- Adds digits at the end of a number while it stays within a bound; gives the number
and the digits from the first that did not fit. -/
def gather (bound : Nat) (n : Nat) : List Char → Nat × List Char
  | [] => (n, [])
  | c :: rest =>
      if 10 * n + digitValue c ≤ bound then gather bound (10 * n + digitValue c) rest
      else (n, c :: rest)

def powerOfTen (exponent : Nat) : Binary64 := .ofNat (Nat.pow 10 exponent)

def greatestPower : Nat := 308

/-- Divides by a power of ten, in several steps if no binary form holds the power. -/
def lower (x : Binary64) (exponent : Nat) : Binary64 :=
  if exponent ≤ greatestPower then x.quotient (powerOfTen exponent)
  else if x.isZero then x
  else lower (x.quotient (powerOfTen greatestPower)) (exponent - greatestPower)
termination_by exponent
decreasing_by simp only [greatestPower] at *; omega

def raise? (x : Binary64) (exponent : Nat) : Option Binary64 :=
  if exponent ≤ greatestPower then
    let product := x.product (powerOfTen exponent)
    if product.isFinite then some product else none
  else if x.isZero then some x
  else none

def scale? (significand : Nat) : Int → Option Binary64
  | .ofNat exponent => raise? (.ofNat significand) exponent
  | .negSucc less => some (lower (.ofNat significand) (less + 1))

def signed (negative : Bool) (x : Binary64) : Binary64 := if negative then x.negate else x

variable {start : Place}

def float (negative : Bool) (significand : Nat) (exponent : Int) (here : Onward start) :
    Except Fault (Json × Onward start) :=
  match scale? significand exponent with
  | some x => .ok (.float (signed negative x), here)
  | none => here.place.fault .numberOutOfRange

def exponentSign : List Char → Bool × Nat
  | '-' :: _ => (true, 1)
  | '+' :: _ => (false, 1)
  | _ => (false, 0)

def exponentPart (negative : Bool) (significand : Nat) (exponent : Int) (here : Onward start) :
    Except Fault (Json × Onward start) :=
  let (down, width) := exponentSign here.place.rest
  let power := here.skip width
  let digits := power.place.rest.takeWhile isDigit
  let after := power.skip digits.length
  if power.place.rest.isEmpty then power.place.fault .endInValue
  else if digits.isEmpty then power.place.faultAtNext .invalidNumber
  else
    match gather greatestExponent 0 digits with
    | (value, []) =>
        float negative significand (if down then exponent - value else exponent + value) after
    | (_, dropped) =>
        if significand != 0 && !down then
          (power.skip (digits.length - dropped.length + 1)).place.fault .numberOutOfRange
        else .ok (.float (signed negative (.ofNat 0)), after)

def isExponentMark (c : Char) : Bool := c == 'e' || c == 'E'

def floatEnd (negative : Bool) (significand : Nat) (exponent : Int) (here : Onward start) :
    Except Fault (Json × Onward start) :=
  if here.place.rest.head?.any isExponentMark then
    exponentPart negative significand exponent (here.skip 1)
  else float negative significand exponent here

def fractionPart (negative : Bool) (significand : Nat) (exponent : Int) (here : Onward start) :
    Except Fault (Json × Onward start) :=
  let digits := here.place.rest.takeWhile isDigit
  if digits.isEmpty then
    here.place.faultAtNext (if here.place.rest.isEmpty then .endInValue else .invalidNumber)
  else
    let (significand, dropped) := gather greatestSignificand significand digits
    floatEnd negative significand (exponent - (digits.length - dropped.length : Nat))
      (here.skip digits.length)

def integer (negative : Bool) (significand : Nat) : Json :=
  -- There is no negative zero among the integers of 64 bits.
  if negative then
    if 0 < significand && significand ≤ 0x8000000000000000 then .integer (-significand)
    else .float (Binary64.ofNat significand).negate
  else .integer significand

def read (negative : Bool) (place : Place) : Except Fault (Json × Onward place) :=
  match place.next? with
  | none => place.fault .endInValue
  | some (first, second) =>
      if !isDigit first then place.faultAtNext .invalidNumber
      else
        let others := second.place.rest.takeWhile isDigit
        if first = '0' && !others.isEmpty then second.place.faultAtNext .invalidNumber
        else
          let after := second.skip others.length
          let (significand, dropped) := gather greatestSignificand 0 (first :: others)
          if after.place.rest.head? = some '.' then
            fractionPart negative significand dropped.length (after.skip 1)
          else if after.place.rest.head?.any isExponentMark || !dropped.isEmpty then
            floatEnd negative significand dropped.length after
          else .ok (integer negative significand, after)

end NodeFilter.Json.Number
