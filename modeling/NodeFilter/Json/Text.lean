import NodeFilter.Json.Place

/-!
Strings in a JSON text, from after the opening quote to after the closing one.
An escape by code is a unit of UTF-16: two halves of a pair make one character,
and neither may stand alone.
-/

namespace NodeFilter.Json.Text

def hexDigit? (c : Char) : Option Nat :=
  if '0' ≤ c && c ≤ '9' then some (c.toNat - '0'.toNat)
  else if 'a' ≤ c && c ≤ 'f' then some (c.toNat - 'a'.toNat + 10)
  else if 'A' ≤ c && c ≤ 'F' then some (c.toNat - 'A'.toNat + 10)
  else none

def hexValue? (digits : List Char) : Option Nat :=
  digits.foldl (fun value? c => value?.bind fun value =>
    (hexDigit? c).map fun digit => 16 * value + digit) (some 0)

variable {start : Place}

def hexUnit (here : Onward start) : Except Fault (Nat × Onward start) :=
  -- Four hexadecimal digits. Four bytes are taken even when they are no digits.
  let place := here.place
  if Place.byteCount (place.rest.take 4) < 4 then place.finish.fault .endInString
  else
    match hexValue? (place.rest.take 4) with
    | some value => .ok (value, here.skip 4)
    | none => .error ⟨.invalidEscape, place.offset + 4⟩

def isLowSurrogate (unit : Nat) : Bool := 0xdc00 ≤ unit && unit ≤ 0xdfff

def isHighSurrogate (unit : Nat) : Bool := 0xd800 ≤ unit && unit ≤ 0xdbff

def pairValue (high low : Nat) : Nat := (high - 0xd800) * 0x400 + (low - 0xdc00) + 0x10000

def require (c : Char) (here : Onward start) : Except Fault (Onward start) :=
  match here.place.next? with
  | none => here.place.fault .endInString
  | some (next, after) =>
      if next = c then .ok (here.thence after)
      else here.place.faultAtNext .unexpectedEndOfHexEscape

def unicodeEscape (here : Onward start) : Except Fault (Char × Onward start) := do
  let (first, here) ← hexUnit here
  if isLowSurrogate first then here.place.fault .loneSurrogate
  else if isHighSurrogate first then
    let (second, here) ← hexUnit (← require 'u' (← require '\\' here))
    if isLowSurrogate second then .ok (Char.ofNat (pairValue first second), here)
    else here.place.fault .loneSurrogate
  else .ok (Char.ofNat first, here)

def letterEscape? : Char → Option Char
  | '"' => some '"'
  | '\\' => some '\\'
  | '/' => some '/'
  | 'b' => some '\x08'
  | 'f' => some '\x0c'
  | 'n' => some '\n'
  | 'r' => some '\r'
  | 't' => some '\t'
  | _ => none

def escaped (here : Onward start) : Except Fault (Char × Onward start) :=
  match here.place.next? with
  | none => here.place.fault .endInString
  | some (letter, after) =>
      match letterEscape? letter with
      | some c => .ok (c, here.thence after)
      | none =>
          if letter = 'u' then unicodeEscape (here.thence after)
          else here.place.faultAtNext .invalidEscape

def isPlain (c : Char) : Bool := c != '"' && c != '\\' && 32 ≤ c.toNat

def readFrom (collected : List Char) (here : Within start) :
    Except Fault (String × Onward start) :=
  let plain := here.place.rest.takeWhile isPlain
  let collected := plain.reverseAux collected
  let special := here.skip plain.length
  match special.place.next? with
  | none => special.place.fault .endInString
  | some (c, after) =>
      if c = '"' then .ok (String.ofList collected.reverse, special.thence after)
      else if c = '\\' then
        match escaped after with
        | .error fault => .error fault
        | .ok (c, next) => readFrom (c :: collected) (special.thence next).within
      else after.place.fault .controlCharacter
termination_by here.place.rest.length
decreasing_by exact Nat.lt_of_lt_of_le next.further (here.place.skip_le _)

end NodeFilter.Json.Text
