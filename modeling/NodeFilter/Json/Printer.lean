import NodeFilter.Decimal
import NodeFilter.Json

/-!
JSON text, on one line or spread out. Spread out, every element and member stands
on a line of its own, two spaces further in than what encloses it, and a member's
value follows its colon after a space; nothing else differs.
-/

namespace NodeFilter.Json

def numberLayout : Layout :=
  -- Numbers are positional from 10^-5 up to 10^16, and a positive power has its sign.
  { tie := .even
    leastPositional := -5
    greatestPositional := 15
    plusOnPower := true
    infinity := "null"
    notANumber := "null" }

def controlEscape (c : Char) : List Char :=
  let digits := Nat.toDigits 16 c.toNat
  ['\\', 'u'] ++ List.replicate (4 - digits.length) '0' ++ digits

def escape (c : Char) : List Char :=
  if c = '"' then ['\\', '"']
  else if c = '\\' then ['\\', '\\']
  else if c = '\x08' then ['\\', 'b']
  else if c = '\x0c' then ['\\', 'f']
  else if c = '\n' then ['\\', 'n']
  else if c = '\r' then ['\\', 'r']
  else if c = '\t' then ['\\', 't']
  else if c.toNat < 32 then controlEscape c
  else [c]

def stringText (text : String) : List Char :=
  '"' :: (text.toList.flatMap escape ++ ['"'])

def lineBreak (spread : Bool) (level : Nat) : List Char :=
  if spread then '\n' :: List.replicate (2 * level) ' ' else []

def colon (spread : Bool) : List Char := if spread then [':', ' '] else [':']

mutual

/-- The text of a value at a level of indentation, followed by `rest`. -/
def write (spread : Bool) (level : Nat) (rest : List Char) : Json → List Char
  | .null => ['n', 'u', 'l', 'l'] ++ rest
  | .boolean true => ['t', 'r', 'u', 'e'] ++ rest
  | .boolean false => ['f', 'a', 'l', 's', 'e'] ++ rest
  | .integer value => (toString value).toList ++ rest
  | .float value => (numberLayout.write value).toList ++ rest
  | .string text => stringText text ++ rest
  | .array [] => '[' :: ']' :: rest
  | .array (first :: more) =>
      '[' :: (lineBreak spread (level + 1) ++ write spread (level + 1)
        (writeElements spread level rest more) first)
  | .object [] => '{' :: '}' :: rest
  | .object ((name, value) :: more) =>
      '{' :: (lineBreak spread (level + 1) ++ stringText name ++ colon spread ++
        write spread (level + 1) (writeMembers spread level rest more) value)

def writeElements (spread : Bool) (level : Nat) (rest : List Char) : List Json → List Char
  | [] => lineBreak spread level ++ ']' :: rest
  | element :: more =>
      ',' :: (lineBreak spread (level + 1) ++ write spread (level + 1)
        (writeElements spread level rest more) element)

def writeMembers (spread : Bool) (level : Nat) (rest : List Char) :
    List (String × Json) → List Char
  | [] => lineBreak spread level ++ '}' :: rest
  | (name, value) :: more =>
      ',' :: (lineBreak spread (level + 1) ++ stringText name ++ colon spread ++
        write spread (level + 1) (writeMembers spread level rest more) value)

end

def compact (json : Json) : String := String.ofList (json.write false 0 [])

def pretty (json : Json) : String := String.ofList (json.write true 0 [])

end NodeFilter.Json
