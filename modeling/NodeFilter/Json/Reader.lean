import NodeFilter.Json.Number
import NodeFilter.Json.Text

/-!
From text to JSON. Keywords, names and strings are read from after their first
character. Arrays and objects may be nested 127 deep. A name that comes again in an
object keeps its first place and takes the last value.
-/

namespace NodeFilter.Json

/-- One more than the arrays and objects that may be open at once. -/
def nestingLimit : Nat := 128

variable {start : Place}

def keyword (value : Json) (here : Onward start) :
    List Char → Except Fault (Json × Onward start)
  | [] => .ok (value, here)
  | expected :: word =>
      match here.place.next? with
      | none => here.place.fault .endInValue
      | some (c, after) =>
          if c = expected then keyword value (here.thence after) word
          else here.place.faultAtNext .expectedIdent

def memberName (place : Place) : Except Fault (String × Onward place) := do
  let (name, here) ← Text.readFrom [] place.here
  let here := here.skipBlanks
  match here.place.next? with
  | none => here.place.fault .endInObject
  | some (c, after) =>
      if c = ':' then .ok (name, here.thence after) else here.place.faultAtNext .expectedColon

def elementEnd (here : Onward start) : Except Fault (Bool × Onward start) :=
  let here := here.skipBlanks
  match here.place.next? with
  | none => here.place.fault .endInList
  | some (c, after) =>
      if c = ']' then .ok (false, here.thence after)
      else if c = ',' then
        let next := (here.thence after).skipBlanks
        match next.place.rest with
        | [] => next.place.fault .endInValue
        | d :: _ => if d = ']' then next.place.faultAtNext .trailingComma else .ok (true, next)
      else here.place.faultAtNext .expectedListEnd

def memberEnd (here : Onward start) : Except Fault (Bool × Onward start) :=
  let here := here.skipBlanks
  match here.place.next? with
  | none => here.place.fault .endInObject
  | some (c, after) =>
      if c = '\x7d' then .ok (false, here.thence after)
      else if c = ',' then
        let next := (here.thence after).skipBlanks
        match next.place.next? with
        | none => next.place.fault .endInValue
        | some (d, quoted) =>
            if d = '"' then .ok (true, next.thence quoted)
            else next.place.faultAtNext (if d = '\x7d' then .trailingComma else .keyMustBeString)
      else here.place.faultAtNext .expectedObjectEnd

mutual

def readValue (levels : Nat) (place : Place) : Except Fault (Json × Onward place) :=
  match place.next? with
  | none => place.fault .endInValue
  | some (c, inside) =>
      let content := inside.skipBlanks
      if c = 'n' then keyword .null inside ['u', 'l', 'l']
      else if c = 't' then keyword (.boolean true) inside ['r', 'u', 'e']
      else if c = 'f' then keyword (.boolean false) inside ['a', 'l', 's', 'e']
      else if c = '-' then
        match Number.read true inside.place with
        | .error fault => .error fault
        | .ok (number, after) => .ok (number, inside.thence after)
      else if Numeral.isDigit c then Number.read false place
      else if c = '"' then
        match Text.readFrom [] inside.within with
        | .error fault => .error fault
        | .ok (text, after) => .ok (.string text, after)
      else if c = '[' then
        if levels ≤ 1 then place.faultAtNext .recursionLimit
        else
          match content.place.next? with
          | none => content.place.fault .endInList
          | some (first, after) =>
              if first = ']' then .ok (.array [], content.thence after)
              else readElements (levels - 1) [] content.within
      else if c = '{' then
        if levels ≤ 1 then place.faultAtNext .recursionLimit
        else
          match content.place.next? with
          | none => content.place.fault .endInObject
          | some (first, after) =>
              if first = '\x7d' then .ok (.object [], content.thence after)
              else if first = '"' then readMembers (levels - 1) [] (content.thence after).within
              else content.place.faultAtNext .keyMustBeString
      else place.faultAtNext .expectedValue
termination_by (place.rest.length, 0)
decreasing_by
  · exact Prod.Lex.left _ _ content.further
  · exact Prod.Lex.left _ _ (content.thence after).further

def readElements {start : Place} (levels : Nat) (collected : List Json) (here : Within start) :
    Except Fault (Json × Onward start) :=
  match readValue levels here.place with
  | .error fault => .error fault
  | .ok (element, after) =>
      match elementEnd after with
      | .error fault => .error fault
      | .ok (more, next) =>
          if more then readElements levels (element :: collected) (here.thence next).within
          else .ok (.array (element :: collected).reverse, here.thence next)
termination_by (here.place.rest.length, 1)
decreasing_by
  · exact Prod.Lex.right _ (by decide)
  · exact Prod.Lex.left _ _ next.further

def readMembers {start : Place} (levels : Nat) (members : List (String × Json))
    (here : Within start) : Except Fault (Json × Onward start) :=
  match memberName here.place with
  | .error fault => .error fault
  | .ok (name, colon) =>
      let content := colon.skipBlanks
      match readValue levels content.place with
      | .error fault => .error fault
      | .ok (value, after) =>
          match memberEnd (content.thence after) with
          | .error fault => .error fault
          | .ok (more, next) =>
              let members := insertMember name value members
              if more then readMembers levels members (here.thence next).within
              else .ok (.object members, here.thence next)
termination_by (here.place.rest.length, 1)
decreasing_by
  · exact Prod.Lex.left _ _ content.further
  · exact Prod.Lex.left _ _ next.further

end

def readText (text : List Char) : Except Fault Json :=
  match readValue nestingLimit (Place.mk 0 text).skipBlanks with
  | .error fault => .error fault
  | .ok (root, after) =>
      let last := after.place.skipBlanks
      if last.rest.isEmpty then .ok root else last.faultAtNext .trailingCharacters

def read (text : String) : Except ReadError Json :=
  (readText text.toList).mapError (·.locate text.toList)

end NodeFilter.Json
