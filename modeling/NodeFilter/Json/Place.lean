import NodeFilter.Json.Fault

/-!
A place in a JSON text: how many bytes lie before it, and the characters after it.
Two sorts of fault are told apart: one about the next byte, which is counted as
read, and one about what has been read.
-/

namespace NodeFilter.Json

structure Place where
  offset : Nat
  rest : List Char

namespace Place

def byteCount (text : List Char) : Nat := text.foldl (fun count c => count + c.utf8Size) 0

def fault {α : Type} (place : Place) (cause : Cause) : Except Fault α :=
  .error ⟨cause, place.offset⟩

def faultAtNext {α : Type} (place : Place) (cause : Cause) : Except Fault α :=
  .error ⟨cause, if place.rest.isEmpty then place.offset else place.offset + 1⟩

def skip (place : Place) (count : Nat) : Place :=
  ⟨place.offset + byteCount (place.rest.take count), place.rest.drop count⟩

def finish (place : Place) : Place := place.skip place.rest.length

def isBlank (c : Char) : Bool := c == ' ' || c == '\n' || c == '\t' || c == '\r'

def skipBlanks (place : Place) : Place := place.skip (place.rest.takeWhile isBlank).length

theorem skip_le (place : Place) (count : Nat) :
    (place.skip count).rest.length ≤ place.rest.length := by
  simp [skip]

end Place

structure Within (start : Place) where
  place : Place
  within : place.rest.length ≤ start.rest.length

/-- A place after the start. -/
structure Onward (start : Place) where
  place : Place
  further : place.rest.length < start.rest.length

variable {start : Place}

namespace Onward

def within (here : Onward start) : Within start := ⟨here.place, Nat.le_of_lt here.further⟩

def skip (here : Onward start) (count : Nat) : Onward start :=
  ⟨here.place.skip count, Nat.lt_of_le_of_lt (here.place.skip_le count) here.further⟩

def skipBlanks (here : Onward start) : Onward start :=
  ⟨here.place.skipBlanks, Nat.lt_of_le_of_lt (here.place.skip_le _) here.further⟩

def thence (here : Onward start) (next : Onward here.place) : Onward start :=
  ⟨next.place, Nat.lt_trans next.further here.further⟩

end Onward

namespace Within

def skip (here : Within start) (count : Nat) : Within start :=
  ⟨here.place.skip count, Nat.le_trans (here.place.skip_le count) here.within⟩

def thence (here : Within start) (next : Onward here.place) : Onward start :=
  ⟨next.place, Nat.lt_of_lt_of_le next.further here.within⟩

end Within

namespace Place

def here (place : Place) : Within place := ⟨place, Nat.le_refl _⟩

def next? (place : Place) : Option (Char × Onward place) :=
  match found : place.rest with
  | [] => none
  | c :: rest =>
      some (c, ⟨⟨place.offset + c.utf8Size, rest⟩, by simp [found]⟩)

end Place

end NodeFilter.Json
