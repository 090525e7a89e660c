import NodeFilter.Dump
import NodeFilter.Proofs.NumberText

/-!
Dumps read back. An escape ends where it says, so quoted text ends at its own quote whatever stands
in it, and a name ends where its brackets open. What a dump was built from can be told from it and
from whatever text it is a part of.
-/

namespace NodeFilter

open Text (Ends)

namespace Text

def standsFor? : Char → Option Char
  | '"' => some '"'
  | '\\' => some '\\'
  | 'n' => some '\n'
  | 'r' => some '\r'
  | 't' => some '\t'
  | '0' => some '\x00'
  | _ => none

inductive Escaped (c : Char) : List Char → Prop where
  | plain : c ≠ '"' → c ≠ '\\' → c ≠ '\n' → Escaped c [c]
  | letter {letter : Char} : standsFor? letter = some c → Escaped c ['\\', letter]
  | code : Escaped c (codePoint c)

theorem escaped_escape (c : Char) : Escaped c (escape c) := by
  unfold escape
  split_ifs with quote backslash feed carriage tab null code
  · exact .letter (by rw [quote]; rfl)
  · exact .letter (by rw [backslash]; rfl)
  · exact .letter (by rw [feed]; rfl)
  · exact .letter (by rw [carriage]; rfl)
  · exact .letter (by rw [tab]; rfl)
  · exact .letter (by rw [null]; rfl)
  · exact .code
  · exact .plain quote backslash feed

section Escaped

variable {c d : Char} {text other rest others : List Char}

theorem codePoint_append (c : Char) (rest : List Char) :
    codePoint c ++ rest = '\\' :: 'u' :: '{' :: (Nat.toDigits 16 c.toNat ++ '}' :: rest) := by
  simp [codePoint]

theorem codePoint_unique (same : codePoint c ++ rest = codePoint d ++ others) :
    c = d ∧ rest = others := by
  simp only [codePoint_append, List.cons.injEq, true_and] at same
  have hex (code : Nat) := Numeral.toDigits_alphanum (by decide : 1 < 16) (Nat.le_refl 16) code
  have closed (rest : List Char) : Ends Char.isAlphanum ('}' :: rest) := ends_cons (by decide)
  obtain ⟨digits, after⟩ := run_unique (hex _) (closed _) (hex _) (closed _) same
  have code := Numeral.toDigits_injective (by decide) (Nat.le_refl 16) digits
  exact ⟨Char.toNat_inj.mp code, List.tail_eq_of_cons_eq after⟩

/-- No escape is the front of another, and no two characters have the same. -/
theorem Escaped.unique (first : Escaped c text) (second : Escaped d other)
    (same : text ++ rest = other ++ others) : c = d ∧ rest = others := by
  cases first with
  | plain _ noBackslash _ =>
      cases second with
      | plain => exact List.cons.inj same
      | letter => exact absurd (List.cons.inj same).1 noBackslash
      | code => exact absurd (List.cons.inj same).1 noBackslash
  | letter stands =>
      cases second with
      | plain _ noBackslash _ => exact absurd (List.cons.inj same).1.symm noBackslash
      | letter also =>
          cases same
          exact ⟨Option.some.inj (stands.symm.trans also), rfl⟩
      | code =>
          rw [codePoint_append] at same
          cases same
          cases stands
  | code =>
      cases second with
      | plain _ noBackslash _ => exact absurd (List.cons.inj same).1.symm noBackslash
      | letter also =>
          rw [codePoint_append] at same
          cases same
          cases also
      | code => exact codePoint_unique same

theorem Escaped.front (escaped : Escaped c text) : text ≠ [] ∧ Ends (· == '"') text := by
  cases escaped with
  | plain noQuote _ _ => exact ⟨List.cons_ne_nil _ _, ends_cons (beq_eq_false_iff_ne.mpr noQuote)⟩
  | letter _ => exact ⟨List.cons_ne_nil _ _, ends_cons (by decide)⟩
  | code => exact ⟨List.cons_ne_nil _ _, ends_cons (by decide)⟩

theorem Escaped.oneLine (escaped : Escaped c text) : '\n' ∉ text := by
  cases escaped with
  | plain _ _ noFeed => exact fun member => noFeed (List.mem_singleton.mp member).symm
  | @letter letter stands =>
      intro member
      rcases List.mem_pair.mp member with backslash | feed
      · exact absurd backslash (by decide)
      · rw [← feed] at stands
        cases stands
  | code =>
      intro member
      have hex := Numeral.toDigits_alphanum (by decide : 1 < 16) (Nat.le_refl 16) c.toNat '\n'
      have digit : '\n' ∈ Nat.toDigits 16 c.toNat := by simpa [codePoint] using member
      exact absurd (hex digit) (by decide)

/-- Quoted text ends at its own quote, whatever stands in it and after it. -/
theorem escapes_unique (same : text.flatMap escape ++ '"' :: rest =
    other.flatMap escape ++ '"' :: others) : text = other ∧ rest = others := by
  have inside {c : Char} {more rest others : List Char} :
      '"' :: rest ≠ (escape c ++ more.flatMap escape) ++ '"' :: others := by
    obtain ⟨nonempty, front⟩ := (escaped_escape c).front
    obtain ⟨first, tail, escape⟩ := List.exists_cons_of_ne_nil nonempty
    intro same
    rw [escape] at same front
    exact absurd (front first rfl) (by rw [← (List.cons.inj same).1]; decide)
  induction text generalizing other with
  | nil =>
      cases other with
      | nil => exact ⟨rfl, List.tail_eq_of_cons_eq same⟩
      | cons d more => exact absurd same inside
  | cons c text ih =>
      cases other with
      | nil => exact absurd same.symm inside
      | cons d more =>
          rw [List.flatMap_cons, List.flatMap_cons, List.append_assoc, List.append_assoc] at same
          obtain ⟨rfl, later⟩ := (escaped_escape c).unique (escaped_escape d) same
          obtain ⟨rfl, after⟩ := ih later
          exact ⟨rfl, after⟩

end Escaped

theorem toList_quoted (text : String) (rest : List Char) :
    (quoted text).toList ++ rest = '"' :: (text.toList.flatMap escape ++ '"' :: rest) := by
  simp [quoted]

theorem quoted_unique {text other : String} {rest others : List Char}
    (same : (quoted text).toList ++ rest = (quoted other).toList ++ others) :
    text = other ∧ rest = others := by
  rw [toList_quoted, toList_quoted, List.cons.injEq] at same
  obtain ⟨content, after⟩ := escapes_unique same.2
  exact ⟨String.toList_inj.mp content, after⟩

theorem quoted_injective : Function.Injective quoted := by
  intro text other same
  exact (@quoted_unique text other [] [] (by rw [same])).1

theorem quoted_oneLine (text : String) : '\n' ∉ (quoted text).toList := by
  rw [← List.append_nil (quoted text).toList, toList_quoted]
  intro member
  rcases List.mem_cons.mp member with quote | member
  · exact absurd quote (by decide)
  rcases List.mem_append.mp member with escape | quote
  · obtain ⟨c, -, inside⟩ := List.mem_flatMap.mp escape
    exact (escaped_escape c).oneLine inside
  · exact absurd (List.mem_singleton.mp quote) (by decide)

end Text

namespace Dump

def isPlain (c : Char) : Bool := c.isAlphanum || Numeral.isNumeralChar c

def IsWord (text : String) : Prop := text.toList ≠ [] ∧ ∀ c ∈ text.toList, isPlain c = true

instance (text : String) : Decidable (IsWord text) :=
  decidable_of_iff (text.toList ≠ [] ∧ text.toList.all isPlain = true)
    (and_congr_right' List.all_eq_true)

def IsAtom (text : String) : Prop := IsWord text ∨ ∃ content, text = Text.quoted content

section Atoms

variable {text other : String} {rest others : List Char}

theorem IsWord.unquoted (word : IsWord text) (content : String) :
    text.toList ++ rest ≠ (Text.quoted content).toList ++ others := by
  obtain ⟨first, tail, letters⟩ := List.exists_cons_of_ne_nil word.1
  rw [Text.toList_quoted, letters]
  intro same
  have plain := word.2 first (by rw [letters]; exact List.mem_cons_self)
  rw [(List.cons.inj same).1] at plain
  exact absurd plain (by decide)

/-- An atom is told from the text it is in front of. -/
theorem IsAtom.unique (atom : IsAtom text) (also : IsAtom other) (ends : Ends isPlain rest)
    (stops : Ends isPlain others) (same : text.toList ++ rest = other.toList ++ others) :
    text = other ∧ rest = others := by
  rcases atom with word | ⟨content, rfl⟩ <;> rcases also with second | ⟨another, rfl⟩
  · obtain ⟨letters, after⟩ := Text.run_unique word.2 ends second.2 stops same
    exact ⟨String.toList_inj.mp letters, after⟩
  · exact absurd same (word.unquoted another)
  · exact absurd same.symm (second.unquoted content)
  · obtain ⟨rfl, after⟩ := Text.quoted_unique same
    exact ⟨rfl, after⟩

theorem IsAtom.oneLine (atom : IsAtom text) : '\n' ∉ text.toList := by
  rcases atom with word | ⟨content, rfl⟩
  · exact fun member => absurd (word.2 _ member) (by decide)
  · exact Text.quoted_oneLine content

end Atoms

mutual

/-- Every atom is a word or quoted, every name is a word, and brackets hold something. -/
def Proper : Dump → Prop
  | .atom text => IsAtom text
  | .tuple name parts => IsWord name ∧ parts ≠ [] ∧ ProperParts parts
  | .record name fields => IsWord name ∧ fields ≠ [] ∧ ProperFields fields

def ProperParts : List Dump → Prop
  | [] => True
  | part :: more => part.Proper ∧ ProperParts more

def ProperFields : List (String × Dump) → Prop
  | [] => True
  | (label, part) :: more => IsWord label ∧ part.Proper ∧ ProperFields more

end

def front : Dump → String
  | .atom text => text
  | .tuple name _ | .record name _ => name

def body (level : Nat) (rest : List Char) : Dump → List Char
  | .atom _ => rest
  | .tuple _ parts => '(' :: writeLinesParts level rest parts
  | .record _ fields => ' ' :: '{' :: writeLinesFields level rest fields

/-- What follows a part is the comma after it, and nothing follows the whole. -/
def Follows (rest : List Char) : Prop := ∀ c, rest.head? = some c → c = ','

section Spread

variable {level : Nat} {rest others : List Char} {d e : Dump}

theorem follows_comma (rest : List Char) : Follows (',' :: rest) := by
  intro c head
  exact (Option.some.inj head).symm

theorem writeLines_eq (proper : d.Proper) :
    d.writeLines level rest = d.front.toList ++ d.body level rest := by
  cases d with
  | atom text => rfl
  | tuple name parts =>
      obtain ⟨first, more, rfl⟩ := List.exists_cons_of_ne_nil proper.2.1
      rfl
  | record name fields =>
      obtain ⟨⟨label, first⟩, more, rfl⟩ := List.exists_cons_of_ne_nil proper.2.1
      rfl

theorem front_atom (proper : d.Proper) : IsAtom d.front := by
  cases d with
  | atom text => exact proper
  | tuple name parts => exact Or.inl proper.1
  | record name fields => exact Or.inl proper.1

theorem body_ends (follows : Follows rest) : Ends isPlain (d.body level rest) := by
  cases d with
  | atom text =>
      intro c head
      rw [follows c head]
      decide
  | tuple name parts => exact Text.ends_cons (by decide)
  | record name fields => exact Text.ends_cons (by decide)

/-- A part starts four spaces further in than the bracket that closes. -/
theorem newLine_succ (level : Nat) : newLine (level + 1) = newLine level ++ [' ', ' ', ' ', ' '] := by
  rw [newLine, newLine, Nat.mul_succ, List.replicate_add]
  rfl

theorem closing_ne_part {bracket : Char} (bracketed : bracket ≠ ' ') (text : List Char) :
    newLine level ++ bracket :: rest ≠ newLine (level + 1) ++ text := by
  rw [newLine_succ, List.append_assoc]
  intro same
  exact bracketed (List.cons.inj (List.append_cancel_left same)).1

end Spread

mutual

theorem writeLines_unique {level : Nat} {rest others : List Char} :
    (d e : Dump) → d.Proper → e.Proper → Follows rest → Follows others →
      d.writeLines level rest = e.writeLines level others → d = e ∧ rest = others := by
  intro d e proper also follows stops same
  rw [writeLines_eq proper, writeLines_eq also] at same
  obtain ⟨names, bodies⟩ :=
    (front_atom proper).unique (front_atom also) (body_ends follows) (body_ends stops) same
  have heads := congrArg List.head? bodies
  match d, e with
  | .atom _, .atom _ => exact ⟨congrArg Dump.atom names, bodies⟩
  | .tuple _ parts, .tuple _ more =>
      obtain ⟨rfl, after⟩ := writeLinesParts_unique parts more proper.2.2 also.2.2
        (List.tail_eq_of_cons_eq bodies)
      exact ⟨congrArg (Dump.tuple · parts) names, after⟩
  | .record _ fields, .record _ more =>
      obtain ⟨rfl, after⟩ := writeLinesFields_unique fields more proper.2.2 also.2.2
        (List.tail_eq_of_cons_eq (List.tail_eq_of_cons_eq bodies))
      exact ⟨congrArg (Dump.record · fields) names, after⟩
  | .atom _, .tuple .. | .atom _, .record .. => exact absurd (follows _ heads) (by decide)
  | .tuple .., .atom _ | .record .., .atom _ => exact absurd (stops _ heads.symm) (by decide)
  | .tuple .., .record .. | .record .., .tuple .. => cases heads

theorem writeLinesParts_unique {level : Nat} {rest others : List Char} :
    (parts more : List Dump) → ProperParts parts → ProperParts more →
      writeLinesParts level rest parts = writeLinesParts level others more →
      parts = more ∧ rest = others
  | [], [], _, _, same => ⟨rfl, List.tail_eq_of_cons_eq (List.append_cancel_left same)⟩
  | [], _ :: _, _, _, same => absurd same (closing_ne_part (by decide) _)
  | _ :: _, [], _, _, same => absurd same.symm (closing_ne_part (by decide) _)
  | part :: parts, other :: more, proper, also, same => by
      obtain ⟨rfl, later⟩ := writeLines_unique part other proper.1 also.1 (follows_comma _)
        (follows_comma _) (List.append_cancel_left same)
      obtain ⟨rfl, after⟩ := writeLinesParts_unique parts more proper.2 also.2
        (List.tail_eq_of_cons_eq later)
      exact ⟨rfl, after⟩

theorem writeLinesFields_unique {level : Nat} {rest others : List Char} :
    (fields more : List (String × Dump)) → ProperFields fields → ProperFields more →
      writeLinesFields level rest fields = writeLinesFields level others more →
      fields = more ∧ rest = others
  | [], [], _, _, same => ⟨rfl, List.tail_eq_of_cons_eq (List.append_cancel_left same)⟩
  | [], _ :: _, _, _, same => absurd same (by
      rw [writeLinesFields, writeLinesFields, List.append_assoc]
      exact closing_ne_part (by decide) _)
  | _ :: _, [], _, _, same => absurd same.symm (by
      rw [writeLinesFields, writeLinesFields, List.append_assoc]
      exact closing_ne_part (by decide) _)
  | (label, part) :: fields, (name, other) :: more, proper, also, same => by
      rw [writeLinesFields, writeLinesFields, List.append_assoc, List.append_assoc] at same
      have colon (rest : List Char) : Ends isPlain (':' :: rest) := Text.ends_cons (by decide)
      obtain ⟨rfl, parts⟩ := IsAtom.unique (Or.inl proper.1) (Or.inl also.1) (colon _) (colon _)
        (List.append_cancel_left same)
      obtain ⟨rfl, later⟩ := writeLines_unique part other proper.2.1 also.2.1 (follows_comma _)
        (follows_comma _) (List.tail_eq_of_cons_eq (List.tail_eq_of_cons_eq parts))
      obtain ⟨rfl, after⟩ := writeLinesFields_unique fields more proper.2.2 also.2.2
        (List.tail_eq_of_cons_eq later)
      exact ⟨rfl, after⟩

end

/-- A dump that is spread out tells what it is. -/
theorem spread_injective {d e : Dump} (proper : d.Proper) (also : e.Proper)
    (same : d.spread = e.spread) : d = e :=
  have nothing : Follows [] := fun _ head => nomatch head
  (writeLines_unique d e proper also nothing nothing (String.ofList_inj.mp same)).1

end Dump

end NodeFilter
