import NodeFilter.Proofs.Splitting

/-!
A text divided into lexemes, with the blanks before each and those at the end. The lexer takes
the parts of a division one after another, so each character is taken once, and no text can be
divided in two ways.
-/

namespace NodeFilter

open Text (Ends isBlank)

inductive Division where
  /-- What is left after the last lexeme. -/
  | finish (blanks : List Char)
  | lexeme (blanks text : List Char) (token : Token) (rest : Division)

namespace Division

def text : Division → List Char
  | .finish blanks => blanks
  | .lexeme blanks text _ rest => blanks ++ (text ++ rest.text)

def tokens : Division → List Token
  | .finish _ => []
  | .lexeme _ _ token rest => token :: rest.tokens

def front : Division → List Char
  | .finish blanks => blanks
  | .lexeme blanks _ _ _ => blanks

/-- Every part is what it stands for, seen with the text that follows it. -/
def Lexical : Division → Prop
  | .finish blanks => ∀ c ∈ blanks, isBlank c = true
  | .lexeme blanks text token rest =>
      (∀ c ∈ blanks, isBlank c = true) ∧ Spells text token rest.text ∧ rest.Lexical

/-- From the cursor on, each step of the lexer takes one lexeme with the blanks before it and
leaves the text of the parts after it. The last one takes the blanks at the end. -/
def Followed : Division → Cursor → Prop
  | .finish blanks, cursor => cursor.next = (.ok none, ⟨cursor.position + blanks.length, []⟩)
  | .lexeme blanks text token rest, cursor =>
      let after : Cursor := ⟨cursor.position + blanks.length + text.length, rest.text⟩
      cursor.next = (.ok (some token), after) ∧ rest.Followed after

theorem splits_of_lexical {division : Division} (lexical : division.Lexical) :
    Splits division.text division.tokens := by
  induction division with
  | finish blanks => exact .blanks lexical
  | lexeme blanks text token rest ih =>
      obtain ⟨inside, spelled, restLexical⟩ := lexical
      exact .lexeme inside spelled (ih restLexical)

theorem exists_of_splits {text : List Char} {found : List Token} (split : Splits text found) :
    ∃ division : Division, division.text = text ∧ division.Lexical ∧ division.tokens = found := by
  induction split with
  | @blanks blanks inside => exact ⟨.finish blanks, rfl, inside, rfl⟩
  | @lexeme blanks text _ token _ inside spelled _ ih =>
      obtain ⟨rest, rfl, lexical, rfl⟩ := ih
      exact ⟨.lexeme blanks text token rest, rfl, ⟨inside, spelled, lexical⟩, rfl⟩

theorem followed_of_lexical {division : Division} (lexical : division.Lexical) (position : Nat) :
    division.Followed ⟨position, division.text⟩ := by
  induction division generalizing position with
  | finish blanks => exact Cursor.next_blanks lexical
  | lexeme blanks text token rest ih =>
      obtain ⟨inside, spelled, restLexical⟩ := lexical
      exact ⟨Cursor.next_spelled inside spelled, ih restLexical _⟩

-- No lexeme starts with a blank, so the blanks in front are all there are.
theorem takeWhile_front {division : Division} (lexical : division.Lexical) :
    division.text.takeWhile isBlank = division.front := by
  cases division with
  | finish blanks =>
      have run := Text.takeWhile_run lexical Text.ends_nil
      rwa [List.append_nil] at run
  | lexeme blanks text token rest =>
      obtain ⟨inside, spelled, -⟩ := lexical
      obtain ⟨c, tail, rfl, visible, -⟩ := Lexeme.spells_atFront 0 spelled
      exact Text.takeWhile_run inside (Text.ends_cons visible)

theorem eq_of_text {first second : Division} (firstLexical : first.Lexical)
    (secondLexical : second.Lexical) (same : first.text = second.text) : first = second := by
  -- By the parts of the first. Both are followed from the same cursor, so the step at the front
  -- gives both the same token and leaves both the same text.
  induction first generalizing second with
  | finish blanks =>
      have step := followed_of_lexical firstLexical 0
      rw [same] at step
      cases second with
      | finish others => exact congrArg finish same
      | lexeme others text token rest =>
          have other := (followed_of_lexical secondLexical 0).1
          rw [Followed, other] at step
          cases step
  | lexeme blanks text token rest ih =>
      have step := (followed_of_lexical firstLexical 0).1
      rw [same] at step
      cases second with
      | finish others =>
          have other := followed_of_lexical secondLexical 0
          rw [Followed, step] at other
          cases other
      | lexeme others otherText otherToken otherRest =>
          have other := (followed_of_lexical secondLexical 0).1
          rw [step] at other
          simp only [Prod.mk.injEq, Except.ok.injEq, Option.some.injEq, Cursor.mk.injEq] at other
          obtain ⟨rfl, -, sameRest⟩ := other
          have sameFront : blanks = others := by
            have front := takeWhile_front firstLexical
            rwa [same, takeWhile_front secondLexical, eq_comm] at front
          subst sameFront
          have sameText : text ++ rest.text = otherText ++ otherRest.text :=
            List.append_cancel_left same
          rw [sameRest] at sameText
          obtain rfl := List.append_cancel_right sameText
          rw [ih firstLexical.2.2 secondLexical.2.2 sameRest]

/-- A text is read as some tokens exactly if it is divided into lexemes of these tokens, in the
one way there is to divide it. The lexer takes the parts of the division, each in one step. -/
theorem tokens_iff_unique (text : List Char) (found : List Token) :
    ((Cursor.start text).tokens = .ok found ↔
      ∃ division : Division, division.text = text ∧ division.Lexical ∧ division.tokens = found ∧
        ∀ other : Division, other.text = text → other.Lexical → other = division) ∧
    ∀ division : Division, division.text = text → division.Lexical →
      division.Followed (Cursor.start text) := by
  constructor
  · constructor
    · intro read
      obtain ⟨division, rfl, lexical, rfl⟩ := exists_of_splits (Cursor.splits_of_tokens read)
      refine ⟨division, rfl, lexical, rfl, ?_⟩
      intro other same otherLexical
      exact eq_of_text otherLexical lexical same
    · rintro ⟨division, rfl, lexical, rfl, -⟩
      exact Cursor.tokens_of_splits (splits_of_lexical lexical) 0
  · rintro division rfl lexical
    exact followed_of_lexical lexical 0

/-- In `$keys'x' ` nothing stands between the field key, the word and the quoted text. -/
theorem tokens_iff_unique_adjacent :
    let field : Token := .field .key
    let word : Token := .literal (.string "s")
    let quoted : Token := .literal (.string "x")
    let quotedText : Division := .lexeme [] ['\'', 'x', '\''] quoted (.finish [' '])
    let division : Division := .lexeme [] ['$', 'k', 'e', 'y'] field (.lexeme [] ['s'] word quotedText)
    division.text = ['$', 'k', 'e', 'y', 's', '\'', 'x', '\'', ' '] ∧ division.Lexical ∧
      (Cursor.start division.text).tokens = .ok [field, word, quoted] ∧
      division.Followed (Cursor.start division.text) := by
  intro field word quoted quotedText division
  have ends : Ends Text.isWordChar quotedText.text := Text.ends_cons (by decide)
  have named : Spells ['s'] word quotedText.text := .word (by decide) (by simp) (by simp) ends
  have enclosed : Spells ['\'', 'x', '\''] quoted [' '] :=
    @Spells.quoted '\'' ['x'] _ (Or.inr rfl) (by decide)
  have lexical : division.Lexical :=
    ⟨by simp, .field .key, by simp, named, by simp, enclosed, by simp [Lexical, isBlank]⟩
  obtain ⟨read, followed⟩ := tokens_iff_unique division.text division.tokens
  have unique : ∀ other : Division, other.text = division.text → other.Lexical → other = division :=
    fun other same otherLexical => eq_of_text otherLexical lexical same
  exact ⟨rfl, lexical, read.mpr ⟨division, rfl, lexical, rfl, unique⟩, followed division rfl lexical⟩

end Division

end NodeFilter
