import NodeFilter.Decimal
import NodeFilter.Token

/-!
From text to tokens. A cursor holds the rest of the text and how many characters
came before it. A lexeme is read off the front of the rest: it is a token or a
fault, and it says how many characters it took. An unexpected character takes
none, so a cursor that meets one stays there for good; every other fault takes
the characters that are at fault.
-/

/-!
Classes of characters. The property White_Space is wider than what may stand between two
tokens: trimming takes the former away, the lexer skips only the latter. Words are runs of
ASCII letters, digits and underscores.
-/

namespace NodeFilter.Text

def whiteSpace : List Char :=
  ['\x09', '\x0a', '\x0b', '\x0c', '\x0d', '\x20', '\x85', '\xa0', '\u1680',
   '\u2000', '\u2001', '\u2002', '\u2003', '\u2004', '\u2005', '\u2006', '\u2007',
   '\u2008', '\u2009', '\u200a', '\u2028', '\u2029', '\u202f', '\u205f', '\u3000']

def isWhiteSpace (c : Char) : Bool := c ∈ whiteSpace

def isBlank (c : Char) : Bool := c == ' ' || c == '\t' || c == '\n' || c == '\r'

def trim (text : List Char) : List Char :=
  ((text.dropWhile isWhiteSpace).reverse.dropWhile isWhiteSpace).reverse

def isWordChar (c : Char) : Bool := c.isAlphanum || c == '_'

def isNameStart (c : Char) : Bool := c.isAlpha || c == '_'

end NodeFilter.Text

namespace NodeFilter

inductive LexError where
  | unterminatedString (quote : Char) (position : Nat)
  | invalidNumber (text : String) (position : Nat)
  | expectedFieldKey (found : Option Char) (position : Nat)
  | unexpectedChar (found : Char) (position : Nat)
  deriving DecidableEq

def LexError.message : LexError → String
  | .unterminatedString quote position =>
      s!"unterminated string starting at position {position}: expected closing {quote}"
  | .invalidNumber text position => s!"invalid number literal '{text}' at position {position}"
  | .expectedFieldKey (some found) position =>
      s!"expected field key (key, value or type) at position {position}, but found '{found}'"
  | .expectedFieldKey none position =>
      s!"expected field key (key, value or type) at position {position}, but found end of input"
  | .unexpectedChar found position =>
      s!"expected unquoted string at position {position}, but found '{found}'"

structure Lexeme where
  outcome : Except LexError Token
  length : Nat

namespace Lexeme

def isQuote (c : Char) : Bool := c == '"' || c == '\''

def quotedString (position : Nat) (quote : Char) (rest : List Char) : Lexeme :=
  -- A quoted string ends at the next quote of its own sort and is taken as it stands.
  match rest.dropWhile (· != quote) with
  | [] => ⟨.error (.unterminatedString quote position), rest.length + 1⟩
  | _ :: _ =>
      let text := rest.takeWhile (· != quote)
      ⟨.ok (.literal (.string (String.ofList text))), text.length + 2⟩

def numeral (position : Nat) (run : List Char) : Lexeme :=
  match Numeral.read? run with
  | some number => ⟨.ok (.literal (.number number)), run.length⟩
  | none => ⟨.error (.invalidNumber (String.ofList run) position), run.length⟩

def fieldKey (position : Nat) (rest : List Char) : Lexeme :=
  match Field.atFront? rest with
  | some field => ⟨.ok (.field field), field.name.toList.length + 1⟩
  | none => ⟨.error (.expectedFieldKey rest.head? (position + 1)), 1⟩

def wordLiteral (word : List Char) : Literal :=
  if word = ['t', 'r', 'u', 'e'] then .boolean true
  else if word = ['f', 'a', 'l', 's', 'e'] then .boolean false
  else if word = ['n', 'u', 'l', 'l'] then .null
  else .string (String.ofList word)

def symbol? : Char → Option Token
  | '&' => some (.connective .and)
  | '|' => some (.connective .or)
  | '!' => some .not
  | ':' => some .colon
  | '(' => some .leftParen
  | ')' => some .rightParen
  | _ => none

/-- The lexeme at the front of a text that starts with `c`, which is not blank. -/
def atFront (position : Nat) (c : Char) (rest : List Char) : Lexeme :=
  match symbol? c with
  | some token => ⟨.ok token, 1⟩
  | none =>
      if isQuote c then quotedString position c rest
      else if Numeral.isNumeralChar c then
        numeral position ((c :: rest).takeWhile Numeral.isNumeralChar)
      else if c = '$' then fieldKey position rest
      else if Text.isWordChar c then
        let word := (c :: rest).takeWhile Text.isWordChar
        ⟨.ok (.literal (wordLiteral word)), word.length⟩
      else ⟨.error (.unexpectedChar c position), 0⟩

theorem length_pos_of_ok {position : Nat} {c : Char} {rest : List Char} {token : Token}
    (found : (atFront position c rest).outcome = .ok token) :
    0 < (atFront position c rest).length := by
  revert found
  unfold atFront
  split
  · simp
  · split
    · simp only [quotedString]; split <;> simp
    · split
      · rename_i first
        unfold numeral
        split <;> simp [first]
      · split
        · unfold fieldKey; split <;> simp
        · split
          · rename_i first
            simp [first]
          · simp

end Lexeme

structure Cursor where
  position : Nat
  rest : List Char
  deriving DecidableEq

namespace Cursor

def start (text : List Char) : Cursor := ⟨0, text⟩

def advance (cursor : Cursor) (count : Nat) : Cursor :=
  ⟨cursor.position + count, cursor.rest.drop count⟩

def skipBlanks (cursor : Cursor) : Cursor :=
  cursor.advance (cursor.rest.takeWhile Text.isBlank).length

/-- The next token, or none when only blanks are left, and the cursor after it. -/
def next (cursor : Cursor) : Except LexError (Option Token) × Cursor :=
  let here := cursor.skipBlanks
  match here.rest with
  | [] => (.ok none, here)
  | c :: rest =>
      let lexeme := Lexeme.atFront here.position c rest
      (lexeme.outcome.map some, here.advance lexeme.length)

theorem next_shorter {cursor after : Cursor} {token : Token}
    (found : cursor.next = (.ok (some token), after)) :
    after.rest.length < cursor.rest.length := by
  have skipped : cursor.skipBlanks.rest.length ≤ cursor.rest.length := by
    simp [skipBlanks, advance]
  simp only [next] at found
  split at found
  · simp at found
  · rename_i c rest here
    simp only [Prod.mk.injEq] at found
    obtain ⟨outcome, rfl⟩ := found
    cases read : (Lexeme.atFront cursor.skipBlanks.position c rest).outcome with
    | error e => simp [read, Except.map] at outcome
    | ok t =>
        have positive := Lexeme.length_pos_of_ok read
        have bound : 0 < cursor.skipBlanks.rest.length := by simp [here]
        simp only [advance, List.length_drop]
        omega

def tokens (cursor : Cursor) : Except LexError (List Token) :=
  match _ : cursor.next with
  | (.error fault, _) => .error fault
  | (.ok none, _) => .ok []
  | (.ok (some token), after) => after.tokens.map (token :: ·)
termination_by cursor.rest.length
decreasing_by exact next_shorter ‹_›

end Cursor

def lex (source : String) : Except LexError (List Token) :=
  (Cursor.start (Text.trim source.toList)).tokens

end NodeFilter
