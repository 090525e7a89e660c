/-!
Why a text is not JSON, and where. A place is counted in bytes of the text from
its start; a message gives it as a line and the bytes on that line before it.
-/

namespace NodeFilter.Json

inductive Cause where
  | endInValue
  | endInList
  | endInObject
  | endInString
  | expectedValue
  | expectedIdent
  | expectedColon
  | expectedListEnd
  | expectedObjectEnd
  | keyMustBeString
  | trailingComma
  | trailingCharacters
  | recursionLimit
  | invalidNumber
  | numberOutOfRange
  | invalidEscape
  | controlCharacter
  | loneSurrogate
  | unexpectedEndOfHexEscape
  deriving DecidableEq

def Cause.message : Cause → String
  | .endInValue => "EOF while parsing a value"
  | .endInList => "EOF while parsing a list"
  | .endInObject => "EOF while parsing an object"
  | .endInString => "EOF while parsing a string"
  | .expectedValue => "expected value"
  | .expectedIdent => "expected ident"
  | .expectedColon => "expected `:`"
  | .expectedListEnd => "expected `,` or `]`"
  | .expectedObjectEnd => "expected `,` or `\x7d`"
  | .keyMustBeString => "key must be a string"
  | .trailingComma => "trailing comma"
  | .trailingCharacters => "trailing characters"
  | .recursionLimit => "recursion limit exceeded"
  | .invalidNumber => "invalid number"
  | .numberOutOfRange => "number out of range"
  | .invalidEscape => "invalid escape"
  | .controlCharacter => "control character (\\u0000-\\u001F) found while parsing a string"
  | .loneSurrogate => "lone leading surrogate in hex escape"
  | .unexpectedEndOfHexEscape => "unexpected end of hex escape"

structure Fault where
  cause : Cause
  offset : Nat
  deriving DecidableEq

structure LineColumn where
  line : Nat
  column : Nat
  deriving DecidableEq

/-- The line and column of the place that lies `bytes` further on in the text. -/
def lineColumnFrom (here : LineColumn) : (bytes : Nat) → (text : List Char) → LineColumn
  | 0, _ => here
  | bytes, [] => { here with column := here.column + bytes }
  | bytes, c :: rest =>
      if bytes < c.utf8Size then { here with column := here.column + bytes }
      else
        let next := if c = '\n' then ⟨here.line + 1, 0⟩
          else { here with column := here.column + c.utf8Size }
        lineColumnFrom next (bytes - c.utf8Size) rest

structure ReadError where
  cause : Cause
  place : LineColumn
  deriving DecidableEq

def Fault.locate (text : List Char) (fault : Fault) : ReadError :=
  ⟨fault.cause, lineColumnFrom ⟨1, 0⟩ fault.offset text⟩

def ReadError.message (error : ReadError) : String :=
  s!"{error.cause.message} at line {error.place.line} column {error.place.column}"

end NodeFilter.Json
