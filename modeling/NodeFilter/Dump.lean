import NodeFilter.Decimal
import NodeFilter.Expr
import NodeFilter.Text.Quoted

/-!
Dumps: data shown as what it was built from. A dump is written on one line, or
spread out with every part on a line of its own, four spaces further in than what
holds it and a comma after it. What is written goes in front of the rest of a text.
-/

namespace NodeFilter

inductive Dump where
  | atom (text : String)
  | tuple (name : String) (parts : List Dump)
  | record (name : String) (parts : List (String × Dump))

namespace Dump

mutual

def writeLine (rest : List Char) : Dump → List Char
  | .atom text => text.toList ++ rest
  | .tuple name [] => name.toList ++ rest
  | .tuple name (first :: more) =>
      name.toList ++ '(' :: writeLine (writeLineParts rest more) first
  | .record name [] => name.toList ++ rest
  | .record name ((label, first) :: more) =>
      name.toList ++ ' ' :: '{' :: ' ' ::
        (label.toList ++ ':' :: ' ' :: writeLine (writeLineFields rest more) first)

def writeLineParts (rest : List Char) : List Dump → List Char
  | [] => ')' :: rest
  | part :: more => ',' :: ' ' :: writeLine (writeLineParts rest more) part

def writeLineFields (rest : List Char) : List (String × Dump) → List Char
  | [] => ' ' :: '}' :: rest
  | (label, part) :: more =>
      ',' :: ' ' :: (label.toList ++ ':' :: ' ' :: writeLine (writeLineFields rest more) part)

end

def newLine (level : Nat) : List Char := '\n' :: List.replicate (4 * level) ' '

mutual

def writeLines (level : Nat) (rest : List Char) : Dump → List Char
  | .atom text => text.toList ++ rest
  | .tuple name [] => name.toList ++ rest
  | .tuple name (first :: more) =>
      name.toList ++ '(' :: (newLine (level + 1) ++
        writeLines (level + 1) (',' :: writeLinesParts level rest more) first)
  | .record name [] => name.toList ++ rest
  | .record name ((label, first) :: more) =>
      name.toList ++ ' ' :: '{' :: (newLine (level + 1) ++ label.toList ++ ':' :: ' ' ::
        writeLines (level + 1) (',' :: writeLinesFields level rest more) first)

def writeLinesParts (level : Nat) (rest : List Char) : List Dump → List Char
  | [] => newLine level ++ ')' :: rest
  | part :: more =>
      newLine (level + 1) ++
        writeLines (level + 1) (',' :: writeLinesParts level rest more) part

def writeLinesFields (level : Nat) (rest : List Char) : List (String × Dump) → List Char
  | [] => newLine level ++ '}' :: rest
  | (label, part) :: more =>
      newLine (level + 1) ++ label.toList ++ ':' :: ' ' ::
        writeLines (level + 1) (',' :: writeLinesFields level rest more) part

end

def compact (dump : Dump) : String := String.ofList (dump.writeLine [])

def spread (dump : Dump) : String := String.ofList (dump.writeLines 0 [])

def numberLayout : Layout :=
  -- Numbers are positional from 10^-4 up to 10^16, and a power is signed only below zero.
  { tie := .up
    leastPositional := -4
    greatestPositional := 15
    plusOnPower := false
    infinity := "inf"
    notANumber := "NaN" }

def ofBool (value : Bool) : Dump := .atom (if value then "true" else "false")

def ofLiteral : Literal → Dump
  | .null => .atom "Null"
  | .boolean value => .tuple "Boolean" [ofBool value]
  | .number value => .tuple "Number" [.atom (numberLayout.write value)]
  | .string text => .tuple "String" [.atom (Text.quoted text)]

end Dump

def Field.dump : Field → Dump
  | .key => .atom "Key"
  | .value => .atom "Value"
  | .type => .atom "Type"

def Connective.name : Connective → String
  | .and => "And"
  | .or => "Or"

namespace Token

def dump : Token → Dump
  | .field facet => .tuple "FieldKey" [facet.dump]
  | .literal scalar => .ofLiteral scalar
  | .connective operator => .atom operator.name
  | .not => .atom "Not"
  | .colon => .atom "Colon"
  | .leftParen => .atom "LParen"
  | .rightParen => .atom "RParen"

def writeDumps : List Token → List Char
  | [] => []
  | [last] => last.dump.writeLine []
  | token :: next :: rest => token.dump.writeLine ('\n' :: writeDumps (next :: rest))

def dumpLines (tokens : List Token) : String := String.ofList (writeDumps tokens)

end Token

def Expr.dump : Expr → Dump
  | .joined operator left right => .tuple operator.name [left.dump, right.dump]
  | .not operand => .tuple "Not" [operand.dump]
  | .facet field target => .record "Field" [("key", field.dump), ("target", target.dump)]
  | .value literal => .tuple "Value" [.ofLiteral literal]
  | .type name => .tuple "Type" [.atom (Text.quoted name)]

end NodeFilter
