import NodeFilter.Binary64

/-!
What filters are written with: the facets of a node that they can turn to, the scalars that
they can spell out, and the tokens. A token holds its decoded literal and no position.
-/

namespace NodeFilter

inductive Field where
  | key
  | value
  | type
  deriving DecidableEq

namespace Field

def all : List Field := [.key, .value, .type]

def name : Field → String
  | .key => "key"
  | .value => "value"
  | .type => "type"

def spelling (field : Field) : String := "$" ++ field.name

def atFront? (text : List Char) : Option Field :=
  all.find? fun field => field.name.toList.isPrefixOf text

end Field

inductive Literal where
  | null
  | boolean (value : Bool)
  | number (value : Binary64)
  | string (text : String)
  deriving DecidableEq

inductive Connective where
  | and
  | or
  deriving DecidableEq

inductive Token where
  | field (field : Field)
  | literal (literal : Literal)
  | connective (operator : Connective)
  | not
  | colon
  | leftParen
  | rightParen
  deriving DecidableEq

namespace Token

inductive Kind where
  | fieldKey
  | stringLiteral
  | booleanLiteral
  | nullLiteral
  | numberLiteral
  | andOperator
  | orOperator
  | notOperator
  | colon
  | leftParen
  | rightParen
  deriving DecidableEq

def Kind.name : Kind → String
  | .fieldKey => "FieldKey"
  | .stringLiteral => "StringLiteral"
  | .booleanLiteral => "BooleanLiteral"
  | .nullLiteral => "NullLiteral"
  | .numberLiteral => "NumberLiteral"
  | .andOperator => "AndOperator"
  | .orOperator => "OrOperator"
  | .notOperator => "NotOperator"
  | .colon => "Colon"
  | .leftParen => "LeftParen"
  | .rightParen => "RightParen"

def kind : Token → Kind
  | .field _ => .fieldKey
  | .literal (.string _) => .stringLiteral
  | .literal (.boolean _) => .booleanLiteral
  | .literal .null => .nullLiteral
  | .literal (.number _) => .numberLiteral
  | .connective .and => .andOperator
  | .connective .or => .orOperator
  | .not => .notOperator
  | .colon => .colon
  | .leftParen => .leftParen
  | .rightParen => .rightParen

def connective? : Token → Option Connective
  | .connective operator => some operator
  | _ => none

end Token

end NodeFilter
