import NodeFilter.Value
import NodeFilter.Check

/-! The manual: an overview and a page on each topic. -/

namespace NodeFilter.Manual

inductive Topic where
  | literals
  | operators
  | fields
  | types
  deriving DecidableEq

def Topic.ofName? (name : String) : Option Topic :=
  match Category.lowercase name with
  | "syntax" | "literals" => some .literals
  | "operators" | "ops" => some .operators
  | "fields" | "field" => some .fields
  | "types" | "type" => some .types
  | _ => none

def page (lines : List String) : String := String.join (lines.map (· ++ "\n"))

def overview : String := page
  ["SIFT DOCUMENTATION",
   "",
   "Sift is a tiny filter language for picking nodes out of a JSON document by",
   "key, value, or type. A filter is checked against every node; the nodes it",
   "matches are printed with their paths.",
   "",
   "DOCUMENTATION CATEGORIES",
   "",
   "  syntax            Literals: quoted strings, bare words, numbers, keywords",
   "  operators         &, |, ! and parentheses (and why there is no precedence)",
   "  fields            $key, $value and $type scoping",
   "  types             Type names reported by $type",
   "",
   "QUICK REFERENCE",
   "",
   "  $key: name              Node is a member called \"name\"",
   "  $value: 42              Node value is 42",
   "  $type: array            Node is an array",
   "  $value: red             Array node containing \"red\"",
   "  a & b | c               a & (b | c)",
   "  (a & b) | c             Parentheses limit reach",
   "",
   "Run 'sift doc <category>' for detailed documentation."]

def literalsPage : String := page
  ["SYNTAX - Literals",
   "",
   "STRINGS",
   "  \"double quoted\"    'single quoted'    bare_word",
   "",
   "    A quoted string runs to the next occurrence of its opening quote.",
   "    There are no escape sequences, so use the other quote character to",
   "    embed one:",
   "",
   "      'say \"hi\"'        => say \"hi\"",
   "      \"it's\"            => it's",
   "",
   "    Bare words are letters, digits and underscores.",
   "",
   "NUMBERS",
   "  42    -1.5    .5    +3",
   "",
   "    A number starts with a digit, '-', '+' or '.'. Malformed numbers such",
   "    as 1.2.3 or a lone '-' are errors.",
   "",
   "KEYWORDS",
   "  true    false    null",
   "",
   "WHITESPACE",
   "  Spaces, tabs and newlines between tokens are ignored.",
   "",
   "MATCHING",
   "  A literal on its own matches a scalar value that is strictly equal to",
   "  it: the string \"42\" does not match the number 42. Against an array it",
   "  matches when the array contains the literal; against an object it",
   "  matches when the object has that key."]

def operatorsPage : String := page
  ["OPERATORS",
   "",
   "AND / OR",
   "  a & b      both match",
   "  a | b      either matches",
   "",
   "  Evaluation stops as soon as the result is known.",
   "",
   "NO PRECEDENCE",
   "  & and | bind equally and group to the right. Once an operand is",
   "  complete, an operator takes everything after it as its right side:",
   "",
   "    a & b | c      means   a & (b | c)",
   "    a | b & c      means   a | (b & c)",
   "",
   "NOT",
   "  !a         does not match",
   "",
   "  ! negates everything that follows it up to the end of the enclosing",
   "  group:",
   "",
   "    !a & b         means   !(a & b)",
   "    (!a) & b       negates only a",
   "",
   "PARENTHESES",
   "  (a & b) | c",
   "",
   "  Parentheses are the only way to limit how far an operator reaches."]

def fieldsPage : String := page
  ["FIELDS - Scoping into a node",
   "",
   "  $key: <filter>      the node's member name (or index in an array)",
   "  $value: <filter>    the node's value",
   "  $type: <filter>     the node's type name",
   "",
   "  The filter after the colon is checked against that facet of the node.",
   "  Like !, a field takes everything after it up to the end of the group:",
   "",
   "    $key: id | uuid           key is id or uuid",
   "    $key: id & $type: number  ERROR once id matches (see below)",
   "    ($key: id) & ($type: number)",
   "",
   "NESTING",
   "  Fields are only available directly on the node. A field inside another",
   "  field's filter cannot be resolved and the filter fails:",
   "",
   "    $key: $value: x           error",
   "",
   "ROOT",
   "  The document root has no key, so $key never matches it."]

def typesPage : String := page
  ["TYPES",
   "",
   "  $type reports one of:",
   "",
   "    object    array    string    number    boolean    null",
   "",
   "  Examples:",
   "    $type: string",
   "    $type: (number | boolean)",
   "    !$type: null"]

def Topic.text : Topic → String
  | .literals => literalsPage
  | .operators => operatorsPage
  | .fields => fieldsPage
  | .types => typesPage

def lookup (name : String) : Except CommandError String :=
  match Topic.ofName? name with
  | some topic => .ok topic.text
  | none => .error (.unknownCategory name)

end NodeFilter.Manual
