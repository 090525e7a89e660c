import NodeFilter.Expr
import NodeFilter.Token.Lexer

/-!
From tokens to a tree. Operands are joined in chains that group to the right; a
group, a negation and a field scope each take a whole chain, one nesting level
down. A chain is read in a loop and folded from the right, so its length costs no
level. Every reading says what tokens it left behind, also when it failed.
-/

namespace NodeFilter

inductive Expectation where
  | expression
  | colon
  | rightParen
  | endOfInput
  deriving DecidableEq

def Expectation.name : Expectation → String
  | .expression => "expression"
  | .colon => Token.Kind.colon.name
  | .rightParen => Token.Kind.rightParen.name
  | .endOfInput => "end of input"

inductive ParseError where
  | unexpected (expected : Expectation) (found : Option Token.Kind)
  | tooDeep (limit : Nat)
  deriving DecidableEq

def ParseError.message : ParseError → String
  | .unexpected expected (some found) => s!"expected {expected.name}, but found {found.name}"
  | .unexpected expected none => s!"expected {expected.name}, but found end of input"
  | .tooDeep limit => s!"expression nested deeper than {limit} levels"

/-- What was read from the front of the tokens, and the tokens after it. -/
structure Reading (tokens : List Token) where
  result : Except ParseError Expr
  rest : List Token
  rest_le : rest.length ≤ tokens.length

namespace Reading

variable {tokens : List Token}

def refuseFirst (expected : Expectation) (first : Token) (rest : List Token) :
    Reading (first :: rest) :=
  ⟨.error (.unexpected expected (some first.kind)), rest, Nat.le_succ _⟩

def refuse (expected : Expectation) (tokens : List Token) : Reading tokens :=
  ⟨.error (.unexpected expected (tokens.head?.map Token.kind)), tokens, Nat.le_refl _⟩

def tooDeep (limit : Nat) (tokens : List Token) : Reading tokens :=
  ⟨.error (.tooDeep limit), tokens, Nat.le_refl _⟩

def after {rest : List Token} (shorter : rest.length ≤ tokens.length) (reading : Reading rest) :
    Reading tokens :=
  ⟨reading.result, reading.rest, Nat.le_trans reading.rest_le shorter⟩

def map (wrap : Expr → Expr) (reading : Reading tokens) : Reading tokens :=
  { reading with result := reading.result.map wrap }

theorem after_token {reading : Reading tokens} {first : Token} {rest : List Token}
    (left : reading.rest = first :: rest) : rest.length < tokens.length := by
  have bound := reading.rest_le
  simp only [left, List.length_cons] at bound
  omega

def close (reading : Reading tokens) : Reading tokens :=
  match reading.result with
  | .error _ => reading
  | .ok tree =>
      match left : reading.rest with
      | .rightParen :: rest => ⟨.ok tree, rest, Nat.le_of_lt (after_token left)⟩
      | _ => (refuse .rightParen reading.rest).after reading.rest_le

end Reading

/-- Joins the last operand of a chain with the links before it, nearest first. -/
def joinLinks (links : List (Expr × Connective)) (last : Expr) : Expr :=
  links.foldl (fun right link => .joined link.2 link.1 right) last

mutual

def readNested (limit depth : Nat) (tokens : List Token) : Reading tokens :=
  if limit ≤ depth then .tooDeep limit tokens
  else readChain limit (depth + 1) [] tokens
termination_by (tokens.length, 2)

def readChain (limit depth : Nat) (links : List (Expr × Connective)) (tokens : List Token) :
    Reading tokens :=
  let operand := readOperand limit depth tokens
  match operand.result with
  | .error _ => operand
  | .ok tree =>
      match left : operand.rest with
      | .connective operator :: rest =>
          (readChain limit depth ((tree, operator) :: links) rest).after
            (Nat.le_of_lt (Reading.after_token left))
      | _ => ⟨.ok (joinLinks links tree), operand.rest, operand.rest_le⟩
termination_by (tokens.length, 1)
decreasing_by
  · exact Prod.Lex.right _ (by decide)
  · exact Prod.Lex.left _ _ (Reading.after_token left)

def readOperand (limit depth : Nat) (tokens : List Token) : Reading tokens :=
  match tokens with
  | [] => .refuse .expression []
  | .leftParen :: rest => ((readNested limit depth rest).close).after (Nat.le_succ _)
  | .not :: rest => ((readNested limit depth rest).map .not).after (Nat.le_succ _)
  | .field field :: .colon :: rest =>
      ((readNested limit depth rest).map (.facet field)).after (by simp; omega)
  | .field _ :: rest => (Reading.refuse .colon rest).after (Nat.le_succ _)
  | .literal literal :: rest => ⟨.ok (.value literal), rest, Nat.le_succ _⟩
  | first :: rest => .refuseFirst .expression first rest
termination_by (tokens.length, 0)

end

def defaultLimit : Nat := 128

def readFilter (limit : Nat) (tokens : List Token) : Reading tokens :=
  let chain := readChain limit 0 [] tokens
  match chain.result, chain.rest with
  | .ok _, _ :: _ => (Reading.refuse .endOfInput chain.rest).after chain.rest_le
  | _, _ => chain

def parseTokens (limit : Nat) (tokens : List Token) : Except ParseError Expr :=
  (readFilter limit tokens).result

inductive SourceError where
  | lexing (fault : LexError)
  | parsing (fault : ParseError)
  deriving DecidableEq

def SourceError.message : SourceError → String
  | .lexing fault => fault.message
  | .parsing fault => fault.message

def parseWithin (limit : Nat) (source : String) : Except SourceError Expr :=
  match lex source with
  | .error fault => .error (.lexing fault)
  | .ok tokens => (parseTokens limit tokens).mapError .parsing

def parse (source : String) : Except SourceError Expr := parseWithin defaultLimit source

end NodeFilter
