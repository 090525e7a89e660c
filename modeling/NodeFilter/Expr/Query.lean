import NodeFilter.Expr
import NodeFilter.Expr.Parser

/-! A filter in any of the forms that can be evaluated: text, a tree, or a text already read. -/

namespace NodeFilter

inductive Query where
  | source (text : String)
  | tree (expr : Expr)
  | parsed (outcome : Except SourceError Expr)

inductive QueryError where
  | source (fault : SourceError)
  | evaluation (fault : EvalError)
  deriving DecidableEq

def QueryError.message : QueryError → String
  | .source fault => fault.message
  | .evaluation fault => fault.message

namespace Query

def expr : Query → Except SourceError Expr
  | .source text => parse text
  | .tree expr => .ok expr
  | .parsed outcome => outcome

def evaluateWithin (limit : Nat) (comparator : Option Comparator) (scope : Scope)
    (query : Query) : Except QueryError Bool × List Call :=
  match query.expr with
  | .error fault => (.error (.source fault), [])
  | .ok expr =>
      let run := expr.eval limit comparator scope
      (run.result.mapError .evaluation, run.calls)

def evaluate (comparator : Option Comparator) (scope : Scope) (query : Query) :
    Except QueryError Bool × List Call :=
  query.evaluateWithin defaultLimit comparator scope

end Query

end NodeFilter
