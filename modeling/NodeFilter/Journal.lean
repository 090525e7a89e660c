import NodeFilter.Document
import NodeFilter.Dump
import NodeFilter.Expr.Query

/-!
What is noted while filters are read and run. An entry follows from the outcome of
the step it is about, so the journal of a step is a function of its input.
-/

namespace NodeFilter

namespace Journal

inductive Level where
  | trace
  | debug
  | info
  deriving DecidableEq

def Level.name : Level → String
  | .trace => "TRACE"
  | .debug => "DEBUG"
  | .info => "INFO"

structure Entry where
  level : Level
  message : String
  deriving DecidableEq

def ofLex (source : String) : List Entry :=
  match lex source with
  | .ok tokens => [⟨.trace, s!"lexed {tokens.length} tokens"⟩]
  | .error fault => [⟨.debug, s!"lex failed: {fault.message}"⟩]

def ofParse (source : String) : List Entry :=
  -- A text that gives no tokens is not parsed, so only its lexing is noted.
  ofLex source ++
    match parse source with
    | .ok expr => [⟨.trace, s!"parsed {expr.dump.compact}"⟩]
    | .error (.parsing fault) => [⟨.debug, s!"parse failed: {fault.message}"⟩]
    | .error (.lexing _) => []

def ofQuery : Query → List Entry
  -- A text is read for a query only if the query holds it as text.
  | .source text => ofParse text
  | .tree _ | .parsed _ => []

def ofEvaluation (outcome : Except QueryError Bool) : List Entry :=
  -- A query that could not be read is not evaluated, so nothing is noted about that.
  match outcome with
  | .error (.evaluation fault) => [⟨.debug, s!"evaluation failed: {fault.message}"⟩]
  | _ => []

def ofEvaluate (comparator : Option Comparator) (scope : Scope) (query : Query) : List Entry :=
  ofQuery query ++ ofEvaluation (query.evaluate comparator scope).1

end Journal

end NodeFilter
