import NodeFilter.Expr.Parser

/-!
A parser that can be called again. All it keeps between its steps is its place in the tokens and
how many levels are open, so a call goes on where the last one stopped, also where that one
failed. The loop of a chain piles up the operands, each with the connective before it, and folds
the pile from its top.
-/

namespace NodeFilter

structure Session (tokens : List Token) (limit : Nat) where
  position : Nat
  depth : Nat
  position_le : position ≤ tokens.length

namespace Session

variable {tokens : List Token} {limit : Nat} {α β : Type}

def start (tokens : List Token) (limit : Nat) : Session tokens limit := ⟨0, 0, Nat.zero_le _⟩

def rest (session : Session tokens limit) : List Token := tokens.drop session.position

def current? (session : Session tokens limit) : Option Token := tokens[session.position]?

def advance (session : Session tokens limit) : Session tokens limit :=
  ⟨min (session.position + 1) tokens.length, session.depth, Nat.min_le_right ..⟩

def enter (session : Session tokens limit) : Session tokens limit :=
  { session with depth := session.depth + 1 }

def leave (session : Session tokens limit) : Session tokens limit :=
  { session with depth := session.depth - 1 }

theorem le_advance (session : Session tokens limit) :
    session.position ≤ session.advance.position :=
  Nat.le_min.mpr ⟨Nat.le_succ _, session.position_le⟩

theorem lt_advance {session : Session tokens limit} {token : Token}
    (found : session.current? = some token) : session.position < session.advance.position := by
  obtain ⟨inside, -⟩ := List.getElem?_eq_some_iff.mp found
  exact Nat.lt_min.mpr ⟨Nat.lt_succ_self _, inside⟩

/-- What a step gave and where it left the session, which is never further back. -/
structure Step (α : Type) (before : Session tokens limit) where
  result : Except ParseError α
  after : Session tokens limit
  onward : before.position ≤ after.position

namespace Step

variable {before middle : Session tokens limit}

def stay (before : Session tokens limit) (result : Except ParseError α) : Step α before :=
  ⟨result, before, Nat.le_refl _⟩

def refuse (expected : Expectation) (before : Session tokens limit) : Step α before :=
  stay before (.error (.unexpected expected (before.current?.map Token.kind)))

def since (onward : before.position ≤ middle.position) (step : Step α middle) : Step α before :=
  ⟨step.result, step.after, Nat.le_trans onward step.onward⟩

def andThen (step : Step α before)
    (next : α → (here : Session tokens limit) → before.position ≤ here.position → Step β here) :
    Step β before :=
  match step.result with
  | .error fault => ⟨.error fault, step.after, step.onward⟩
  | .ok given => (next given step.after step.onward).since step.onward

def map (wrap : α → β) (step : Step α before) : Step β before :=
  { step with result := step.result.map wrap }

end Step

open Session.Step

def expect (token : Token) (expected : Expectation) (session : Session tokens limit) :
    Step Unit session :=
  if session.current? = some token then ⟨.ok (), session.advance, session.le_advance⟩
  else refuse expected session

abbrev Reader (session : Session tokens limit) : Type :=
  (inner : Session tokens limit) → session.position < inner.position → Step Expr inner

def nested {session : Session tokens limit} (chain : Reader session)
    (inner : Session tokens limit) (further : session.position < inner.position) :
    Step Expr inner :=
  -- The level is closed again however the chain ends.
  if limit ≤ inner.depth then stay inner (.error (.tooDeep limit))
  else
    let step := chain inner.enter further
    ⟨step.result, step.after.leave, step.onward⟩

def operand (session : Session tokens limit) (chain : Reader session) : Step Expr session :=
  let inner := session.advance
  match found : session.current? with
  | none => ⟨.error (.unexpected .expression none), inner, session.le_advance⟩
  | some .leftParen =>
      ((nested chain inner (lt_advance found)).andThen fun tree after _ =>
        (expect .rightParen .rightParen after).map fun _ => tree).since session.le_advance
  | some .not =>
      ((nested chain inner (lt_advance found)).map .not).since session.le_advance
  | some (.field field) =>
      ((expect .colon .colon inner).andThen fun _ after onward =>
        (nested chain after (Nat.lt_of_lt_of_le (lt_advance found) onward)).map
          (.facet field)).since session.le_advance
  | some (.literal literal) => ⟨.ok (.value literal), inner, session.le_advance⟩
  | some first => ⟨.error (.unexpected .expression (some first.kind)), inner, session.le_advance⟩

/-- Joins the pile from its top, each operand with the connective that was read after it. -/
def foldOnto (head : Expr) (operator : Connective) (right : Expr) :
    List (Connective × Expr) → Expr
  | [] => .joined operator head right
  | (before, left) :: pile => foldOnto head before (.joined operator left right) pile

def fold (head : Expr) : List (Connective × Expr) → Expr
  | [] => head
  | (operator, right) :: pile => foldOnto head operator right pile

def connective? (session : Session tokens limit) : Option Connective :=
  session.current?.bind Token.connective?

theorem lt_advance_of_connective {session : Session tokens limit} {operator : Connective}
    (found : session.connective? = some operator) :
    session.position < session.advance.position := by
  obtain ⟨token, current, -⟩ := Option.bind_eq_some_iff.mp found
  exact lt_advance current

mutual

def chain (session : Session tokens limit) : Step Expr session :=
  (session.operand fun inner _ => chain inner).andThen fun head after _ =>
    (links [] after).map (fold head)
termination_by 2 * (tokens.length - session.position) + 1
decreasing_by
  · have := inner.position_le
    omega
  · omega

def links (pile : List (Connective × Expr)) (session : Session tokens limit) :
    Step (List (Connective × Expr)) session :=
  match _ : session.connective? with
  | none => stay session (.ok pile)
  | some operator =>
      ((session.advance.operand fun inner _ => chain inner).andThen fun tree after _ =>
        links ((operator, tree) :: pile) after).since session.le_advance
termination_by 2 * (tokens.length - session.position)
decreasing_by
  · have further := lt_advance_of_connective ‹_›
    have := inner.position_le
    omega
  · have further := lt_advance_of_connective ‹_›
    have := session.advance.position_le
    omega

end

def parse (session : Session tokens limit) : Step Expr session :=
  session.chain.andThen fun tree after _ =>
    if after.current?.isSome then refuse .endOfInput after else stay after (.ok tree)

def afterCalls (session : Session tokens limit) : Nat → Session tokens limit
  | 0 => session
  | calls + 1 => (session.afterCalls calls).parse.after

end Session

end NodeFilter
