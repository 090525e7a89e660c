import NodeFilter.Expr.Session
import NodeFilter.Proofs.Descent

/-!
The loop of a chain against the production it stands for: an operand and, after a connective,
the rest of the chain. Both read the same operands, and chains inside operands the same way. The
loop keeps a pile of operands where the production keeps a tree still to be finished, and folding
the pile finishes that tree.
-/

namespace NodeFilter.Session

open Outcome (Stops)

variable {tokens : List Token} {limit : Nat}

namespace Step

variable {α β γ : Type} {before middle : Session tokens limit}

theorem map_id (step : Step α before) : step.map id = step := by
  rcases step with ⟨fault | given, after, onward⟩ <;> rfl

theorem map_map (first : α → β) (second : β → γ) (step : Step α before) :
    (step.map first).map second = step.map (second ∘ first) := by
  rcases step with ⟨fault | given, after, onward⟩ <;> rfl

theorem map_since (wrap : α → β) (onward : before.position ≤ middle.position)
    (step : Step α middle) : (step.since onward).map wrap = (step.map wrap).since onward := rfl

theorem map_andThen (wrap : β → γ) (step : Step α before)
    (next : α → (here : Session tokens limit) → before.position ≤ here.position → Step β here) :
    (step.andThen next).map wrap =
      step.andThen fun given here onward => (next given here onward).map wrap := by
  rcases step with ⟨fault | given, after, onward⟩ <;> rfl

end Step

open Session.Step

/-! The recursive production, with the operands of the loop. -/
section Production

def descend (session : Session tokens limit) : Step Expr session :=
  (session.operand fun inner _ => descend inner).andThen fun left after _ =>
    match _ : after.connective? with
    | none => stay after (.ok left)
    | some operator =>
        ((descend after.advance).map (.joined operator left)).since after.le_advance
termination_by tokens.length - session.position
decreasing_by
  · have := inner.position_le
    omega
  · have further := lt_advance_of_connective ‹_›
    have := after.advance.position_le
    omega

def descendAfter (left : Expr) (session : Session tokens limit) : Step Expr session :=
  match session.connective? with
  | none => stay session (.ok left)
  | some operator =>
      (session.advance.descend.map (.joined operator left)).since session.le_advance

theorem descend_eq (session : Session tokens limit) :
    session.descend = (session.operand fun inner _ => inner.descend).andThen
      fun left after _ => descendAfter left after := by
  rw [descend]
  congr 1
  funext left after _
  unfold descendAfter
  split <;> simp_all

end Production

/-! The loop. The operand it read last is the one that may go on, and what is piled up below it
stands around the tree that starts there. -/
section Loop

theorem links_eq (pile : List (Connective × Expr)) (session : Session tokens limit) :
    links pile session =
      match session.connective? with
      | none => stay session (.ok pile)
      | some operator =>
          ((session.advance.operand fun inner _ => inner.chain).andThen fun tree after _ =>
            links ((operator, tree) :: pile) after).since session.le_advance := by
  rw [links]
  split <;> simp_all

def lastOf (head : Expr) : List (Connective × Expr) → Expr
  | [] => head
  | (_, right) :: _ => right

def around (head : Expr) : List (Connective × Expr) → Expr → Expr
  | [] => id
  | (operator, _) :: pile => fun tree => foldOnto head operator tree pile

theorem fold_eq_around (head : Expr) (pile : List (Connective × Expr)) :
    fold head pile = around head pile (lastOf head pile) := by
  cases pile <;> rfl

-- The connective read after an operand joins it to the tree that starts behind it.
theorem around_push (head : Expr) (operator : Connective) (tree : Expr)
    (pile : List (Connective × Expr)) :
    around head ((operator, tree) :: pile) =
      around head pile ∘ Expr.joined operator (lastOf head pile) := by
  cases pile <;> rfl

theorem links_fold (head : Expr) (pile : List (Connective × Expr)) (session : Session tokens limit)
    (same : ∀ inner : Session tokens limit, session.position < inner.position →
      inner.chain = inner.descend) :
    (links pile session).map (fold head) =
      (descendAfter (lastOf head pile) session).map (around head pile) := by
  -- By what is left to read. Each turn puts one operand on the pile.
  induction left : tokens.length - session.position using Nat.strongRecOn
    generalizing pile session with
  | _ size ih =>
  rw [links_eq, descendAfter]
  cases found : session.connective? with
  | none => simp only [Step.map, stay, Except.map, fold_eq_around]
  | some operator =>
      have further := lt_advance_of_connective found
      have bound := session.advance.position_le
      have operands : (session.advance.operand fun inner _ => inner.chain) =
          session.advance.operand fun inner _ => inner.descend := by
        congr 1
        funext inner beyond
        exact same inner (Nat.lt_trans further beyond)
      simp only [map_since, map_andThen, map_map, operands, descend_eq session.advance]
      congr 2
      funext tree after onward
      have turn := ih (tokens.length - after.position) (by omega) ((operator, tree) :: pile) after
        (fun inner beyond => same inner (by omega)) rfl
      rw [turn, around_push]
      rfl

theorem chain_eq_descend (session : Session tokens limit) : session.chain = session.descend := by
  induction left : tokens.length - session.position using Nat.strongRecOn
    generalizing session with
  | _ size ih =>
  have same : ∀ inner : Session tokens limit, session.position < inner.position →
      inner.chain = inner.descend := by
    intro inner further
    have bound := inner.position_le
    exact ih (tokens.length - inner.position) (by omega) inner rfl
  have operands : (session.operand fun inner _ => inner.chain) =
      session.operand fun inner _ => inner.descend := by
    congr 1
    funext inner further
    exact same inner further
  rw [chain, operands, descend_eq]
  congr 1
  funext head after onward
  have loop := links_fold head [] after fun inner further =>
    same inner (Nat.lt_of_le_of_lt onward further)
  rw [loop]
  exact Step.map_id _

end Loop

/-! What a session reads is what is read from the tokens it has left, and no step leaves a level
open or closes one too many. -/
section Reads

theorem rest_of_none {session : Session tokens limit} (found : session.current? = none) :
    session.rest = [] :=
  List.drop_eq_nil_of_le (List.getElem?_eq_none_iff.mp found)

theorem rest_of_some {session : Session tokens limit} {first : Token}
    (found : session.current? = some first) : session.rest = first :: session.advance.rest := by
  obtain ⟨inside, same⟩ := List.getElem?_eq_some_iff.mp found
  have next : session.advance.position = session.position + 1 := Nat.min_eq_left inside
  rw [rest, rest, next, ← same]
  exact List.drop_eq_getElem_cons inside

theorem current?_eq (session : Session tokens limit) : session.current? = session.rest.head? := by
  rw [rest, List.head?_drop, current?]

theorem expect_found {token : Token} {session : Session tokens limit} (expected : Expectation)
    (found : session.current? = some token) :
    expect token expected session = ⟨.ok (), session.advance, session.le_advance⟩ := if_pos found

theorem expect_missing {token : Token} {session : Session tokens limit} (expected : Expectation)
    (missing : session.current? ≠ some token) :
    expect token expected session = refuse expected session := if_neg missing

/-- A step gives this outcome, and the levels open before it are open after it. -/
def Reads {session : Session tokens limit} (step : Step Expr session) (outcome : Outcome) : Prop :=
  (step.result, step.after.rest) = outcome ∧ step.after.depth = session.depth

theorem Reads.map {session : Session tokens limit} {step : Step Expr session} {outcome : Outcome}
    (reads : Reads step outcome) (wrap : Expr → Expr) :
    Reads (step.map wrap) (outcome.map wrap) := by
  obtain ⟨rfl, depth⟩ := reads
  exact ⟨rfl, depth⟩

theorem nested_reads {session inner : Session tokens limit} {chain : Reader session}
    (reads : ∀ inner further, Reads (chain inner further) (chainOutcome limit inner.depth inner.rest))
    (further : session.position < inner.position) :
    Reads (nested chain inner further) (nestedOutcome limit inner.depth inner.rest) := by
  rw [nested_outcome, nested]
  split
  · exact ⟨rfl, rfl⟩
  · obtain ⟨same, depth⟩ := reads inner.enter further
    refine ⟨same, ?_⟩
    change (chain inner.enter further).after.depth - 1 = inner.depth
    rw [depth]
    rfl

theorem close_reads {session : Session tokens limit} {step : Step Expr session} {outcome : Outcome}
    (reads : Reads step outcome) :
    Reads (step.andThen fun tree after _ =>
      (expect .rightParen .rightParen after).map fun _ => tree) outcome.close := by
  obtain ⟨rfl, depth⟩ := reads
  rcases step with ⟨fault | tree, after, onward⟩
  · exact ⟨rfl, depth⟩
  · by_cases closed : after.current? = some .rightParen
    · simp only [Step.andThen, expect_found _ closed, rest_of_some closed]
      exact ⟨rfl, depth⟩
    · have unclosed : after.rest.head? ≠ some .rightParen := by rwa [← current?_eq]
      rw [Outcome.close_unclosed tree unclosed, ← current?_eq]
      simp only [Step.andThen, expect_missing _ closed]
      exact ⟨rfl, depth⟩

theorem Reads.since {session middle : Session tokens limit} {step : Step Expr middle}
    {outcome : Outcome} (reads : Reads step outcome)
    (onward : session.position ≤ middle.position) (same : middle.depth = session.depth) :
    Reads (step.since onward) outcome := by
  obtain ⟨rfl, depth⟩ := reads
  exact ⟨rfl, depth.trans same⟩

theorem scope_reads {session inner : Session tokens limit} {chain : Reader session}
    (reads : ∀ inner further, Reads (chain inner further) (chainOutcome limit inner.depth inner.rest))
    (further : session.position < inner.position) (field : Field) :
    Reads ((expect .colon .colon inner).andThen fun _ after onward =>
        (nested chain after (Nat.lt_of_lt_of_le further onward)).map (.facet field))
      (operandOutcome limit inner.depth (.field field :: inner.rest)) := by
  by_cases colon : inner.current? = some .colon
  · rw [rest_of_some colon, operand_scope, expect_found _ colon]
    exact ((nested_reads reads _).map _).since inner.le_advance rfl
  · have bare : inner.rest.head? ≠ some .colon := by rwa [← current?_eq]
    rw [operand_bare_field limit inner.depth inner.rest field bare, ← current?_eq,
      expect_missing _ colon]
    exact ⟨rfl, rfl⟩

theorem operand_reads {session : Session tokens limit} {chain : Reader session}
    (reads : ∀ inner further,
      Reads (chain inner further) (chainOutcome limit inner.depth inner.rest)) :
    Reads (session.operand chain) (operandOutcome limit session.depth session.rest) := by
  unfold operand
  split
  · rename_i found
    have ended : session.advance.rest = [] :=
      List.drop_eq_nil_of_le
        (Nat.le_trans (List.getElem?_eq_none_iff.mp found) session.le_advance)
    rw [rest_of_none found, operand_nil]
    exact ⟨by rw [ended], rfl⟩
  · rename_i found
    rw [rest_of_some found, operand_group]
    exact (close_reads (nested_reads reads _)).since session.le_advance rfl
  · rename_i found
    rw [rest_of_some found, operand_negation]
    exact ((nested_reads reads _).map _).since session.le_advance rfl
  · rename_i field found
    rw [rest_of_some found]
    exact (scope_reads reads (lt_advance found) field).since session.le_advance rfl
  · rename_i literal found
    rw [rest_of_some found, operand_literal]
    exact ⟨rfl, rfl⟩
  · rename_i first notGroup notNegation notField notLiteral found
    have wrong : first = .colon ∨ first = .rightParen ∨ ∃ operator, first = .connective operator := by
      cases first <;> simp_all
    rw [rest_of_some found, operand_refused limit session.depth _ first wrong]
    rcases wrong with rfl | rfl | ⟨operator, rfl⟩ <;> exact ⟨rfl, rfl⟩

theorem rest_of_connective {session : Session tokens limit} {operator : Connective}
    (found : session.connective? = some operator) :
    session.rest = .connective operator :: session.advance.rest := by
  obtain ⟨token, current, same⟩ := Option.bind_eq_some_iff.mp found
  cases token with
  | connective other =>
      cases same
      exact rest_of_some current
  | _ => cases same

theorem stops_of_no_connective {session : Session tokens limit}
    (none : session.connective? = none) : Stops session.rest := by
  rcases Outcome.stops_or_connective session.rest with stops | ⟨operator, after, left⟩
  · exact stops
  · rw [connective?, current?_eq, left] at none
    cases none

theorem descend_reads (session : Session tokens limit) :
    Reads session.descend (chainOutcome limit session.depth session.rest) := by
  -- By what is left to read. The operand reads chains further on, and so does a connective.
  induction left : tokens.length - session.position using Nat.strongRecOn
    generalizing session with
  | _ size ih =>
  have further : ∀ inner : Session tokens limit, session.position < inner.position →
      Reads inner.descend (chainOutcome limit inner.depth inner.rest) := by
    intro inner further
    have bound := inner.position_le
    exact ih (tokens.length - inner.position) (by omega) inner rfl
  have operand := operand_reads further
  rw [descend_eq, chain_outcome, ← operand.1]
  have depth := operand.2
  generalize (session.operand fun inner _ => inner.descend) = step at depth
  rcases step with ⟨fault | tree, after, onward⟩
  · exact ⟨rfl, depth⟩
  · change Reads ((descendAfter tree after).since onward) (Outcome.link _ (.ok tree, after.rest))
    rw [descendAfter]
    cases found : after.connective? with
    | none =>
        rw [Outcome.link_stops _ tree (stops_of_no_connective found)]
        exact ⟨rfl, depth⟩
    | some operator =>
        have rest := further after.advance
          (Nat.lt_of_le_of_lt onward (lt_advance_of_connective found))
        rw [rest_of_connective found, ← depth]
        exact ((rest.map _).since after.le_advance rfl).since onward depth

end Reads

/-! A chain of literals, which opens no level. -/
section Flat

def flatTokens : List (Literal × Connective) → Literal → List Token
  | [], last => [.literal last]
  | (literal, operator) :: links, last =>
      .literal literal :: .connective operator :: flatTokens links last

def flatTree : List (Literal × Connective) → Literal → Expr
  | [], last => .value last
  | (literal, operator) :: links, last => .joined operator (.value literal) (flatTree links last)

theorem flat_outcome (limit depth : Nat) (links : List (Literal × Connective)) (last : Literal)
    {after : List Token} (stops : Stops after) :
    chainOutcome limit depth (flatTokens links last ++ after) =
      (.ok (flatTree links last), after) := by
  induction links with
  | nil =>
      rw [flatTokens, List.singleton_append, chain_outcome, operand_literal]
      exact Outcome.link_stops _ _ stops
  | cons link links ih =>
      obtain ⟨literal, operator⟩ := link
      rw [flatTokens, List.cons_append, List.cons_append, chain_outcome, operand_literal,
        Outcome.link, ih]
      rfl

end Flat

/-- From any place and with any levels open, the loop gives what the recursive production gives,
and leaves the same place and the same levels. Both read what a chain is read as from the tokens
that are left. A chain of literals is read however long it is and however few levels there are. -/
theorem chain_exact (session : Session tokens limit) :
    session.chain = session.descend ∧
    Reads session.chain (readChain limit session.depth [] session.rest).outcome ∧
    ∀ links last after, session.rest = flatTokens links last ++ after → Stops after →
      Reads session.chain (.ok (flatTree links last), after) := by
  have reads := descend_reads session
  rw [← chain_eq_descend] at reads
  refine ⟨chain_eq_descend session, reads, ?_⟩
  intro links last after left stops
  rwa [left, flat_outcome limit session.depth links last stops] at reads

/-- Inside the group of `(null & true)`, where the one level there may be is open. -/
theorem chain_exact_in_group :
    let tokens : List Token := [.leftParen, .literal .null, .connective .and,
      .literal (.boolean true), .rightParen]
    let session : Session tokens 1 := ⟨1, 1, by decide⟩
    session.chain.result = .ok (.joined .and (.value .null) (.value (.boolean true))) ∧
      session.chain.after.rest = [.rightParen] ∧ session.chain.after.depth = 1 := by
  intro tokens session
  obtain ⟨-, -, flat⟩ := chain_exact session
  obtain ⟨read, depth⟩ := flat [(.null, .and)] (.boolean true) [.rightParen] rfl trivial
  exact ⟨congrArg Prod.fst read, congrArg Prod.snd read, depth⟩

end NodeFilter.Session
