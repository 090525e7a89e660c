import NodeFilter.Proofs.ChainLoop

/-!
Calling a parser again. However a call ended, no level stays open, so the next call does what a
new parser does on the tokens that are left. A call takes at least one of them, and all of them if
it succeeds, so no more calls than tokens are needed to take them all.
-/

namespace NodeFilter.Session

variable {tokens : List Token} {limit : Nat}

/-! What a call gives, by the tokens that are left. -/
section Outcome

def finish : Outcome → Outcome
  | (.ok _, first :: rest) => (.error (.unexpected .endOfInput (some first.kind)), first :: rest)
  | outcome => outcome

theorem finish_eq_ok {outcome : Outcome} {tree : Expr} {rest : List Token}
    (finished : finish outcome = (.ok tree, rest)) : rest = [] := by
  rcases outcome with ⟨fault | found, left⟩
  · cases finished
  · cases left <;> cases finished
    rfl

theorem parse_reads (session : Session tokens limit) :
    Reads session.parse (finish (chainOutcome limit session.depth session.rest)) := by
  have chain := descend_reads session
  rw [← chain_eq_descend] at chain
  rw [parse, ← chain.1]
  have depth := chain.2
  generalize session.chain = step at depth
  rcases step with ⟨fault | tree, after, onward⟩
  · exact ⟨rfl, depth⟩
  · simp only [Step.andThen]
    cases found : after.current? with
    | none =>
        rw [rest_of_none found]
        exact ⟨congrArg _ (rest_of_none found), depth⟩
    | some first =>
        have left := rest_of_some found
        rw [left]
        refine ⟨?_, depth⟩
        simp only [Option.isSome_some, if_true, Step.since, Step.refuse, Step.stay, found, left]
        rfl

theorem parse_result (session : Session tokens limit) (closed : session.depth = 0) :
    session.parse.result = parseTokens limit session.rest := by
  have result := congrArg Prod.fst session.parse_reads.1
  rw [closed] at result
  rw [parseTokens_eq]
  refine result.trans ?_
  rcases chainOutcome limit 0 session.rest with ⟨fault | tree, left⟩
  · rfl
  · cases left <;> rfl

theorem parse_exhausted {session : Session tokens limit} (exhausted : session.rest = []) :
    session.parse.result = .error (.unexpected .expression none) ∧
      session.parse.after.rest = [] := by
  have reads := session.parse_reads.1
  rw [exhausted, chain_outcome, operand_nil] at reads
  exact ⟨congrArg Prod.fst reads, congrArg Prod.snd reads⟩

end Outcome

/-! How far a call goes. -/
section Progress

theorem length_rest (session : Session tokens limit) :
    session.position + session.rest.length = tokens.length := by
  have bound := session.position_le
  rw [rest, List.length_drop]
  omega

theorem rest_eq_nil_iff (session : Session tokens limit) :
    session.rest = [] ↔ session.position = tokens.length := by
  have length := session.length_rest
  rw [← List.length_eq_zero_iff]
  omega

theorem Step.le_andThen {α β : Type} {before : Session tokens limit} (step : Step α before)
    (next : α → (here : Session tokens limit) → before.position ≤ here.position → Step β here) :
    step.after.position ≤ (step.andThen next).after.position := by
  rcases step with ⟨fault | given, after, onward⟩
  · exact Nat.le_refl _
  · exact (next given after onward).onward

-- The first token is taken whether or not an operand can start with it.
theorem operand_onward (session : Session tokens limit) (chain : Reader session) :
    session.advance.position ≤ (session.operand chain).after.position := by
  unfold operand
  split
  case h_1 => exact Nat.le_refl _
  case h_2 => exact Step.onward _
  case h_3 => exact Step.onward _
  case h_4 => exact Step.onward _
  case h_5 => exact Nat.le_refl _
  case h_6 first notGroup notNegation notField notLiteral _ =>
      cases first with
      | colon => exact Nat.le_refl _
      | rightParen => exact Nat.le_refl _
      | connective _ => exact Nat.le_refl _
      | leftParen => exact absurd rfl notGroup
      | not => exact absurd rfl notNegation
      | field field => exact absurd rfl (notField field)
      | literal literal => exact absurd rfl (notLiteral literal)

theorem parse_further {session : Session tokens limit} (left : session.position < tokens.length) :
    session.position < session.parse.after.position := by
  have found : session.current? = some tokens[session.position] := List.getElem?_eq_getElem left
  have taken := lt_advance found
  have operand := session.operand_onward fun inner _ => inner.chain
  have chain : session.advance.position ≤ session.chain.after.position := by
    rw [Session.chain]
    exact Nat.le_trans operand (Step.le_andThen _ _)
  exact Nat.lt_of_lt_of_le taken (Nat.le_trans chain (Step.le_andThen _ _))

/-- A new parser on what is left takes as many tokens as a call with no level open. -/
theorem parse_position (session : Session tokens limit) (closed : session.depth = 0) :
    session.parse.after.position =
      session.position + (start session.rest limit).parse.after.position := by
  have left : (start session.rest limit).rest = session.rest := List.drop_zero
  have fresh := congrArg Prod.snd (start session.rest limit).parse_reads.1
  have same := congrArg Prod.snd session.parse_reads.1
  rw [left] at fresh
  rw [closed] at same
  have rests : session.parse.after.rest = (start session.rest limit).parse.after.rest :=
    same.trans fresh.symm
  have whole := session.length_rest
  have called := session.parse.after.length_rest
  have started := (start session.rest limit).parse.after.length_rest
  rw [rests] at called
  omega

end Progress

/-! Any number of calls. -/
section Calls

theorem afterCalls_depth (session : Session tokens limit) (calls : Nat) :
    (session.afterCalls calls).depth = session.depth := by
  induction calls with
  | zero => rfl
  | succ calls ih => exact ((session.afterCalls calls).parse_reads.2).trans ih

theorem afterCalls_position (session : Session tokens limit) (calls : Nat) :
    min calls tokens.length ≤ (session.afterCalls calls).position := by
  induction calls with
  | zero => exact Nat.le_trans (Nat.min_le_left ..) (Nat.zero_le _)
  | succ calls ih =>
      have onward := (session.afterCalls calls).parse.onward
      change min (calls + 1) tokens.length ≤ (session.afterCalls calls).parse.after.position
      by_cases left : (session.afterCalls calls).position < tokens.length
      · have further := parse_further left
        omega
      · omega

theorem afterCalls_exhausted {session : Session tokens limit} (exhausted : session.rest = [])
    (calls : Nat) : (session.afterCalls calls).rest = [] := by
  induction calls with
  | zero => exact exhausted
  | succ calls ih => exact (parse_exhausted ih).2

/-- What the next call does, by the tokens that are left. -/
structure Resumes (session : Session tokens limit) : Prop where
  result : session.parse.result = parseTokens limit session.rest
  /-- A new parser on these tokens gives the same. -/
  fresh : session.parse.result = (start session.rest limit).parse.result
  /-- It takes as many of them. -/
  position : session.parse.after.position =
    session.position + (start session.rest limit).parse.after.position
  onward : session.position ≤ session.parse.after.position
  inside : session.parse.after.position ≤ tokens.length
  further : session.position < tokens.length → session.position < session.parse.after.position
  whole : ∀ tree, session.parse.result = .ok tree → session.parse.after.position = tokens.length
  /-- With none left, this call and each after it fail. -/
  exhausted : session.position = tokens.length → ∀ more,
    (session.afterCalls more).position = tokens.length ∧
      (session.afterCalls more).parse.result = .error (.unexpected .expression none)

theorem resumes_of_closed (session : Session tokens limit) (closed : session.depth = 0) :
    Resumes session where
  result := session.parse_result closed
  fresh := (session.parse_result closed).trans ((start session.rest limit).parse_result rfl).symm
  position := session.parse_position closed
  onward := session.parse.onward
  inside := session.parse.after.position_le
  further := parse_further
  whole tree succeeded := by
    have finished := session.parse_reads.1
    rw [succeeded] at finished
    exact (rest_eq_nil_iff _).mp (finish_eq_ok finished.symm)
  exhausted ended more := by
    have left := afterCalls_exhausted ((rest_eq_nil_iff session).mpr ended) more
    exact ⟨(rest_eq_nil_iff _).mp left, (parse_exhausted left).1⟩

end Calls

/-- After any number of calls, however they ended, the next one gives what a new parser gives on
the tokens that are left and takes as many of them. Each call takes at least one token where one is
left, so none is left after as many calls as there are tokens. -/
theorem calls_resume (tokens : List Token) (limit calls : Nat) :
    Resumes ((start tokens limit).afterCalls calls) ∧
      (tokens.length ≤ calls → ((start tokens limit).afterCalls calls).position = tokens.length) := by
  have closed : ((start tokens limit).afterCalls calls).depth = 0 := afterCalls_depth _ calls
  refine ⟨resumes_of_closed _ closed, ?_⟩
  intro enough
  have taken := (start tokens limit).afterCalls_position calls
  rw [Nat.min_eq_right enough] at taken
  exact Nat.le_antisymm ((start tokens limit).afterCalls calls).position_le taken

/-- With no levels to open, a first call on `(null | true` takes the parenthesis and fails. What is
left is a filter, so the second call takes it whole. -/
theorem calls_resume_tooDeep :
    let tokens : List Token := [.leftParen, .literal .null, .connective .or, .literal (.boolean true)]
    let session := (start tokens 0).afterCalls 1
    (start tokens 0).parse.result = .error (.tooDeep 0) ∧
      session.parse.result = .ok (.joined .or (.value .null) (.value (.boolean true))) ∧
      session.parse.after.position = 4 := by
  intro tokens session
  have first : chainOutcome 0 0 tokens = (.error (.tooDeep 0), tokens.tail) := by
    rw [chain_outcome, operand_group, nested_outcome, if_pos (Nat.le_refl 0)]
    rfl
  have second : chainOutcome 0 0 tokens.tail =
      (.ok (.joined .or (.value .null) (.value (.boolean true))), []) :=
    flat_outcome 0 0 [(.null, .or)] (.boolean true) trivial
  have refused : ((start tokens 0).parse.result, session.rest) =
      finish (.error (.tooDeep 0), tokens.tail) := by
    rw [← first]
    exact (start tokens 0).parse_reads.1
  have left : session.rest = tokens.tail := congrArg Prod.snd refused
  obtain ⟨resumes, -⟩ := calls_resume tokens 0 1
  have parsed : session.parse.result = .ok (.joined .or (.value .null) (.value (.boolean true))) := by
    refine resumes.result.trans ?_
    rw [left]
    exact parseTokens_eq_ok.mpr second
  exact ⟨congrArg Prod.fst refused, parsed, resumes.whole _ parsed⟩

end NodeFilter.Session
