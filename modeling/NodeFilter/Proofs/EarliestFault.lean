import NodeFilter.Proofs.Spelling

/-!
Where a parse fails, it fails at once. The tokens before the fault still begin some filter, and
with the token at fault they begin none: what follows is never looked at. So the fault stands at
the first token that no filter can have there, or at the end of the tokens if more could follow.
-/

namespace NodeFilter.Grammar

open Outcome (Stops)

def EndsInField (tokens : List Token) : Prop := ∃ field, tokens.getLast? = some (.field field)

theorem endsInField_append {front : List Token} (plain : ¬ EndsInField front)
    (back : List Token) : EndsInField (front ++ back) ↔ EndsInField back := by
  unfold EndsInField at plain ⊢
  rw [List.getLast?_append]
  cases last : back.getLast? with
  | none => simpa using plain
  | some token => simp

theorem plain_nil : ¬ EndsInField [] := fun ⟨_, last⟩ => nomatch last

theorem plain_append {front back : List Token} (frontPlain : ¬ EndsInField front)
    (backPlain : ¬ EndsInField back) : ¬ EndsInField (front ++ back) :=
  fun last => backPlain ((endsInField_append frontPlain back).mp last)

theorem plain_single {token : Token} (other : ∀ field, token ≠ .field field) :
    ¬ EndsInField [token] := fun ⟨field, last⟩ => other field (Option.some.inj last)

theorem plain_colon (field : Field) : ¬ EndsInField [.field field, .colon] := by
  rintro ⟨_, last⟩
  cases last

-- A phrase ends in a literal or in a parenthesis.
theorem derived_plain {phrase : Phrase} {levels : Nat} {tokens : List Token} {tree : Expr}
    (derived : Derives phrase levels tokens tree) : ¬ EndsInField tokens := by
  induction derived with
  | literal literal => exact plain_single (by simp)
  | group _ ih =>
      exact plain_append (plain_single (by simp)) (plain_append ih (plain_single (by simp)))
  | negation _ ih => exact plain_append (plain_single (by simp)) ih
  | scope field _ ih => exact plain_append (plain_colon field) ih
  | link operator _ _ firstIh restIh =>
      exact plain_append firstIh (plain_append (plain_single (by simp)) restIh)
  | _ => assumption

/-! A reader that is stuck may meet the end of the tokens there, or any tokens that start like
those it met. -/
section Alike

variable {later after : List Token} (same : later = [] ∨ later.head? = after.head?)

include same

theorem head_ne_of_alike {token : Token} (other : after.head? ≠ some token) :
    later.head? ≠ some token := by
  rcases same with rfl | same
  · simp
  · rwa [same]

theorem stops_of_alike (stops : Stops after) : Stops later := by
  rcases Outcome.stops_or_connective later with done | ⟨operator, rest, rfl⟩
  · exact done
  · rcases same with same | same
    · cases same
    · obtain ⟨_, rfl⟩ := List.head?_eq_some_iff.mp same.symm
      exact stops.elim

end Alike

/-- A reader that takes `before` and is stuck at what comes next. It is stuck there at the end of
the tokens as well, and whatever follows the token it is stuck at. Still `before` is the
beginning of a phrase that could be read. -/
structure Stuck (read : List Token → Outcome) (phrase : Phrase) (levels : Nat)
    (expected : Expectation) (before after : List Token) : Prop where
  fails : ∀ later, later = [] ∨ later.head? = after.head? →
    (read (before ++ later)).1 = .error (.unexpected expected (later.head?.map Token.kind))
  completed : ∃ more tree, Derives phrase levels (before ++ more) tree
  colon : expected = .colon ↔ EndsInField before
  inside : expected ≠ .endOfInput

/-- A reader that is stuck makes the reader around it stuck at the same place. -/
theorem Stuck.within {read outer : List Token → Outcome} {phrase whole : Phrase}
    {levels more : Nat} {expected : Expectation} {front before after : List Token}
    (stuck : Stuck read phrase levels expected before after) (plain : ¬ EndsInField front)
    (passes : ∀ tokens fault, (read tokens).1 = .error fault →
      (outer (front ++ tokens)).1 = .error fault)
    (completes : ∀ tokens tree, Derives phrase levels tokens tree →
      ∃ closing result, Derives whole more (front ++ (tokens ++ closing)) result) :
    Stuck outer whole more expected (front ++ before) after where
  fails later same := by
    rw [List.append_assoc]
    exact passes _ _ (stuck.fails later same)
  completed := by
    obtain ⟨rest, tree, derived⟩ := stuck.completed
    obtain ⟨closing, result, derived⟩ := completes _ _ derived
    exact ⟨rest ++ closing, result, by simpa using derived⟩
  colon := stuck.colon.trans (endsInField_append plain before).symm
  inside := stuck.inside

/-! Each way of being stuck, and where it starts. -/
section Sites

variable {limit depth : Nat}

def someOperand : Token := .literal .null

theorem someOperand_derives (phrase : Phrase) (levels : Nat) :
    ∃ tree, Derives phrase levels [someOperand] tree := by
  have closed : Derives .closed levels [someOperand] _ := .literal .null
  cases phrase with
  | closed => exact ⟨_, closed⟩
  | operand => exact ⟨_, .closed closed⟩
  | chain => exact ⟨_, .last (.closed closed)⟩

/-- No operand starts with what comes next. -/
theorem stuck_at_operand {after : List Token}
    (wrong : ∀ first, after.head? = some first →
      first = .colon ∨ first = .rightParen ∨ ∃ operator, first = .connective operator) :
    Stuck (operandOutcome limit depth) .operand (limit - depth) .expression [] after where
  fails later same := by
    cases later with
    | nil => rw [List.append_nil, operand_nil]; rfl
    | cons first rest =>
        rcases same with same | same
        · cases same
        · rw [List.nil_append, operand_refused limit depth rest first (wrong first same.symm)]
          rfl
  completed := by
    obtain ⟨tree, derived⟩ := someOperand_derives .operand (limit - depth)
    exact ⟨[someOperand], tree, derived⟩
  colon := by
    constructor
    · intro same
      cases same
    · intro last
      exact absurd last plain_nil
  inside := nofun

/-- A field key is not followed by a colon. -/
theorem stuck_at_colon (field : Field) {after : List Token} (bare : after.head? ≠ some .colon)
    (room : depth < limit) :
    Stuck (operandOutcome limit depth) .operand (limit - depth) .colon [.field field] after where
  fails later same := by
    rw [List.singleton_append,
      operand_bare_field limit depth later field (head_ne_of_alike same bare)]
  completed := by
    obtain ⟨tree, derived⟩ := someOperand_derives .chain (limit - (depth + 1))
    rw [levels_of_room room]
    exact ⟨[.colon, someOperand], _, .scope field derived⟩
  colon := ⟨fun _ => ⟨field, rfl⟩, fun _ => rfl⟩
  inside := nofun

/-- A whole chain stands in a group, and what follows does not close the group. -/
theorem stuck_at_close {taken after : List Token} {tree : Expr} (room : depth < limit)
    (derived : Derives .chain (limit - (depth + 1)) taken tree) (stops : Stops after)
    (unclosed : after.head? ≠ some .rightParen) :
    Stuck (operandOutcome limit depth) .operand (limit - depth) .rightParen
      (.leftParen :: taken) after where
  fails later same := by
    have stopped := stops_of_alike same stops
    have read := derives_isRead limit derived (depth + 1) later (by omega) stopped
    rw [List.cons_append, operand_group, nested_of_room room, read,
      Outcome.close_unclosed tree (head_ne_of_alike same unclosed)]
  completed := by
    rw [levels_of_room room]
    exact ⟨[.rightParen], tree, .closed (.group derived)⟩
  colon := by
    constructor
    · intro same
      cases same
    · intro last
      exact absurd last (plain_append (plain_single (by simp)) (derived_plain derived))
  inside := nofun

end Sites

/-! A chain that is stuck one level down makes the operand around it stuck, and an operand or the
rest of a chain makes the chain stuck. -/
section Around

variable {limit depth : Nat} {expected : Expectation} {before after : List Token}

theorem Stuck.group (room : depth < limit)
    (stuck : Stuck (chainOutcome limit (depth + 1)) .chain (limit - (depth + 1)) expected before
      after) :
    Stuck (operandOutcome limit depth) .operand (limit - depth) expected (.leftParen :: before)
      after := by
  refine stuck.within (plain_single (by simp)) ?_ ?_
  · intro tokens fault failed
    rw [List.singleton_append, operand_group, nested_of_room room]
    exact Outcome.failed_close failed
  · intro tokens tree derived
    rw [levels_of_room room]
    exact ⟨[.rightParen], tree, .closed (.group derived)⟩

theorem Stuck.negation (room : depth < limit)
    (stuck : Stuck (chainOutcome limit (depth + 1)) .chain (limit - (depth + 1)) expected before
      after) :
    Stuck (operandOutcome limit depth) .operand (limit - depth) expected (.not :: before)
      after := by
  refine stuck.within (plain_single (by simp)) ?_ ?_
  · intro tokens fault failed
    rw [List.singleton_append, operand_negation, nested_of_room room]
    exact Outcome.failed_map _ failed
  · intro tokens tree derived
    rw [levels_of_room room]
    refine ⟨[], .not tree, ?_⟩
    rw [List.append_nil]
    exact .negation derived

theorem Stuck.scope (field : Field) (room : depth < limit)
    (stuck : Stuck (chainOutcome limit (depth + 1)) .chain (limit - (depth + 1)) expected before
      after) :
    Stuck (operandOutcome limit depth) .operand (limit - depth) expected
      (.field field :: .colon :: before) after := by
  refine stuck.within (plain_colon field) ?_ ?_
  · intro tokens fault failed
    rw [List.cons_append, List.singleton_append, operand_scope, nested_of_room room]
    exact Outcome.failed_map _ failed
  · intro tokens tree derived
    rw [levels_of_room room]
    refine ⟨[], .facet field tree, ?_⟩
    rw [List.append_nil]
    exact .scope field derived

theorem Stuck.first
    (stuck : Stuck (operandOutcome limit depth) .operand (limit - depth) expected before after) :
    Stuck (chainOutcome limit depth) .chain (limit - depth) expected before after := by
  change Stuck (chainOutcome limit depth) .chain (limit - depth) expected ([] ++ before) after
  refine stuck.within plain_nil ?_ ?_
  · intro tokens fault failed
    rw [List.nil_append, chain_outcome]
    exact Outcome.failed_link _ failed
  · intro tokens tree derived
    refine ⟨[], tree, ?_⟩
    rw [List.nil_append, List.append_nil]
    exact .last derived

theorem Stuck.link {first : List Token} {left : Expr} (operator : Connective)
    (within : depth ≤ limit) (derived : Derives .closed (limit - depth) first left)
    (stuck : Stuck (chainOutcome limit depth) .chain (limit - depth) expected before after) :
    Stuck (chainOutcome limit depth) .chain (limit - depth) expected
      (first ++ .connective operator :: before) after := by
  have sign : ¬ EndsInField [.connective operator] := plain_single (by simp)
  have plain := plain_append (derived_plain derived) sign
  have same : first ++ .connective operator :: before =
      (first ++ [.connective operator]) ++ before := by simp
  rw [same]
  refine stuck.within plain ?_ ?_
  · intro tokens fault failed
    have read := derives_isRead limit derived depth (.connective operator :: tokens) (by omega)
    rw [List.append_assoc, List.singleton_append, chain_outcome, read]
    exact Outcome.failed_map _ failed
  · intro tokens tree rest
    refine ⟨[], .joined operator left tree, ?_⟩
    rw [List.append_nil, List.append_assoc, List.singleton_append]
    exact .link operator derived rest

end Around

/-! With as many levels as there are tokens, a reader that fails is stuck somewhere. -/
section Failure

mutual

theorem operand_stuck {limit depth : Nat} {tokens : List Token} {fault : ParseError}
    (room : depth + tokens.length ≤ limit)
    (failed : (operandOutcome limit depth tokens).1 = .error fault) :
    ∃ expected before after, tokens = before ++ after ∧
      Stuck (operandOutcome limit depth) .operand (limit - depth) expected before after := by
  cases tokens with
  | nil => exact ⟨.expression, [], [], rfl, stuck_at_operand (by simp)⟩
  | cons first inner =>
      rw [List.length_cons] at room
      have opened : depth < limit := by omega
      have innerRoom : depth + 1 + inner.length ≤ limit := by omega
      cases first with
      | literal literal => simp [operand_literal] at failed
      | leftParen =>
          rw [operand_group, nested_of_room opened] at failed
          rcases read : chainOutcome limit (depth + 1) inner with ⟨innerFault | tree, rest⟩
          · obtain ⟨expected, before, after, rfl, stuck⟩ :=
              chain_stuck innerRoom (congrArg Prod.fst read)
            exact ⟨expected, .leftParen :: before, after, rfl, stuck.group opened⟩
          · obtain ⟨taken, rfl, derived, stops⟩ := chain_derives read
            refine ⟨.rightParen, .leftParen :: taken, rest, rfl, ?_⟩
            refine stuck_at_close opened derived stops ?_
            intro closed
            obtain ⟨after, rfl⟩ := List.head?_eq_some_iff.mp closed
            rw [read] at failed
            cases failed
      | not =>
          rw [operand_negation, nested_of_room opened] at failed
          rcases read : chainOutcome limit (depth + 1) inner with ⟨innerFault | tree, rest⟩
          · obtain ⟨expected, before, after, rfl, stuck⟩ :=
              chain_stuck innerRoom (congrArg Prod.fst read)
            exact ⟨expected, .not :: before, after, rfl, stuck.negation opened⟩
          · rw [read] at failed
            cases failed
      | field field =>
          by_cases colon : inner.head? = some .colon
          · obtain ⟨target, rfl⟩ := List.head?_eq_some_iff.mp colon
            rw [operand_scope, nested_of_room opened] at failed
            rcases read : chainOutcome limit (depth + 1) target with ⟨innerFault | tree, rest⟩
            · have targetRoom : depth + 1 + target.length ≤ limit := by
                rw [List.length_cons] at innerRoom
                omega
              obtain ⟨expected, before, after, rfl, stuck⟩ :=
                chain_stuck targetRoom (congrArg Prod.fst read)
              exact ⟨expected, .field field :: .colon :: before, after, rfl,
                stuck.scope field opened⟩
            · rw [read] at failed
              cases failed
          · exact ⟨.colon, [.field field], inner, rfl, stuck_at_colon field colon opened⟩
      | connective operator =>
          exact ⟨.expression, [], _, rfl, stuck_at_operand (by simp)⟩
      | colon => exact ⟨.expression, [], _, rfl, stuck_at_operand (by simp)⟩
      | rightParen => exact ⟨.expression, [], _, rfl, stuck_at_operand (by simp)⟩
termination_by (tokens.length, 0)

theorem chain_stuck {limit depth : Nat} {tokens : List Token} {fault : ParseError}
    (room : depth + tokens.length ≤ limit)
    (failed : (chainOutcome limit depth tokens).1 = .error fault) :
    ∃ expected before after, tokens = before ++ after ∧
      Stuck (chainOutcome limit depth) .chain (limit - depth) expected before after := by
  rcases read : operandOutcome limit depth tokens with ⟨operandFault | left, rest⟩
  · obtain ⟨expected, before, after, same, stuck⟩ := operand_stuck room (congrArg Prod.fst read)
    exact ⟨expected, before, after, same, stuck.first⟩
  · rw [chain_outcome, read] at failed
    rcases Outcome.stops_or_connective rest with stops | ⟨operator, more, rfl⟩
    · rw [Outcome.link_stops _ left stops] at failed
      cases failed
    · -- The operand ended before a connective, so it shows its end and can be derived closed.
      obtain ⟨first, rfl, closed | ⟨-, goesOn⟩⟩ := operand_derives read
      · rw [List.length_append, List.length_cons] at room
        rw [Outcome.link] at failed
        rcases next : chainOutcome limit depth more with ⟨moreFault | right, left⟩
        · obtain ⟨expected, before, after, rfl, stuck⟩ :=
            chain_stuck (by omega : depth + more.length ≤ limit) (congrArg Prod.fst next)
          exact ⟨expected, first ++ .connective operator :: before, after, by simp,
            stuck.link operator (by omega) closed⟩
        · rw [next] at failed
          cases failed
      · exact goesOn.elim
termination_by (tokens.length, 1)

end

end Failure

/-- What fails for another reason than the limit is no filter under any limit. -/
theorem unread_of_unexpected {limit : Nat} {tokens : List Token} {expected : Expectation}
    {found : Option Token.Kind}
    (failed : parseTokens limit tokens = .error (.unexpected expected found)) (bound : Nat)
    (tree : Expr) : parseTokens bound tokens ≠ .ok tree := by
  intro parsed
  rcases room_or_tooDeep (derives_of_parse parsed) (Nat.zero_le limit) with derived | tooDeep
  · rw [parse_of_derives derived (Nat.le_refl limit)] at failed
    cases failed
  · have cut := tooDeep []
    rw [List.append_nil] at cut
    rw [parseTokens_failed cut] at failed
    cases failed

/-- A chain that is read to its end, with a token after it that does not go on with it. -/
theorem parse_overlong {limit levels : Nat} {taken : List Token} {tree : Expr} {first : Token}
    (derived : Derives .chain levels taken tree) (within : levels ≤ limit) (rest : List Token)
    (stops : Stops (first :: rest)) :
    parseTokens limit (taken ++ first :: rest) =
      .error (.unexpected .endOfInput (some first.kind)) := by
  rw [parseTokens_eq, derives_isRead limit derived 0 (first :: rest) (by omega) stops]

structure FailsFirst (limit : Nat) (expected : Expectation) (before after : List Token) : Prop where
  /-- The tokens before the fault can be completed. -/
  begins : ∃ more tree, parseTokens limit (before ++ more) = .ok tree
  /-- With the token at fault they cannot, under any limit, and the fault is always the same. -/
  ends : ∀ first, after.head? = some first → ∀ more,
    parseTokens limit (before ++ first :: more) =
        .error (.unexpected expected (some first.kind)) ∧
      ∀ bound tree, parseTokens bound (before ++ first :: more) ≠ .ok tree
  colon : expected = .colon ↔ EndsInField before
  endOfInput : expected = .endOfInput ↔
    after ≠ [] ∧ ∃ tree, parseTokens limit before = .ok tree

theorem Stuck.failsFirst {limit : Nat} {expected : Expectation} {before after : List Token}
    (stuck : Stuck (chainOutcome limit 0) .chain limit expected before after) :
    FailsFirst limit expected before after where
  begins := by
    obtain ⟨more, tree, derived⟩ := stuck.completed
    exact ⟨more, tree, parse_of_derives derived (Nat.le_refl limit)⟩
  ends first head more := by
    have failed := parseTokens_failed (stuck.fails (first :: more) (Or.inr head.symm))
    exact ⟨failed, unread_of_unexpected failed⟩
  colon := stuck.colon
  endOfInput := by
    constructor
    · intro same
      exact absurd same stuck.inside
    · rintro ⟨-, tree, parsed⟩
      have failed := parseTokens_failed (stuck.fails [] (Or.inl rfl))
      rw [List.append_nil, parsed] at failed
      cases failed

theorem overlong_failsFirst {limit : Nat} {taken rest : List Token} {tree : Expr} {first : Token}
    (derived : Derives .chain limit taken tree) (stops : Stops (first :: rest)) :
    FailsFirst limit .endOfInput taken (first :: rest) where
  begins := ⟨[], tree, by rw [List.append_nil]; exact parse_of_derives derived (Nat.le_refl limit)⟩
  ends next head more := by
    cases head
    have alike : first :: more = [] ∨ (first :: more).head? = (first :: rest).head? := Or.inr rfl
    have failed := parse_overlong derived (Nat.le_refl limit) more (stops_of_alike alike stops)
    exact ⟨failed, unread_of_unexpected failed⟩
  colon := by
    constructor
    · intro same
      cases same
    · intro last
      exact absurd last (derived_plain derived)
  endOfInput :=
    ⟨fun _ => ⟨nofun, tree, parse_of_derives derived (Nat.le_refl limit)⟩, fun _ => rfl⟩

/-- With as many levels as there are tokens, a parse can only fail at a token that no filter has
after the tokens before it, whatever comes next, or at the end of tokens that begin some filter.
A missing colon is reported after a field key and nowhere else, and that the filter should have
ended where it could have ended. -/
theorem fault_earliest {limit : Nat} {tokens : List Token} {fault : ParseError}
    (room : tokens.length ≤ limit) (failed : parseTokens limit tokens = .error fault) :
    ∃ expected before after, tokens = before ++ after ∧
      fault = .unexpected expected (after.head?.map Token.kind) ∧
      FailsFirst limit expected before after := by
  rcases read : chainOutcome limit 0 tokens with ⟨chainFault | tree, rest⟩
  · have chainFailed : (chainOutcome limit 0 tokens).1 = .error chainFault := congrArg Prod.fst read
    obtain ⟨expected, before, after, rfl, stuck⟩ :=
      chain_stuck (by omega : 0 + tokens.length ≤ limit) chainFailed
    have here := parseTokens_failed (stuck.fails after (Or.inr rfl))
    rw [failed] at here
    cases here
    exact ⟨expected, before, after, rfl, rfl, stuck.failsFirst⟩
  · obtain ⟨taken, rfl, derived, stops⟩ := chain_derives read
    cases rest with
    | nil =>
        rw [List.append_nil, parse_of_derives derived (Nat.le_refl limit)] at failed
        cases failed
    | cons first rest =>
        rw [parse_overlong derived (Nat.le_refl limit) rest stops] at failed
        cases failed
        exact ⟨.endOfInput, taken, first :: rest, rfl, rfl, overlong_failsFirst derived stops⟩

/-- In `(null & ) null` the operand after `&` is missing. -/
theorem fault_earliest_dangling :
    let tokens : List Token :=
      [.leftParen, .literal .null, .connective .and, .rightParen, .literal .null]
    let fault : ParseError := .unexpected .expression (some .rightParen)
    tokens.length ≤ 5 ∧ parseTokens 5 tokens = .error fault ∧
      ∃ expected before after, tokens = before ++ after ∧
        fault = .unexpected expected (after.head?.map Token.kind) ∧
        FailsFirst 5 expected before after := by
  intro tokens fault
  have room : tokens.length ≤ 5 := by decide
  have failed : parseTokens 5 tokens = .error fault := by
    apply parseTokens_failed
    have dangling := operand_refused 5 1 [.literal .null] .rightParen (Or.inr (Or.inl rfl))
    rw [chain_outcome, operand_group, nested_of_room (by decide), chain_outcome, operand_literal,
      Outcome.link, chain_outcome, dangling]
    rfl
  exact ⟨room, failed, fault_earliest room failed⟩

end NodeFilter.Grammar
