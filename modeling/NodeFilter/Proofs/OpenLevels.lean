import Mathlib.Data.Finset.Lattice.Fold
import Mathlib.Order.Lattice.Nat
import NodeFilter.Proofs.Cutoff
import NodeFilter.Proofs.EarliestFault
import NodeFilter.Proofs.Resumption

/-!
How many levels a parser has open. A group, a negation and a scope open one each, and what they
open stays open while the chain inside is read. A limit stops the reading at the first level that
is one too many, before another token is looked at. Until then the reading is the same under
every limit, so a limit cuts off the filters that need more levels and changes nothing else.
-/

namespace NodeFilter

def opened? : List Token → Option (List Token)
  | .leftParen :: inner => some inner
  | .not :: inner => some inner
  | .field _ :: .colon :: inner => some inner
  | _ => none

theorem opened?_shorter {tokens inner : List Token} (opened : opened? tokens = some inner) :
    inner.length < tokens.length := by
  unfold opened? at opened
  split at opened <;> cases opened <;> simp only [List.length_cons] <;> omega

def Outcome.onward? : Outcome → Option (List Token)
  | (.ok _, .connective _ :: rest) => some rest
  | _ => none

theorem onward?_shorter {limit depth : Nat} {tokens rest : List Token}
    (onward : (operandOutcome limit depth tokens).onward? = some rest) :
    rest.length < tokens.length := by
  have shorter := operand_rest_le limit depth tokens
  unfold Outcome.onward? at onward
  split at onward
  · rename_i left operator after read
    cases onward
    rw [read, List.length_cons] at shorter
    omega
  · cases onward

/-- How many levels are open each time that one is opened while a chain is read. -/
def chainLevels (limit depth : Nat) (tokens : List Token) : List Nat :=
  let inside := match _ : opened? tokens with
    | some inner => if limit ≤ depth then [] else (depth + 1) :: chainLevels limit (depth + 1) inner
    | none => []
  let after := match _ : (operandOutcome limit depth tokens).onward? with
    | some rest => chainLevels limit depth rest
    | none => []
  inside ++ after
termination_by tokens.length
decreasing_by
  · exact opened?_shorter ‹_›
  · exact onward?_shorter ‹_›

def nestedLevels (limit depth : Nat) (inner : List Token) : List Nat :=
  if limit ≤ depth then [] else (depth + 1) :: chainLevels limit (depth + 1) inner

theorem chainLevels_eq (limit depth : Nat) (tokens : List Token) :
    chainLevels limit depth tokens =
      (opened? tokens).elim [] (nestedLevels limit depth) ++
        (operandOutcome limit depth tokens).onward?.elim [] (chainLevels limit depth) := by
  rw [chainLevels]
  congr 1
  · split <;> rename_i opened <;> rw [opened] <;> rfl
  · split <;> rename_i onward <;> rw [onward] <;> rfl

/-- A chain goes on inside what its operand opens and behind the connective after it. -/
@[elab_as_elim]
theorem chain_induction {limit : Nat} {motive : Nat → List Token → Prop}
    (step : ∀ depth tokens,
      (∀ inner, opened? tokens = some inner → motive (depth + 1) inner) →
      (∀ rest, (operandOutcome limit depth tokens).onward? = some rest → motive depth rest) →
      motive depth tokens)
    (depth : Nat) (tokens : List Token) : motive depth tokens := by
  induction size : tokens.length using Nat.strongRecOn generalizing depth tokens with
  | _ size ih =>
      apply step
      · intro inner opened
        exact ih inner.length (size ▸ opened?_shorter opened) (depth + 1) inner rfl
      · intro rest onward
        exact ih rest.length (size ▸ onward?_shorter onward) depth rest rfl

/-- No level is opened beyond the limit. -/
theorem chainLevels_le (limit depth : Nat) (tokens : List Token) :
    ∀ level ∈ chainLevels limit depth tokens, level ≤ limit := by
  induction depth, tokens using @chain_induction limit with
  | step depth tokens insideIh onwardIh =>
      intro level member
      rw [chainLevels_eq] at member
      rcases List.mem_append.mp member with inside | after
      · cases opened : opened? tokens with
        | none => simp [opened] at inside
        | some inner =>
            simp only [opened, Option.elim_some, nestedLevels] at inside
            split at inside
            · cases inside
            · rcases List.mem_cons.mp inside with rfl | deeper
              · omega
              · exact insideIh inner opened level deeper
      · cases onward : (operandOutcome limit depth tokens).onward? with
        | none => simp [onward] at after
        | some rest =>
            rw [onward] at after
            exact onwardIh rest onward level after

/-! An operand either opens a level, and then all depends on the chain inside, or the limit makes
no difference to it. -/
section Operand

def PassesFaults (wrap : Outcome → Outcome) : Prop :=
  ∀ outcome fault, outcome.1 = .error fault → (wrap outcome).1 = .error fault

theorem operand_opened {tokens inner : List Token} (opened : opened? tokens = some inner) :
    ∃ wrap, PassesFaults wrap ∧
      ∀ limit depth, operandOutcome limit depth tokens = wrap (nestedOutcome limit depth inner) := by
  unfold opened? at opened
  split at opened
  · cases opened
    exact ⟨Outcome.close, fun _ _ => Outcome.failed_close, fun limit depth =>
      operand_group limit depth inner⟩
  · cases opened
    exact ⟨Outcome.map .not, fun _ _ => Outcome.failed_map .not, fun limit depth =>
      operand_negation limit depth inner⟩
  · rename_i field _
    cases opened
    exact ⟨Outcome.map (.facet field), fun _ _ => Outcome.failed_map (.facet field),
      fun limit depth => operand_scope limit depth inner field⟩
  · cases opened

theorem operand_unopened {tokens : List Token} (closed : opened? tokens = none)
    (limit ample depth : Nat) :
    operandOutcome limit depth tokens = operandOutcome ample depth tokens := by
  cases tokens with
  | nil => rw [operand_nil, operand_nil]
  | cons first rest =>
      cases first with
      | literal literal => rw [operand_literal, operand_literal]
      | leftParen => cases closed
      | not => cases closed
      | field field =>
          have bare : rest.head? ≠ some .colon := by
            intro colon
            obtain ⟨inner, rfl⟩ := List.head?_eq_some_iff.mp colon
            cases closed
          rw [operand_bare_field limit depth rest field bare,
            operand_bare_field ample depth rest field bare]
      | connective operator =>
          rw [operand_refused limit depth rest _ (Or.inr (Or.inr ⟨operator, rfl⟩)),
            operand_refused ample depth rest _ (Or.inr (Or.inr ⟨operator, rfl⟩))]
      | colon =>
          rw [operand_refused limit depth rest _ (Or.inl rfl),
            operand_refused ample depth rest _ (Or.inl rfl)]
      | rightParen =>
          rw [operand_refused limit depth rest _ (Or.inr (Or.inl rfl)),
            operand_refused ample depth rest _ (Or.inr (Or.inl rfl))]

end Operand

namespace Outcome

variable {limit : Nat} {levels : List Nat} {outcome whole : Outcome}

/-- A limit and the levels that are opened where the limit is ample. A level beyond the limit is
met by it before anything else can fail. -/
def CutsAt (limit : Nat) : List Nat → Outcome → Outcome → Prop :=
  Cuts (· ≤ limit) fun outcome _ => outcome.1 = .error (.tooDeep limit)

theorem CutsAt.wrapped {wrap : Outcome → Outcome} (passes : PassesFaults wrap)
    (cuts : CutsAt limit levels outcome whole) :
    CutsAt limit levels (wrap outcome) (wrap whole) :=
  Cuts.through (passes outcome _) cuts

theorem link_onward {tokens : List Token} (onward : outcome.onward? = some tokens) :
    ∃ wrap, PassesFaults wrap ∧ ∀ next, outcome.link next = wrap (next tokens) := by
  unfold onward? at onward
  split at onward
  · rename_i left operator rest
    cases onward
    exact ⟨map (.joined operator left), fun _ _ => failed_map _, fun _ => rfl⟩
  · cases onward

theorem link_ended (ended : outcome.onward? = none) (next : List Token → Outcome) :
    outcome.link next = outcome := by
  rcases outcome with ⟨fault | left, rest⟩
  · rfl
  · apply link_stops
    rcases stops_or_connective rest with stops | ⟨operator, after, rfl⟩
    · exact stops
    · cases ended

/-- The levels of the operand come first. Only if they are all within the limit is it read at all
what comes after the connective. -/
theorem CutsAt.link {next nextWhole : List Token → Outcome} {later : List Token → List Nat}
    (first : CutsAt limit levels outcome whole)
    (rest : ∀ tokens, whole.onward? = some tokens →
      CutsAt limit (later tokens) (next tokens) (nextWhole tokens)) :
    CutsAt limit (levels ++ whole.onward?.elim [] later) (outcome.link next)
      (whole.link nextWhole) := by
  apply Cuts.append
  · intro level member beyond
    exact failed_link next (first.cut level member beyond)
  · intro within
    rw [first.spared within]
    cases onward : whole.onward? with
    | none =>
        rw [link_ended onward, link_ended onward]
        exact Cuts.nowhere whole
    | some tokens =>
        obtain ⟨wrap, passes, linked⟩ := link_onward onward
        rw [linked, linked]
        exact (rest tokens onward).wrapped passes

end Outcome

open Outcome (CutsAt)

/-- One level down the limit is met at once, or it does with the chain inside what it does. -/
theorem nested_cuts {limit ample depth : Nat} {inner : List Token} (room : depth < ample)
    (cuts : CutsAt limit (chainLevels ample (depth + 1) inner) (chainOutcome limit (depth + 1) inner)
      (chainOutcome ample (depth + 1) inner)) :
    CutsAt limit (nestedLevels ample depth inner) (nestedOutcome limit depth inner)
      (nestedOutcome ample depth inner) := by
  rw [nested_of_room room, nestedLevels, if_neg (Nat.not_le.mpr room)]
  apply Cuts.cons
  · intro beyond
    rw [nested_outcome, if_pos (by omega)]
  · intro within
    rw [nested_of_room within]
    exact cuts

/-- With as many levels as there are tokens nothing is cut, and any other limit cuts that reading
by the levels it opens. -/
theorem chain_cuts (limit : Nat) {ample depth : Nat} {tokens : List Token}
    (room : depth + tokens.length ≤ ample) :
    CutsAt limit (chainLevels ample depth tokens) (chainOutcome limit depth tokens)
      (chainOutcome ample depth tokens) := by
  -- By the chain under the ample limit. The operand comes first, with the chain inside it.
  induction depth, tokens using @chain_induction ample with
  | step depth tokens insideIh onwardIh =>
      rw [chain_outcome, chain_outcome, chainLevels_eq]
      apply CutsAt.link
      · cases opened : opened? tokens with
        | none =>
            rw [operand_unopened opened limit ample depth]
            exact Cuts.nowhere _
        | some inner =>
            obtain ⟨wrap, passes, wrapped⟩ := operand_opened opened
            have shorter := opened?_shorter opened
            rw [wrapped, wrapped]
            exact (nested_cuts (by omega) (insideIh inner opened (by omega))).wrapped passes
      · intro rest onward
        have shorter := onward?_shorter onward
        exact onwardIh rest onward (by omega)

theorem chain_not_tooDeep {ample depth : Nat} {tokens : List Token}
    (room : depth + tokens.length ≤ ample) (cut : Nat) :
    (chainOutcome ample depth tokens).1 ≠ .error (.tooDeep cut) := by
  intro failed
  obtain ⟨expected, before, after, rfl, stuck⟩ := Grammar.chain_stuck room failed
  have here := stuck.fails after (Or.inr rfl)
  rw [failed] at here
  cases here

/-! The whole filter. -/
section Filter

theorem finish_passes : PassesFaults Session.finish := by
  rintro ⟨result, rest⟩ fault failed
  cases failed
  rfl

theorem readFilter_outcome (limit : Nat) (tokens : List Token) :
    (readFilter limit tokens).outcome = Session.finish (chainOutcome limit 0 tokens) := by
  unfold readFilter chainOutcome
  rcases readChain limit 0 [] tokens with ⟨fault | tree, rest, bound⟩
  · rfl
  · cases rest <;> rfl

theorem filter_cuts (limit : Nat) {ample : Nat} {tokens : List Token}
    (room : tokens.length ≤ ample) :
    CutsAt limit (chainLevels ample 0 tokens) (readFilter limit tokens).outcome
      (readFilter ample tokens).outcome := by
  rw [readFilter_outcome, readFilter_outcome]
  exact (chain_cuts limit (by omega)).wrapped finish_passes

theorem filter_not_tooDeep {ample : Nat} {tokens : List Token} (room : tokens.length ≤ ample)
    (cut : Nat) : (readFilter ample tokens).result ≠ .error (.tooDeep cut) := by
  intro failed
  have finished := congrArg Prod.fst (readFilter_outcome ample tokens)
  have uncut := @chain_not_tooDeep ample 0 tokens (by omega) cut
  rcases read : chainOutcome ample 0 tokens with ⟨fault | tree, rest⟩
  · rw [read] at finished uncut
    exact uncut (finished.symm.trans failed)
  · rw [read] at finished
    have ended := finished.symm.trans failed
    cases rest <;> cases ended

/-- The cursor of a new parser after its first call stands before the tokens that are left. -/
theorem position_of_start (limit : Nat) (tokens : List Token) :
    (Session.start tokens limit).parse.after.position +
      (readFilter limit tokens).outcome.2.length = tokens.length := by
  have fresh : (Session.start tokens limit).rest = tokens := List.drop_zero
  have reads := (Session.start tokens limit).parse_reads.1
  rw [fresh] at reads
  have left : (Session.start tokens limit).parse.after.rest = (readFilter limit tokens).outcome.2 := by
    rw [readFilter_outcome]
    exact congrArg Prod.snd reads
  rw [← left]
  exact (Session.start tokens limit).parse.after.length_rest

/-- The most levels that are open at once while a filter is read. -/
def peak (limit : Nat) (tokens : List Token) : Nat :=
  (chainLevels limit 0 tokens).toFinset.sup id

theorem peak_le_iff {limit bound : Nat} {tokens : List Token} :
    peak limit tokens ≤ bound ↔ ∀ level ∈ chainLevels limit 0 tokens, level ≤ bound := by
  simp [peak, Finset.sup_le_iff]

theorem lt_peak_iff {limit bound : Nat} {tokens : List Token} :
    bound < peak limit tokens ↔ ∃ level ∈ chainLevels limit 0 tokens, bound < level := by
  simp [peak, Finset.lt_sup_iff]

end Filter

/-- With as many levels as there are tokens a filter is never refused for its nesting. Any limit
that is no less than the most levels open at once on the way leaves the same tree or fault and the
same cursor. Every lesser limit is met, whatever fault comes later. No limit is ever exceeded. -/
theorem limit_cuts_exactly {ample : Nat} {tokens : List Token} (room : tokens.length ≤ ample) :
    (∀ cut, (readFilter ample tokens).result ≠ .error (.tooDeep cut)) ∧
    (∀ limit, peak ample tokens ≤ limit →
      (readFilter limit tokens).outcome = (readFilter ample tokens).outcome ∧
      (Session.start tokens limit).parse.after.position =
        (Session.start tokens ample).parse.after.position) ∧
    (∀ limit, limit < peak ample tokens →
      (readFilter limit tokens).result = .error (.tooDeep limit)) ∧
    ∀ limit, peak limit tokens ≤ limit := by
  refine ⟨filter_not_tooDeep room, ?_, ?_, ?_⟩
  · intro limit within
    have same := (filter_cuts limit room).spared (peak_le_iff.mp within)
    have cursor := position_of_start limit tokens
    rw [same, ← position_of_start ample tokens] at cursor
    exact ⟨same, Nat.add_right_cancel cursor⟩
  · intro limit beyond
    obtain ⟨level, member, deeper⟩ := lt_peak_iff.mp beyond
    exact (filter_cuts limit room).cut level member (Nat.not_le.mpr deeper)
  · intro limit
    exact peak_le_iff.mpr (chainLevels_le limit 0 tokens)

/-- Two levels are open in `(!null) $key` before the fault at its end. One level is not enough to
get there. No level is opened by a field key without its colon, so no limit hides that fault. -/
theorem limit_cuts_exactly_before_fault :
    let tokens : List Token := [.leftParen, .not, .literal .null, .rightParen, .field .key]
    let bare : List Token := [.field .key, .literal .null]
    (tokens.length ≤ 5 ∧ peak 5 tokens = 2 ∧
      (readFilter 5 tokens).result = .error (.unexpected .endOfInput (some .fieldKey)) ∧
      (readFilter 2 tokens).outcome = (readFilter 5 tokens).outcome ∧
      (readFilter 1 tokens).result = .error (.tooDeep 1)) ∧
    bare.length ≤ 2 ∧ peak 2 bare = 0 ∧
      (readFilter 0 bare).outcome = (readFilter 2 bare).outcome := by
  intro tokens bare
  have room : tokens.length ≤ 5 := by decide
  have bareRoom : bare.length ≤ 2 := by decide
  have levels : chainLevels 5 0 tokens = [1, 2] := by
    simp [tokens, chainLevels_eq, nestedLevels, opened?, operand_group, operand_negation,
      operand_literal, nested_outcome, chain_outcome, Outcome.link, Outcome.close, Outcome.map,
      Outcome.onward?, Except.map]
  have bareLevels : chainLevels 2 0 bare = [] := by
    rw [chainLevels_eq, operand_bare_field 2 0 [.literal .null] .key (by decide)]
    rfl
  have deepest : peak 5 tokens = 2 := by
    rw [peak, levels]
    decide
  have flat : peak 2 bare = 0 := by
    rw [peak, bareLevels]
    decide
  have fault : (readFilter 5 tokens).outcome =
      (.error (.unexpected .endOfInput (some .fieldKey)), [.field .key]) := by
    simp [tokens, readFilter_outcome, operand_group, operand_negation, operand_literal,
      nested_outcome, chain_outcome, Outcome.link, Outcome.close, Outcome.map, Except.map,
      Session.finish, Token.kind]
  obtain ⟨-, spared, cut, -⟩ := limit_cuts_exactly room
  obtain ⟨-, bareSpared, -, -⟩ := limit_cuts_exactly bareRoom
  exact ⟨⟨room, deepest, congrArg Prod.fst fault, (spared 2 (by omega)).1, cut 1 (by omega)⟩,
    bareRoom, flat, (bareSpared 0 (by omega)).1⟩

end NodeFilter
