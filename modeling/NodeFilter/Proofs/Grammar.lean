import NodeFilter.Proofs.Descent

/-!
The grammar of filters. An operand that shows where it ends, a literal or a group,
can have a connective after it. A negation or a field scope takes everything up to
the end of its group, so it can only come last. Chains group to the right.
-/

namespace NodeFilter.Grammar

inductive Phrase where
  /-- A literal or a group. -/
  | closed
  | operand
  | chain

/-- Tokens that are a phrase and the tree they spell. The number is how many
levels the phrase may have open at once: a group, a negation and a field scope
each open one for the chain inside. -/
inductive Derives : Phrase → Nat → List Token → Expr → Prop where
  | literal {levels : Nat} (literal : Literal) :
      Derives .closed levels [.literal literal] (.value literal)
  | group {levels : Nat} {tokens : List Token} {tree : Expr} :
      Derives .chain levels tokens tree →
      Derives .closed (levels + 1) (.leftParen :: (tokens ++ [.rightParen])) tree
  | closed {levels : Nat} {tokens : List Token} {tree : Expr} :
      Derives .closed levels tokens tree → Derives .operand levels tokens tree
  | negation {levels : Nat} {tokens : List Token} {operand : Expr} :
      Derives .chain levels tokens operand →
      Derives .operand (levels + 1) (.not :: tokens) (.not operand)
  | scope {levels : Nat} (field : Field) {tokens : List Token} {target : Expr} :
      Derives .chain levels tokens target →
      Derives .operand (levels + 1) (.field field :: .colon :: tokens) (.facet field target)
  | last {levels : Nat} {tokens : List Token} {tree : Expr} :
      Derives .operand levels tokens tree → Derives .chain levels tokens tree
  | link {levels : Nat} (operator : Connective) {first rest : List Token} {left right : Expr} :
      Derives .closed levels first left → Derives .chain levels rest right →
      Derives .chain levels (first ++ .connective operator :: rest) (.joined operator left right)

open Outcome (Stops)

/-! What the parser reads is derived. A prefix ends only where no connective
follows, which is why the loop goes on after closed operands alone. -/
section Soundness

theorem levels_of_room {limit depth : Nat} (room : depth < limit) :
    limit - depth = limit - (depth + 1) + 1 := by
  omega

mutual

theorem operand_derives {limit depth : Nat} {tokens rest : List Token} {tree : Expr}
    (read : operandOutcome limit depth tokens = (.ok tree, rest)) :
    ∃ taken, tokens = taken ++ rest ∧
      (Derives .closed (limit - depth) taken tree ∨
        Derives .operand (limit - depth) taken tree ∧ Stops rest) := by
  rcases operand_eq_ok.mp read with ⟨literal, rfl, rfl⟩ | ⟨inner, rfl, nested⟩ |
    ⟨inner, operand, rfl, nested, rfl⟩ | ⟨field, inner, target, rfl, nested, rfl⟩
  · exact ⟨[.literal literal], rfl, Or.inl (.literal literal)⟩
  all_goals
    obtain ⟨room, chain⟩ := nested_eq_ok.mp nested
    obtain ⟨taken, rfl, derived, stops⟩ := chain_derives chain
    rw [levels_of_room room]
  · exact ⟨.leftParen :: (taken ++ [.rightParen]), by simp, Or.inl (.group derived)⟩
  · exact ⟨.not :: taken, rfl, Or.inr ⟨.negation derived, stops⟩⟩
  · exact ⟨.field field :: .colon :: taken, rfl, Or.inr ⟨.scope field derived, stops⟩⟩
termination_by (tokens.length, 0)

theorem chain_derives {limit depth : Nat} {tokens rest : List Token} {tree : Expr}
    (read : chainOutcome limit depth tokens = (.ok tree, rest)) :
    ∃ taken, tokens = taken ++ rest ∧ Derives .chain (limit - depth) taken tree ∧ Stops rest := by
  rw [chain_outcome] at read
  rcases Outcome.link_eq_ok.mp read with ⟨operand, stops⟩ |
    ⟨left, operator, after, right, operand, chain, rfl⟩
  · obtain ⟨taken, rfl, closed | ⟨derived, -⟩⟩ := operand_derives operand
    · exact ⟨taken, rfl, .last (.closed closed), stops⟩
    · exact ⟨taken, rfl, .last derived, stops⟩
  · -- An open operand stops only where no connective stands, and here one does.
    obtain ⟨first, rfl, closed | ⟨-, goesOn⟩⟩ := operand_derives operand
    · obtain ⟨taken, rfl, derived, stops⟩ := chain_derives chain
      exact ⟨first ++ .connective operator :: taken, by simp, .link operator closed derived, stops⟩
    · exact goesOn.elim
termination_by (tokens.length, 1)

end

end Soundness

/-- A phrase at the front of some tokens is read and what follows is left, at any
depth where the levels it needs are still to be opened. -/
def IsRead (limit : Nat) : Phrase → Nat → List Token → Expr → Prop
  | .closed, levels, tokens, tree => ∀ depth rest, depth + levels ≤ limit →
      operandOutcome limit depth (tokens ++ rest) = (.ok tree, rest)
  | .operand, levels, tokens, tree => ∀ depth rest, depth + levels ≤ limit → Stops rest →
      operandOutcome limit depth (tokens ++ rest) = (.ok tree, rest)
  | .chain, levels, tokens, tree => ∀ depth rest, depth + levels ≤ limit → Stops rest →
      chainOutcome limit depth (tokens ++ rest) = (.ok tree, rest)

theorem derives_isRead (limit : Nat) {phrase : Phrase} {levels : Nat} {tokens : List Token}
    {tree : Expr} (derived : Derives phrase levels tokens tree) :
    IsRead limit phrase levels tokens tree := by
  -- By the derivation. A group, a negation and a scope go one level down, where the
  -- hypothesis about the chain inside is used at the next depth.
  induction derived with
  | literal literal =>
      intro depth rest _
      exact operand_literal limit depth rest literal
  | @group levels tokens tree _ ih =>
      intro depth rest room
      have inner := ih (depth + 1) (.rightParen :: rest) (by omega) trivial
      apply operand_eq_ok.mpr
      refine Or.inr (Or.inl ⟨tokens ++ .rightParen :: rest, by simp, ?_⟩)
      exact nested_eq_ok.mpr ⟨by omega, inner⟩
  | closed _ ih =>
      intro depth rest room _
      exact ih depth rest room
  | @negation levels tokens operand _ ih =>
      intro depth rest room stops
      have inner := ih (depth + 1) rest (by omega) stops
      apply operand_eq_ok.mpr
      refine Or.inr (Or.inr (Or.inl ⟨tokens ++ rest, operand, rfl, ?_, rfl⟩))
      exact nested_eq_ok.mpr ⟨by omega, inner⟩
  | @scope levels field tokens target _ ih =>
      intro depth rest room stops
      have inner := ih (depth + 1) rest (by omega) stops
      apply operand_eq_ok.mpr
      refine Or.inr (Or.inr (Or.inr ⟨field, tokens ++ rest, target, rfl, ?_, rfl⟩))
      exact nested_eq_ok.mpr ⟨by omega, inner⟩
  | last _ ih =>
      intro depth rest room stops
      rw [chain_outcome, ih depth rest room stops]
      exact Outcome.link_stops _ _ stops
  | @link levels operator first rest left right _ _ firstIh restIh =>
      intro depth after room stops
      rw [List.append_assoc, List.cons_append, chain_outcome, firstIh depth _ room]
      change (chainOutcome limit depth (rest ++ after)).map (.joined operator left) = _
      rw [restIh depth after room stops]
      rfl

def IsTooDeep (limit : Nat) : Phrase → Nat → List Token → Prop
  | .chain, depth, tokens => ∀ rest,
      (chainOutcome limit depth (tokens ++ rest)).1 = .error (.tooDeep limit)
  | _, depth, tokens => ∀ rest,
      (operandOutcome limit depth (tokens ++ rest)).1 = .error (.tooDeep limit)

theorem nested_room_or_tooDeep {limit depth : Nat} {tokens : List Token} {tree : Expr}
    (inner : depth + 1 ≤ limit → Derives .chain (limit - (depth + 1)) tokens tree ∨
      IsTooDeep limit .chain (depth + 1) tokens) :
    (∃ levels, limit - depth = levels + 1 ∧ Derives .chain levels tokens tree) ∨
      ∀ rest, (nestedOutcome limit depth (tokens ++ rest)).1 = .error (.tooDeep limit) := by
  simp only [nested_outcome]
  by_cases full : limit ≤ depth
  · simp [full]
  · simp only [if_neg full]
    rcases inner (by omega) with derived | tooDeep
    · exact Or.inl ⟨limit - (depth + 1), by omega, derived⟩
    · exact Or.inr tooDeep

/-- Nothing but the limit stands against a phrase: with the levels that are left it is derived
as well, or reading it meets the limit before anything that follows is looked at. -/
theorem room_or_tooDeep {limit : Nat} {phrase : Phrase} {levels : Nat} {tokens : List Token}
    {tree : Expr} (derived : Derives phrase levels tokens tree) {depth : Nat}
    (within : depth ≤ limit) :
    Derives phrase (limit - depth) tokens tree ∨ IsTooDeep limit phrase depth tokens := by
  -- By the derivation. What opens a level fails there, or as the chain inside fails.
  induction derived generalizing depth with
  | literal literal => exact Or.inl (.literal literal)
  | @group _ tokens _ _ ih =>
      rcases nested_room_or_tooDeep ih with ⟨levels, room, derived⟩ | tooDeep
      · rw [room]
        exact Or.inl (.group derived)
      · right
        intro rest
        rw [List.cons_append, List.append_assoc, operand_group]
        exact Outcome.failed_close (tooDeep _)
  | closed _ ih => exact (ih within).imp .closed id
  | negation _ ih =>
      rcases nested_room_or_tooDeep ih with ⟨levels, room, derived⟩ | tooDeep
      · rw [room]
        exact Or.inl (.negation derived)
      · right
        intro rest
        rw [List.cons_append, operand_negation]
        exact Outcome.failed_map _ (tooDeep rest)
  | scope field _ ih =>
      rcases nested_room_or_tooDeep ih with ⟨levels, room, derived⟩ | tooDeep
      · rw [room]
        exact Or.inl (.scope field derived)
      · right
        intro rest
        rw [List.cons_append, List.cons_append, operand_scope]
        exact Outcome.failed_map _ (tooDeep rest)
  | last _ ih =>
      refine (ih within).imp .last fun tooDeep rest => ?_
      rw [chain_outcome]
      exact Outcome.failed_link _ (tooDeep rest)
  | @link _ operator first rest left right _ _ firstIh restIh =>
      rcases firstIh within with firstDerived | tooDeep
      · refine (restIh within).imp (.link operator firstDerived) fun tooDeep after => ?_
        have read := derives_isRead limit firstDerived depth
        rw [List.append_assoc, List.cons_append, chain_outcome, read _ (by omega)]
        exact Outcome.failed_map _ (tooDeep after)
      · right
        intro after
        rw [List.append_assoc, chain_outcome]
        exact Outcome.failed_link _ (tooDeep _)

theorem derives_of_parse {limit : Nat} {tokens : List Token} {tree : Expr}
    (parsed : parseTokens limit tokens = .ok tree) : Derives .chain limit tokens tree := by
  obtain ⟨taken, rfl, derived, -⟩ := chain_derives (parseTokens_eq_ok.mp parsed)
  simpa using derived

theorem parse_of_derives {limit levels : Nat} {tokens : List Token} {tree : Expr}
    (derived : Derives .chain levels tokens tree) (room : levels ≤ limit) :
    parseTokens limit tokens = .ok tree := by
  have read := derives_isRead limit derived 0 [] (by omega) trivial
  rw [List.append_nil] at read
  exact parseTokens_eq_ok.mpr read

/-- A filter parses to a tree under a limit exactly if the grammar derives the
tree from all its tokens with no more levels open at once. -/
theorem parse_iff_derives (limit : Nat) (tokens : List Token) (tree : Expr) :
    parseTokens limit tokens = .ok tree ↔ Derives .chain limit tokens tree :=
  ⟨derives_of_parse, fun derived => parse_of_derives derived (Nat.le_refl limit)⟩

/-- No two trees are derived from the same tokens, whatever the levels. -/
theorem derived_tree_unique {levels more : Nat} {tokens : List Token} {tree other : Expr}
    (first : Derives .chain levels tokens tree) (second : Derives .chain more tokens other) :
    tree = other := by
  have parsed := parse_of_derives first (Nat.le_max_left levels more)
  rw [parse_of_derives second (Nat.le_max_right levels more)] at parsed
  exact (Except.ok.inj parsed).symm

end NodeFilter.Grammar
