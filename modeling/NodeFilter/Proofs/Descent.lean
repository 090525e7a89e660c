import NodeFilter.Expr.Parser

/-!
The parser as plain recursive descent. A chain is an operand and, after a
connective, another chain. The loop that collects the links and folds them from
the right leaves the same outcome. From here on the three readers are known by
their equations alone.
-/

namespace NodeFilter

abbrev Outcome := Except ParseError Expr × List Token

namespace Outcome

def map (wrap : Expr → Expr) : Outcome → Outcome
  | (result, rest) => (result.map wrap, rest)

def close : Outcome → Outcome
  | (.error fault, rest) => (.error fault, rest)
  | (.ok tree, .rightParen :: rest) => (.ok tree, rest)
  | (.ok _, rest) => (.error (.unexpected .rightParen (rest.head?.map Token.kind)), rest)

def link (next : List Token → Outcome) : Outcome → Outcome
  | (.ok left, .connective operator :: rest) => (next rest).map (.joined operator left)
  | outcome => outcome

/-- What comes next does not go on with a chain. -/
def Stops : List Token → Prop
  | .connective _ :: _ => False
  | _ => True

theorem map_map (first second : Expr → Expr) (outcome : Outcome) :
    (outcome.map first).map second = outcome.map (second ∘ first) := by
  rcases outcome with ⟨fault | tree, rest⟩ <;> rfl

theorem map_eq_ok {wrap : Expr → Expr} {outcome : Outcome} {tree : Expr} {rest : List Token} :
    outcome.map wrap = (.ok tree, rest) ↔
      ∃ inner, outcome = (.ok inner, rest) ∧ tree = wrap inner := by
  rcases outcome with ⟨fault | inner, left⟩
  · simp [map, Except.map]
  · constructor
    · rintro same
      cases same
      exact ⟨inner, rfl, rfl⟩
    · rintro ⟨other, same, rfl⟩
      cases same
      rfl

theorem close_eq_ok {outcome : Outcome} {tree : Expr} {rest : List Token} :
    outcome.close = (.ok tree, rest) ↔ outcome = (.ok tree, .rightParen :: rest) := by
  rcases outcome with ⟨fault | inner, left⟩
  · simp [close]
  · cases left with
    | nil => simp [close]
    | cons first after => cases first <;> simp [close]

theorem close_unclosed (tree : Expr) {rest : List Token} (unclosed : rest.head? ≠ some .rightParen) :
    close (.ok tree, rest) = (.error (.unexpected .rightParen (rest.head?.map Token.kind)), rest) := by
  cases rest with
  | nil => rfl
  | cons first after =>
      cases first with
      | rightParen => exact absurd rfl unclosed
      | _ => rfl

theorem stops_or_connective (rest : List Token) :
    Stops rest ∨ ∃ operator after, rest = .connective operator :: after := by
  cases rest with
  | nil => exact Or.inl trivial
  | cons first after =>
      cases first with
      | connective operator => exact Or.inr ⟨operator, after, rfl⟩
      | _ => exact Or.inl trivial

theorem link_stops (next : List Token → Outcome) (tree : Expr) {rest : List Token}
    (stops : Stops rest) : link next (.ok tree, rest) = (.ok tree, rest) := by
  cases rest with
  | nil => rfl
  | cons first after => cases first <;> first | rfl | exact stops.elim

theorem link_eq_ok {next : List Token → Outcome} {outcome : Outcome} {tree : Expr}
    {rest : List Token} :
    outcome.link next = (.ok tree, rest) ↔
      (outcome = (.ok tree, rest) ∧ Stops rest) ∨
        ∃ left operator after right, outcome = (.ok left, .connective operator :: after) ∧
          next after = (.ok right, rest) ∧ tree = .joined operator left right := by
  rcases outcome with ⟨fault | left, remaining⟩
  · simp [link]
  rcases stops_or_connective remaining with stops | ⟨operator, after, rfl⟩
  · rw [link_stops next left stops]
    constructor
    · intro same
      cases same
      exact Or.inl ⟨rfl, stops⟩
    · rintro (⟨same, -⟩ | ⟨_, _, _, _, same, -⟩)
      · exact same
      · cases same
        exact stops.elim
  · change (next after).map (.joined operator left) = _ ↔ _
    rw [map_eq_ok]
    constructor
    · rintro ⟨right, found, rfl⟩
      exact Or.inr ⟨left, operator, after, right, rfl, found, rfl⟩
    · rintro (⟨same, stops⟩ | ⟨_, _, _, right, same, found, rfl⟩)
      · cases same
        exact stops.elim
      · cases same
        exact ⟨right, found, rfl⟩

/-! A fault goes through all that is done with an outcome. -/
section Fault

variable {outcome : Outcome} {fault : ParseError}

theorem failed_map (wrap : Expr → Expr) (failed : outcome.1 = .error fault) :
    (outcome.map wrap).1 = .error fault := by
  rcases outcome with ⟨result, rest⟩
  cases failed
  rfl

theorem failed_close (failed : outcome.1 = .error fault) : outcome.close.1 = .error fault := by
  rcases outcome with ⟨result, rest⟩
  cases failed
  rfl

theorem failed_link (next : List Token → Outcome) (failed : outcome.1 = .error fault) :
    (outcome.link next).1 = .error fault := by
  rcases outcome with ⟨result, rest⟩
  cases failed
  rfl

end Fault

end Outcome

namespace Reading

variable {tokens : List Token}

def outcome (reading : Reading tokens) : Outcome := (reading.result, reading.rest)

theorem outcome_after {rest : List Token} (shorter : rest.length ≤ tokens.length)
    (reading : Reading rest) : (reading.after shorter).outcome = reading.outcome := rfl

theorem outcome_map (wrap : Expr → Expr) (reading : Reading tokens) :
    (reading.map wrap).outcome = reading.outcome.map wrap := rfl

theorem outcome_close (reading : Reading tokens) :
    reading.close.outcome = reading.outcome.close := by
  unfold close
  split
  · rename_i fault failed
    simp only [outcome, failed, Outcome.close]
  · rename_i tree found
    split
    · rename_i rest left
      simp only [outcome, found, left, Outcome.close]
    · rename_i other
      simp only [outcome, found, Reading.after, refuse, Outcome.close]

end Reading

def nestedOutcome (limit depth : Nat) (tokens : List Token) : Outcome :=
  (readNested limit depth tokens).outcome

def chainOutcome (limit depth : Nat) (tokens : List Token) : Outcome :=
  (readChain limit depth [] tokens).outcome

def operandOutcome (limit depth : Nat) (tokens : List Token) : Outcome :=
  (readOperand limit depth tokens).outcome

theorem nested_outcome (limit depth : Nat) (tokens : List Token) :
    nestedOutcome limit depth tokens =
      if limit ≤ depth then (.error (.tooDeep limit), tokens)
      else chainOutcome limit (depth + 1) tokens := by
  unfold nestedOutcome
  rw [readNested]
  split <;> rfl

/-- The chain inside a group, a negation or a scope, where a level is left for it. -/
theorem nested_of_room {limit depth : Nat} (room : depth < limit) (tokens : List Token) :
    nestedOutcome limit depth tokens = chainOutcome limit (depth + 1) tokens := by
  rw [nested_outcome, if_neg (by omega)]

/-- The loop with the links it has collected, one operand further on. -/
theorem chain_step (limit depth : Nat) (links : List (Expr × Connective)) (tokens : List Token) :
    (readChain limit depth links tokens).outcome =
      match operandOutcome limit depth tokens with
      | (.ok tree, .connective operator :: rest) =>
          (readChain limit depth ((tree, operator) :: links) rest).outcome
      | (.ok tree, rest) => (.ok (joinLinks links tree), rest)
      | (.error fault, rest) => (.error fault, rest) := by
  rw [readChain]
  unfold operandOutcome Reading.outcome
  split
  · rename_i fault failed
    simp [failed]
  · rename_i tree found
    split
    · rename_i operator rest left
      simp only [found, left]
      rfl
    · rename_i other
      simp only [found]

theorem operand_rest_le (limit depth : Nat) (tokens : List Token) :
    (operandOutcome limit depth tokens).2.length ≤ tokens.length :=
  (readOperand limit depth tokens).rest_le

/-- The links already read only wait to be joined: they change no outcome. -/
theorem chain_links (limit depth : Nat) (links : List (Expr × Connective)) (tokens : List Token) :
    (readChain limit depth links tokens).outcome =
      (chainOutcome limit depth tokens).map (joinLinks links) := by
  -- Both sides read the same operand. After a connective the rest is shorter, and
  -- the hypothesis is used twice, for the loop with one more link and for that link alone.
  induction size : tokens.length using Nat.strongRecOn generalizing links tokens with
  | _ size ih =>
      have shorter := operand_rest_le limit depth tokens
      rw [chainOutcome, chain_step, chain_step]
      rcases read : operandOutcome limit depth tokens with ⟨fault | tree, rest⟩
      · rfl
      · cases rest with
        | nil => rfl
        | cons first rest =>
            cases first with
            | connective operator =>
                simp only [read, List.length_cons] at shorter
                simp only
                rw [ih rest.length (by omega) ((tree, operator) :: links) rest rfl,
                  ih rest.length (by omega) [(tree, operator)] rest rfl, Outcome.map_map]
                rfl
            | _ => rfl

/-- The recursive production: an operand, then perhaps a connective and a chain. -/
theorem chain_outcome (limit depth : Nat) (tokens : List Token) :
    chainOutcome limit depth tokens =
      (operandOutcome limit depth tokens).link (chainOutcome limit depth) := by
  rw [chainOutcome, chain_step]
  rcases operandOutcome limit depth tokens with ⟨fault | tree, rest⟩
  · rfl
  · cases rest with
    | nil => rfl
    | cons first rest =>
        cases first with
        | connective operator => exact chain_links limit depth [(tree, operator)] rest
        | _ => rfl

section Operand

variable (limit depth : Nat) (rest : List Token)

theorem operand_nil :
    operandOutcome limit depth [] = (.error (.unexpected .expression none), []) := by
  rw [operandOutcome, readOperand]
  rfl

theorem operand_literal (literal : Literal) :
    operandOutcome limit depth (.literal literal :: rest) = (.ok (.value literal), rest) := by
  rw [operandOutcome, readOperand]
  rfl

theorem operand_group :
    operandOutcome limit depth (.leftParen :: rest) = (nestedOutcome limit depth rest).close := by
  rw [operandOutcome, readOperand, Reading.outcome_after, Reading.outcome_close]
  rfl

theorem operand_negation :
    operandOutcome limit depth (.not :: rest) = (nestedOutcome limit depth rest).map .not := by
  rw [operandOutcome, readOperand, Reading.outcome_after, Reading.outcome_map]
  rfl

theorem operand_scope (field : Field) :
    operandOutcome limit depth (.field field :: .colon :: rest) =
      (nestedOutcome limit depth rest).map (.facet field) := by
  rw [operandOutcome, readOperand, Reading.outcome_after, Reading.outcome_map]
  rfl

/-- A field key without its colon. What stands in place of the colon is left. -/
theorem operand_bare_field (field : Field) (bare : rest.head? ≠ some .colon) :
    operandOutcome limit depth (.field field :: rest) =
      (.error (.unexpected .colon (rest.head?.map Token.kind)), rest) := by
  rw [operandOutcome, readOperand]
  · rfl
  · rintro after rfl
    exact bare rfl

/-- A token that starts no operand is taken all the same. -/
theorem operand_refused (first : Token)
    (wrong : first = .colon ∨ first = .rightParen ∨ ∃ operator, first = .connective operator) :
    operandOutcome limit depth (first :: rest) =
      (.error (.unexpected .expression (some first.kind)), rest) := by
  rcases wrong with rfl | rfl | ⟨operator, rfl⟩ <;>
  · rw [operandOutcome, readOperand] <;> first | rfl | simp

end Operand

/-- A filter is a chain with nothing after it. -/
theorem parseTokens_eq (limit : Nat) (tokens : List Token) :
    parseTokens limit tokens =
      match chainOutcome limit 0 tokens with
      | (.ok _, first :: _) => .error (.unexpected .endOfInput (some first.kind))
      | (result, _) => result := by
  unfold parseTokens readFilter chainOutcome
  rcases readChain limit 0 [] tokens with ⟨fault | tree, rest, bound⟩
  · rfl
  · cases rest <;> rfl

theorem parseTokens_failed {limit : Nat} {tokens : List Token} {fault : ParseError}
    (failed : (chainOutcome limit 0 tokens).1 = .error fault) :
    parseTokens limit tokens = .error fault := by
  rw [parseTokens_eq]
  generalize chainOutcome limit 0 tokens = outcome at failed
  rcases outcome with ⟨result, rest⟩
  cases failed
  rfl

section Success

variable {limit depth : Nat} {tokens rest : List Token} {tree : Expr}

theorem parseTokens_eq_ok :
    parseTokens limit tokens = .ok tree ↔ chainOutcome limit 0 tokens = (.ok tree, []) := by
  rw [parseTokens_eq]
  rcases chainOutcome limit 0 tokens with ⟨fault | found, left⟩
  · simp
  · cases left <;> simp

theorem nested_eq_ok :
    nestedOutcome limit depth tokens = (.ok tree, rest) ↔
      depth < limit ∧ chainOutcome limit (depth + 1) tokens = (.ok tree, rest) := by
  rw [nested_outcome]
  split
  · simp; omega
  · simp; omega

/-- The four operands there are, each with what is read after its first tokens. -/
theorem operand_eq_ok :
    operandOutcome limit depth tokens = (.ok tree, rest) ↔
      (∃ literal, tokens = .literal literal :: rest ∧ tree = .value literal) ∨
      (∃ inner, tokens = .leftParen :: inner ∧
        nestedOutcome limit depth inner = (.ok tree, .rightParen :: rest)) ∨
      (∃ inner operand, tokens = .not :: inner ∧
        nestedOutcome limit depth inner = (.ok operand, rest) ∧ tree = .not operand) ∨
      (∃ field inner target, tokens = .field field :: .colon :: inner ∧
        nestedOutcome limit depth inner = (.ok target, rest) ∧ tree = .facet field target) := by
  constructor
  · -- One case for each first token. Those that start no operand leave a fault.
    intro read
    cases tokens with
    | nil => simp [operand_nil] at read
    | cons first inner =>
        cases first with
        | literal literal =>
            rw [operand_literal] at read
            cases read
            exact Or.inl ⟨literal, rfl, rfl⟩
        | leftParen =>
            rw [operand_group, Outcome.close_eq_ok] at read
            exact Or.inr (Or.inl ⟨inner, rfl, read⟩)
        | not =>
            rw [operand_negation, Outcome.map_eq_ok] at read
            obtain ⟨operand, nested, rfl⟩ := read
            exact Or.inr (Or.inr (Or.inl ⟨inner, operand, rfl, nested, rfl⟩))
        | field field =>
            by_cases colon : inner.head? = some .colon
            · obtain ⟨after, rfl⟩ := List.head?_eq_some_iff.mp colon
              rw [operand_scope, Outcome.map_eq_ok] at read
              obtain ⟨target, nested, rfl⟩ := read
              exact Or.inr (Or.inr (Or.inr ⟨field, after, target, rfl, nested, rfl⟩))
            · simp [operand_bare_field limit depth inner field colon] at read
        | connective operator =>
            simp [operand_refused limit depth inner _ (Or.inr (Or.inr ⟨operator, rfl⟩))] at read
        | colon => simp [operand_refused limit depth inner _ (Or.inl rfl)] at read
        | rightParen =>
            simp [operand_refused limit depth inner _ (Or.inr (Or.inl rfl))] at read
  · rintro (⟨literal, rfl, rfl⟩ | ⟨inner, rfl, nested⟩ | ⟨inner, operand, rfl, nested, rfl⟩ |
      ⟨field, inner, target, rfl, nested, rfl⟩)
    · rw [operand_literal]
    · rw [operand_group, nested]
      rfl
    · rw [operand_negation, nested]
      rfl
    · rw [operand_scope, nested]
      rfl

end Success

end NodeFilter
