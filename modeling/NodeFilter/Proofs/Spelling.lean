import NodeFilter.Proofs.Grammar

/-!
The shortest spelling of a tree. Only a left operand that is no literal needs
parentheses: chains group to the right, and a prefix takes all that follows. The
levels that this spelling opens are the levels that any other opens at the least.
-/

namespace NodeFilter

namespace Expr

def isTypeless : Expr → Bool
  | .joined _ left right => left.isTypeless && right.isTypeless
  | .not operand => operand.isTypeless
  | .facet _ target => target.isTypeless
  | .value _ => true
  | .type _ => false

/-- The tokens of a left operand: a literal stands alone, all else in a group. -/
def enclose : Expr → List Token → List Token
  | .value _, tokens => tokens
  | _, tokens => .leftParen :: (tokens ++ [.rightParen])

def enclosedNeed : Expr → Nat → Nat
  | .value _, _ => 0
  | _, levels => levels + 1

def spell : Expr → List Token
  | .joined operator left right => left.enclose left.spell ++ .connective operator :: right.spell
  | .not operand => .not :: operand.spell
  | .facet field target => .field field :: .colon :: target.spell
  | .value literal => [.literal literal]
  | .type _ => []

/-- How many levels are open at once, at the most, in the spelling of a tree. -/
def need : Expr → Nat
  | .joined _ left right => max right.need (left.enclosedNeed left.need)
  | .not operand => operand.need + 1
  | .facet _ target => target.need + 1
  | .value _ => 0
  | .type _ => 0

theorem literal_or_group (tree : Expr) :
    (∃ literal, tree = .value literal) ∨
      (tree.enclose tree.spell = .leftParen :: (tree.spell ++ [.rightParen]) ∧
        tree.enclosedNeed tree.need = tree.need + 1) := by
  cases tree with
  | value literal => exact Or.inl ⟨literal, rfl⟩
  | _ => exact Or.inr ⟨rfl, rfl⟩

theorem spell_le_enclose (tree : Expr) : tree.spell.length ≤ (tree.enclose tree.spell).length := by
  rcases tree.literal_or_group with ⟨literal, rfl⟩ | ⟨grouped, -⟩
  · exact Nat.le_refl _
  · simp only [grouped, List.length_cons, List.length_append]
    omega

theorem need_le_enclosedNeed (tree : Expr) : tree.need ≤ tree.enclosedNeed tree.need := by
  rcases tree.literal_or_group with ⟨literal, rfl⟩ | ⟨-, deeper⟩
  · exact Nat.le_refl _
  · omega

end Expr

namespace Grammar

open Outcome (Stops)

theorem derives_mono {phrase : Phrase} {levels more : Nat} {tokens : List Token} {tree : Expr}
    (derived : Derives phrase levels tokens tree) (grows : levels ≤ more) :
    Derives phrase more tokens tree := by
  induction derived generalizing more with
  | literal literal => exact .literal literal
  | group _ ih =>
      obtain ⟨inner, rfl⟩ : ∃ inner, more = inner + 1 := ⟨more - 1, by omega⟩
      exact .group (ih (by omega))
  | closed _ ih => exact .closed (ih grows)
  | negation _ ih =>
      obtain ⟨inner, rfl⟩ : ∃ inner, more = inner + 1 := ⟨more - 1, by omega⟩
      exact .negation (ih (by omega))
  | scope field _ ih =>
      obtain ⟨inner, rfl⟩ : ∃ inner, more = inner + 1 := ⟨more - 1, by omega⟩
      exact .scope field (ih (by omega))
  | last _ ih => exact .last (ih grows)
  | link operator _ _ firstIh restIh => exact .link operator (firstIh grows) (restIh grows)

theorem enclosed_derives {tree : Expr} (derived : Derives .chain tree.need tree.spell tree) :
    Derives .closed (tree.enclosedNeed tree.need) (tree.enclose tree.spell) tree := by
  rcases tree.literal_or_group with ⟨literal, rfl⟩ | ⟨grouped, deeper⟩
  · exact .literal literal
  · rw [grouped, deeper]
    exact .group derived

theorem spell_derives (tree : Expr) (typeless : tree.isTypeless = true) :
    Derives .chain tree.need tree.spell tree := by
  induction tree with
  | joined operator left right leftIh rightIh =>
      simp only [Expr.isTypeless, Bool.and_eq_true] at typeless
      have first := enclosed_derives (leftIh typeless.1)
      have rest := rightIh typeless.2
      exact .link operator (derives_mono first (Nat.le_max_right ..))
        (derives_mono rest (Nat.le_max_left ..))
  | not operand ih => exact .last (.negation (ih typeless))
  | facet field target ih => exact .last (.scope field (ih typeless))
  | value literal => exact .last (.closed (.literal literal))
  | type name => cases typeless

/-- What a derivation of a tree costs at the least, in tokens and in levels. -/
def Suffices : Phrase → Nat → List Token → Expr → Prop
  | .closed, levels, tokens, tree =>
      (tree.enclose tree.spell).length ≤ tokens.length ∧ tree.enclosedNeed tree.need ≤ levels
  | _, levels, tokens, tree => tree.spell.length ≤ tokens.length ∧ tree.need ≤ levels

theorem derives_suffices {phrase : Phrase} {levels : Nat} {tokens : List Token} {tree : Expr}
    (derived : Derives phrase levels tokens tree) : Suffices phrase levels tokens tree := by
  -- A group may hold a literal or another group: then it costs more than it must.
  induction derived with
  | literal literal => simp [Suffices, Expr.enclose, Expr.spell, Expr.enclosedNeed]
  | @group levels tokens tree _ ih =>
      obtain ⟨length, need⟩ := ih
      rcases tree.literal_or_group with ⟨literal, rfl⟩ | ⟨grouped, deeper⟩
      · simp [Suffices, Expr.enclose, Expr.spell, Expr.enclosedNeed]
      · simp only [Suffices, grouped, deeper, List.length_cons, List.length_append]
        omega
  | @closed levels tokens tree _ ih =>
      obtain ⟨length, need⟩ := ih
      exact ⟨Nat.le_trans tree.spell_le_enclose length, Nat.le_trans tree.need_le_enclosedNeed need⟩
  | negation _ ih =>
      obtain ⟨length, need⟩ := ih
      simp only [Suffices, Expr.spell, Expr.need, List.length_cons]
      omega
  | scope field _ ih =>
      obtain ⟨length, need⟩ := ih
      simp only [Suffices, Expr.spell, Expr.need, List.length_cons]
      omega
  | last _ ih => exact ih
  | link operator _ _ firstIh restIh =>
      obtain ⟨firstLength, firstNeed⟩ := firstIh
      obtain ⟨restLength, restNeed⟩ := restIh
      simp only [Suffices, Expr.spell, Expr.need, List.length_append, List.length_cons]
      omega

theorem derives_typeless {phrase : Phrase} {levels : Nat} {tokens : List Token} {tree : Expr}
    (derived : Derives phrase levels tokens tree) : tree.isTypeless = true := by
  induction derived with
  | literal literal => rfl
  | link operator _ _ firstIh restIh => simp [Expr.isTypeless, firstIh, restIh]
  | _ => assumption

theorem spell_tooDeep {limit : Nat} {tree : Expr} (typeless : tree.isTypeless = true)
    (beyond : limit < tree.need) : parseTokens limit tree.spell = .error (.tooDeep limit) := by
  rcases room_or_tooDeep (spell_derives tree typeless) (Nat.zero_le limit) with derived | tooDeep
  · have cost := (derives_suffices derived).2
    omega
  · have failed := tooDeep []
    rw [List.append_nil] at failed
    exact parseTokens_failed failed

theorem parse_spell (limit : Nat) {tree : Expr} (typeless : tree.isTypeless = true) :
    parseTokens limit tree.spell =
      if tree.need ≤ limit then .ok tree else .error (.tooDeep limit) := by
  split
  · exact parse_of_derives (spell_derives tree typeless) ‹_›
  · exact spell_tooDeep typeless (by omega)

/-- The spelling of a tree parses to it under just the limits that allow what it
needs. Whatever else parses to the tree is no shorter and allows as much. -/
theorem shortest_spelling (tree : Expr) (typeless : tree.isTypeless = true) :
    (∀ limit, parseTokens limit tree.spell =
      if tree.need ≤ limit then .ok tree else .error (.tooDeep limit)) ∧
    ∀ limit tokens, parseTokens limit tokens = .ok tree →
      tree.spell.length ≤ tokens.length ∧ parseTokens limit tree.spell = .ok tree := by
  constructor
  · intro limit
    exact parse_spell limit typeless
  · intro limit tokens parsed
    obtain ⟨shorter, need⟩ := derives_suffices (derives_of_parse parsed)
    exact ⟨shorter, parse_of_derives (spell_derives tree typeless) need⟩

/-- The tree of `((!null)) & true`, whose shortest spelling is `(!null) & true`. -/
theorem shortest_spelling_negation_on_left :
    let tree := Expr.and (.not (.value .null)) (.value (.boolean true))
    let tokens : List Token := [.leftParen, .leftParen, .not, .literal .null, .rightParen,
      .rightParen, .connective .and, .literal (.boolean true)]
    tree.isTypeless = true ∧ parseTokens 1 tree.spell = .error (.tooDeep 1) ∧
      parseTokens 3 tokens = .ok tree ∧ tree.spell.length ≤ tokens.length ∧
      parseTokens 3 tree.spell = .ok tree := by
  have negation : Derives .closed 2 [.leftParen, .not, .literal .null, .rightParen]
      (.not (.value .null)) := .group (.last (.negation (.last (.closed (.literal .null)))))
  have parsed := @parse_of_derives 3 3 _ _ (.link .and (.group (.last (.closed negation)))
    (.last (.closed (.literal (.boolean true))))) (Nat.le_refl 3)
  obtain ⟨exact, shortest⟩ :=
    shortest_spelling (.and (.not (.value .null)) (.value (.boolean true))) rfl
  exact ⟨rfl, exact 1, parsed, shortest 3 _ parsed⟩

end Grammar

end NodeFilter
