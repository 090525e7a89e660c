import NodeFilter.Proofs.SourceText

/-!
Filters put together as texts. A filter can stand in parentheses, after `!` or after a
field and its colon, whatever characters it has: no lexeme of it goes on into the text around
it, and the tokens around it only open one level for it. So its levels must be one less than
the whole may have, and a filter that has no level to spare is cut in every such text.
-/

namespace NodeFilter

open Text (Ends isWhiteSpace)
open Grammar (Derives IsTooDeep)

def Connective.sign : Connective → String
  | .and => "&"
  | .or => "|"

def trimmed (source : String) : String := String.ofList (Text.trim source.toList)

def negatedText (source : String) : String := "!" ++ trimmed source

def scopedText (field : Field) (source : String) : String :=
  field.spelling ++ ":" ++ trimmed source

def joinedText (operator : Connective) (first second : String) : String :=
  "(" ++ trimmed first ++ ") " ++ operator.sign ++ " (" ++ trimmed second ++ ")"

/-! The tokens of the composed texts: those of the parts and those put around them. -/
section Tokens

variable {source : String} {tokens : List Token}

theorem splits_trimmed (lexed : lex source = .ok tokens) :
    Splits (Text.trim source.toList) tokens :=
  Cursor.splits_of_tokens lexed

theorem lex_negatedText (lexed : lex source = .ok tokens) :
    lex (negatedText source) = .ok (.not :: tokens) := by
  have same : (negatedText source).toList = ['!'] ++ Text.trim source.toList := by
    simp [negatedText, trimmed]
  refine lex_of_splits same (splits_of_spelled .not (splits_trimmed lexed)) ?_ ?_
  · exact Text.ends_cons (by decide)
  · rw [List.reverse_append]
    exact Text.ends_append (Text.trim_back _) fun _ => Text.ends_cons (by decide)

theorem lex_scopedText (field : Field) (lexed : lex source = .ok tokens) :
    lex (scopedText field source) = .ok (.field field :: .colon :: tokens) := by
  have same : (scopedText field source).toList =
      '$' :: field.name.toList ++ ([':'] ++ Text.trim source.toList) := by
    simp [scopedText, trimmed, Field.spelling]
  refine lex_of_splits same ?_ ?_ ?_
  · exact splits_of_spelled (.field field) (splits_of_spelled .colon (splits_trimmed lexed))
  · exact Text.ends_cons (by decide)
  · rw [List.reverse_append, List.reverse_append, List.append_assoc]
    exact Text.ends_append (Text.trim_back _) fun _ => Text.ends_cons (by decide)

theorem delimits_rightParen (rest : List Char) : Delimits (')' :: rest) :=
  ⟨Text.ends_cons (by decide), Text.ends_cons (by decide)⟩

theorem splits_grouped {text rest : List Char} {others : List Token} (split : Splits text tokens)
    (after : Splits rest others) :
    Splits (['('] ++ (text ++ ([')'] ++ rest))) (.leftParen :: (tokens ++ .rightParen :: others)) :=
  splits_of_spelled .leftParen
    (splits_append split (splits_of_spelled .rightParen after) (delimits_rightParen rest))

theorem splits_sign (operator : Connective) {rest : List Char} (after : Splits rest tokens) :
    Splits (operator.sign.toList ++ rest) (.connective operator :: tokens) := by
  cases operator with
  | and => exact splits_of_spelled .and after
  | or => exact splits_of_spelled .or after

theorem lex_joinedText (operator : Connective) {other : String} {others : List Token}
    (lexed : lex source = .ok tokens) (otherLexed : lex other = .ok others) :
    lex (joinedText operator source other) =
      .ok (.leftParen :: (tokens ++ .rightParen :: .connective operator ::
        .leftParen :: (others ++ [.rightParen]))) := by
  have same : (joinedText operator source other).toList =
      ['('] ++ (Text.trim source.toList ++ ([')'] ++ ([' '] ++ (operator.sign.toList ++
        ([' '] ++ (['('] ++ (Text.trim other.toList ++ ([')'] ++ [])))))))) := by
    simp [joinedText, trimmed]
  have blank : ∀ c ∈ [' '], Text.isBlank c = true := List.forall_mem_singleton.mpr rfl
  have second := splits_grouped (splits_trimmed otherLexed) (@Splits.blanks [] nofun)
  have rest := splits_after_blanks blank (splits_sign operator (splits_after_blanks blank second))
  refine lex_of_splits same (splits_grouped (splits_trimmed lexed) rest) ?_ ?_
  · exact Text.ends_cons (by decide)
  · simp only [List.append_nil, ← List.append_assoc]
    rw [List.reverse_append]
    exact Text.ends_cons (by decide)

end Tokens

/-! A filter that reads under some limit, put where one level more is allowed. -/
section Room

variable {limit : Nat} {f g : String} {a b : Expr}

theorem parse_negatedText (parsed : parseWithin limit f = .ok a) :
    parseWithin (limit + 1) (negatedText f) = .ok (.not a) := by
  obtain ⟨tokens, lexed, parsed⟩ := parseWithin_eq_ok.mp parsed
  have derived := Grammar.derives_of_parse parsed
  exact parseWithin_eq_ok.mpr ⟨_, lex_negatedText lexed,
    Grammar.parse_of_derives (.last (.negation derived)) (Nat.le_refl _)⟩

theorem parse_scopedText (field : Field) (parsed : parseWithin limit f = .ok a) :
    parseWithin (limit + 1) (scopedText field f) = .ok (.facet field a) := by
  obtain ⟨tokens, lexed, parsed⟩ := parseWithin_eq_ok.mp parsed
  have derived := Grammar.derives_of_parse parsed
  exact parseWithin_eq_ok.mpr ⟨_, lex_scopedText field lexed,
    Grammar.parse_of_derives (.last (.scope field derived)) (Nat.le_refl _)⟩

theorem parse_joinedText (operator : Connective) (parsed : parseWithin limit f = .ok a)
    (otherParsed : parseWithin limit g = .ok b) :
    parseWithin (limit + 1) (joinedText operator f g) = .ok (.joined operator a b) := by
  obtain ⟨tokens, lexed, parsed⟩ := parseWithin_eq_ok.mp parsed
  obtain ⟨others, otherLexed, otherParsed⟩ := parseWithin_eq_ok.mp otherParsed
  have left := Derives.group (Grammar.derives_of_parse parsed)
  have right := Derives.group (Grammar.derives_of_parse otherParsed)
  have derived := Derives.link operator left (.last (.closed right))
  refine parseWithin_eq_ok.mpr ⟨_, lex_joinedText operator lexed otherLexed, ?_⟩
  simpa using Grammar.parse_of_derives derived (Nat.le_refl _)

end Room

/-! A filter that has no level to spare, put where a level is opened for it. -/
section NoRoom

variable {limit : Nat} {f : String} {tokens : List Token}

theorem nested_tooDeep (tooDeep : IsTooDeep limit .chain 1 tokens) (rest : List Token) :
    (nestedOutcome limit 0 (tokens ++ rest)).1 = .error (.tooDeep limit) := by
  rw [nested_outcome]
  split
  · rfl
  · exact tooDeep rest

theorem nested_last_tooDeep (tooDeep : IsTooDeep limit .chain 1 tokens) :
    (nestedOutcome limit 0 tokens).1 = .error (.tooDeep limit) := by
  simpa only [List.append_nil] using nested_tooDeep tooDeep []

/-- The tokens of a filter that reads under a limit but not with a level less. -/
theorem exists_tooDeep {a : Expr} (parsed : parseWithin (limit + 1) f = .ok a)
    (tight : ∀ tree, parseWithin limit f ≠ .ok tree) :
    ∃ tokens, lex f = .ok tokens ∧ IsTooDeep (limit + 1) .chain 1 tokens := by
  obtain ⟨tokens, lexed, parsed⟩ := parseWithin_eq_ok.mp parsed
  refine ⟨tokens, lexed, ?_⟩
  have derived := Grammar.derives_of_parse parsed
  rcases Grammar.room_or_tooDeep derived (Nat.le_add_left 1 limit) with derived | tooDeep
  · have shallow := Grammar.parse_of_derives derived (Nat.le_refl limit)
    exact absurd (parseWithin_eq_ok.mpr ⟨tokens, lexed, shallow⟩) (tight a)
  · exact tooDeep

theorem parseWithin_failed {source : String} {fault : ParseError} (lexed : lex source = .ok tokens)
    (failed : (chainOutcome limit 0 tokens).1 = .error fault) :
    parseWithin limit source = .error (.parsing fault) := by
  rw [parseWithin, lexed]
  simp only [parseTokens_failed failed]
  rfl

theorem negatedText_tooDeep (lexed : lex f = .ok tokens)
    (tooDeep : IsTooDeep limit .chain 1 tokens) :
    parseWithin limit (negatedText f) = .error (.parsing (.tooDeep limit)) := by
  apply parseWithin_failed (lex_negatedText lexed)
  rw [chain_outcome, operand_negation]
  exact Outcome.failed_link _ (Outcome.failed_map _ (nested_last_tooDeep tooDeep))

theorem scopedText_tooDeep (field : Field) (lexed : lex f = .ok tokens)
    (tooDeep : IsTooDeep limit .chain 1 tokens) :
    parseWithin limit (scopedText field f) = .error (.parsing (.tooDeep limit)) := by
  apply parseWithin_failed (lex_scopedText field lexed)
  rw [chain_outcome, operand_scope]
  exact Outcome.failed_link _ (Outcome.failed_map _ (nested_last_tooDeep tooDeep))

theorem joinedText_tooDeep (operator : Connective) {g : String} {others : List Token}
    (lexed : lex f = .ok tokens) (otherLexed : lex g = .ok others)
    (tooDeep : IsTooDeep limit .chain 1 tokens) :
    parseWithin limit (joinedText operator f g) = .error (.parsing (.tooDeep limit)) := by
  apply parseWithin_failed (lex_joinedText operator lexed otherLexed)
  rw [chain_outcome, operand_group]
  exact Outcome.failed_link _ (Outcome.failed_close (nested_tooDeep tooDeep _))

end NoRoom

/-- Filters that read with one level less than is allowed can be joined, negated and scoped as
texts. A filter that needs all the levels cannot be the first part of any such text, whatever
the second part is. -/
theorem texts_compose :
    (∀ f a, parseWithin 127 f = .ok a →
      (∀ g b, parseWithin 127 g = .ok b → ∀ operator,
        parse (joinedText operator f g) = .ok (.joined operator a b)) ∧
      parse (negatedText f) = .ok (.not a) ∧
      ∀ field, parse (scopedText field f) = .ok (.facet field a)) ∧
    ∀ f a, parseWithin 128 f = .ok a → (∀ tree, parseWithin 127 f ≠ .ok tree) →
      (∀ g tokens, lex g = .ok tokens → ∀ operator,
        parse (joinedText operator f g) = .error (.parsing (.tooDeep 128))) ∧
      parse (negatedText f) = .error (.parsing (.tooDeep 128)) ∧
      ∀ field, parse (scopedText field f) = .error (.parsing (.tooDeep 128)) := by
  constructor
  · intro f a parsed
    refine ⟨?_, parse_negatedText parsed, fun field => parse_scopedText field parsed⟩
    intro g b otherParsed operator
    exact parse_joinedText operator parsed otherParsed
  · intro f a parsed tight
    obtain ⟨tokens, lexed, tooDeep⟩ := exists_tooDeep parsed tight
    refine ⟨?_, negatedText_tooDeep lexed tooDeep,
      fun field => scopedText_tooDeep field lexed tooDeep⟩
    intro g others otherLexed operator
    exact joinedText_tooDeep operator lexed otherLexed tooDeep

theorem negations_read (count : Nat) :
    let tree := Nat.repeat Expr.not count (.value (.string "a"))
    lex (Nat.repeat negatedText count "a") = .ok tree.spell ∧ tree.isTypeless = true ∧
      tree.need = count := by
  induction count with
  | zero => exact ⟨lex_of_calls 2 rfl, rfl, rfl⟩
  | succ count ih =>
      obtain ⟨lexed, typeless, need⟩ := ih
      exact ⟨lex_negatedText lexed, typeless, congrArg (· + 1) need⟩

/-- Quotes keep `)&(` from closing the group around it. After 128 negations, all that may be
nested, there is no room for a group or for one more negation. -/
theorem texts_compose_full_nesting :
    let f := " ')&(' "
    let g := "$key:x"
    let a := Expr.value (.string ")&(")
    let b := Expr.facet .key (.value (.string "x"))
    let deep := Nat.repeat negatedText 128 "a"
    let deepest := Nat.repeat Expr.not 128 (.value (.string "a"))
    (parseWithin 127 f = .ok a ∧ parseWithin 127 g = .ok b ∧
      joinedText .and f g = "(')&(') & ($key:x)" ∧
      parse (joinedText .and f g) = .ok (.and a b) ∧ parse (negatedText f) = .ok (.not a) ∧
      parse (scopedText .type g) = .ok (.facet .type b)) ∧
    parseWithin 128 deep = .ok deepest ∧ (∀ tree, parseWithin 127 deep ≠ .ok tree) ∧
      lex ")" = .ok [.rightParen] ∧
      parse (joinedText .or deep ")") = .error (.parsing (.tooDeep 128)) ∧
      parse (negatedText deep) = .error (.parsing (.tooDeep 128)) := by
  intro f g a b deep deepest
  have fLexed : lex " ')&(' " = .ok [.literal (.string ")&(")] := lex_of_calls 2 (by decide)
  have fParsed : parseWithin 127 f = .ok a := parseWithin_of_lexed rfl (by decide) fLexed
  have gLexed : lex "$key:x" = .ok [.field .key, .colon, .literal (.string "x")] :=
    lex_of_calls 4 (by decide)
  have gParsed : parseWithin 127 g = .ok b := parseWithin_of_lexed rfl (by decide) gLexed
  obtain ⟨lexed, typeless, need⟩ := negations_read 128
  have deepParsed : parseWithin 128 deep = .ok deepest :=
    parseWithin_of_lexed typeless (Nat.le_of_eq need) lexed
  have tight : ∀ tree, parseWithin 127 deep ≠ .ok tree := by
    intro tree parsed
    obtain ⟨tokens, same, parsed⟩ := parseWithin_eq_ok.mp parsed
    rw [lexed] at same
    cases same
    rw [Grammar.parse_spell 127 typeless, need] at parsed
    cases parsed
  have paren : lex ")" = .ok [.rightParen] := lex_of_calls 2 rfl
  obtain ⟨joined, negated, -⟩ := texts_compose.1 f a fParsed
  obtain ⟨-, -, inScope⟩ := texts_compose.1 g b gParsed
  obtain ⟨joinedFails, negatedFails, -⟩ := texts_compose.2 deep deepest deepParsed tight
  exact ⟨⟨fParsed, gParsed, by decide, joined g b gParsed .and, negated, inScope .type⟩,
    deepParsed, tight, paren, joinedFails _ _ paren .or, negatedFails⟩

end NodeFilter
