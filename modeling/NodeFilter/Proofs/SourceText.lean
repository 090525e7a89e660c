import NodeFilter.Proofs.Spelling
import NodeFilter.Proofs.Splitting

/-!
What filter text can express. A quoted string holds any characters but its own
quote, a number is what some numeral stands for, and nesting is limited; nothing
else restricts the trees. Every tree within these bounds is read back from its
shortest spelling with single spaces.
-/

namespace NodeFilter

open Text (Ends isBlank isWhiteSpace)

def Token.literal? : Token → Option Literal
  | .literal scalar => some scalar
  | _ => none

namespace Expr

def literals : Expr → List Literal
  | .joined _ left right => left.literals ++ right.literals
  | .not operand => operand.literals
  | .facet _ target => target.literals
  | .value literal => [literal]
  | .type _ => []

structure Expressible (tree : Expr) : Prop where
  typeless : tree.isTypeless = true
  shallow : tree.need ≤ 128
  strings : ∀ text, .string text ∈ tree.literals → '"' ∉ text.toList ∨ '\'' ∉ text.toList
  numbers : ∀ number, .number number ∈ tree.literals →
    ∃ numeral, Numeral.IsNumeral numeral ∧ Numeral.read? numeral = some number

end Expr

/-- A text that spells a token, strings in quotes. -/
def Written (text : List Char) (token : Token) : Prop :=
  Spells text token [] ∧ ∀ string, token = .literal (.string string) →
    ∃ quote ∈ ['"', '\''], quote ∉ string.toList ∧ text = quote :: (string.toList ++ [quote])

inductive Spaced : List Token → List Char → Prop where
  | last {token : Token} {text : List Char} : Written text token → Spaced [token] text
  | next {token next : Token} {tokens : List Token} {text rest : List Char} :
      Written text token → Spaced (next :: tokens) rest →
      Spaced (token :: next :: tokens) (text ++ ' ' :: rest)

-- Literals go from the tokens into the tree in their order, none lost and none made up.
theorem derives_literals {phrase : Grammar.Phrase} {levels : Nat} {tokens : List Token}
    {tree : Expr} (derived : Grammar.Derives phrase levels tokens tree) :
    tree.literals = tokens.filterMap Token.literal? := by
  induction derived with
  | literal literal => rfl
  | group _ ih => simp [ih, List.filterMap_cons, Token.literal?]
  | closed _ ih => exact ih
  | negation _ ih => simp [Expr.literals, ih, List.filterMap_cons, Token.literal?]
  | scope field _ ih => simp [Expr.literals, ih, List.filterMap_cons, Token.literal?]
  | last _ ih => exact ih
  | link operator _ _ firstIh restIh =>
      simp [Expr.literals, firstIh, restIh, List.filterMap_cons, Token.literal?]

theorem mem_literals {levels : Nat} {tokens : List Token} {tree : Expr}
    (derived : Grammar.Derives .chain levels tokens tree) (literal : Literal) :
    literal ∈ tree.literals ↔ .literal literal ∈ tokens := by
  rw [derives_literals derived, List.mem_filterMap]
  constructor
  · rintro ⟨token, member, same⟩
    cases token <;> cases same
    exact member
  · intro member
    exact ⟨.literal literal, member, rfl⟩

/-! What is read obeys the bounds. -/
section Read

theorem splits_spelled {text : List Char} {tokens : List Token} (split : Splits text tokens) :
    ∀ token ∈ tokens, ∃ lexeme rest, Spells lexeme token rest := by
  induction split with
  | blanks _ => intro token member; cases member
  | lexeme _ spelled _ ih =>
      intro token member
      rcases List.mem_cons.mp member with rfl | later
      · exact ⟨_, _, spelled⟩
      · exact ih token later

theorem spelled_string {lexeme rest : List Char} {text : String}
    (spelled : Spells lexeme (.literal (.string text)) rest) :
    '"' ∉ text.toList ∨ '\'' ∉ text.toList := by
  cases spelled with
  | quoted sort absent =>
      rw [String.toList_ofList]
      rcases sort with rfl | rfl
      · exact Or.inl absent
      · exact Or.inr absent
  | @word first tail _ start inside =>
      rw [String.toList_ofList]
      left
      intro member
      rcases List.mem_cons.mp member with rfl | later
      · exact absurd start (by decide)
      · exact absurd (inside _ later) (by decide)

theorem spelled_number {lexeme rest : List Char} {number : Binary64}
    (spelled : Spells lexeme (.literal (.number number)) rest) :
    Numeral.IsNumeral lexeme ∧ Numeral.read? lexeme = some number := by
  cases spelled with
  | numeral form read _ => exact ⟨form, read⟩

theorem parseWithin_eq_ok {limit : Nat} {source : String} {tree : Expr} :
    parseWithin limit source = .ok tree ↔
      ∃ tokens, lex source = .ok tokens ∧ parseTokens limit tokens = .ok tree := by
  unfold parseWithin
  cases lex source with
  | error fault => simp
  | ok tokens =>
      change (parseTokens limit tokens).mapError SourceError.parsing = .ok tree ↔ _
      constructor
      · intro read
        cases parsed : parseTokens limit tokens with
        | error fault => rw [parsed] at read; cases read
        | ok found => rw [parsed] at read; cases read; exact ⟨tokens, rfl, parsed⟩
      · rintro ⟨same, lexed, parsed⟩
        cases lexed
        rw [parsed]
        rfl

theorem parse_eq_ok {source : String} {tree : Expr} :
    parse source = .ok tree ↔
      ∃ tokens, lex source = .ok tokens ∧ parseTokens 128 tokens = .ok tree :=
  parseWithin_eq_ok

theorem parsed_expressible {source : String} {tree : Expr} (parsed : parse source = .ok tree) :
    tree.Expressible := by
  obtain ⟨tokens, lexed, parsed⟩ := parse_eq_ok.mp parsed
  have derived := Grammar.derives_of_parse parsed
  have spelled := splits_spelled (Cursor.splits_of_tokens lexed)
  refine ⟨Grammar.derives_typeless derived, (Grammar.derives_suffices derived).2, ?_, ?_⟩
  · intro text member
    obtain ⟨lexeme, rest, spelling⟩ := spelled _ ((mem_literals derived _).mp member)
    exact spelled_string spelling
  · intro number member
    obtain ⟨lexeme, rest, spelling⟩ := spelled _ ((mem_literals derived _).mp member)
    exact ⟨lexeme, spelled_number spelling⟩

end Read

/-! What is written within the bounds is read back. -/
section Write

theorem isWhiteSpace_false {kind : Char → Bool} {c : Char}
    (outside : Text.whiteSpace.any kind = false) (inside : kind c = true) :
    isWhiteSpace c = false := by
  apply decide_eq_false
  intro member
  exact List.any_eq_false.mp outside c member inside

-- White space at neither end, so that trimming takes nothing.
def Tight (text : List Char) : Prop :=
  text ≠ [] ∧ Ends isWhiteSpace text ∧ Ends isWhiteSpace text.reverse

theorem tight_of_kind {kind : Char → Bool} {text : List Char} (nonempty : text ≠ [])
    (outside : Text.whiteSpace.any kind = false)
    (inside : ∀ c ∈ text, kind c = true) : Tight text := by
  refine ⟨nonempty, ?_, ?_⟩
  · intro c head
    exact isWhiteSpace_false outside (inside c (List.mem_of_head? head))
  · intro c head
    have member := List.mem_of_head? head
    exact isWhiteSpace_false outside (inside c (List.mem_reverse.mp member))

theorem spelled_tight {text rest : List Char} {token : Token} (spelled : Spells text token rest) :
    Tight text := by
  cases spelled with
  | field field =>
      cases field <;>
        exact @tight_of_kind (fun c => !isWhiteSpace c) _ (by simp) (by decide)
          (List.all_eq_true.mp (by decide))
  | @quoted quote inner _ sort _ =>
      have visible : isWhiteSpace quote = false := by rcases sort with rfl | rfl <;> decide
      refine ⟨by simp, Text.ends_cons visible, ?_⟩
      rw [List.reverse_cons, List.reverse_append, List.reverse_singleton, List.singleton_append,
        List.cons_append]
      exact Text.ends_cons visible
  | numeral form _ _ =>
      exact tight_of_kind (Numeral.isNumeral_ne_nil form) (by decide)
        (Numeral.isNumeralChar_of_isNumeral form)
  | @word first tail _ start inside =>
      have front := ((Lexeme.isNameStart_iff first).mp start).1
      exact tight_of_kind (by simp) (by decide) (List.forall_mem_cons.mpr ⟨front, inside⟩)
  | _ =>
      exact @tight_of_kind (fun c => !isWhiteSpace c) _ (by simp) (by decide)
        (List.all_eq_true.mp (by decide))

-- What stands after a lexeme must not go on with it. A blank never does.
def Delimits (rest : List Char) : Prop :=
  Ends Numeral.isNumeralChar rest ∧ Ends Text.isWordChar rest

theorem delimits_blank {c : Char} (blank : isBlank c = true) (rest : List Char) :
    Delimits (c :: rest) :=
  ⟨Text.ends_cons (Lexeme.outside_of_isBlank (by decide) blank),
    Text.ends_cons (Lexeme.outside_of_isBlank (by decide) blank)⟩

theorem spells_before {text rest more : List Char} {token : Token}
    (spelled : Spells text token rest) (delimited : Delimits more) :
    Spells text token (rest ++ more) := by
  obtain ⟨numeralEnds, wordEnds⟩ := delimited
  cases spelled with
  | field field => exact .field field
  | quoted sort absent => exact .quoted sort absent
  | numeral form read ends => exact .numeral form read (Text.ends_append ends fun _ => numeralEnds)
  | trueWord ends => exact .trueWord (Text.ends_append ends fun _ => wordEnds)
  | falseWord ends => exact .falseWord (Text.ends_append ends fun _ => wordEnds)
  | nullWord ends => exact .nullWord (Text.ends_append ends fun _ => wordEnds)
  | word start inside other ends =>
      exact .word start inside other (Text.ends_append ends fun _ => wordEnds)
  | _ => constructor

theorem splits_after_blanks {blanks text : List Char} {tokens : List Token}
    (all : ∀ c ∈ blanks, isBlank c = true) (split : Splits text tokens) :
    Splits (blanks ++ text) tokens := by
  cases split with
  | blanks inside => exact .blanks (List.forall_mem_append.mpr ⟨all, inside⟩)
  | lexeme inside spelled rest =>
      rw [← List.append_assoc]
      exact .lexeme (List.forall_mem_append.mpr ⟨all, inside⟩) spelled rest

/-- Texts can be put together where the second does not go on with the last lexeme of the
first. -/
theorem splits_append {text more : List Char} {tokens others : List Token}
    (first : Splits text tokens) (second : Splits more others) (delimited : Delimits more) :
    Splits (text ++ more) (tokens ++ others) := by
  induction first with
  | blanks inside => exact splits_after_blanks inside second
  | lexeme inside spelled _ ih =>
      rw [List.append_assoc, List.append_assoc, List.cons_append]
      exact .lexeme inside (spells_before spelled delimited) ih

theorem splits_of_spelled {text rest : List Char} {token : Token} {tokens : List Token}
    (spelled : Spells text token rest) (split : Splits rest tokens) :
    Splits (text ++ rest) (token :: tokens) :=
  @Splits.lexeme [] _ _ _ _ (fun _ member => nomatch member) spelled split

theorem spaced_splits {tokens : List Token} {text : List Char} (spaced : Spaced tokens text) :
    Splits text tokens := by
  induction spaced with
  | @last token text written =>
      have split := splits_of_spelled written.1 (@Splits.blanks [] fun _ member => nomatch member)
      rwa [List.append_nil] at split
  | @next token _ _ text rest written _ ih =>
      have split := splits_of_spelled written.1 (@Splits.blanks [] fun _ member => nomatch member)
      rw [List.append_nil] at split
      have spaced := @splits_after_blanks [' '] rest _ (by simp [isBlank]) ih
      exact splits_append split spaced (delimits_blank (by decide) rest)

theorem spaced_tight {tokens : List Token} {text : List Char} (spaced : Spaced tokens text) :
    Tight text := by
  induction spaced with
  | last written => exact spelled_tight written.1
  | @next token _ _ text rest written _ ih =>
      obtain ⟨nonempty, front, -⟩ := spelled_tight written.1
      obtain ⟨restNonempty, -, back⟩ := ih
      refine ⟨by simp, Text.ends_append front fun empty => absurd empty nonempty, ?_⟩
      rw [List.reverse_append, List.reverse_cons, List.append_assoc]
      exact Text.ends_append back fun empty =>
        absurd (List.reverse_eq_nil_iff.mp empty) restNonempty

theorem lex_of_splits {source : String} {text : List Char} {tokens : List Token}
    (same : source.toList = text) (split : Splits text tokens) (front : Ends isWhiteSpace text)
    (back : Ends isWhiteSpace text.reverse) : lex source = .ok tokens := by
  rw [lex, same, Text.trim_eq_self front back]
  exact Cursor.tokens_of_splits split 0

theorem lex_of_calls (calls : Nat) {source : String} {tokens : List Token}
    (read : (Cursor.start (Text.trim source.toList)).tokensIn calls = some tokens) :
    lex source = .ok tokens :=
  Cursor.tokens_of_tokensIn read

theorem lex_spaced {tokens : List Token} {text : List Char} (spaced : Spaced tokens text) :
    lex (String.ofList text) = .ok tokens := by
  obtain ⟨-, front, back⟩ := spaced_tight spaced
  exact lex_of_splits String.toList_ofList (spaced_splits spaced) front back

theorem parseWithin_of_lexed {limit : Nat} {source : String} {tree : Expr}
    (typeless : tree.isTypeless = true) (shallow : tree.need ≤ limit)
    (lexed : lex source = .ok tree.spell) : parseWithin limit source = .ok tree := by
  have parsed := Grammar.parse_spell limit typeless
  rw [if_pos shallow] at parsed
  exact parseWithin_eq_ok.mpr ⟨tree.spell, lexed, parsed⟩

theorem parse_of_lexed {source : String} {tree : Expr} (typeless : tree.isTypeless = true)
    (shallow : tree.need ≤ 128) (lexed : lex source = .ok tree.spell) :
    parse source = .ok tree :=
  parseWithin_of_lexed typeless shallow lexed

def fieldText (field : Field) (literal : List Char) : List Char :=
  '$' :: field.name.toList ++ ([':'] ++ ([' '] ++ literal))

theorem fieldText_tight {field : Field} {text : List Char} (tight : Tight text) :
    Tight (fieldText field text) := by
  obtain ⟨nonempty, -, back⟩ := tight
  refine ⟨List.cons_ne_nil _ _, Text.ends_cons (by decide), ?_⟩
  rw [fieldText, List.reverse_append, List.reverse_append, List.reverse_append, List.append_assoc,
    List.append_assoc]
  exact Text.ends_append back fun empty => absurd (List.reverse_eq_nil_iff.mp empty) nonempty

theorem parseWithin_fieldText {limit : Nat} (room : 0 < limit) {source : String} {field : Field}
    {text : List Char} {literal : Literal} (same : source.toList = fieldText field text)
    (spelled : Spells text (.literal literal) []) :
    parseWithin limit source = .ok (.facet field (.value literal)) := by
  have last := splits_of_spelled spelled (@Splits.blanks [] nofun)
  rw [List.append_nil] at last
  have split : Splits (fieldText field text) (Expr.facet field (.value literal)).spell :=
    splits_of_spelled (.field field)
      (splits_of_spelled .colon (splits_after_blanks (List.forall_mem_singleton.mpr rfl) last))
  obtain ⟨-, front, back⟩ := @fieldText_tight field text (spelled_tight spelled)
  exact parseWithin_of_lexed rfl room (lex_of_splits same split front back)

theorem parse_spaced {tree : Expr} (within : tree.Expressible) {text : List Char}
    (spaced : Spaced tree.spell text) : parse (String.ofList text) = .ok tree :=
  parse_of_lexed within.typeless within.shallow (lex_spaced spaced)

theorem literal_written {tree : Expr} (within : tree.Expressible) {literal : Literal}
    (member : literal ∈ tree.literals) : ∃ text, Written text (.literal literal) := by
  cases literal with
  | null => exact ⟨_, .nullWord Text.ends_nil, by simp⟩
  | boolean value =>
      cases value with
      | false => exact ⟨_, .falseWord Text.ends_nil, by simp⟩
      | true => exact ⟨_, .trueWord Text.ends_nil, by simp⟩
  | number number =>
      obtain ⟨numeral, form, read⟩ := within.numbers number member
      exact ⟨numeral, .numeral form read Text.ends_nil, by simp⟩
  | string string =>
      obtain ⟨quote, sort, absent⟩ :
          ∃ quote, (quote = '"' ∨ quote = '\'') ∧ quote ∉ string.toList := by
        rcases within.strings string member with absent | absent
        · exact ⟨'"', Or.inl rfl, absent⟩
        · exact ⟨'\'', Or.inr rfl, absent⟩
      have spelled := @Spells.quoted quote string.toList [] sort absent
      rw [String.ofList_toList] at spelled
      refine ⟨_, spelled, ?_⟩
      intro other same
      cases same
      exact ⟨quote, by simpa using sort, absent, rfl⟩

theorem token_written {tree : Expr} (within : tree.Expressible) {token : Token}
    (member : token ∈ tree.spell) : ∃ text, Written text token := by
  cases token with
  | literal literal =>
      have derived := Grammar.spell_derives tree within.typeless
      exact literal_written within ((mem_literals derived literal).mpr member)
  | field field => exact ⟨_, .field field, by simp⟩
  | connective operator =>
      cases operator with
      | and => exact ⟨_, .and, by simp⟩
      | or => exact ⟨_, .or, by simp⟩
  | not => exact ⟨_, .not, by simp⟩
  | colon => exact ⟨_, .colon, by simp⟩
  | leftParen => exact ⟨_, .leftParen, by simp⟩
  | rightParen => exact ⟨_, .rightParen, by simp⟩

theorem exists_spaced {tokens : List Token} (nonempty : tokens ≠ [])
    (written : ∀ token ∈ tokens, ∃ text, Written text token) : ∃ text, Spaced tokens text := by
  induction tokens with
  | nil => exact absurd rfl nonempty
  | cons token rest ih =>
      obtain ⟨text, first⟩ := written token List.mem_cons_self
      cases rest with
      | nil => exact ⟨text, .last first⟩
      | cons next tokens =>
          obtain ⟨later, spaced⟩ :=
            ih (by simp) fun other member => written other (List.mem_cons_of_mem token member)
          exact ⟨text ++ ' ' :: later, .next first spaced⟩

theorem spell_ne_nil {tree : Expr} (typeless : tree.isTypeless = true) : tree.spell ≠ [] := by
  cases tree with
  | type name => cases typeless
  | _ => simp [Expr.spell]

end Write

/-- The trees that filter text expresses. Whatever is read lies within the bounds
and holds no NaN, and every tree within them is read from its shortest spelling,
however its strings are quoted and its numbers written. -/
theorem expressible_exact :
    (∀ source tree, parse source = .ok tree →
      tree.Expressible ∧ ∀ number, .number number ∈ tree.literals → number.isNaN = false) ∧
    ∀ tree : Expr, tree.Expressible →
      (∃ text, Spaced tree.spell text) ∧
        ∀ text, Spaced tree.spell text → parse (String.ofList text) = .ok tree := by
  constructor
  · intro source tree parsed
    have within := parsed_expressible parsed
    refine ⟨within, ?_⟩
    intro number member
    obtain ⟨numeral, -, read⟩ := within.numbers number member
    exact Numeral.read?_not_nan read
  · intro tree within
    have written := exists_spaced (spell_ne_nil within.typeless)
      fun _ member => token_written within member
    exact ⟨written, fun text spaced => parse_spaced within spaced⟩

/-- The filter `( ! "it's" ) & $key : .5`. -/
theorem expressible_exact_apostrophe :
    let half := Binary64.ofDecimal false 5 (-1)
    let string := String.ofList ['i', 't', '\'', 's']
    let tree := Expr.and (.not (.value (.string string))) (.facet .key (.value (.number half)))
    let text := ['(', ' ', '!', ' ', '"', 'i', 't', '\'', 's', '"', ' ', ')', ' ', '&', ' ',
      '$', 'k', 'e', 'y', ' ', ':', ' ', '.', '5']
    tree.Expressible ∧ Spaced tree.spell text ∧ parse (String.ofList text) = .ok tree := by
  intro half string tree text
  have numeral : Numeral.IsNumeral ['.', '5'] :=
    .plain (.fraction (by simp) (List.all_eq_true.mp (by decide)))
  have read : Numeral.read? ['.', '5'] = some half := rfl
  have within : tree.Expressible := by
    refine ⟨rfl, by decide, ?_, ?_⟩
    · intro other member
      have same : other = string := by simpa [tree, Expr.literals] using member
      subst same
      exact Or.inl (by decide)
    · intro number member
      have same : number = half := by simpa [tree, Expr.literals] using member
      subst same
      exact ⟨_, numeral, read⟩
  have quoted : Written ['"', 'i', 't', '\'', 's', '"'] (.literal (.string string)) := by
    refine ⟨@Spells.quoted '"' ['i', 't', '\'', 's'] [] (Or.inl rfl) (by decide), ?_⟩
    intro other same
    cases same
    exact ⟨'"', by decide, by decide, by simp [string]⟩
  have spaced : Spaced tree.spell text :=
    .next ⟨.leftParen, by simp⟩ (.next ⟨.not, by simp⟩ (.next quoted (.next ⟨.rightParen, by simp⟩
      (.next ⟨.and, by simp⟩ (.next ⟨.field .key, by simp⟩ (.next ⟨.colon, by simp⟩
        (.last ⟨.numeral numeral read Text.ends_nil, by simp⟩)))))))
  exact ⟨within, spaced, (expressible_exact.2 tree within).2 text spaced⟩

end NodeFilter
