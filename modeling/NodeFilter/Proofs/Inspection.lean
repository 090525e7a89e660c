import NodeFilter.Command.Execution
import NodeFilter.Proofs.DumpText
import NodeFilter.Proofs.SourceText

/-!
What the inspecting commands show of a filter. Its tokens stand on a line each, since no line holds
a break, and its tree is spread out. Either text tells what it was written for, whatever the strings
of the filter hold: the numbers of a filter are told from one another by how they are written.
-/

namespace NodeFilter

open Text (Ends)

/-- The literal is no NaN. All of those are written alike, but filters spell none. -/
def Literal.IsTold (literal : Literal) : Prop :=
  ∀ number, literal = .number number → number.isNaN = false

namespace Dump

def Flat : Dump → Prop
  | .atom text => IsWord text
  | .tuple name [.atom text] => IsWord name ∧ IsAtom text
  | _ => False

section Flat

variable {d e : Dump}

theorem flat_word {text : String} (word : IsWord text) : Flat (.atom text) := word

theorem flat_cases (flat : d.Flat) :
    (∃ text, d = .atom text ∧ IsWord text) ∨
      ∃ name text, d = .tuple name [.atom text] ∧ IsWord name ∧ IsAtom text := by
  match d, flat with
  | .atom text, word => exact Or.inl ⟨text, rfl, word⟩
  | .tuple name [.atom text], both => exact Or.inr ⟨name, text, rfl, both⟩

theorem writeLine_rest (flat : d.Flat) (rest : List Char) :
    d.writeLine rest = d.writeLine [] ++ rest := by
  rcases flat_cases flat with ⟨text, rfl, -⟩ | ⟨name, text, rfl, -⟩
  · simp [writeLine]
  · simp [writeLine, writeLineParts]

theorem writeLine_oneLine (flat : d.Flat) : '\n' ∉ d.writeLine [] := by
  rcases flat_cases flat with ⟨text, rfl, word⟩ | ⟨name, text, rfl, word, atom⟩
  · simpa [writeLine] using IsAtom.oneLine (Or.inl word)
  · simpa [writeLine, writeLineParts] using ⟨IsAtom.oneLine (Or.inl word), atom.oneLine⟩

theorem writeLine_nonempty (flat : d.Flat) : d.writeLine [] ≠ [] := by
  rcases flat_cases flat with ⟨text, rfl, word⟩ | ⟨name, text, rfl, word, -⟩
  · simpa [writeLine] using word.1
  · exact List.append_ne_nil_of_left_ne_nil word.1 _

theorem writeLine_injective (flat : d.Flat) (also : e.Flat)
    (same : d.writeLine [] = e.writeLine []) : d = e := by
  have bracket (rest : List Char) : Ends isPlain ('(' :: rest) := Text.ends_cons (by decide)
  have closing : Ends isPlain [')'] := Text.ends_cons (by decide)
  rcases flat_cases flat with ⟨text, rfl, word⟩ | ⟨name, text, rfl, word, atom⟩ <;>
    rcases flat_cases also with ⟨other, rfl, second⟩ | ⟨label, other, rfl, second, another⟩
  · obtain ⟨rfl, -⟩ := IsAtom.unique (Or.inl word) (Or.inl second) Text.ends_nil Text.ends_nil same
    rfl
  · cases (IsAtom.unique (Or.inl word) (Or.inl second) Text.ends_nil (bracket _) same).2
  · cases (IsAtom.unique (Or.inl word) (Or.inl second) (bracket _) Text.ends_nil same).2
  · obtain ⟨rfl, inside⟩ := IsAtom.unique (Or.inl word) (Or.inl second) (bracket _) (bracket _) same
    obtain ⟨rfl, -⟩ := atom.unique another closing closing (List.tail_eq_of_cons_eq inside)
    rfl

end Flat

theorem numberLayout_namesInfinity : numberLayout.NamesInfinity := ⟨'i', ['n', 'f'], rfl, rfl⟩

theorem number_word {x : Binary64} (number : x.isNaN = false) :
    IsWord (numberLayout.write x) := by
  refine ⟨Layout.write_nonempty numberLayout_namesInfinity number, ?_⟩
  have infinity : IsWord "inf" := by decide
  have notANumber : IsWord "NaN" := by decide
  refine Layout.write_chars ?_ infinity.2 notANumber.2 x
  intro c inside
  rcases Bool.or_eq_true_iff.mp inside with numeral | mark
  · simp [isPlain, numeral]
  · rw [beq_iff_eq.mp mark]
    decide

theorem ofLiteral_flat {literal : Literal} (told : literal.IsTold) : (ofLiteral literal).Flat := by
  cases literal with
  | null => exact flat_word (by decide)
  | boolean value => cases value <;> exact ⟨by decide, Or.inl (by decide)⟩
  | number value => exact ⟨by decide, Or.inl (number_word (told value rfl))⟩
  | string text => exact ⟨by decide, Or.inr ⟨text, rfl⟩⟩

theorem flat_proper {d : Dump} (flat : d.Flat) : d.Proper := by
  rcases flat_cases flat with ⟨text, rfl, word⟩ | ⟨name, text, rfl, word, atom⟩
  · exact Or.inl word
  · exact ⟨word, List.cons_ne_nil _ _, atom, trivial⟩

theorem ofLiteral_injective {literal other : Literal} (told : literal.IsTold)
    (also : other.IsTold) (same : ofLiteral literal = ofLiteral other) : literal = other := by
  cases literal <;> cases other <;>
    simp only [ofLiteral, ofBool, atom.injEq, tuple.injEq, List.cons.injEq, true_and, and_true,
      String.reduceEq, reduceCtorEq, false_and] at same
  case null.null => rfl
  case boolean.boolean value another => cases value <;> cases another <;> simp at same ⊢
  case number.number =>
    exact congrArg Literal.number
      (Layout.write_injective numberLayout_namesInfinity (told _ rfl) (also _ rfl) same)
  case string.string => exact congrArg Literal.string (Text.quoted_injective same)

theorem ofLiteral_front (literal : Literal) :
    (ofLiteral literal).front ∈ ["Null", "Boolean", "Number", "String"] := by
  cases literal <;> simp [ofLiteral, front]

end Dump

namespace Token

def marks : List Token :=
  [.field .key, .field .value, .field .type, .connective .and, .connective .or, .not, .colon,
    .leftParen, .rightParen]

def IsTold (token : Token) : Prop := ∀ literal, token = .literal literal → literal.IsTold

section Marks

variable {token other : Token}

theorem literal_or_mark (token : Token) : (∃ literal, token = .literal literal) ∨ token ∈ marks := by
  cases token with
  | literal literal => exact Or.inl ⟨literal, rfl⟩
  | field facet => cases facet <;> exact Or.inr (by decide)
  | connective operator => cases operator <;> exact Or.inr (by decide)
  | _ => exact Or.inr (by decide)

theorem mark_flat (mark : token ∈ marks) : token.dump.Flat := by
  cases token with
  | literal literal => simp [marks] at mark
  | field facet =>
      have name : Dump.IsWord "FieldKey" := by decide
      cases facet <;> exact ⟨name, Or.inl (by decide)⟩
  | connective operator => cases operator <;> exact Dump.flat_word (by decide)
  | _ => exact Dump.flat_word (by decide)

theorem mark_front : ∀ token ∈ marks,
    token.dump.front ∉ ["Null", "Boolean", "Number", "String"] := by decide

theorem mark_injective : ∀ token ∈ marks, ∀ other ∈ marks,
    token.dump.writeLine [] = other.dump.writeLine [] → token = other := by decide

theorem dump_flat (told : token.IsTold) : token.dump.Flat := by
  rcases token.literal_or_mark with ⟨literal, rfl⟩ | mark
  · exact Dump.ofLiteral_flat (told literal rfl)
  · exact mark_flat mark

theorem dump_injective (told : token.IsTold) (also : other.IsTold)
    (same : token.dump = other.dump) : token = other := by
  rcases token.literal_or_mark with ⟨literal, rfl⟩ | mark <;>
    rcases other.literal_or_mark with ⟨another, rfl⟩ | second
  · exact congrArg Token.literal (Dump.ofLiteral_injective (told _ rfl) (also _ rfl) same)
  · have front := Dump.ofLiteral_front literal
    rw [show Dump.ofLiteral literal = other.dump from same] at front
    exact absurd front (mark_front other second)
  · have front := Dump.ofLiteral_front another
    rw [show Dump.ofLiteral another = token.dump from same.symm] at front
    exact absurd front (mark_front token mark)
  · exact mark_injective token mark other second (by rw [same])

def line (token : Token) : List Char := token.dump.writeLine []

theorem line_injective (told : token.IsTold) (also : other.IsTold)
    (same : token.line = other.line) : token = other :=
  dump_injective told also (Dump.writeLine_injective (dump_flat told) (dump_flat also) same)

end Marks

section Lines

variable {tokens others : List Token}

theorem writeDumps_lines (told : ∀ token ∈ tokens, token.IsTold) :
    writeDumps tokens = ['\n'].intercalate (tokens.map line) := by
  induction tokens using writeDumps.induct with
  | case1 => rfl
  | case2 last => simp [writeDumps, line]
  | case3 token next rest ih =>
      obtain ⟨first, later⟩ := List.forall_mem_cons.mp told
      rw [writeDumps, Dump.writeLine_rest (dump_flat first), ih later]
      simp [List.intercalate, line]

theorem splitOn_writeDumps (told : ∀ token ∈ tokens, token.IsTold) (nonempty : tokens ≠ []) :
    (writeDumps tokens).splitOn '\n' = tokens.map line := by
  rw [writeDumps_lines told]
  refine List.splitOn_intercalate '\n' ?_ (by simpa using nonempty)
  intro text member
  obtain ⟨token, inside, rfl⟩ := List.mem_map.mp member
  exact Dump.writeLine_oneLine (dump_flat (told token inside))

theorem writeDumps_eq_nil (told : ∀ token ∈ tokens, token.IsTold) :
    writeDumps tokens = [] ↔ tokens = [] := by
  match tokens with
  | [] => simp [writeDumps]
  | token :: rest =>
      have flat := dump_flat (told token List.mem_cons_self)
      have nonempty : writeDumps (token :: rest) ≠ [] := by
        cases rest with
        | nil => exact Dump.writeLine_nonempty flat
        | cons next rest =>
            rw [writeDumps, Dump.writeLine_rest flat]
            exact List.append_ne_nil_of_left_ne_nil (Dump.writeLine_nonempty flat) _
      simp [nonempty]

theorem lines_injective (told : ∀ token ∈ tokens, token.IsTold)
    (also : ∀ token ∈ others, token.IsTold) (same : tokens.map line = others.map line) :
    tokens = others := by
  induction tokens generalizing others with
  | nil => exact (List.map_eq_nil_iff.mp same.symm).symm
  | cons token rest ih =>
      cases others with
      | nil => cases same
      | cons other more =>
          obtain ⟨first, later⟩ := List.forall_mem_cons.mp told
          obtain ⟨second, more⟩ := List.forall_mem_cons.mp also
          obtain ⟨lines, after⟩ := List.cons.inj same
          rw [line_injective first second lines, ih later more after]

theorem writeDumps_injective (told : ∀ token ∈ tokens, token.IsTold)
    (also : ∀ token ∈ others, token.IsTold) (same : writeDumps tokens = writeDumps others) :
    tokens = others := by
  by_cases empty : tokens = []
  · rw [empty, eq_comm, ← writeDumps_eq_nil also, ← same, writeDumps_eq_nil told]
    exact empty
  · have nonempty : others ≠ [] := fun none =>
      empty ((writeDumps_eq_nil told).mp (same.trans ((writeDumps_eq_nil also).mpr none)))
    have lines := splitOn_writeDumps told empty
    rw [same, splitOn_writeDumps also nonempty] at lines
    exact (lines_injective also told lines).symm

theorem lexed_told {source : String} (lexed : lex source = .ok tokens) :
    ∀ token ∈ tokens, token.IsTold := by
  rintro token member literal rfl number rfl
  obtain ⟨lexeme, rest, spelled⟩ := splits_spelled (Cursor.splits_of_tokens lexed) _ member
  exact Numeral.read?_not_nan (spelled_number spelled).2

end Lines

end Token

theorem Connective.name_injective : Function.Injective Connective.name := by
  intro operator other same
  cases operator <;> cases other <;> simp [Connective.name] at same ⊢

theorem Field.dump_injective : Function.Injective Field.dump := by
  intro field other same
  cases field <;> cases other <;> simp [Field.dump] at same ⊢

namespace Expr

theorem dump_proper {tree : Expr} (told : ∀ literal ∈ tree.literals, literal.IsTold) :
    tree.dump.Proper := by
  induction tree with
  | joined operator left right leftIh rightIh =>
      obtain ⟨first, second⟩ := List.forall_mem_append.mp told
      refine ⟨?_, List.cons_ne_nil _ _, leftIh first, rightIh second, trivial⟩
      cases operator <;> decide
  | not operand ih => exact ⟨by decide, List.cons_ne_nil _ _, ih told, trivial⟩
  | facet field target ih =>
      have name : Dump.Proper field.dump := by
        cases field <;> exact Or.inl (by decide)
      exact ⟨by decide, List.cons_ne_nil _ _, by decide, name, by decide, ih told, trivial⟩
  | value literal =>
      exact ⟨by decide, List.cons_ne_nil _ _,
        Dump.flat_proper (Dump.ofLiteral_flat (told literal List.mem_cons_self)), trivial⟩
  | type name => exact ⟨by decide, List.cons_ne_nil _ _, Or.inr ⟨name, rfl⟩, trivial⟩

theorem dump_injective {tree other : Expr} (told : ∀ literal ∈ tree.literals, literal.IsTold)
    (also : ∀ literal ∈ other.literals, literal.IsTold) (same : tree.dump = other.dump) :
    tree = other := by
  -- Trees that are made in different ways differ in the name in front.
  induction tree generalizing other with
  | joined operator left right leftIh rightIh =>
      cases other with
      | joined second before after =>
          simp only [dump, Dump.tuple.injEq, List.cons.injEq, and_true] at same
          obtain ⟨names, first, last⟩ := same
          obtain ⟨leftTold, rightTold⟩ := List.forall_mem_append.mp told
          obtain ⟨beforeTold, afterTold⟩ := List.forall_mem_append.mp also
          rw [Connective.name_injective names, leftIh leftTold beforeTold first,
            rightIh rightTold afterTold last]
      | _ => cases operator <;> simp [dump, Connective.name] at same
  | not operand ih =>
      cases other with
      | not second => exact congrArg Expr.not (ih told also (by simpa [dump] using same))
      | joined operator before after => cases operator <;> simp [dump, Connective.name] at same
      | _ => simp [dump] at same
  | facet field target ih =>
      cases other with
      | facet second goal =>
          simp only [dump, Dump.record.injEq, List.cons.injEq, Prod.mk.injEq, true_and,
            and_true] at same
          have targets : target = goal := ih told also same.2
          rw [Field.dump_injective same.1, targets]
      | _ => cases same
  | value literal =>
      cases other with
      | value another =>
          have literals : Dump.ofLiteral literal = .ofLiteral another := by
            simpa [dump] using same
          have first := told literal List.mem_cons_self
          have second := also another List.mem_cons_self
          rw [Dump.ofLiteral_injective first second literals]
      | joined operator before after => cases operator <;> simp [dump, Connective.name] at same
      | _ => simp [dump] at same
  | type name =>
      cases other with
      | type another =>
          have names : Text.quoted name = Text.quoted another := by simpa [dump] using same
          rw [Text.quoted_injective names]
      | joined operator before after => cases operator <;> simp [dump, Connective.name] at same
      | _ => simp [dump] at same

theorem parsed_told {source : String} {tree : Expr} (parsed : parse source = .ok tree) :
    ∀ literal ∈ tree.literals, literal.IsTold := by
  rintro literal member number rfl
  obtain ⟨numeral, -, read⟩ := (parsed_expressible parsed).numbers number member
  exact Numeral.read?_not_nan read

end Expr

/-- The inspecting commands lose nothing. Tokens that are shown alike are the same tokens, each on
a line of its own, and trees that are shown alike are the same tree. -/
theorem shown_exactly (source other : String) :
    (∀ tokens others, lex source = .ok tokens → lex other = .ok others →
      ∃ text dump, showTokens source = .ok text ∧ showTokens other = .ok dump ∧
        (text = dump ↔ tokens = others) ∧ (text = "" ↔ tokens = []) ∧
        (text ≠ "" → text.toList.splitOn '\n' = tokens.map Token.line)) ∧
    ∀ tree another, parse source = .ok tree → parse other = .ok another →
      ∃ text dump, showTree source = .ok text ∧ showTree other = .ok dump ∧
        (text = dump ↔ tree = another) := by
  constructor
  · intro tokens others lexed also
    have told := Token.lexed_told lexed
    have empty : Token.dumpLines tokens = "" ↔ tokens = [] :=
      (@String.ofList_inj _ []).trans (Token.writeDumps_eq_nil told)
    refine ⟨Token.dumpLines tokens, Token.dumpLines others, ?_, ?_, ⟨?_, congrArg _⟩, empty, ?_⟩
    · rw [showTokens, lexed]
    · rw [showTokens, also]
    · exact fun same => Token.writeDumps_injective told (Token.lexed_told also)
        (String.ofList_inj.mp same)
    · intro nonempty
      rw [Token.dumpLines, String.toList_ofList]
      exact Token.splitOn_writeDumps told (mt empty.mpr nonempty)
  · intro tree another parsed also
    have told := Expr.parsed_told parsed
    have second := Expr.parsed_told also
    refine ⟨tree.dump.spread, another.dump.spread, ?_, ?_, ?_, fun same => by rw [same]⟩
    · rw [showTree, parsed]
    · rw [showTree, also]
    · intro same
      exact Expr.dump_injective told second
        (Dump.spread_injective (Expr.dump_proper told) (Expr.dump_proper second) same)

/-- A string that reads like the lines of the three tokens of `"a" & "b"`. -/
theorem shown_exactly_lookalike :
    let content := ['a', '"', ')', '\n', 'A', 'n', 'd', '\n', 'S', 't', 'r', 'i', 'n', 'g', '(',
      '"', 'b']
    let whole := Literal.string (String.ofList content)
    let front := Literal.string (String.ofList ['a'])
    let back := Literal.string (String.ofList ['b'])
    let source := String.ofList ('\'' :: (content ++ ['\'']))
    let other := String.ofList ['"', 'a', '"', ' ', '&', ' ', '"', 'b', '"']
    lex source = .ok [.literal whole] ∧
      lex other = .ok [.literal front, .connective .and, .literal back] ∧
      parse source = .ok (.value whole) ∧
      parse other = .ok (.and (.value front) (.value back)) ∧
      (∃ text dump, showTokens source = .ok text ∧ showTokens other = .ok dump ∧ text ≠ dump ∧
        text.toList.splitOn '\n' = [Token.line (.literal whole)]) ∧
      ∃ text dump, showTree source = .ok text ∧ showTree other = .ok dump ∧ text ≠ dump := by
  intro content whole front back source other
  have quoted {quote : Char} {inside : List Char} (sort : quote = '"' ∨ quote = '\'')
      (absent : quote ∉ inside) :
      Written (quote :: (inside ++ [quote])) (.literal (.string (String.ofList inside))) := by
    refine ⟨.quoted sort absent, ?_⟩
    intro string same
    cases same
    refine ⟨quote, by simpa using sort, ?_⟩
    rw [String.toList_ofList]
    exact ⟨absent, rfl⟩
  have lexed : lex source = .ok [.literal whole] :=
    lex_spaced (.last (quoted (Or.inr rfl) (by decide)))
  have also : lex other = .ok [.literal front, .connective .and, .literal back] :=
    lex_spaced (.next (@quoted '"' ['a'] (Or.inl rfl) (by decide))
      (.next ⟨.and, nofun⟩ (.last (@quoted '"' ['b'] (Or.inl rfl) (by decide)))))
  have parsed : parse source = .ok (.value whole) := parse_of_lexed rfl (by decide) lexed
  have second : parse other = .ok (.and (.value front) (.value back)) :=
    parse_of_lexed rfl (by decide) also
  obtain ⟨tokens, trees⟩ := shown_exactly source other
  obtain ⟨text, dump, shown, others, same, empty, lines⟩ := tokens _ _ lexed also
  obtain ⟨spread, another, tree, otherTree, sameTree⟩ := trees _ _ parsed second
  refine ⟨lexed, also, parsed, second, ⟨text, dump, shown, others, ?_, lines ?_⟩,
    spread, another, tree, otherTree, ?_⟩
  · exact fun alike => by simpa using same.mp alike
  · exact mt empty.mp (List.cons_ne_nil _ _)
  · exact fun alike => nomatch sameTree.mp alike

end NodeFilter
