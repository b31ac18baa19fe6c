import SchemaForge.Sql.TableReading
import SchemaForge.Sql.Written

/-!
# Default expressions

The reader stores the expression of a `DEFAULT` clause as rendered tokens. The
expression keeps its meaning if PostgreSQL reads what is stored as the lexemes it
reads in the script. It does so exactly if the scanner cuts none of the lexemes, and
no word outside the parentheses is one at which the reader stops.
-/

namespace SchemaForge.Sql

open Lexical

namespace Lexeme

section

variable [Unicode]

/-- The tokens by which the scanner spells a lexeme. -/
def IsSpelledBy : Lexeme → List Token → Prop
  | word spelled, tokens => tokens = [.word (Str.toLowercase spelled)]
  | quoted name, tokens => name ≠ [] ∧ tokens = [.quoted name]
  | text segments, tokens => segments ≠ [] ∧ tokens = segments.map .text
  | escaped _, _ => False
  | number spelled, tokens =>
      (isNumeral spelled = true ∧ Lexical.number spelled = some (.number spelled, []) ∧
        tokens = [.number spelled]) ∨
        (isNumeral spelled = false ∧ 2 ≤ tokens.length ∧ ∀ token ∈ tokens, IsInert token)
  | opening, tokens => tokens = [.punct '(']
  | closing, tokens => tokens = [.punct ')']
  | comma, tokens => tokens = [.punct ',']
  | typecast, tokens => tokens = [.punct ':', .punct ':']
  | operator symbols, tokens =>
      symbols ≠ [] ∧ (∀ c ∈ symbols, isOperatorChar c = true) ∧ tokens = symbols.map .punct

/-- A lexeme up to the case of a word and the spelling of a constant's quotes. -/
def canonical : Lexeme → Lexeme
  | word spelled => word (Str.toLowercase spelled)
  | text segments => text [segments.flatten]
  | escaped segments => escaped [segments.flatten]
  | lexeme => lexeme

end

/-- The scanner reads the lexeme as one token. -/
def staysWhole : Lexeme → Bool
  | text segments => segments.length == 1
  | escaped _ => false
  | number spelled => isNumeral spelled
  | typecast => false
  | operator symbols => symbols.length == 1
  | _ => true

def isEscaped : Lexeme → Bool
  | escaped _ => true
  | _ => false

end Lexeme

/-- The parentheses are balanced, and there is no comma outside of them. -/
def wellNested : Nat → List Lexeme → Bool
  | depth, [] => depth == 0
  | depth, .opening :: rest => wellNested (depth + 1) rest
  | depth, .closing :: rest => depth != 0 && wellNested (depth - 1) rest
  | depth, .comma :: rest => depth != 0 && wellNested depth rest
  | depth, _ :: rest => wellNested depth rest

section

variable [Unicode]

/-- There is a word outside the parentheses at which the reader stops. -/
def meetsEnd : Nat → List Lexeme → Bool
  | _, [] => false
  | depth, .opening :: rest => meetsEnd (depth + 1) rest
  | depth, .closing :: rest => meetsEnd (depth - 1) rest
  | depth, .word spelled :: rest =>
      (depth == 0 && afterType.contains (Str.toLowercase spelled)) || meetsEnd depth rest
  | depth, _ :: rest => meetsEnd depth rest

/-- The tokens spell the lexemes, one after another. -/
inductive SpelledBy : List Lexeme → List Token → Prop
  | nil : SpelledBy [] []
  | cons {lexeme : Lexeme} {lexemes : List Lexeme} {pieces tokens : List Token}
      (first : lexeme.IsSpelledBy pieces) (rest : SpelledBy lexemes tokens) :
      SpelledBy (lexeme :: lexemes) (pieces ++ tokens)

omit [Unicode] in
theorem number_of_isNumeral {s spelled left : Str} (read : number s = some (.number spelled, left))
    (numeral : isNumeral spelled = true) : number spelled = some (.number spelled, []) := by
  have characters := digit_or_point_of_isNumeral numeral
  unfold number at read
  simp only at read
  split at read
  · cases read
  · cases read
    rcases exponent_spec (fraction (s.dropWhile Char.isDigit)).2 with ⟨power, -⟩
    rcases fraction_spec (s.dropWhile Char.isDigit) with ⟨-, pointed⟩
    have noPower : (exponent (fraction (s.dropWhile Char.isDigit)).2).1 = [] := by
      generalize (exponent (fraction (s.dropWhile Char.isDigit)).2).1 = spelled at power characters
      cases power with
      | none => rfl
      | bare letter _ | signed letter _ _ =>
          exfalso
          have other := characters _ (List.mem_append_right _ List.mem_cons_self)
          rcases letter with rfl | rfl
          · revert other
            decide
          · revert other
            decide
    rw [noPower, List.append_nil]
    have digits : ∀ c ∈ s.takeWhile Char.isDigit, c.isDigit = true :=
      fun c mem => List.mem_takeWhile_imp mem
    rcases pointed with ⟨empty, -⟩ | ⟨fractional, point, spelled⟩
    · rw [empty, List.append_nil]
      have whole := number_eq (s := []) digits (by simp) rfl (by simp) (by simp)
      rw [List.append_nil] at whole
      exact whole
    · rw [point]
      rcases span_of_all spelled with ⟨taken, dropped⟩
      have pointed : fraction ('.' :: fractional) = ('.' :: fractional, []) := by
        rw [fraction, taken, dropped]
      exact number_eq digits (by simp) pointed (by simp) (by simp)

end

section

variable [Unicode] [LawfulLetters]

/-- The scanner spells a lexeme that has no escapes, and stops where the lexeme stops. -/
theorem isSpelledBy_of_next {s left : Str} {lexeme : Lexeme}
    (front : next s = some (some lexeme, left)) (plain : lexeme.isEscaped = false)
    (lettered : ∀ spelled, lexeme = .word spelled → IsLettered spelled) :
    ∃ tokens, lexeme.IsSpelledBy tokens ∧ lex s = tokens.map .token ++ lex left := by
  cases s with
  | nil => cases front
  | cons c rest =>
  rw [next] at front
  by_cases blank : isBlank c = true
  · rw [if_pos blank] at front
    cases front
  rw [if_neg blank] at front
  by_cases quote : c = '\''
  · subst quote
    rw [if_pos rfl] at front
    rcases Option.map_eq_some_iff.mp front with ⟨⟨segments, left'⟩, read, same⟩
    cases same
    rcases lex_constant read with ⟨more, spelled⟩
    refine ⟨segments.map .text, ⟨more, rfl⟩, ?_⟩
    rw [spelled, List.map_map]
    rfl
  rw [if_neg quote] at front
  by_cases doubleQuote : c = '"'
  · subst doubleQuote
    rw [if_pos rfl] at front
    cases read : delimited '"' false rest with
    | none =>
        rw [read] at front
        cases front
    | some pair =>
        rcases pair with ⟨name, left'⟩
        rw [read] at front
        by_cases empty : name.isEmpty = true
        · simp only [empty, if_true] at front
          cases front
        · simp only [empty, Bool.false_eq_true, if_false] at front
          cases front
          exact ⟨[.quoted name], ⟨mt List.isEmpty_iff.mpr empty, rfl⟩,
            lex_doubleQuote_of_delimited read⟩
  rw [if_neg doubleQuote] at front
  by_cases dollar : c = '$'
  · subst dollar
    rw [if_pos rfl] at front
    rcases Option.map_eq_some_iff.mp front with ⟨⟨value, left'⟩, read, same⟩
    cases same
    exact ⟨[.text value], ⟨List.cons_ne_nil _ _, rfl⟩, lex_dollar_of_dollarQuoted read⟩
  rw [if_neg dollar] at front
  by_cases opening : c = '('
  · subst opening
    rw [if_pos rfl] at front
    cases front
    exact ⟨[.punct '('], rfl, lex_opening left⟩
  rw [if_neg opening] at front
  by_cases closing : c = ')'
  · subst closing
    rw [if_pos rfl] at front
    cases front
    exact ⟨[.punct ')'], rfl, lex_closing left⟩
  rw [if_neg closing] at front
  by_cases comma : c = ','
  · subst comma
    rw [if_pos rfl] at front
    cases front
    exact ⟨[.punct ','], rfl, lex_comma left⟩
  rw [if_neg comma] at front
  by_cases colon : c = ':'
  · subst colon
    rw [if_pos rfl] at front
    by_cases second : rest.head? = some ':'
    · rw [if_pos second] at front
      cases front
      rcases List.head?_eq_some_iff.mp second with ⟨tail, rfl⟩
      have once (rest : Str) : lex (':' :: rest) = .token (.punct ':') :: lex rest :=
        lex_punct_of_ordinary rest (by decide) (by decide)
      refine ⟨[.punct ':', .punct ':'], rfl, ?_⟩
      rw [once, once]
      rfl
    · rw [if_neg second] at front
      cases front
  rw [if_neg colon] at front
  by_cases numeric : (c.isDigit || (c == '.' && rest.head?.any Char.isDigit)) = true
  · rw [if_pos numeric] at front
    rcases Option.map_eq_some_iff.mp front with ⟨⟨lexeme', left'⟩, read, same⟩
    cases same
    have digits : c.isDigit = true ∨ (c = '.' ∧ rest.head?.any Char.isDigit = true) := by
      rw [Bool.or_eq_true, Bool.and_eq_true, beq_iff_eq] at numeric
      exact numeric
    rcases lex_numberLexeme digits read with ⟨spelled, tokens, rfl, lexed, kind⟩
    refine ⟨tokens, ?_, lexed⟩
    rcases kind with ⟨numeral, rfl⟩ | several
    · exact .inl ⟨numeral, number_of_isNumeral read numeral, rfl⟩
    · exact .inr several
  rw [if_neg numeric] at front
  by_cases start : isIdentStart c = true
  · rw [if_pos start] at front
    rcases Option.map_eq_some_iff.mp front with ⟨⟨lexeme', left'⟩, read, same⟩
    cases same
    rcases word_eq_some read with ⟨segments, rfl⟩ | ⟨rfl, rfl⟩
    · cases plain
    · exact ⟨[_], rfl, lex_lettered start (lettered _ rfl)⟩
  rw [if_neg start] at front
  by_cases symbol : isOperatorChar c = true
  · rw [if_pos symbol] at front
    rcases Option.map_eq_some_iff.mp front with ⟨⟨lexeme', left'⟩, read, same⟩
    cases same
    rcases lex_operator (s := c :: rest) symbol read with ⟨symbols, rfl, ⟨more, inside⟩, lexed⟩
    refine ⟨symbols.map .punct, ⟨more, inside, rfl⟩, ?_⟩
    rw [lexed, List.map_map]
    rfl
  rw [if_neg symbol] at front
  cases front

theorem spelledBy_of_reads {s left : Str} {lexemes : List Lexeme} (read : Reads s lexemes left)
    (plain : ∀ lexeme ∈ lexemes, lexeme.isEscaped = false)
    (lettered : ∀ spelled, .word spelled ∈ lexemes → IsLettered spelled) :
    ∃ tokens, SpelledBy lexemes tokens ∧ lex s = tokens.map .token ++ lex left := by
  induction read with
  | nil s => exact ⟨[], .nil, rfl⟩
  | blank front after ih =>
      rcases blank_of_next front with ⟨c, rfl, blank⟩
      rw [lex_whitespace _ (isWhitespace_of_isBlank blank)]
      exact ih plain lettered
  | cons front after ih =>
      rename_i lexeme lexemes
      rcases List.forall_mem_cons.mp plain with ⟨first, plain⟩
      have words : ∀ spelled, lexeme = .word spelled → IsLettered spelled := by
        rintro spelled rfl
        exact lettered spelled List.mem_cons_self
      rcases isSpelledBy_of_next front first words with ⟨pieces, spelled, lexed⟩
      rcases ih plain fun spelled mem => lettered spelled (List.mem_cons_of_mem lexeme mem) with
        ⟨tokens, later, lexedLater⟩
      refine ⟨pieces ++ tokens, .cons spelled later, ?_⟩
      rw [lexed, lexedLater, List.map_append, List.append_assoc]

end

theorem staysInside_of_isInert {tokens : List Token}
    (inert : ∀ token ∈ tokens, IsInert token) (depth : Nat) (rest : List Token) :
    staysInside depth (tokens ++ rest) = staysInside depth rest := by
  induction tokens with
  | nil => rfl
  | cons token tokens ih =>
      rcases List.forall_mem_cons.mp inert with ⟨first, inert⟩
      rw [List.cons_append, ← ih inert]
      cases token with
      | word word =>
          have goesOn : afterType.contains word = false := by
            rw [Bool.eq_false_iff, ne_eq, List.contains_iff_mem]
            exact first
          rw [staysInside, goesOn, Bool.not_false, Bool.or_true, Bool.true_and]
      | punct punct =>
          rcases first with ⟨opening, closing, comma⟩
          rw [staysInside]
          · rintro same
            cases same
            exact opening rfl
          · rintro same
            cases same
            exact closing rfl
          · rintro same
            cases same
            exact comma rfl
          · rintro word same
            cases same
      | quoted name => rw [staysInside] <;> simp
      | text text => rw [staysInside] <;> simp
      | number number => rw [staysInside] <;> simp

theorem isInert_of_isOperatorChar {c : Char} (symbol : isOperatorChar c = true) :
    IsInert (.punct c) := by
  refine ⟨?_, ?_, ?_⟩ <;>
    · rintro rfl
      revert symbol
      decide

section

variable [Unicode]

/-- Tokens that spell lexemes nest as these do. -/
theorem staysInside_of_spelledBy {lexemes : List Lexeme} {tokens : List Token}
    (spelled : SpelledBy lexemes tokens) (depth : Nat) :
    staysInside depth tokens = (wellNested depth lexemes && !meetsEnd depth lexemes) := by
  induction spelled generalizing depth with
  | nil => rw [staysInside, wellNested, meetsEnd, Bool.not_false, Bool.and_true]
  | cons first rest ih =>
      rename_i lexeme lexemes pieces tokens
      have passes (inert : ∀ token ∈ pieces, IsInert token)
          (nested : wellNested depth (lexeme :: lexemes) = wellNested depth lexemes)
          (ends : meetsEnd depth (lexeme :: lexemes) = meetsEnd depth lexemes) :
          staysInside depth (pieces ++ tokens) =
            (wellNested depth (lexeme :: lexemes) && !meetsEnd depth (lexeme :: lexemes)) := by
        rw [staysInside_of_isInert inert, ih, nested, ends]
      cases lexeme with
      | word spelled =>
          obtain rfl : pieces = [.word (Str.toLowercase spelled)] := first
          rw [List.singleton_append, staysInside, ih, wellNested, meetsEnd, bne]
          · cases depth == 0 <;> cases afterType.contains (Str.toLowercase spelled) <;>
              cases wellNested depth lexemes <;> rfl
          all_goals simp
      | quoted name =>
          obtain rfl : pieces = [.quoted name] := first.2
          exact passes (List.forall_mem_singleton.mpr trivial) rfl rfl
      | text segments =>
          obtain rfl : pieces = segments.map .text := first.2
          exact passes (List.forall_mem_map.mpr fun segment _ => trivial) rfl rfl
      | escaped segments => exact absurd first id
      | number spelled =>
          rcases first with ⟨-, -, rfl⟩ | ⟨-, -, inert⟩
          · exact passes (List.forall_mem_singleton.mpr trivial) rfl rfl
          · exact passes inert rfl rfl
      | opening =>
          obtain rfl : pieces = [.punct '('] := first
          rw [List.singleton_append, staysInside, ih, wellNested, meetsEnd]
      | closing =>
          obtain rfl : pieces = [.punct ')'] := first
          rw [List.singleton_append, staysInside, ih, wellNested, meetsEnd, Bool.and_assoc]
      | comma =>
          obtain rfl : pieces = [.punct ','] := first
          rw [List.singleton_append, staysInside, ih, wellNested, meetsEnd, Bool.and_assoc]
          all_goals simp
      | typecast =>
          obtain rfl : pieces = [.punct ':', .punct ':'] := first
          have inert : IsInert (.punct ':') := by
            change (':' : Char) ≠ '(' ∧ (':' : Char) ≠ ')' ∧ (':' : Char) ≠ ','
            decide
          exact passes
            (List.forall_mem_cons.mpr ⟨inert, List.forall_mem_singleton.mpr inert⟩) rfl rfl
      | operator symbols =>
          obtain rfl : pieces = symbols.map .punct := first.2.2
          exact passes (List.forall_mem_map.mpr fun c mem =>
            isInert_of_isOperatorChar (first.2.1 c mem)) rfl rfl

end

section

variable [Unicode]

theorem staysWhole_of_single {lexeme : Lexeme} {pieces : List Token}
    (spelled : lexeme.IsSpelledBy pieces) (single : pieces.length = 1) :
    lexeme.staysWhole = true := by
  cases lexeme with
  | word | quoted | opening | closing | comma => rfl
  | text segments =>
      rw [spelled.2, List.length_map] at single
      exact beq_iff_eq.mpr single
  | escaped segments => exact absurd spelled id
  | number spelled' =>
      rcases spelled with ⟨numeral, -, -⟩ | ⟨-, several, -⟩
      · exact numeral
      · omega
  | typecast =>
      obtain rfl : pieces = [.punct ':', .punct ':'] := spelled
      cases single
  | operator symbols =>
      rw [spelled.2.2, List.length_map] at single
      exact beq_iff_eq.mpr single

theorem length_pos_of_isSpelledBy {lexeme : Lexeme} {pieces : List Token}
    (spelled : lexeme.IsSpelledBy pieces) :
    0 < pieces.length := by
  cases lexeme with
  | word | opening | closing | comma | typecast =>
      rw [spelled]
      exact Nat.succ_pos _
  | quoted name =>
      rw [spelled.2]
      exact Nat.one_pos
  | text segments =>
      rw [spelled.2, List.length_map]
      exact List.length_pos_iff.mpr spelled.1
  | escaped segments => exact absurd spelled id
  | number spelled' =>
      rcases spelled with ⟨-, -, rfl⟩ | ⟨-, several, -⟩
      · exact Nat.one_pos
      · omega
  | operator symbols =>
      rw [spelled.2.2, List.length_map]
      exact List.length_pos_iff.mpr spelled.1

theorem length_le_of_spelledBy {lexemes : List Lexeme} {tokens : List Token}
    (spelled : SpelledBy lexemes tokens) :
    lexemes.length ≤ tokens.length := by
  induction spelled with
  | nil => exact Nat.le_refl 0
  | cons first rest ih =>
      have positive := length_pos_of_isSpelledBy first
      rw [List.length_cons, List.length_append]
      omega

/-- If there are no more tokens than lexemes, no lexeme is cut. -/
theorem staysWhole_of_length_le {lexemes : List Lexeme} {tokens : List Token}
    (spelled : SpelledBy lexemes tokens) (few : tokens.length ≤ lexemes.length) :
    ∀ lexeme ∈ lexemes, lexeme.staysWhole = true := by
  induction spelled with
  | nil => exact List.forall_mem_nil _
  | cons first rest ih =>
      have positive := length_pos_of_isSpelledBy first
      have least := length_le_of_spelledBy rest
      rw [List.length_append, List.length_cons] at few
      refine List.forall_mem_cons.mpr ⟨staysWhole_of_single first (by omega), ih (by omega)⟩

variable [LawfulLetters]

/-- A lexeme that is one token is written out as a lexeme of the same meaning. -/
theorem exists_lexemeOf {lexeme : Lexeme} {pieces : List Token}
    (spelled : lexeme.IsSpelledBy pieces) (whole : lexeme.staysWhole = true) :
    ∃ token written, pieces = [token] ∧ lexemeOf token = some written ∧ written.canonical =
      lexeme.canonical := by
  cases lexeme with
  | word spelled' =>
      refine ⟨_, _, spelled, rfl, ?_⟩
      exact congrArg Lexeme.word (LawfulLetters.toLowercase_toLowercase spelled')
  | quoted name =>
      refine ⟨_, .quoted name, spelled.2, ?_, rfl⟩
      rw [lexemeOf, if_neg (mt List.isEmpty_iff.mp spelled.1)]
  | text segments =>
      rcases List.length_eq_one_iff.mp (beq_iff_eq.mp whole) with ⟨segment, rfl⟩
      exact ⟨_, _, spelled.2, rfl, rfl⟩
  | escaped segments => exact absurd spelled id
  | number spelled' =>
      rcases spelled with ⟨-, read, rfl⟩ | ⟨cut, -, -⟩
      · refine ⟨_, .number spelled', rfl, ?_, rfl⟩
        rw [lexemeOf, read]
        rfl
      · rw [Lexeme.staysWhole, cut] at whole
        cases whole
  | opening => exact ⟨_, _, spelled, rfl, rfl⟩
  | closing => exact ⟨_, _, spelled, rfl, rfl⟩
  | comma => exact ⟨_, _, spelled, rfl, rfl⟩
  | typecast => cases whole
  | operator symbols =>
      rcases List.length_eq_one_iff.mp (beq_iff_eq.mp whole) with ⟨c, rfl⟩
      have symbol := spelled.2.1 c List.mem_cons_self
      rcases isInert_of_isOperatorChar symbol with ⟨opening, closing, comma⟩
      refine ⟨_, .operator [c], spelled.2.2, ?_, rfl⟩
      rw [lexemeOf, if_neg opening, if_neg closing, if_neg comma, if_pos symbol]

theorem exists_mapM_lexemeOf {lexemes : List Lexeme} {tokens : List Token}
    (spelled : SpelledBy lexemes tokens) (whole : ∀ lexeme ∈ lexemes, lexeme.staysWhole = true) :
    ∃ written, tokens.mapM lexemeOf = some written ∧
      written.map Lexeme.canonical = lexemes.map Lexeme.canonical := by
  induction spelled with
  | nil => exact ⟨[], rfl, rfl⟩
  | cons first rest ih =>
      rcases List.forall_mem_cons.mp whole with ⟨firstWhole, whole⟩
      rcases exists_lexemeOf first firstWhole with ⟨token, written, rfl, front, same⟩
      rcases ih whole with ⟨more, later, sameLater⟩
      refine ⟨written :: more, mapM_cons_eq_some.mpr ⟨written, more, front, later, rfl⟩, ?_⟩
      rw [List.map_cons, List.map_cons, same, sameLater]

omit [Unicode] [LawfulLetters] in
theorem length_of_mapM_lexemeOf {tokens : List Token} {written : List Lexeme}
    (read : tokens.mapM lexemeOf = some written) : tokens.length = written.length := by
  induction tokens generalizing written with
  | nil =>
      cases read
      rfl
  | cons token tokens ih =>
      rcases mapM_cons_eq_some.mp read with ⟨lexeme, more, -, later, rfl⟩
      rw [List.length_cons, List.length_cons, ih later]

omit [Unicode] [LawfulLetters] in
theorem isEscaped_of_mapM_lexemeOf {tokens : List Token} {written : List Lexeme}
    (read : tokens.mapM lexemeOf = some written) :
    ∀ lexeme ∈ written, lexeme.isEscaped = false := by
  induction tokens generalizing written with
  | nil =>
      cases read
      exact List.forall_mem_nil _
  | cons token tokens ih =>
      rcases mapM_cons_eq_some.mp read with ⟨lexeme, more, front, later, rfl⟩
      refine List.forall_mem_cons.mpr ⟨?_, ih later⟩
      cases token with
      | word | text =>
          cases front
          rfl
      | quoted name =>
          rw [lexemeOf] at front
          split_ifs at front
          cases front
          rfl
      | number spelled =>
          rcases Option.map_eq_some_iff.mp front with ⟨⟨lexeme', left⟩, number, rfl⟩
          unfold Lexical.number at number
          simp only at number
          split_ifs at number
          cases number
          rfl
      | punct punct =>
          rw [lexemeOf] at front
          split_ifs at front <;>
            · cases front
              rfl

omit [Unicode] [LawfulLetters] in
theorem length_of_mem_afterType {word : Str} (listed : word ∈ afterType) : 1 < word.length := by
  revert listed word
  decide

/-- A character that is no letter is no word at which the reader stops. -/
theorem not_afterType_of_not_isNameStart {c : Char} (noStart : isNameStart c = false) :
    afterType.contains (Str.toLowercase [c]) = false := by
  have one : (Str.toLowercase [c]).length = 1 := by
    rw [isNameStart, Bool.or_eq_false_iff] at noStart
    rw [Str.toLowercase, Str.toLowercaseAfter, Str.toLowercaseAfter, List.append_nil]
    split
    · split <;> rfl
    · rw [LawfulLetters.toLowercase_of_not_alphabetic c noStart.1]
      rfl
  rw [Bool.eq_false_iff, ne_eq, List.contains_iff_mem]
  intro listed
  have longer := length_of_mem_afterType listed
  omega

/-- A token that does not nest and is no word is written out as a lexeme that goes on. -/
theorem meetsEnd_cons {token : Token} (scanned : IsScanned token) {lexeme : Lexeme}
    (written : lexemeOf token = some lexeme) (opening : token ≠ .punct '(')
    (closing : token ≠ .punct ')') (noWord : ∀ word, token ≠ .word word) (depth : Nat)
    (more : List Lexeme) :
    meetsEnd depth (lexeme :: more) = meetsEnd depth more := by
  cases token with
  | word word => exact absurd rfl (noWord word)
  | text text =>
      cases written
      rfl
  | quoted name =>
      rw [lexemeOf] at written
      split_ifs at written
      cases written
      rfl
  | number spelled =>
      rcases Option.map_eq_some_iff.mp written with ⟨⟨lexeme', left⟩, number, rfl⟩
      unfold Lexical.number at number
      simp only at number
      split_ifs at number
      cases number
      rfl
  | punct punct =>
      have noOpening : punct ≠ '(' := by
        rintro rfl
        exact opening rfl
      have noClosing : punct ≠ ')' := by
        rintro rfl
        exact closing rfl
      rw [lexemeOf, if_neg noOpening, if_neg noClosing] at written
      split_ifs at written
      · cases written
        rfl
      · cases written
        rfl
      · cases written
        rw [meetsEnd, not_afterType_of_not_isNameStart scanned.2.2.2, Bool.and_false, Bool.false_or]

/-- The reader takes no word at which it stops. -/
theorem meetsEnd_of_takeInside {depth : Nat} {cursor : Cursor} {written : List Lexeme}
    (scanned : ∀ token ∈ cursor, IsScanned token)
    (read : (Cursor.takeInside afterType depth cursor).1.mapM lexemeOf = some written) :
    meetsEnd depth written = false := by
  fun_induction Cursor.takeInside afterType depth cursor generalizing written with
  | case1 | case3 | case5 | case7 =>
      cases read
      rfl
  | case2 depth rest taken left inner ih =>
      rcases mapM_cons_eq_some.mp read with ⟨lexeme, more, front, later, rfl⟩
      cases front
      rw [meetsEnd]
      refine ih (fun token mem => scanned token (List.mem_cons_of_mem _ mem)) ?_
      rw [inner]
      exact later
  | case4 depth rest deeper taken left inner ih =>
      rcases mapM_cons_eq_some.mp read with ⟨lexeme, more, front, later, rfl⟩
      cases front
      rw [meetsEnd]
      refine ih (fun token mem => scanned token (List.mem_cons_of_mem _ mem)) ?_
      rw [inner]
      exact later
  | case6 depth rest deeper taken left inner ih =>
      rcases mapM_cons_eq_some.mp read with ⟨lexeme, more, front, later, rfl⟩
      cases front
      change meetsEnd depth more = false
      refine ih (fun token mem => scanned token (List.mem_cons_of_mem _ mem)) ?_
      rw [inner]
      exact later
  | case8 depth rest word goesOn taken left inner ih =>
      rcases mapM_cons_eq_some.mp read with ⟨lexeme, more, front, later, rfl⟩
      cases front
      have lowered := (scanned _ List.mem_cons_self).2
      rw [meetsEnd, lowered, Bool.or_eq_false_iff]
      refine ⟨Bool.eq_false_iff.mpr goesOn, ?_⟩
      refine ih (fun token mem => scanned token (List.mem_cons_of_mem _ mem)) ?_
      rw [inner]
      exact later
  | case9 depth token rest taken left inner opening closing comma noWord ih =>
      rcases mapM_cons_eq_some.mp read with ⟨lexeme, more, front, later, rfl⟩
      rw [meetsEnd_cons (scanned token List.mem_cons_self) front opening closing noWord]
      refine ih (fun token mem => scanned token (List.mem_cons_of_mem _ mem)) ?_
      rw [inner]
      exact later

theorem meetsEnd_map_canonical (depth : Nat) (lexemes : List Lexeme) :
    meetsEnd depth (lexemes.map Lexeme.canonical) = meetsEnd depth lexemes := by
  induction lexemes generalizing depth with
  | nil => rfl
  | cons lexeme lexemes ih =>
      rw [List.map_cons]
      cases lexeme with
      | word spelled =>
          rw [Lexeme.canonical, meetsEnd, meetsEnd, ih, LawfulLetters.toLowercase_toLowercase]
      | opening => exact ih (depth + 1)
      | closing => exact ih (depth - 1)
      | quoted | text | escaped | number | comma | typecast | operator => exact ih depth

omit [LawfulLetters] in
theorem isEscaped_map_canonical {written lexemes : List Lexeme}
    (same : written.map Lexeme.canonical = lexemes.map Lexeme.canonical)
    (plain : ∀ lexeme ∈ written, lexeme.isEscaped = false) :
    ∀ lexeme ∈ lexemes, lexeme.isEscaped = false := by
  have kept (lexeme : Lexeme) : lexeme.canonical.isEscaped = lexeme.isEscaped := by
    cases lexeme <;> rfl
  intro lexeme mem
  have listed : lexeme.canonical ∈ written.map Lexeme.canonical := by
    rw [same]
    exact List.mem_map_of_mem mem
  rcases List.mem_map.mp listed with ⟨other, otherMem, equal⟩
  rw [← kept, ← equal, kept]
  exact plain other otherMem

def Event.asToken : Event → Option Token
  | token value => some value
  | _ => none

/-- The tokens from a text's place up to the end of its statement. -/
def restOfStatement (text : Str) : Cursor :=
  ((lex text).takeWhile fun event => event != .finish).filterMap Event.asToken

/-- What a column stores of the tokens behind `DEFAULT`. -/
def storedDefault (cursor : Cursor) : Option Str :=
  let (expression, _) := cursor.takeUntilSeparator afterType
  if expression.isEmpty then none else some (render expression)

/-- What may stand behind an expression: the end of its column, or another constraint of it. -/
def endsExpression : Cursor → Bool
  | [] => true
  | .punct punct :: _ => punct == ',' || punct == ')'
  | .word word :: _ => afterType.contains word
  | _ :: _ => false

/-- The lexemes are an expression, which is all of the text up to what is left of it. The words `AS`
and `ON` are reserved, so none starts with them. -/
structure IsExpression (text : Str) (lexemes : List Lexeme) (left : Str) : Prop where
  reads : Reads text lexemes left
  nonempty : lexemes ≠ []
  starts : ∀ spelled, lexemes.head? = some (.word spelled) →
    Str.toLowercase spelled ≠ "as".toList ∧ Str.toLowercase spelled ≠ "on".toList
  nested : wellNested 0 lexemes = true
  lettered : ∀ spelled, .word spelled ∈ lexemes → IsLettered spelled
  ends : endsExpression (restOfStatement left) = true

/-- The stored text reads as the lexemes, up to the case of words and the spelling of quotes. -/
def KeepsMeaning (stored : Option Str) (lexemes : List Lexeme) : Prop :=
  ∃ value written, stored = some value ∧ Reads value written [] ∧
    written.map Lexeme.canonical = lexemes.map Lexeme.canonical

omit [LawfulLetters] in
theorem restOfStatement_of_lex {text left : Str} {tokens : List Token}
    (read : lex text = tokens.map .token ++ lex left) :
    restOfStatement text = tokens ++ restOfStatement left := by
  have inside : ∀ event ∈ tokens.map Event.token, (event != .finish) = true := by
    intro event mem
    rcases List.mem_map.mp mem with ⟨token, -, rfl⟩
    rfl
  rw [restOfStatement, read, List.takeWhile_append_of_pos inside, List.filterMap_append,
    List.filterMap_map]
  exact congrArg (· ++ restOfStatement left) List.filterMap_some

theorem isScanned_of_mem_restOfStatement (text : Str) :
    ∀ token ∈ restOfStatement text, IsScanned token := by
  intro token mem
  rcases List.mem_filterMap.mp mem with ⟨event, eventMem, picked⟩
  cases event with
  | token token' =>
      cases picked
      exact isScanned_of_mem_lex ((List.takeWhile_prefix _).subset eventMem)
  | line | finish => cases picked

omit [Unicode] [LawfulLetters] in
theorem takeInside_of_endsExpression {cursor : Cursor} (ends : endsExpression cursor = true) :
    Cursor.takeInside afterType 0 cursor = ([], cursor) := by
  cases cursor with
  | nil => rfl
  | cons token cursor =>
      cases token with
      | word word =>
          have stops : afterType.contains word = true := ends
          rw [Cursor.takeInside, stops]
          rfl
      | punct punct =>
          have separates : (punct == ',' || punct == ')') = true := ends
          rw [Bool.or_eq_true, beq_iff_eq, beq_iff_eq] at separates
          rcases separates with rfl | rfl <;> rfl
      | quoted | text | number => cases ends

omit [LawfulLetters] in
/-- An expression that the reader takes whole is taken as the tokens that spell it. -/
theorem takeUntilSeparator_of_spelledBy {text left : Str} {lexemes : List Lexeme}
    {tokens : List Token} (expression : IsExpression text lexemes left)
    (spelled : SpelledBy lexemes tokens) (read : lex text = tokens.map .token ++ lex left)
    (goesOn : meetsEnd 0 lexemes = false) :
    (restOfStatement text).takeUntilSeparator afterType = (tokens, restOfStatement left) := by
  have inside : staysInside 0 tokens = true := by
    rw [staysInside_of_spelledBy spelled, expression.nested, goesOn]
    rfl
  rw [restOfStatement_of_lex read]
  exact takeInside_of_staysInside inside (takeInside_of_endsExpression expression.ends)

/-- What is stored of the tokens behind any `DEFAULT` reads as no constant with escapes, and as no
word outside the parentheses that ends an expression. -/
theorem plain_of_keepsMeaning {clause : Cursor} {lexemes : List Lexeme}
    (scanned : ∀ token ∈ clause, IsScanned token)
    (kept : KeepsMeaning (storedDefault clause) lexemes) :
    (∀ lexeme ∈ lexemes, lexeme.isEscaped = false) ∧ meetsEnd 0 lexemes = false := by
  rcases kept with ⟨value, written, stored, read, same⟩
  unfold storedDefault at stored
  simp only at stored
  split_ifs at stored
  cases stored
  have taken : ∀ token ∈ (clause.takeUntilSeparator afterType).1, IsScanned token := by
    intro token mem
    refine scanned token ?_
    rw [← Cursor.takeInside_append afterType 0 clause]
    exact List.mem_append_left _ mem
  have image := (reads_render taken written).mp read
  refine ⟨isEscaped_map_canonical same (isEscaped_of_mapM_lexemeOf image), ?_⟩
  rw [← meetsEnd_map_canonical, ← same, meetsEnd_map_canonical]
  exact meetsEnd_of_takeInside scanned image

/-- What the reader stores of an expression means the same exactly if no lexeme of it is cut and no
word outside its parentheses ends it. -/
theorem keepsMeaning_storedDefault_iff {text left : Str} {lexemes : List Lexeme}
    (expression : IsExpression text lexemes left) :
    KeepsMeaning (storedDefault (restOfStatement text)) lexemes ↔
      (∀ lexeme ∈ lexemes, lexeme.staysWhole = true) ∧ meetsEnd 0 lexemes = false := by
  constructor
  · intro kept
    rcases plain_of_keepsMeaning (isScanned_of_mem_restOfStatement text) kept with ⟨plain, goesOn⟩
    rcases spelledBy_of_reads expression.reads plain expression.lettered with
      ⟨tokens, spelled, lexed⟩
    have taken := takeUntilSeparator_of_spelledBy expression spelled lexed goesOn
    rcases kept with ⟨value, written, stored, read, same⟩
    rw [storedDefault, taken] at stored
    dsimp only at stored
    split_ifs at stored
    cases stored
    have scanned : ∀ token ∈ tokens, IsScanned token := by
      intro token mem
      refine isScanned_of_mem_restOfStatement text token ?_
      rw [restOfStatement_of_lex lexed]
      exact List.mem_append_left _ mem
    have image := (reads_render scanned written).mp read
    refine ⟨staysWhole_of_length_le spelled ?_, goesOn⟩
    -- there are as many tokens as lexemes written, and as many of these as lexemes read
    have images : tokens.length = written.length := length_of_mapM_lexemeOf image
    have lengths := congrArg List.length same
    rw [List.length_map, List.length_map] at lengths
    omega
  · rintro ⟨whole, goesOn⟩
    have plain : ∀ lexeme ∈ lexemes, lexeme.isEscaped = false := by
      intro lexeme mem
      have stays := whole lexeme mem
      cases lexeme with
      | escaped => cases stays
      | word | quoted | text | number | opening | closing | comma | typecast | operator => rfl
    rcases spelledBy_of_reads expression.reads plain expression.lettered with
      ⟨tokens, spelled, lexed⟩
    rcases exists_mapM_lexemeOf spelled whole with ⟨written, image, same⟩
    have taken := takeUntilSeparator_of_spelledBy expression spelled lexed goesOn
    have more : tokens ≠ [] := by
      rintro rfl
      have few := length_le_of_spelledBy spelled
      exact expression.nonempty (List.eq_nil_of_length_eq_zero (Nat.le_zero.mp few))
    have scanned : ∀ token ∈ tokens, IsScanned token := by
      intro token mem
      refine isScanned_of_mem_restOfStatement text token ?_
      rw [restOfStatement_of_lex lexed]
      exact List.mem_append_left _ mem
    refine ⟨render tokens, written, ?_, (reads_render scanned written).mpr image, same⟩
    rw [storedDefault, taken]
    exact if_neg (mt List.isEmpty_iff.mp more)

end

end SchemaForge.Sql
