import SchemaForge.Sql.Lexemes
import SchemaForge.Sql.Spelling
import SchemaForge.Sql.Table

/-!
# Lexemes as the scanner reads them

The scanner reads every lexeme that has no escapes as one token or as several, and
stops where the lexeme stops. It reads one token exactly if the lexeme is a word, a
quoted name, a constant on one line, a plain number, a parenthesis, a comma, or an
operator of one character.
-/

namespace SchemaForge.Sql

open Lexical

/-- What the documentation of the letter tables promises. -/
class LawfulLetters [Unicode] : Prop where
  isWhitespace_of_alphabetic : ∀ c : Char, Unicode.isAlphabetic c = true →
    Str.isWhitespace c = false
  mem_toLowercase : ∀ c : Char, 128 ≤ c.toNat → ∀ d ∈ Unicode.toLowercase c,
    d.isAlpha = true ∨ 128 ≤ d.toNat
  toLowercase_of_not_alphabetic : ∀ c : Char, Unicode.isAlphabetic c = false →
    Unicode.toLowercase c = [c]
  toLowercase_toLowercase : ∀ s : Str, Str.toLowercase (Str.toLowercase s) = Str.toLowercase s

theorem toLowercaseAfter_toLowercaseAfter_ascii (before before' s : Str) :
    @Str.toLowercaseAfter Unicode.ascii before' (@Str.toLowercaseAfter Unicode.ascii before s) =
      @Str.toLowercaseAfter Unicode.ascii before s := by
  have step (before rest : Str) (c : Char) :
      @Str.toLowercaseAfter Unicode.ascii before (c :: rest) =
      (if c = 'Σ' then
        if @Str.caseIgnorableThenCased Unicode.ascii before &&
          !@Str.caseIgnorableThenCased Unicode.ascii rest then
          ['ς'] else ['σ']
      else [c.toLower]) ++ @Str.toLowercaseAfter Unicode.ascii (c :: before) rest := rfl
  have lowered (c : Char) : c.toLower ≠ 'Σ' ∧ c.toLower.toLower = c.toLower ∨ c = 'Σ' := by
    by_cases sigma : c = 'Σ'
    · exact .inr sigma
    · left
      rcases Str.toLower_cases c with same | ⟨lower, upper, value⟩
      · rw [same]
        exact ⟨sigma, same⟩
      · refine ⟨?_, ?_⟩
        · intro same
          rw [same] at value
          have big : 'Σ'.toNat = 931 := rfl
          omega
        · rcases Str.toLower_cases c.toLower with same | ⟨lower', upper', -⟩
          · exact same
          · omega
  have once (c : Char) (rest before' : Str) (low : c ≠ 'Σ') (same : c.toLower = c)
      (ih : ∀ before', @Str.toLowercaseAfter Unicode.ascii before' rest = rest) :
      @Str.toLowercaseAfter Unicode.ascii before' (c :: rest) = c :: rest := by
    rw [step, if_neg low, ih]
    exact congrArg (· :: rest) same
  induction s generalizing before before' with
  | nil => rfl
  | cons c s ih =>
      rw [step]
      by_cases sigma : c = 'Σ'
      · rw [if_pos sigma]
        split
        · exact once 'ς' _ before' (by decide) (by decide) fun before' => ih _ _
        · exact once 'σ' _ before' (by decide) (by decide) fun before' => ih _ _
      · rcases lowered c with ⟨low, same⟩ | isSigma
        · rw [if_neg sigma]
          exact once c.toLower _ before' low same fun before' => ih _ _
        · exact absurd isSigma sigma

instance lawfulLetters_ascii : @LawfulLetters Unicode.ascii :=
  @LawfulLetters.mk Unicode.ascii
    (by
      intro c alphabetic
      have range := (Str.isAlpha_iff c).mp alphabetic
      rw [Bool.eq_false_iff, ne_eq, Str.isWhitespace_iff_of_small (by omega)]
      omega)
    (by
      intro c large d mem
      rw [List.mem_singleton.mp mem]
      rcases Str.toLower_cases c with same | ⟨_, _, _⟩
      · rw [same]
        exact .inr large
      · omega)
    (by
      intro c mark
      exact congrArg (fun d => [d]) (Str.toLower_of_not_isAlpha mark))
    (fun s => toLowercaseAfter_toLowercaseAfter_ascii [] [] s)

theorem quotedRun_of_delimited {delimiter : Char} {s value left : Str}
    (read : delimited delimiter false s = some (value, left)) :
    ∃ count, Scanner.quotedRun delimiter s = (value, count) ∧ s.drop count = left ∧
      ∀ c ∈ left.head?, c ≠ delimiter := by
  fun_induction delimited delimiter false s generalizing value left with
  | case1 => cases read
  | case2 =>
      cases read
      exact ⟨1, by simp [Scanner.quotedRun], rfl, by simp⟩
  | case3 c other => cases read
  | case4 rest ih =>
      rcases Option.map_eq_some_iff.mp read with ⟨⟨value', left'⟩, inner, same⟩
      cases same
      rcases ih inner with ⟨count, run, drops, ends⟩
      exact ⟨count + 2, by simp [Scanner.quotedRun, run], drops, ends⟩
  | case5 d rest other =>
      cases read
      exact ⟨1, by simp [Scanner.quotedRun, other], rfl, by simpa using other⟩
  | case6 c d rest other escape ih => simp at escape
  | case7 c d rest other escape ih =>
      rcases Option.map_eq_some_iff.mp read with ⟨⟨value', left'⟩, inner, same⟩
      cases same
      rcases ih inner with ⟨count, run, drops, ends⟩
      exact ⟨count + 1, by rw [quotedRun_cons_of_ne _ other, run], drops, ends⟩

section

variable [Unicode]

theorem lex_quote_of_delimited {s value left : Str}
    (read : delimited '\'' false s = some (value, left)) :
    lex ('\'' :: s) = .token (.text value) :: lex left := by
  rcases quotedRun_of_delimited read with ⟨count, run, drops, -⟩
  rw [lex_cons]
  simp [lexeme, run, drops]

theorem lex_doubleQuote_of_delimited {s value left : Str}
    (read : delimited '"' false s = some (value, left)) :
    lex ('"' :: s) = .token (.quoted value) :: lex left := by
  rcases quotedRun_of_delimited read with ⟨count, run, drops, -⟩
  rw [lex_cons]
  simp [lexeme, run, drops]

omit [Unicode] in
theorem isWhitespace_of_isBlank {c : Char} (blank : isBlank c = true) :
    Str.isWhitespace c = true := by
  simp only [isBlank, List.contains_eq_mem, List.mem_cons, List.not_mem_nil, or_false,
    decide_eq_true_eq] at blank
  rcases blank with rfl | rfl | rfl | rfl | rfl | rfl <;> decide

theorem lex_dropWhile_isBlank (s : Str) : lex (s.dropWhile isBlank) = lex s := by
  induction s with
  | nil => rfl
  | cons c rest ih =>
      rw [List.dropWhile_cons]
      split
      · rename_i blank
        rw [ih, lex_whitespace rest (isWhitespace_of_isBlank blank)]
      · rfl

theorem lex_of_continuation {s rest : Str} (goesOn : continuation s = some rest) :
    lex s = lex ('\'' :: rest) := by
  unfold continuation at goesOn
  split at goesOn
  · rename_i rest' shape
    split at goesOn
    · cases goesOn
      rw [← lex_dropWhile_isBlank, shape]
    · cases goesOn
  · cases goesOn

/-- Every segment of a constant is a text of its own. -/
theorem lex_constant {fuel : Nat} {s left : Str} {segments : List Str}
    (read : constant false fuel s = some (segments, left)) :
    segments ≠ [] ∧ lex ('\'' :: s) = (segments.map fun segment => .token (.text segment)) ++
      lex left := by
  induction fuel generalizing s segments with
  | zero => cases read
  | succ fuel ih =>
      rw [constant] at read
      split at read
      · cases read
      · rename_i value rest first
        split at read
        · cases read
          exact ⟨List.cons_ne_nil _ _, lex_quote_of_delimited first⟩
        · rename_i rest' goesOn
          rcases Option.map_eq_some_iff.mp read with ⟨⟨segments', left'⟩, inner, same⟩
          cases same
          refine ⟨List.cons_ne_nil _ _, ?_⟩
          rw [lex_quote_of_delimited first, lex_of_continuation goesOn, (ih inner).2]
          rfl

omit [Unicode] in
theorem untilDelimiter_of_before {delimiter s value left : Str}
    (read : before delimiter s = some (value, left)) :
    Scanner.untilDelimiter delimiter s = value ∧
      s.drop (value.length + delimiter.length) = left := by
  induction s generalizing value with
  | nil => cases read
  | cons c rest ih =>
      rw [before] at read
      rw [Scanner.untilDelimiter]
      split at read
      · rename_i found
        cases read
        rw [if_pos found]
        exact ⟨rfl, by rw [List.length_nil, Nat.zero_add]⟩
      · rename_i other
        rcases Option.map_eq_some_iff.mp read with ⟨⟨value', left'⟩, inner, same⟩
        cases same
        rcases ih inner with ⟨until_, drops⟩
        rw [if_neg other, until_, List.length_cons, Nat.add_right_comm, List.drop_succ_cons]
        exact ⟨rfl, drops⟩

theorem isNameChar_of_isDigit {c : Char} (digit : c.isDigit = true) : isNameChar c = true := by
  have range := (Str.isDigit_iff c).mp digit
  rw [isNameChar_ascii (by omega), Char.isAlphanum, digit]
  simp

theorem isNameChar_of_isLetter {c : Char} (letter : isLetter c = true) : isNameChar c = true :=
  isNameChar_of_isNameStart letter

theorem tagRun_append {tag body : Str} (names : ∀ c ∈ tag, isNameChar c = true) (bare : '$' ∉ tag) :
    Scanner.tagRun (tag ++ '$' :: body) = some tag := by
  induction tag with
  | nil => simp [Scanner.tagRun]
  | cons c tag ih =>
      rcases List.forall_mem_cons.mp names with ⟨name, names⟩
      rcases not_or.mp (mt List.mem_cons.mpr bare) with ⟨other, bare⟩
      rw [List.cons_append, Scanner.tagRun, if_neg (Ne.symm other), if_pos name, ih names bare]
      rfl

theorem lex_dollar_of_dollarQuoted {s value left : Str}
    (read : dollarQuoted s = some (value, left)) :
    lex ('$' :: s) = .token (.text value) :: lex left := by
  unfold dollarQuoted at read
  split at read
  · rename_i tag body shape
    split at read
    · rename_i tagged
      rw [List.span_eq_takeWhile_dropWhile, Prod.mk.injEq] at shape
      have text : s = tag ++ '$' :: body := by
        rw [← shape.1, ← shape.2, List.takeWhile_append_dropWhile]
      have bare : '$' ∉ tag := by
        intro mem
        rw [← shape.1] at mem
        exact absurd (List.mem_takeWhile_imp mem) (by decide)
      have names : ∀ c ∈ tag, isNameChar c = true := by
        intro c mem
        simp only [isTag, Bool.and_eq_true, List.all_eq_true, Bool.or_eq_true] at tagged
        rcases tagged.2 c mem with letter | digit
        · exact isNameChar_of_isLetter letter
        · exact isNameChar_of_isDigit digit
      rcases untilDelimiter_of_before read with ⟨until_, drops⟩
      subst text
      have opened : ('$' :: (tag ++ '$' :: body)).drop ("$" ++ tag ++ "$" : Str).length = body := by
        have split : ('$' :: (tag ++ '$' :: body)) = ("$" ++ tag ++ "$" : Str) ++ body := by simp
        rw [split, List.drop_left]
      rw [lex_cons]
      have piece : lexeme '$' (tag ++ '$' :: body) = (some (.token (.text value)),
          ("$" ++ tag ++ "$" : Str).length + value.length + ("$" ++ tag ++ "$" : Str).length) := by
        simp only [lexeme, Char.reduceEq, if_false, if_true, decide_false, Bool.false_and,
          Bool.false_eq_true, tagRun_append names bare, opened, until_]
      rw [piece, Nat.add_assoc, ← List.drop_drop, opened, drops]
      rfl
    · cases read
  · cases read

/-- A word of letters, digits, underscores and dollar signs. -/
def IsLettered (spelled : Str) : Prop :=
  ∀ c ∈ spelled, isLetter c = true ∨ c.isDigit = true ∨ c = '$'

theorem isIdentChar_of_isNameChar_ascii {c : Char} (name : isNameChar c = true) :
    isIdentChar c = true := by
  by_cases small : c.toNat < 128
  · rw [isNameChar_ascii small] at name
    simp only [Bool.or_eq_true, Char.isAlphanum, beq_iff_eq] at name
    simp only [isIdentChar, isIdentStart, Bool.or_eq_true, beq_iff_eq]
    tauto
  · simp [isIdentChar, isIdentStart, Nat.le_of_not_lt small]

theorem isNameChar_of_lettered {spelled : Str} (lettered : IsLettered spelled) {c : Char}
    (mem : c ∈ spelled) :
    isNameChar c = true := by
  rcases lettered c mem with letter | digit | rfl
  · exact isNameChar_of_isLetter letter
  · exact isNameChar_of_isDigit digit
  · simp [isNameChar]

omit [Unicode] in
/-- A character that starts a word and is a letter, a digit or a dollar sign is a letter. -/
theorem isDigit_of_isIdentStart {c : Char} (start : isIdentStart c = true) :
    c.isDigit = false ∧ c ≠ '$' := by
  simp only [isIdentStart, Bool.or_eq_true, Str.isAlpha_iff, beq_iff_eq, decide_eq_true_eq] at start
  constructor
  · rw [Bool.eq_false_iff, ne_eq, Str.isDigit_iff]
    rcases start with (alpha | rfl) | large
    · omega
    · decide
    · omega
  · rintro rfl
    revert start
    decide

theorem isWhitespace_of_isLetter [LawfulLetters] {c : Char} (letter : isLetter c = true) :
    Str.isWhitespace c = false := by
  simp only [isLetter, Bool.or_eq_true, beq_iff_eq] at letter
  rcases letter with alphabetic | rfl
  · exact LawfulLetters.isWhitespace_of_alphabetic c alphabetic
  · decide

omit [Unicode] in
theorem word_eq_some {c : Char} {rest left : Str} {lexeme : Lexeme}
    (read : word c rest = some (lexeme, left)) :
    (∃ segments, lexeme = .escaped segments) ∨
      (lexeme = .word ((c :: rest).takeWhile isIdentChar) ∧
        left = (c :: rest).dropWhile isIdentChar) := by
  unfold word at read
  split at read
  · rcases Option.map_eq_some_iff.mp read with ⟨⟨segments, left'⟩, -, same⟩
    cases same
    exact .inl ⟨segments, rfl⟩
  · split at read
    · cases read
    · cases read
      exact .inr ⟨rfl, rfl⟩

theorem lex_lettered [LawfulLetters] {c : Char} {rest : Str} (start : isIdentStart c = true)
    (lettered : IsLettered ((c :: rest).takeWhile isIdentChar)) :
    lex (c :: rest) = .token (.word (Str.toLowercase ((c :: rest).takeWhile isIdentChar))) ::
      lex ((c :: rest).dropWhile isIdentChar) := by
  have inside : isIdentChar c = true := by rw [isIdentChar, start, Bool.true_or, Bool.true_or]
  have ends : ∀ d ∈ ((c :: rest).dropWhile isIdentChar).head?, isNameChar d = false := by
    intro d mem
    rw [Bool.eq_false_iff]
    intro name
    have outside := List.head?_dropWhile_not isIdentChar (c :: rest)
    rw [Option.mem_def.mp mem] at outside
    change isIdentChar d = false at outside
    rw [isIdentChar_of_isNameChar_ascii name] at outside
    cases outside
  conv_lhs => rw [← List.takeWhile_append_dropWhile (p := isIdentChar) (l := c :: rest)]
  rw [List.takeWhile_cons_of_pos inside] at lettered ⊢
  have letter : isLetter c = true := by
    rcases lettered c List.mem_cons_self with letter | digit | dollar
    · exact letter
    · rw [(isDigit_of_isIdentStart start).1] at digit
      cases digit
    · exact absurd dollar (isDigit_of_isIdentStart start).2
  exact lex_nameRun letter (isWhitespace_of_isLetter letter)
    (fun d mem => isNameChar_of_lettered lettered (List.mem_cons_of_mem c mem)) ends

omit [Unicode] in
theorem isPunctuation_of_isOperatorChar {c : Char} (symbol : isOperatorChar c = true) :
    isPunctuation c = true ∧ c ≠ '$' := by
  simp only [isOperatorChar, isSpecialChar, List.contains_eq_mem, List.mem_cons,
    List.not_mem_nil, or_false, Bool.or_eq_true, decide_eq_true_eq] at symbol
  rcases symbol with (rfl | rfl | rfl | rfl | rfl | rfl | rfl | rfl | rfl | rfl) |
    (rfl | rfl | rfl | rfl | rfl | rfl | rfl) <;> decide

omit [Unicode] in
theorem opensComment_of_cons {c : Char} {rest : Str} (bare : opensComment (c :: rest) = false) :
    opensComment rest = false ∧ ¬ (c = '-' ∧ rest.head? = some '-') ∧
      ¬ (c = '/' ∧ rest.head? = some '*') := by
  rw [opensComment.eq_def] at bare
  split at bare
  · cases bare
  · cases bare
  · rename_i noLine noBlock same
    cases same
    refine ⟨bare, ?_, ?_⟩
    · rintro ⟨rfl, next⟩
      rcases List.head?_eq_some_iff.mp next with ⟨tail, rfl⟩
      exact noLine tail rfl rfl
    · rintro ⟨rfl, next⟩
      rcases List.head?_eq_some_iff.mp next with ⟨tail, rfl⟩
      exact noBlock tail rfl rfl
  · rename_i same
    cases same

/-- The characters of an operator are tokens of their own, up to where the run of them ends. -/
theorem lex_symbols {symbols more rest : Str}
    (inside : ∀ c ∈ symbols ++ more, isOperatorChar c = true)
    (outside : ∀ c ∈ rest.head?, isOperatorChar c = false)
    (bare : opensComment (symbols ++ more) = false) :
    lex (symbols ++ (more ++ rest)) = (symbols.map fun c => .token (.punct c)) ++
      lex (more ++ rest) := by
  induction symbols with
  | nil => rfl
  | cons c symbols ih =>
      rw [List.cons_append] at inside bare
      rcases List.forall_mem_cons.mp inside with ⟨symbol, inside⟩
      rcases opensComment_of_cons bare with ⟨bare, noLine, noBlock⟩
      -- what follows in the run or behind it makes no comment of the character
      have next {d : Char} (dSymbol : isOperatorChar d = true)
          (after : (symbols ++ (more ++ rest)).head? = some d) :
          (symbols ++ more).head? = some d := by
        rw [← List.append_assoc, List.head?_append] at after
        cases found : (symbols ++ more).head? with
        | some d' =>
            rw [found] at after
            exact after
        | none =>
            rw [found] at after
            have other := outside d after
            rw [dSymbol] at other
            cases other
      have apart {first second : Char} (dSymbol : isOperatorChar second = true)
          (noComment : ¬ (c = first ∧ (symbols ++ more).head? = some second)) :
          [first, second].isPrefixOf (c :: (symbols ++ (more ++ rest))) = false := by
        rw [Bool.eq_false_iff, ne_eq, List.isPrefixOf_iff_prefix, List.cons_prefix_cons]
        rintro ⟨rfl, tail, shape⟩
        refine noComment ⟨rfl, next dSymbol ?_⟩
        rw [← shape]
        rfl
      rcases isPunctuation_of_isOperatorChar symbol with ⟨punctuation, noDollar⟩
      rw [List.cons_append, lex_punct_of_apart punctuation (apart (by decide) noLine)
        (apart (by decide) noBlock) (if_neg noDollar), ih inside bare]
      rfl

omit [Unicode] in
theorem trimmed_prefix (run : Str) : trimmed run <+: run := by
  unfold trimmed
  split
  · exact List.prefix_refl run
  · conv_rhs => rw [← List.take_append_drop 1 run]
    exact (List.prefix_append_right_inj _).mpr (List.rdropWhile_prefix _ _)

omit [Unicode] in
theorem trimmed_ne_nil {run : Str} (more : run ≠ []) : trimmed run ≠ [] := by
  unfold trimmed
  split
  · exact more
  · cases run with
    | nil => exact absurd rfl more
    | cons c run => exact List.cons_ne_nil _ _

theorem lex_operator {s left : Str} {lexeme : Lexeme} (front : s.head?.any isOperatorChar = true)
    (read : operator s = some (lexeme, left)) :
    ∃ symbols, lexeme = .operator symbols ∧
      (symbols ≠ [] ∧ ∀ c ∈ symbols, isOperatorChar c = true) ∧
      lex s = (symbols.map fun c => .token (.punct c)) ++ lex left := by
  unfold operator at read
  simp only at read
  split at read
  · cases read
  · rename_i bare
    cases read
    have begun : s.takeWhile isOperatorChar ≠ [] := by
      cases s with
      | nil => cases front
      | cons c rest =>
          rw [List.takeWhile_cons_of_pos (p := isOperatorChar) front]
          exact List.cons_ne_nil _ _
    have nonempty := trimmed_ne_nil begun
    rcases trimmed_prefix (s.takeWhile isOperatorChar) with ⟨more, run⟩
    generalize trimmed (s.takeWhile isOperatorChar) = symbols at run nonempty
    have text : s = symbols ++ (more ++ s.dropWhile isOperatorChar) := by
      rw [← List.append_assoc, run, List.takeWhile_append_dropWhile]
    have rest : s.drop symbols.length = more ++ s.dropWhile isOperatorChar := by
      conv_lhs => rw [text]
      exact List.drop_left
    have inside : ∀ c ∈ symbols ++ more, isOperatorChar c = true := by
      rw [run]
      exact fun c mem => List.mem_takeWhile_imp mem
    have outside : ∀ c ∈ (s.dropWhile isOperatorChar).head?, isOperatorChar c = false := by
      intro c mem
      have other := List.head?_dropWhile_not isOperatorChar s
      rw [Option.mem_def.mp mem] at other
      exact other
    refine ⟨symbols, rfl, ⟨nonempty, fun c mem => inside c (List.mem_append_left more mem)⟩, ?_⟩
    rw [rest]
    conv_lhs => rw [text]
    exact lex_symbols inside outside (by rw [run]; exact Bool.eq_false_iff.mpr bare)

omit [Unicode] in
theorem head_dropWhile {p : Char → Bool} {s : Str} {c : Char} (mem : c ∈ (s.dropWhile p).head?) :
    p c = false := by
  have outside := List.head?_dropWhile_not p s
  rw [Option.mem_def.mp mem] at outside
  exact outside

/-- What the exponent of a number is made of. -/
inductive IsExponent : Str → Prop
  | none : IsExponent []
  | bare {e digit : Char} {digits : Str} (letter : e = 'e' ∨ e = 'E')
      (spelled : ∀ d ∈ digit :: digits, d.isDigit = true) : IsExponent (e :: digit :: digits)
  | signed {e sign digit : Char} {digits : Str} (letter : e = 'e' ∨ e = 'E')
      (signs : sign = '+' ∨ sign = '-') (spelled : ∀ d ∈ digit :: digits, d.isDigit = true) :
      IsExponent (e :: sign :: digit :: digits)

omit [Unicode] in
theorem exponent_spec (s : Str) :
    IsExponent (exponent s).1 ∧ (exponent s).1 ++ (exponent s).2 = s := by
  unfold exponent
  split
  · rename_i e sign digits
    split
    · rename_i letter
      split
      · rename_i digit
        rw [List.takeWhile_cons_of_pos digit, List.dropWhile_cons_of_pos digit]
        refine ⟨.bare letter ?_, ?_⟩
        · exact List.forall_mem_cons.mpr ⟨digit, fun d mem => List.mem_takeWhile_imp mem⟩
        · simp
      · split
        · rename_i signed
          rcases digits with _ | ⟨digit, digits⟩
          · cases signed.2
          · have first : digit.isDigit = true := signed.2
            rw [List.takeWhile_cons_of_pos first, List.dropWhile_cons_of_pos first]
            refine ⟨.signed letter signed.1 ?_, ?_⟩
            · exact List.forall_mem_cons.mpr ⟨first, fun d mem => List.mem_takeWhile_imp mem⟩
            · simp
        · exact ⟨.none, rfl⟩
    · exact ⟨.none, rfl⟩
  · exact ⟨.none, rfl⟩

omit [Unicode] in
theorem fraction_spec (s : Str) : (fraction s).1 ++ (fraction s).2 = s ∧
    (((fraction s).1 = [] ∧ s.head? ≠ some '.') ∨
      ∃ digits, (fraction s).1 = '.' :: digits ∧ ∀ d ∈ digits, d.isDigit = true) := by
  unfold fraction
  split
  · rename_i digits
    refine ⟨?_, .inr ⟨_, rfl, fun d mem => List.mem_takeWhile_imp mem⟩⟩
    rw [List.cons_append, List.takeWhile_append_dropWhile]
  · rename_i other
    refine ⟨rfl, .inl ⟨rfl, fun point => ?_⟩⟩
    rcases List.head?_eq_some_iff.mp point with ⟨tail, rfl⟩
    exact other tail rfl

/-- A token that neither nests nor ends an expression. -/
def IsInert : Token → Prop
  | .punct c => c ≠ '(' ∧ c ≠ ')' ∧ c ≠ ','
  | .word word => word ∉ afterType
  | _ => True

theorem isInert_exponentWord {e : Char} (letter : e = 'e' ∨ e = 'E') (digits : Str)
    (spelled : ∀ d ∈ digits, d.isDigit = true) :
    IsInert (.word (Str.toLowercase (e :: digits))) := by
  have small : ∀ d ∈ e :: digits, d.toNat < 128 := by
    refine List.forall_mem_cons.mpr ⟨?_, fun d mem => ?_⟩
    · rcases letter with rfl | rfl <;> decide
    · have range := (Str.isDigit_iff d).mp (spelled d mem)
      omega
  have lowered : ∃ digits', Str.toLowercase (e :: digits) = 'e' :: digits' := by
    rw [Str.toLowercase_ascii small]
    rcases letter with rfl | rfl
    · exact ⟨_, rfl⟩
    · exact ⟨_, rfl⟩
  rcases lowered with ⟨digits', same⟩
  rw [same]
  change _ ∉ afterType
  simp [afterType]

theorem lex_exponentWord {e : Char} (letter : e = 'e' ∨ e = 'E') (digits rest : Str)
    (spelled : ∀ d ∈ digits, d.isDigit = true) (ends : ∀ d ∈ rest.head?, isNameChar d = false) :
    lex (e :: digits ++ rest) = .token (.word (Str.toLowercase (e :: digits))) :: lex rest := by
  refine lex_nameRun ?_ ?_ (fun d mem => isNameChar_of_isDigit (spelled d mem)) ends
  · rcases letter with rfl | rfl
    · exact isNameStart_ascii (by decide)
    · exact isNameStart_ascii (by decide)
  · rcases letter with rfl | rfl <;> decide

theorem lex_sign {sign digit : Char} (rest : Str) (signs : sign = '+' ∨ sign = '-')
    (first : digit.isDigit = true) :
    lex (sign :: digit :: rest) = .token (.punct sign) :: lex (digit :: rest) := by
  have noDash : digit ≠ '-' := by
    rintro rfl
    revert first
    decide
  rcases signs with rfl | rfl
  · exact lex_punct_of_ordinary _ (by decide) (by decide)
  · have noLine : ("--" : Str).isPrefixOf ('-' :: digit :: rest) = false := by
      simp [List.isPrefixOf, noDash.symm]
    exact lex_punct_of_apart (by decide) noLine rfl (if_neg (by decide))

/-- What follows a number continues neither it nor a name. -/
def EndsNumber (left : Str) : Prop := ∀ c ∈ left.head?, isIdentChar c = false ∧ c ≠ '.'

theorem EndsNumber.name {left : Str} (ends : EndsNumber left) :
    ∀ c ∈ left.head?, isNameChar c = false := by
  intro c mem
  rw [Bool.eq_false_iff]
  intro name
  have other := (ends c mem).1
  rw [isIdentChar_of_isNameChar_ascii name] at other
  cases other

omit [Unicode] in
theorem EndsNumber.digit {left : Str} (ends : EndsNumber left) :
    ∀ c ∈ left.head?, (c.isDigit || c == '.') = false := by
  intro c mem
  rcases ends c mem with ⟨other, noPoint⟩
  simp only [isIdentChar, Bool.or_eq_false_iff] at other
  rw [other.1.2, Bool.false_or, beq_eq_false_iff_ne]
  exact noPoint

/-- The tokens of an exponent. -/
theorem lex_exponent {power left : Str} (spelled : IsExponent power) (ends : EndsNumber left) :
    ∃ tokens : List Token, lex (power ++ left) = tokens.map .token ++ lex left ∧
      (power = [] → tokens = []) ∧ (power ≠ [] → tokens ≠ []) ∧ ∀ token ∈ tokens,
      IsInert token := by
  cases spelled with
  | none => exact ⟨[], rfl, fun _ => rfl, fun more => absurd rfl more, nofun⟩
  | bare letter spelled =>
      refine ⟨[_], lex_exponentWord letter _ _ spelled ends.name, nofun, fun _ =>
        List.cons_ne_nil _ _, ?_⟩
      intro token mem
      rw [List.mem_singleton.mp mem]
      exact isInert_exponentWord letter _ spelled
  | signed letter signs spelled =>
      rename_i e sign digit digits
      have first : digit.isDigit = true := spelled digit List.mem_cons_self
      have ends' : ∀ d ∈ (sign :: digit :: digits ++ left).head?, isNameChar d = false := by
        intro d mem
        cases mem
        rcases signs with rfl | rfl
        · exact isNameChar_ascii (by decide)
        · exact isNameChar_ascii (by decide)
      have word : lex (e :: sign :: digit :: (digits ++ left)) =
          .token (.word (Str.toLowercase [e])) :: lex (sign :: digit :: (digits ++ left)) :=
        lex_exponentWord letter [] _ (List.forall_mem_nil _) ends'
      have number : lex (digit :: (digits ++ left)) =
          .token (.number (digit :: digits)) :: lex left :=
        lex_digitRun first
          (fun d mem => by rw [spelled d (List.mem_cons_of_mem _ mem), Bool.true_or]) ends.digit
      refine ⟨[.word (Str.toLowercase [e]), .punct sign, .number (digit :: digits)], ?_, nofun,
        fun _ => List.cons_ne_nil _ _, ?_⟩
      · change lex (e :: sign :: digit :: (digits ++ left)) = _
        rw [word, lex_sign _ signs first, number]
        rfl
      · simp only [List.mem_cons, List.not_mem_nil, or_false]
        rintro token (rfl | rfl | rfl)
        · exact isInert_exponentWord letter [] (List.forall_mem_nil _)
        · change sign ≠ '(' ∧ sign ≠ ')' ∧ sign ≠ ','
          rcases signs with rfl | rfl <;> decide
        · exact trivial

/-- A plain number is one token, any other one several. -/
theorem lex_parts {whole point power left : Str} (digits : ∀ d ∈ whole, d.isDigit = true)
    (pointed : point = [] ∨ ∃ tail, point = '.' :: tail ∧ ∀ d ∈ tail, d.isDigit = true)
    (spelled : IsExponent power) (ends : EndsNumber left)
    (front : whole ≠ [] ∨ ∃ d tail, point = '.' :: d :: tail) :
    ∃ tokens : List Token, lex (whole ++ point ++ (power ++ left)) = tokens.map .token ++ lex left ∧
      ((isNumeral (whole ++ point ++ power) = true ∧ tokens = [.number (whole ++ point ++ power)]) ∨
        (isNumeral (whole ++ point ++ power) = false ∧ 2 ≤ tokens.length ∧ ∀ token ∈ tokens,
          IsInert token)) := by
  rcases lex_exponent spelled ends with ⟨tokens, read, none, some, inert⟩
  have apart : ∀ c ∈ (power ++ left).head?, (c.isDigit || c == '.') = false := by
    cases spelled with
    | none => exact ends.digit
    | bare letter _ | signed letter _ _ =>
        intro c mem
        cases mem
        rcases letter with rfl | rfl <;> decide
  have numeral : ∀ d ∈ point, (d.isDigit || d == '.') = true := by
    rcases pointed with rfl | ⟨tail, rfl, tailDigits⟩
    · exact List.forall_mem_nil _
    · refine List.forall_mem_cons.mpr ⟨rfl, fun d mem => ?_⟩
      rw [tailDigits d mem, Bool.true_or]
  rcases whole with _ | ⟨c, whole⟩
  · rcases front with empty | ⟨d, tail, rfl⟩
    · exact absurd rfl empty
    · have first : d.isDigit = true ∧ ∀ e ∈ tail, e.isDigit = true := by
        rcases pointed with empty | ⟨tail', same, tailDigits⟩
        · cases empty
        · cases same
          exact List.forall_mem_cons.mp tailDigits
      refine ⟨.punct '.' :: .number (d :: tail) :: tokens, ?_, .inr ⟨rfl, ?_, ?_⟩⟩
      · change lex ('.' :: (d :: tail ++ (power ++ left))) = _
        rw [lex_point,
          lex_digitRun first.1 (fun e mem => by rw [first.2 e mem, Bool.true_or]) apart, read]
        rfl
      · exact Nat.le_add_left 2 tokens.length
      · refine List.forall_mem_cons.mpr ⟨?_, List.forall_mem_cons.mpr ⟨trivial, inert⟩⟩
        change ('.' : Char) ≠ '(' ∧ ('.' : Char) ≠ ')' ∧ ('.' : Char) ≠ ','
        decide
  · have first : c.isDigit = true := digits c List.mem_cons_self
    have tail : ∀ d ∈ whole ++ point, (d.isDigit || d == '.') = true := by
      refine List.forall_mem_append.mpr ⟨fun d mem => ?_, numeral⟩
      rw [digits d (List.mem_cons_of_mem c mem), Bool.true_or]
    have run : lex (c :: (whole ++ point) ++ (power ++ left)) =
        .token (.number (c :: (whole ++ point))) :: (tokens.map .token ++ lex left) := by
      rw [lex_digitRun first tail apart, read]
    refine ⟨.number (c :: (whole ++ point)) :: tokens, run, ?_⟩
    by_cases bare : power = []
    · subst power
      rw [none rfl, List.append_nil]
      refine .inl ⟨?_, rfl⟩
      rw [List.cons_append, isNumeral, first, Bool.true_and, List.all_eq_true]
      exact tail
    · refine .inr ⟨?_, ?_, List.forall_mem_cons.mpr ⟨trivial, inert⟩⟩
      · rw [Bool.eq_false_iff]
        intro isNumeral_
        rw [List.cons_append, List.cons_append, isNumeral, Bool.and_eq_true,
          List.all_eq_true] at isNumeral_
        cases spelled with
        | none => exact bare rfl
        | bare letter _ | signed letter _ _ =>
            have other := isNumeral_.2 _ (List.mem_append_right _ List.mem_cons_self)
            rcases letter with rfl | rfl
            · revert other
              decide
            · revert other
              decide
      · have more := List.length_pos_iff.mpr (some bare)
        rw [List.length_cons]
        omega

theorem lex_numberLexeme {c : Char} {rest left : Str} {lexeme : Lexeme}
    (front : c.isDigit = true ∨ (c = '.' ∧ rest.head?.any Char.isDigit = true))
    (read : number (c :: rest) = some (lexeme, left)) :
    ∃ spelled, ∃ tokens : List Token, lexeme = .number spelled ∧ lex (c :: rest) =
      tokens.map .token ++ lex left ∧
      ((isNumeral spelled = true ∧ tokens = [.number spelled]) ∨
        (isNumeral spelled = false ∧ 2 ≤ tokens.length ∧ ∀ token ∈ tokens, IsInert token)) := by
  unfold number at read
  simp only at read
  split at read
  · cases read
  · rename_i free
    cases read
    have ends : EndsNumber (exponent (fraction ((c :: rest).dropWhile Char.isDigit)).2).2 := by
      intro d mem
      rw [Option.mem_def.mp mem, Option.any_some, Bool.not_eq_true, Bool.or_eq_false_iff,
        beq_eq_false_iff_ne] at free
      exact free
    rcases exponent_spec (fraction ((c :: rest).dropWhile Char.isDigit)).2 with ⟨spelled, power⟩
    rcases fraction_spec ((c :: rest).dropWhile Char.isDigit) with ⟨point, pointed⟩
    have digits : ∀ d ∈ (c :: rest).takeWhile Char.isDigit, d.isDigit = true :=
      fun d mem => List.mem_takeWhile_imp mem
    have first : (c :: rest).takeWhile Char.isDigit ≠ [] ∨
        ∃ d tail, (fraction ((c :: rest).dropWhile Char.isDigit)).1 = '.' :: d :: tail := by
      rcases front with digit | ⟨rfl, next⟩
      · rw [List.takeWhile_cons_of_pos digit]
        exact .inl (List.cons_ne_nil _ _)
      · rcases rest with _ | ⟨d, tail⟩
        · cases next
        · have digit : d.isDigit = true := next
          refine .inr ⟨d, tail.takeWhile Char.isDigit, ?_⟩
          rw [List.dropWhile_cons_of_neg (by decide), fraction, List.takeWhile_cons_of_pos digit]
    rcases lex_parts digits (pointed.imp_left And.left) spelled ends first with ⟨tokens, read, kind⟩
    refine ⟨_, tokens, rfl, ?_, kind⟩
    rw [← read, power, List.append_assoc, point, List.takeWhile_append_dropWhile]

end

end SchemaForge.Sql
