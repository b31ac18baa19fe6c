import SchemaForge.Sql.Lexing

/-!
# How tokens are spelled

A token that is written out and followed by a character that cannot continue it
is read back as the same token. The lemmas of this file say so for each kind of
token; they are the rules by which a generated script is read symbolically.
-/

namespace SchemaForge.Sql

variable [Unicode]

open Scanner

/-- Characters that may follow any token without becoming part of it. -/
def isStop (c : Char) : Bool := ([' ', '\n', '(', ')', ',', ';'] : Str).contains c

/-- A text that ends the token before it. -/
def Stops (rest : Str) : Prop := ∀ c ∈ rest.head?, isStop c = true

omit [Unicode] in
@[simp]
theorem stops_nil : Stops [] := by simp [Stops]

omit [Unicode] in
@[simp]
theorem stops_cons {c : Char} {rest : Str} : Stops (c :: rest) ↔ isStop c = true := by simp [Stops]

/-- An ASCII word: a keyword or a bare identifier. -/
def isAsciiWord : Str → Bool
  | [] => false
  | c :: rest =>
      (c.isAlpha || c == '_') && rest.all fun c => c.isAlphanum || c == '_' || c == '$'

/-- A run of digits and points that starts with a digit. -/
def isNumeral : Str → Bool
  | [] => false
  | c :: rest => c.isDigit && rest.all fun c => c.isDigit || c == '.'

/-- An ASCII character that the scanner reads as a token of its own. -/
def isPunctuation (c : Char) : Bool :=
  c.toNat < 128 && !([';', '\'', '"'] : Str).contains c && !Str.isWhitespace c && !c.isDigit &&
    !c.isAlpha && c != '_'

theorem lexeme_of_ordinary {c : Char} (rest : Str)
    (ordinary : c ∉ ([';', '-', '/', '\'', '"', '$'] : Str)) :
    lexeme c rest = plainLexeme c rest := by
  simp only [List.mem_cons, List.not_mem_nil, or_false, not_or] at ordinary
  simp [lexeme, ordinary]

@[simp]
theorem lex_semicolon (rest : Str) : lex (';' :: rest) = .finish :: lex rest := by
  rw [lex_cons]
  simp [lexeme]

theorem lex_whitespace {c : Char} (rest : Str) (space : Str.isWhitespace c = true) :
    lex (c :: rest) = lex rest := by
  have ordinary : c ∉ ([';', '-', '/', '\'', '"', '$'] : Str) := by
    intro special
    simp only [List.mem_cons, List.not_mem_nil, or_false] at special
    rcases special with rfl | rfl | rfl | rfl | rfl | rfl <;> exact absurd space (by decide)
  rw [lex_cons, lexeme_of_ordinary rest ordinary]
  simp [plainLexeme, space]

@[simp]
theorem lex_space (rest : Str) : lex (' ' :: rest) = lex rest := lex_whitespace rest (by decide)

@[simp]
theorem lex_newline (rest : Str) : lex ('\n' :: rest) = lex rest := lex_whitespace rest (by decide)

/-- A comment line takes everything before the next line feed. -/
theorem lex_line {line rest : Str} (single : '\n' ∉ line) :
    lex ("--" ++ line ++ '\n' :: rest) = .line ("--" ++ line) :: lex rest := by
  have taken : (("--" : Str) ++ line ++ '\n' :: rest).takeWhile (· != '\n') = "--" ++ line := by
    rw [List.takeWhile_append_of_pos]
    · simp
    · intro c mem
      have : c ≠ '\n' := by
        rintro rfl
        simp [single] at mem
      simpa using this
  have shape : (("--" : Str) ++ line ++ '\n' :: rest) = '-' :: ('-' :: (line ++ '\n' :: rest)) :=
    rfl
  rw [shape] at taken ⊢
  rw [lex_cons]
  simp only [lexeme, taken]
  simp only [Char.reduceEq, if_false, decide_true, Bool.true_and]
  rw [if_pos (by simp), Option.toList_some, List.singleton_append, ← shape, List.drop_left,
    lex_newline]

theorem isNameStart_ascii {c : Char} (small : c.toNat < 128) :
    isNameStart c = (c.isAlpha || c == '_') := by
  rw [isNameStart, Unicode.isAlphabetic_ascii c small]

theorem isNameChar_ascii {c : Char} (small : c.toNat < 128) :
    isNameChar c = (c.isAlphanum || c == '_' || c == '$') := by
  rw [isNameChar, Str.isAlphanumeric, Unicode.isAlphabetic_ascii c small,
    Unicode.isNumeric_ascii c small, Char.isAlphanum]

omit [Unicode] in
/-- The ASCII letters, digits and the two name characters are below `U+0080`. -/
theorem small_of_nameChar {c : Char} (name : (c.isAlphanum || c == '_' || c == '$') = true) :
    c.toNat < 128 := by
  simp only [Bool.or_eq_true, beq_iff_eq, Char.isAlphanum, Str.isAlpha_iff, Str.isDigit_iff] at name
  rcases name with (alphanumeric | rfl) | rfl
  · omega
  · decide
  · decide

/-- No stop is part of a name. -/
theorem isNameChar_of_isStop {c : Char} (stop : isStop c = true) : isNameChar c = false := by
  have small : c.toNat < 128 ∧ (c.isAlphanum || c == '_' || c == '$') = false := by
    simp only [isStop, List.contains_eq_mem, List.mem_cons, List.not_mem_nil, or_false,
      decide_eq_true_eq] at stop
    rcases stop with rfl | rfl | rfl | rfl | rfl | rfl <;> decide
  rw [isNameChar_ascii small.1, small.2]

omit [Unicode] in
theorem takeWhile_append_of_stops {p : Char → Bool} {piece rest : Str}
    (inside : ∀ c ∈ piece, p c = true) (outside : ∀ c ∈ rest.head?, p c = false) :
    (piece ++ rest).takeWhile p = piece := by
  rw [List.takeWhile_append_of_pos inside]
  cases rest with
  | nil => simp
  | cons c rest => simp [outside c (by simp)]

omit [Unicode] in
theorem isAsciiWord_cons {c : Char} {tail : Str} (spelled : isAsciiWord (c :: tail) = true) :
    (c.isAlpha || c == '_') = true ∧
      ∀ d ∈ c :: tail, (d.isAlphanum || d == '_' || d == '$') = true := by
  simp only [isAsciiWord, Bool.and_eq_true, List.all_eq_true] at spelled
  obtain ⟨start, names⟩ := spelled
  refine ⟨start, fun d mem => ?_⟩
  rcases List.mem_cons.mp mem with rfl | mem
  · simp only [Bool.or_eq_true] at start ⊢
    rcases start with alpha | underscore
    · simp [Char.isAlphanum, alpha]
    · simp [underscore]
  · exact names d mem

/-- A run of name characters is a word, up to a character that cannot continue it. -/
theorem lex_nameRun {c : Char} {tail rest : Str} (start : isNameStart c = true)
    (solid : Str.isWhitespace c = false) (names : ∀ d ∈ tail, isNameChar d = true)
    (ends : ∀ d ∈ rest.head?, isNameChar d = false) :
    lex (c :: tail ++ rest) = .token (.word (Str.toLowercase (c :: tail))) :: lex rest := by
  have taken : (c :: tail ++ rest).takeWhile isNameChar = c :: tail :=
    takeWhile_append_of_stops
      (List.forall_mem_cons.mpr ⟨isNameChar_of_isNameStart start, names⟩) ends
  have letter {d : Char} (small : d.toNat < 128) (other : (d.isAlpha || d == '_') = false) :
      c ≠ d := by
    rintro rfl
    rw [isNameStart_ascii small, other] at start
    cases start
  have ordinary : c ∉ ([';', '-', '/', '\'', '"', '$'] : Str) := by
    intro special
    simp only [List.mem_cons, List.not_mem_nil, or_false] at special
    rcases special with same | same | same | same | same | same <;>
      exact letter (by decide) (by decide) same
  have nonDigit : c.isDigit = false := by
    rw [Bool.eq_false_iff, ne_eq, Str.isDigit_iff]
    intro range
    rw [isNameStart_ascii (by omega), Bool.or_eq_true, Str.isAlpha_iff, beq_iff_eq] at start
    rcases start with alpha | rfl
    · omega
    · exact absurd range (by decide)
  rw [List.cons_append] at taken ⊢
  rw [lex_cons, lexeme_of_ordinary _ ordinary]
  simp only [plainLexeme, solid, nonDigit, start, taken, Bool.false_eq_true, if_false, if_true,
    Option.toList_some, List.singleton_append]
  rw [← List.cons_append, List.drop_left]

theorem lex_word {word rest : Str} (spelled : isAsciiWord word = true) (stops : Stops rest) :
    lex (word ++ rest) = .token (.word (Str.toAsciiLowercase word)) :: lex rest := by
  rcases word with _ | ⟨c, tail⟩
  · simp [isAsciiWord] at spelled
  · obtain ⟨start, name⟩ := isAsciiWord_cons spelled
    have small : ∀ d ∈ c :: tail, d.toNat < 128 := fun d mem => small_of_nameChar (name d mem)
    have cSmall := small c (by simp)
    have solid : Str.isWhitespace c = false := by
      rw [Bool.eq_false_iff, ne_eq, Str.isWhitespace_iff_of_small cSmall]
      simp only [Bool.or_eq_true, Str.isAlpha_iff, beq_iff_eq] at start
      rcases start with alpha | rfl
      · omega
      · decide
    rw [lex_nameRun (by rw [isNameStart_ascii cSmall, start]) solid
      (fun d mem => by rw [isNameChar_ascii (small d (by simp [mem])), name d (by simp [mem])])
      fun d mem => isNameChar_of_isStop (stops d mem), Str.toLowercase_ascii small]

/-- A run of digits and points is a number, up to a character that cannot continue it. -/
theorem lex_digitRun {c : Char} {tail rest : Str} (digit : c.isDigit = true)
    (numeral : ∀ d ∈ tail, (d.isDigit || d == '.') = true)
    (ends : ∀ d ∈ rest.head?, (d.isDigit || d == '.') = false) :
    lex (c :: tail ++ rest) = .token (.number (c :: tail)) :: lex rest := by
  have taken : (c :: tail ++ rest).takeWhile (fun c => c.isDigit || c == '.') = c :: tail :=
    takeWhile_append_of_stops (List.forall_mem_cons.mpr ⟨by rw [digit, Bool.true_or], numeral⟩) ends
  have range := (Str.isDigit_iff c).mp digit
  have ordinary : c ∉ ([';', '-', '/', '\'', '"', '$'] : Str) := by
    intro special
    simp only [List.mem_cons, List.not_mem_nil, or_false] at special
    rcases special with rfl | rfl | rfl | rfl | rfl | rfl <;> exact absurd digit (by decide)
  have solid : Str.isWhitespace c = false := by
    rw [Bool.eq_false_iff, ne_eq, Str.isWhitespace_iff_of_small (by omega)]
    omega
  rw [List.cons_append] at taken ⊢
  rw [lex_cons, lexeme_of_ordinary _ ordinary]
  simp only [plainLexeme, solid, digit, taken, Bool.false_eq_true, if_false, if_true,
    Option.toList_some, List.singleton_append]
  rw [← List.cons_append, List.drop_left]

theorem lex_number {value rest : Str} (spelled : isNumeral value = true) (stops : Stops rest) :
    lex (value ++ rest) = .token (.number value) :: lex rest := by
  rcases value with _ | ⟨c, tail⟩
  · simp [isNumeral] at spelled
  · simp only [isNumeral, Bool.and_eq_true, List.all_eq_true] at spelled
    refine lex_digitRun spelled.1 spelled.2 fun d mem => ?_
    have stop := stops d mem
    simp only [isStop, List.contains_eq_mem, List.mem_cons, List.not_mem_nil, or_false,
      decide_eq_true_eq] at stop
    rcases stop with rfl | rfl | rfl | rfl | rfl | rfl <;> decide

omit [Unicode] in
theorem quotedRun_cons_of_ne {delimiter c : Char} (rest : Str) (other : c ≠ delimiter) :
    quotedRun delimiter (c :: rest) =
      (c :: (quotedRun delimiter rest).1, (quotedRun delimiter rest).2 + 1) := by
  rw [quotedRun.eq_def]
  simp [other]

omit [Unicode] in
/-- A text with its delimiters doubled, and closed, is read back as it was. -/
theorem quotedRun_double {delimiter : Char} {rest : Str} (value : Str)
    (closed : ∀ c ∈ rest.head?, c ≠ delimiter) :
    quotedRun delimiter (Str.double delimiter value ++ delimiter :: rest) =
      (value, (Str.double delimiter value).length + 1) := by
  induction value with
  | nil =>
      cases rest with
      | nil => simp [Str.double, quotedRun]
      | cons c rest => simp [Str.double, quotedRun, closed c (by simp)]
  | cons c value ih =>
      by_cases same : c = delimiter
      · subst same
        simp only [Str.double, List.flatMap_cons, if_true, List.cons_append, List.nil_append,
          quotedRun] at ih ⊢
        rw [ih]
        simp
      · have shape : Str.double delimiter (c :: value) = c :: Str.double delimiter value := by
          simp [Str.double, same]
        rw [shape, List.cons_append, quotedRun_cons_of_ne _ same, ih]
        simp

omit [Unicode] in
/-- The name of a layout line is read by the same rule. -/
theorem splitQuoted_double {rest : Str} (name : Str) (closed : ∀ c ∈ rest.head?, c ≠ '"') :
    splitQuoted (Str.double '"' name ++ '"' :: rest) = some (name, rest) := by
  induction name with
  | nil =>
      cases rest with
      | nil => simp [Str.double, splitQuoted]
      | cons c rest => simp [Str.double, splitQuoted, closed c (by simp)]
  | cons c name ih =>
      by_cases quote : c = '"'
      · subst quote
        have shape : Str.double '"' ('"' :: name) = '"' :: '"' :: Str.double '"' name := by
          simp [Str.double]
        rw [shape, List.cons_append, List.cons_append, splitQuoted, ih]
        rfl
      · have shape : Str.double '"' (c :: name) = c :: Str.double '"' name := by
          simp [Str.double, quote]
        rw [shape, List.cons_append, splitQuoted, ih]
        · rfl
        · simp [quote]
        · simp [quote]

theorem lex_quoted {rest : Str} (value : Str) (closed : ∀ c ∈ rest.head?, c ≠ '"') :
    lex ("\"" ++ Str.double '"' value ++ "\"" ++ rest) = .token (.quoted value) :: lex rest := by
  have shape : ("\"" ++ Str.double '"' value ++ "\"" ++ rest : Str) =
      '"' :: (Str.double '"' value ++ '"' :: rest) := by simp
  rw [shape, lex_cons]
  simp only [lexeme, quotedRun_double value closed]
  simp

theorem lex_text {rest : Str} (value : Str) (closed : ∀ c ∈ rest.head?, c ≠ '\'') :
    lex ("'" ++ Str.double '\'' value ++ "'" ++ rest) = .token (.text value) :: lex rest := by
  have shape : ("'" ++ Str.double '\'' value ++ "'" ++ rest : Str) =
      '\'' :: (Str.double '\'' value ++ '\'' :: rest) := by simp
  rw [shape, lex_cons]
  simp only [lexeme, quotedRun_double value closed]
  simp

omit [Unicode] in
theorem isPunctuation_iff {c : Char} : isPunctuation c = true ↔
    c.toNat < 128 ∧ c ∉ ([';', '\'', '"'] : Str) ∧ Str.isWhitespace c = false ∧
      c.isDigit = false ∧ (c.isAlpha || c == '_') = false := by
  simp [isPunctuation, and_assoc]

theorem plainLexeme_punct {c : Char} (rest : Str) (punctuation : isPunctuation c = true) :
    plainLexeme c rest = (some (.token (.punct c)), 1) := by
  obtain ⟨small, _, solid, nonDigit, noStart⟩ := isPunctuation_iff.mp punctuation
  simp [plainLexeme, solid, nonDigit, isNameStart_ascii small, noStart]

/-- Punctuation that starts no comment and no dollar quote may stand anywhere. -/
theorem lex_punct_of_ordinary {c : Char} (rest : Str) (punctuation : isPunctuation c = true)
    (ordinary : c ∉ ([';', '-', '/', '\'', '"', '$'] : Str)) :
    lex (c :: rest) = .token (.punct c) :: lex rest := by
  rw [lex_cons, lexeme_of_ordinary rest ordinary, plainLexeme_punct rest punctuation]
  simp

@[simp]
theorem lex_opening (rest : Str) : lex ('(' :: rest) = .token (.punct '(') :: lex rest :=
  lex_punct_of_ordinary rest (by decide) (by decide)

@[simp]
theorem lex_closing (rest : Str) : lex (')' :: rest) = .token (.punct ')') :: lex rest :=
  lex_punct_of_ordinary rest (by decide) (by decide)

@[simp]
theorem lex_comma (rest : Str) : lex (',' :: rest) = .token (.punct ',') :: lex rest :=
  lex_punct_of_ordinary rest (by decide) (by decide)

@[simp]
theorem lex_point (rest : Str) : lex ('.' :: rest) = .token (.punct '.') :: lex rest :=
  lex_punct_of_ordinary rest (by decide) (by decide)

theorem tagRun_of_stops {rest : Str} (stops : Stops rest) : tagRun rest = none := by
  cases rest with
  | nil => rfl
  | cons c rest =>
      rw [stops_cons] at stops
      have other : c ≠ '$' := by
        rintro rfl
        exact absurd stops (by decide)
      simp [tagRun, other, isNameChar_of_isStop stops]

omit [Unicode] in
/-- No two characters of which the second is not a stop stand before a stop. -/
theorem not_isPrefixOf_of_stops {c first second : Char} {rest : Str} (stops : Stops rest)
    (other : isStop second = false) : [first, second].isPrefixOf (c :: rest) = false := by
  rw [Bool.eq_false_iff, ne_eq, List.isPrefixOf_iff_prefix, List.cons_prefix_cons]
  rintro ⟨_, tail, shape⟩
  rw [← shape, List.singleton_append, stops_cons, other] at stops
  contradiction

/-- Punctuation is a token of its own where it opens no comment and no dollar quote. -/
theorem lex_punct_of_apart {c : Char} {rest : Str} (punctuation : isPunctuation c = true)
    (noLine : ("--" : Str).isPrefixOf (c :: rest) = false)
    (noBlock : ("/*" : Str).isPrefixOf (c :: rest) = false)
    (noTag : (if c = '$' then tagRun rest else none) = none) :
    lex (c :: rest) = .token (.punct c) :: lex rest := by
  obtain ⟨_, special, _⟩ := isPunctuation_iff.mp punctuation
  simp only [List.mem_cons, List.not_mem_nil, or_false, not_or] at special
  obtain ⟨semicolon, single, double⟩ := special
  have piece : lexeme c rest = (some (.token (.punct c)), 1) := by
    simp only [lexeme, semicolon, single, double, noLine, noBlock, noTag, if_false, Bool.and_false,
      Bool.false_eq_true, plainLexeme_punct rest punctuation]
  rw [lex_cons, piece]
  rfl

/-- Any punctuation followed by a stop is a token of its own. -/
theorem lex_punct {c : Char} {rest : Str} (punctuation : isPunctuation c = true)
    (stops : Stops rest) : lex (c :: rest) = .token (.punct c) :: lex rest := by
  refine lex_punct_of_apart punctuation (not_isPrefixOf_of_stops stops (by decide))
    (not_isPrefixOf_of_stops stops (by decide)) ?_
  rw [tagRun_of_stops stops, ite_self]

end SchemaForge.Sql
