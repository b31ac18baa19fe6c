import SchemaForge.Sql.Alignment

/-!
# Rendered tokens as PostgreSQL reads them

Every token that the scanner makes is written out as one lexeme, or as none. A
rendered list of tokens therefore reads as the lexemes of its tokens, one for each.
-/

namespace SchemaForge.Sql

open Lexical

variable [Unicode]

def IsScanned : Token → Prop
  | .word word =>
      (∃ c tail, word = c :: tail ∧ isIdentStart c = true ∧ ∀ d ∈ tail, isIdentChar d = true) ∧
      Str.toLowercase word = word
  | .number number => isNumeral number = true
  | .punct punct => punct ∉ ([';', '\'', '"'] : Str) ∧ Str.isWhitespace punct = false ∧
      punct.isDigit = false ∧ isNameStart punct = false
  | .quoted _ => True
  | .text _ => True

section Lowering

variable [LawfulLetters]

omit [Unicode] [LawfulLetters] in
theorem isIdentChar_of_isIdentStart {c : Char} (start : isIdentStart c = true) :
    isIdentChar c = true := by
  rw [isIdentChar, start, Bool.true_or, Bool.true_or]

omit [Unicode] [LawfulLetters] in
theorem isIdentStart_of_large {c : Char} (large : 128 ≤ c.toNat) : isIdentStart c = true := by
  rw [isIdentStart, decide_eq_true large, Bool.or_true]

omit [Unicode] [LawfulLetters] in
theorem isIdentChar_toLower {c : Char} (name : (c.isAlphanum || c == '_' || c == '$') = true) :
    isIdentChar c.toLower = true ∧
      ((c.isAlpha || c == '_') = true → isIdentStart c.toLower = true) := by
  rcases Str.toLower_cases c with same | ⟨_, _, value⟩
  · rw [same]
    simp only [isIdentChar, isIdentStart, Char.isAlphanum, Bool.or_eq_true] at name ⊢
    tauto
  · have alpha : c.toLower.isAlpha = true := (Str.isAlpha_iff _).mpr (by omega)
    have start : isIdentStart c.toLower = true := by
      rw [isIdentStart, alpha, Bool.true_or, Bool.true_or]
    exact ⟨isIdentChar_of_isIdentStart start, fun _ => start⟩

/-- What the lower case of a name's character is made of. -/
theorem toLowercaseAfter_cons {c : Char} (name : isNameChar c = true) (before rest : Str) :
    ∃ first more, Str.toLowercaseAfter before (c :: rest) =
        first :: more ++ Str.toLowercaseAfter (c :: before) rest ∧
      (∀ d ∈ first :: more, isIdentChar d = true) ∧
        (isNameStart c = true → isIdentStart first = true) := by
  rw [Str.toLowercaseAfter]
  by_cases sigma : c = 'Σ'
  · have final : isIdentStart 'ς' = true := isIdentStart_of_large (by decide)
    have inner : isIdentStart 'σ' = true := isIdentStart_of_large (by decide)
    rw [if_pos sigma]
    split
    · exact ⟨'ς', [], rfl, List.forall_mem_singleton.mpr (isIdentChar_of_isIdentStart final),
        fun _ => final⟩
    · exact ⟨'σ', [], rfl, List.forall_mem_singleton.mpr (isIdentChar_of_isIdentStart inner),
        fun _ => inner⟩
  · rw [if_neg sigma]
    by_cases small : c.toNat < 128
    · rw [Unicode.toLowercase_ascii c small]
      rw [isNameChar_ascii small] at name
      rcases isIdentChar_toLower name with ⟨inside, start⟩
      refine ⟨c.toLower, [], rfl, List.forall_mem_singleton.mpr inside, ?_⟩
      rw [isNameStart_ascii small]
      exact start
    · have starts : ∀ d ∈ Unicode.toLowercase c, isIdentStart d = true := by
        intro d mem
        rcases LawfulLetters.mem_toLowercase c (Nat.le_of_not_lt small) d mem with alpha | large
        · rw [isIdentStart, alpha, Bool.true_or, Bool.true_or]
        · exact isIdentStart_of_large large
      cases lowered : Unicode.toLowercase c with
      | nil => exact absurd lowered (Unicode.toLowercase_ne_nil c)
      | cons first more =>
          rw [lowered] at starts
          exact ⟨first, more, rfl, fun d mem => isIdentChar_of_isIdentStart (starts d mem),
            fun _ => starts first List.mem_cons_self⟩

theorem isIdentChar_of_mem_toLowercaseAfter {s : Str} (names : ∀ c ∈ s, isNameChar c = true)
    (before : Str) :
    ∀ d ∈ Str.toLowercaseAfter before s, isIdentChar d = true := by
  induction s generalizing before with
  | nil => exact List.forall_mem_nil _
  | cons c rest ih =>
      rcases List.forall_mem_cons.mp names with ⟨name, names⟩
      rcases toLowercaseAfter_cons name before rest with ⟨first, more, same, inside, -⟩
      rw [same]
      exact List.forall_mem_append.mpr ⟨inside, ih names _⟩

theorem isScanned_word {c : Char} {rest : Str} (start : isNameStart c = true) :
    IsScanned (.word (Str.toLowercase ((c :: rest).takeWhile isNameChar))) := by
  refine ⟨?_, LawfulLetters.toLowercase_toLowercase _⟩
  have name := isNameChar_of_isNameStart start
  rw [List.takeWhile_cons_of_pos name]
  rcases toLowercaseAfter_cons name [] (rest.takeWhile isNameChar) with
    ⟨first, more, same, inside, starts⟩
  refine ⟨first, _, same, starts start, ?_⟩
  refine List.forall_mem_append.mpr ⟨fun d mem => inside d (List.mem_cons_of_mem first mem), ?_⟩
  exact isIdentChar_of_mem_toLowercaseAfter (fun d mem => List.mem_takeWhile_imp mem) _

theorem isScanned_of_lexeme {c : Char} {rest : Str} {token : Token}
    (read : (lexeme c rest).1 = some (.token token)) : IsScanned token := by
  have plain (special : c ∉ ([';', '\'', '"'] : Str))
      (read : (plainLexeme c rest).1 = some (.token token)) : IsScanned token := by
    unfold plainLexeme at read
    split_ifs at read with space digit start
    · cases read
      change isNumeral _ = true
      rw [List.takeWhile_cons_of_pos (by rw [digit, Bool.true_or]), isNumeral, digit, Bool.true_and,
        List.all_eq_true]
      exact fun d mem => List.mem_takeWhile_imp (p := fun c : Char => c.isDigit || c == '.') mem
    · cases read
      exact isScanned_word start
    · cases read
      exact ⟨special, Bool.eq_false_iff.mpr space, Bool.eq_false_iff.mpr digit,
        Bool.eq_false_iff.mpr start⟩
  unfold lexeme at read
  split_ifs at read with semicolon line block single double
  · cases read
  · cases read
  · cases read
    trivial
  · cases read
    trivial
  · have special : c ∉ ([';', '\'', '"'] : Str) := by simp [semicolon, single, double]
    split at read
    · cases read
      trivial
    · exact plain special read
  · exact plain (by simp [semicolon, single, double]) read

theorem isScanned_of_mem_lex {s : Str} {token : Token} (mem : .token token ∈ lex s) :
    IsScanned token := by
  induction s using lex.induct with
  | case1 => simp at mem
  | case2 c rest ih =>
      rw [lex_cons, List.mem_append, Option.mem_toList] at mem
      rcases mem with here | later
      · exact isScanned_of_lexeme here
      · exact ih later

end Lowering

/-- The lexeme that a token is written out as. -/
def lexemeOf : Token → Option Lexeme
  | .word word => some (.word word)
  | .quoted name => if name.isEmpty then none else some (.quoted name)
  | .text text => some (.text [text])
  | .number spelled => (number spelled).map Prod.fst
  | .punct punct =>
      if punct = '(' then some .opening
      else if punct = ')' then some .closing
      else if punct = ',' then some .comma
      else if isOperatorChar punct then some (.operator [punct])
      else if 128 ≤ punct.toNat then some (.word [punct])
      else none

/-- What may stand behind a piece: nothing, or what no piece goes on with. -/
structure Divides (rest : Str) : Prop where
  head : ∀ c ∈ rest.head?, c ∈ ([' ', '(', ')', ','] : Str)
  noSegment : continuation rest = none

omit [Unicode] in
theorem Divides.other {rest : Str} (divides : Divides rest) {p : Char → Bool}
    (blank : p ' ' = false) (opening : p '(' = false) (closing : p ')' = false)
    (comma : p ',' = false) :
    ∀ c ∈ rest.head?, p c = false := by
  intro c mem
  have listed := divides.head c mem
  simp only [List.mem_cons, List.not_mem_nil, or_false] at listed
  rcases listed with rfl | rfl | rfl | rfl
  · exact blank
  · exact opening
  · exact closing
  · exact comma

omit [Unicode] in
theorem Divides.ne {rest : Str} (divides : Divides rest) {d : Char}
    (other : d ∉ ([' ', '(', ')', ','] : Str)) :
    rest.head? ≠ some d :=
  fun same => other (divides.head d same)

omit [Unicode] in
theorem delimited_double {delimiter : Char} {rest : Str} (value : Str)
    (closed : rest.head? ≠ some delimiter) :
    delimited delimiter false (Str.double delimiter value ++ delimiter :: rest) =
      some (value, rest) := by
  induction value with
  | nil =>
      cases rest with
      | nil => simp [Str.double, delimited]
      | cons c rest =>
          have other : c ≠ delimiter := by
            rintro rfl
            exact closed rfl
          simp [Str.double, delimited, other]
  | cons c value ih =>
      by_cases same : c = delimiter
      · subst same
        have shape : Str.double c (c :: value) = c :: c :: Str.double c value := by
          simp [Str.double]
        rw [shape, List.cons_append, List.cons_append, delimited, if_pos rfl, if_pos rfl, ih]
        rfl
      · have shape : Str.double delimiter (c :: value) = c :: Str.double delimiter value := by
          simp [Str.double, same]
        rw [shape, List.cons_append]
        cases front : Str.double delimiter value ++ delimiter :: rest with
        | nil => simp at front
        | cons d more =>
            rw [front] at ih
            rw [delimited, if_neg same, if_neg (by simp), ih]
            rfl

theorem next_text (text : Str) {rest : Str} (divides : Divides rest) :
    next ('\'' :: (Str.double '\'' text ++ '\'' :: rest)) = some (some (.text [text]), rest) := by
  have closed := delimited_double text (divides.ne (d := '\'') (by decide))
  rw [next, if_neg (by decide), if_pos rfl, constant, closed]
  simp only [divides.noSegment, Option.map_some]

theorem next_quoted (name : Str) {rest : Str} (divides : Divides rest) :
    next ('"' :: (Str.double '"' name ++ '"' :: rest)) =
      if name.isEmpty then none else some (some (.quoted name), rest) := by
  have closed := delimited_double name (divides.ne (d := '"') (by decide))
  rw [next, if_neg (by decide), if_neg (by decide), if_pos rfl, closed]

omit [Unicode] in
theorem span_of_outside {p : Char → Bool} {inside outside : Str} (each : ∀ c ∈ inside, p c = true)
    (ends : ∀ c ∈ outside.head?, p c = false) :
    (inside ++ outside).takeWhile p = inside ∧ (inside ++ outside).dropWhile p = outside := by
  refine ⟨takeWhile_append_of_stops each ends, ?_⟩
  rw [List.dropWhile_append_of_pos each]
  cases outside with
  | nil => rfl
  | cons c outside => rw [List.dropWhile_cons_of_neg (by rw [ends c rfl]; decide)]

omit [Unicode] in
theorem span_of_all {p : Char → Bool} {inside : Str} (each : ∀ c ∈ inside, p c = true) :
    inside.takeWhile p = inside ∧ inside.dropWhile p = [] := by
  have ends : ∀ c ∈ ([] : Str).head?, p c = false := by simp
  have span := span_of_outside each ends
  rw [List.append_nil] at span
  exact span

omit [Unicode] in
theorem exponent_of_ne {s : Str} (lower : s.head? ≠ some 'e') (upper : s.head? ≠ some 'E') :
    exponent s = ([], s) := by
  unfold exponent
  split
  · rename_i e sign digits
    have other : ¬ (e = 'e' ∨ e = 'E') := by
      rintro (rfl | rfl)
      · exact lower rfl
      · exact upper rfl
    rw [if_neg other]
  · rfl

omit [Unicode] in
theorem fraction_of_ne {s : Str} (noPoint : s.head? ≠ some '.') : fraction s = ([], s) := by
  unfold fraction
  split
  · exact absurd rfl noPoint
  · rfl

omit [Unicode] in
/-- A number is read from its whole digits, its fraction and what follows them. -/
theorem number_eq {whole s : Str} (digits : ∀ c ∈ whole, c.isDigit = true)
    (ends : ∀ c ∈ s.head?, c.isDigit = false) {point left : Str}
    (pointed : fraction s = (point, left)) (lower : left.head? ≠ some 'e')
    (upper : left.head? ≠ some 'E') :
    number (whole ++ s) = if left.head?.any fun c => isIdentChar c || c == '.' then none
      else some (.number (whole ++ point), left) := by
  rcases span_of_outside digits ends with ⟨taken, dropped⟩
  unfold number
  simp only [taken, dropped, pointed, exponent_of_ne lower upper, List.append_nil]

omit [Unicode] in
theorem Divides.noNumber {rest : Str} (divides : Divides rest) :
    (rest.head?.any fun c => isIdentChar c || c == '.') = false := by
  cases front : rest.head? with
  | none => rfl
  | some c => exact divides.other (p := fun c => isIdentChar c || c == '.') rfl rfl rfl rfl c front

omit [Unicode] in
theorem divides_nil : Divides [] := ⟨by simp, rfl⟩

omit [Unicode] in
theorem digit_or_point_of_isNumeral {spelled : Str} (numeral : isNumeral spelled = true) :
    ∀ c ∈ spelled, (c.isDigit || c == '.') = true := by
  cases spelled with
  | nil => exact List.forall_mem_nil _
  | cons c tail =>
      simp only [isNumeral, Bool.and_eq_true, List.all_eq_true] at numeral
      exact List.forall_mem_cons.mpr ⟨by rw [numeral.1, Bool.true_or], numeral.2⟩

omit [Unicode] in
/-- Digits and points are one number, unless they hold a second point. -/
theorem number_append {spelled rest : Str} (numeral : isNumeral spelled = true)
    (divides : Divides rest) :
    number (spelled ++ rest) = (number spelled).map fun read => (read.1, rest) := by
  have characters := digit_or_point_of_isNumeral numeral
  -- what is behind a run of digits is nothing, or begins with a point
  have split {s : Str} (characters : ∀ c ∈ s, (c.isDigit || c == '.') = true) :
      ∃ whole, (∀ c ∈ whole, c.isDigit = true) ∧
        (s = whole ∨ ∃ more, s = whole ++ '.' :: more) := by
    refine ⟨s.takeWhile Char.isDigit, fun c mem => List.mem_takeWhile_imp mem, ?_⟩
    cases behind : s.dropWhile Char.isDigit with
    | nil =>
        left
        conv_lhs =>
          rw [← List.takeWhile_append_dropWhile (p := Char.isDigit) (l := s), behind,
            List.append_nil]
    | cons c more =>
        right
        have other : c.isDigit = false := head_dropWhile (Option.mem_def.mpr (by rw [behind]; rfl))
        have mem : c ∈ s :=
          List.dropWhile_subset Char.isDigit (by rw [behind]; exact List.mem_cons_self)
        have point := characters c mem
        rw [other, Bool.false_or, beq_iff_eq] at point
        subst point
        refine ⟨more, ?_⟩
        conv_lhs => rw [← List.takeWhile_append_dropWhile (p := Char.isDigit) (l := s), behind]
  have noDigit : ∀ c ∈ rest.head?, c.isDigit = false := divides.other rfl rfl rfl rfl
  rcases split characters with ⟨whole, digits, rfl | ⟨fractional, rfl⟩⟩
  · have alone := number_eq (s := []) digits (by simp) rfl (by simp) (by simp)
    rw [List.append_nil] at alone
    rw [alone, number_eq digits noDigit (fraction_of_ne (divides.ne (by decide)))
      (divides.ne (by decide)) (divides.ne (by decide)), divides.noNumber]
    simp
  · rcases split fun c mem =>
      characters c (List.mem_append_right whole (List.mem_cons_of_mem '.' mem)) with
      ⟨digits', spelled, rfl | ⟨more, rfl⟩⟩
    · have alone : fraction ('.' :: fractional) = ('.' :: fractional, []) := by
        rcases span_of_all spelled with ⟨taken, dropped⟩
        rw [fraction, taken, dropped]
      have followed : fraction ('.' :: (fractional ++ rest)) = ('.' :: fractional, rest) := by
        rcases span_of_outside spelled noDigit with ⟨taken, dropped⟩
        rw [fraction, taken, dropped]
      have point : ∀ s : Str, ∀ c ∈ ('.' :: s).head?, c.isDigit = false := by
        rintro s c mem
        cases mem
        decide
      rw [number_eq digits (point _) alone (by simp) (by simp), List.append_assoc, List.cons_append,
        number_eq digits (point _) followed (divides.ne (by decide)) (divides.ne (by decide)),
        divides.noNumber]
      simp
    · have point : ∀ s : Str, ∀ c ∈ ('.' :: s).head?, c.isDigit = false := by
        rintro s c mem
        cases mem
        decide
      have second (tail : Str) : fraction ('.' :: (digits' ++ '.' :: tail)) =
          ('.' :: digits', '.' :: tail) := by
        rcases span_of_outside spelled (point tail) with ⟨taken, dropped⟩
        rw [fraction, taken, dropped]
      rw [number_eq digits (point _) (second more) (by simp) (by simp), List.append_assoc,
        List.cons_append, List.append_assoc, List.cons_append,
        number_eq digits (point _) (second (more ++ rest)) (by simp) (by simp)]
      simp

theorem next_number {spelled rest : Str} (numeral : isNumeral spelled = true)
    (divides : Divides rest) :
    next (spelled ++ rest) = (number spelled).map fun read => (some read.1, rest) := by
  have read := number_append numeral divides
  rcases spelled with _ | ⟨c, tail⟩
  · cases numeral
  · simp only [isNumeral, Bool.and_eq_true] at numeral
    have range := (Str.isDigit_iff c).mp numeral.1
    have other {d : Char} (noDigit : d.isDigit = false) : c ≠ d := by
      rintro rfl
      rw [numeral.1] at noDigit
      cases noDigit
    have noBlank : isBlank c = false := by
      rw [Bool.eq_false_iff]
      intro blank
      have space := isWhitespace_of_isBlank blank
      rw [Str.isWhitespace_iff_of_small (by omega)] at space
      omega
    rw [List.cons_append] at read ⊢
    rw [next, noBlank, if_neg Bool.false_ne_true, if_neg (other rfl), if_neg (other rfl),
      if_neg (other rfl), if_neg (other rfl), if_neg (other rfl), if_neg (other rfl),
      if_neg (other rfl), numeral.1, Bool.true_or, if_pos rfl, read, Option.map_map]
    rfl

omit [Unicode] in
theorem ne_of_isIdentStart {c d : Char} (start : isIdentStart c = true)
    (other : isIdentStart d = false) :
    c ≠ d := by
  rintro rfl
  rw [start] at other
  cases other

omit [Unicode] in
theorem isBlank_of_isIdentStart {c : Char} (start : isIdentStart c = true) : isBlank c = false := by
  rw [Bool.eq_false_iff]
  intro blank
  simp only [isBlank, List.contains_eq_mem, List.mem_cons, List.not_mem_nil, or_false,
    decide_eq_true_eq] at blank
  rcases blank with same | same | same | same | same | same <;>
    exact ne_of_isIdentStart start (by decide) same

omit [Unicode] in
/-- No quote follows a word, so no prefix makes it a constant. -/
theorem word_append {c : Char} {tail rest : Str} (start : isIdentStart c = true)
    (names : ∀ d ∈ tail, isIdentChar d = true) (divides : Divides rest) :
    word c (tail ++ rest) = some (.word (c :: tail), rest) := by
  have apart {d : Char} (noName : isIdentChar d = false)
      (noEnd : d ∉ ([' ', '(', ')', ','] : Str)) :
      (tail ++ rest).head? ≠ some d := by
    intro front
    cases tail with
    | nil => exact divides.ne noEnd front
    | cons e tail =>
        cases front
        rw [names d List.mem_cons_self] at noName
        cases noName
  have noQuote : (tail ++ rest).head? ≠ some '\'' := apart (by decide) (by decide)
  have noAmpersand {pair : Str} (opens : pair.head? = some '&') : (tail ++ rest).take 2 ≠ pair := by
    intro front
    refine apart (d := '&') (by decide) (by decide) ?_
    rw [← opens, ← front, List.head?_take, if_neg (by decide)]
  have noOther : opensOther c (tail ++ rest) = false := by
    rw [opensOther, beq_eq_false_iff_ne.mpr noQuote, Bool.and_false, Bool.false_or,
      beq_eq_false_iff_ne.mpr (noAmpersand rfl), beq_eq_false_iff_ne.mpr (noAmpersand rfl),
      Bool.or_false, Bool.and_false]
  have inside : ∀ d ∈ c :: tail, isIdentChar d = true :=
    List.forall_mem_cons.mpr ⟨isIdentChar_of_isIdentStart start, names⟩
  have ends : ∀ d ∈ rest.head?, isIdentChar d = false := divides.other rfl rfl rfl rfl
  rcases span_of_outside inside ends with ⟨taken, dropped⟩
  rw [List.cons_append] at taken dropped
  rw [word, if_neg (fun quoted => noQuote quoted.2), noOther, if_neg Bool.false_ne_true,
    taken, dropped]

theorem next_word {c : Char} {tail rest : Str} (start : isIdentStart c = true)
    (names : ∀ d ∈ tail, isIdentChar d = true) (divides : Divides rest) :
    next (c :: tail ++ rest) = some (some (.word (c :: tail)), rest) := by
  have other {d : Char} (noStart : isIdentStart d = false) : c ≠ d :=
    ne_of_isIdentStart start noStart
  have noPoint : (c == '.') = false := beq_eq_false_iff_ne.mpr (other rfl)
  rw [List.cons_append, next, isBlank_of_isIdentStart start, if_neg Bool.false_ne_true,
    if_neg (other rfl), if_neg (other rfl), if_neg (other rfl), if_neg (other rfl),
    if_neg (other rfl), if_neg (other rfl), if_neg (other rfl), (isDigit_of_isIdentStart start).1,
    noPoint, Bool.false_and, Bool.false_or, if_neg Bool.false_ne_true, if_pos start,
    word_append start names divides]
  rfl

omit [Unicode] in
theorem operator_append {c : Char} {rest : Str} (symbol : isOperatorChar c = true)
    (divides : Divides rest) :
    operator (c :: rest) = some (.operator [c], rest) := by
  have ends : ∀ d ∈ rest.head?, isOperatorChar d = false := divides.other rfl rfl rfl rfl
  have taken : (c :: rest).takeWhile isOperatorChar = [c] :=
    @takeWhile_append_of_stops isOperatorChar [c] rest (List.forall_mem_singleton.mpr symbol) ends
  have bare : opensComment [c] = false := by
    rw [opensComment.eq_def]
    split
    · cases ‹[c] = _›
    · cases ‹[c] = _›
    · cases ‹[c] = _›
      rfl
    · rfl
  have whole : trimmed [c] = [c] := by
    unfold trimmed
    split
    · rfl
    · rfl
  unfold operator
  simp only [taken, bare, whole, Bool.false_eq_true, if_false, List.length_singleton,
    List.drop_succ_cons, List.drop_zero]

theorem dollarQuoted_of_divides {rest : Str} (divides : Divides rest) :
    dollarQuoted rest = none := by
  unfold dollarQuoted
  rw [List.span_eq_takeWhile_dropWhile]
  split
  · rename_i tag body shape
    split
    · rename_i tagged
      exfalso
      rw [Prod.mk.injEq] at shape
      simp only [isTag, Bool.and_eq_true] at tagged
      cases rest with
      | nil => cases shape.2
      | cons c rest =>
          have noDollar : (c != '$') = true := by
            have other := divides.ne (d := '$') (by decide)
            rw [bne_iff_ne]
            rintro rfl
            exact other rfl
          rw [List.takeWhile_cons_of_pos (p := fun c => c != '$') noDollar] at shape
          have first : isLetter c = true := by
            rw [← shape.1] at tagged
            exact tagged.1
          have mem := divides.head c rfl
          simp only [List.mem_cons, List.not_mem_nil, or_false] at mem
          rcases mem with rfl | rfl | rfl | rfl
          · rw [isLetter, Unicode.isAlphabetic_ascii _ (by decide)] at first
            cases first
          · rw [isLetter, Unicode.isAlphabetic_ascii _ (by decide)] at first
            cases first
          · rw [isLetter, Unicode.isAlphabetic_ascii _ (by decide)] at first
            cases first
          · rw [isLetter, Unicode.isAlphabetic_ascii _ (by decide)] at first
            cases first
    · rfl
  · rfl

theorem next_opening (rest : Str) : next ('(' :: rest) = some (some .opening, rest) := by
  rw [next, if_neg (by decide), if_neg (by decide), if_neg (by decide),
    if_neg (by decide), if_pos rfl]

theorem next_punct {punct : Char} {rest : Str} (scanned : IsScanned (.punct punct))
    (divides : Divides rest) :
    next (punct :: rest) = (lexemeOf (.punct punct)).map fun lexeme => (some lexeme, rest) := by
  rcases scanned with ⟨special, solid, noDigit, noStart⟩
  simp only [List.mem_cons, List.not_mem_nil, or_false, not_or] at special
  have noBlank : isBlank punct = false := by
    rw [Bool.eq_false_iff]
    intro blank
    rw [isWhitespace_of_isBlank blank] at solid
    cases solid
  have noFraction : (punct == '.' && rest.head?.any Char.isDigit) = false := by
    cases front : rest.head? with
    | none => rw [Option.any_none, Bool.and_false]
    | some c =>
        rw [Option.any_some, divides.other (p := Char.isDigit) rfl rfl rfl rfl c front, Bool.and_false]
  rw [next, noBlank, if_neg Bool.false_ne_true, if_neg special.2.1, if_neg special.2.2, lexemeOf]
  by_cases dollar : punct = '$'
  · subst dollar
    rw [if_pos rfl, dollarQuoted_of_divides divides]
    rfl
  rw [if_neg dollar]
  by_cases opening : punct = '('
  · rw [if_pos opening, if_pos opening]
    rfl
  rw [if_neg opening, if_neg opening]
  by_cases closing : punct = ')'
  · rw [if_pos closing, if_pos closing]
    rfl
  rw [if_neg closing, if_neg closing]
  by_cases comma : punct = ','
  · rw [if_pos comma, if_pos comma]
    rfl
  rw [if_neg comma, if_neg comma]
  by_cases colon : punct = ':'
  · subst colon
    rw [if_pos rfl, if_neg (divides.ne (by decide))]
    rfl
  rw [if_neg colon, noDigit, noFraction, Bool.or_false, if_neg Bool.false_ne_true]
  by_cases large : 128 ≤ punct.toNat
  · have noSymbol : isOperatorChar punct = false := by
      rw [Bool.eq_false_iff]
      intro symbol
      have small := (isPunctuation_iff.mp (isPunctuation_of_isOperatorChar symbol).1).1
      omega
    have start : isIdentStart punct = true := isIdentStart_of_large large
    have read : word punct rest = some (.word [punct], rest) :=
      word_append start (List.forall_mem_nil _) divides
    rw [if_pos start, read, noSymbol, if_neg Bool.false_ne_true, if_pos large]
    rfl
  · have noIdent : isIdentStart punct = false := by
      rw [isNameStart_ascii (Nat.lt_of_not_le large)] at noStart
      rw [isIdentStart, noStart, decide_eq_false large, Bool.or_false]
    rw [noIdent, if_neg Bool.false_ne_true]
    by_cases symbol : isOperatorChar punct = true
    · rw [if_pos symbol, if_pos symbol, operator_append symbol divides]
      rfl
    · rw [if_neg symbol, if_neg symbol, if_neg large]
      rfl

theorem next_piece {token : Token} (scanned : IsScanned token) {rest : Str}
    (follows : piece token = ['('] ∨ Divides rest) :
    next (piece token ++ rest) = (lexemeOf token).map fun lexeme => (some lexeme, rest) := by
  by_cases opening : token = .punct '('
  · subst opening
    exact next_opening rest
  have divides : Divides rest := by
    rcases follows with parenthesis | divides
    · exfalso
      cases token with
      | word word =>
          rcases scanned.1 with ⟨c, tail, rfl, start, -⟩
          cases parenthesis
          revert start
          decide
      | number number =>
          cases parenthesis
          revert scanned
          change isNumeral ['('] ≠ true
          decide
      | quoted name => simp [piece] at parenthesis
      | text text => simp [piece] at parenthesis
      | punct punct =>
          cases parenthesis
          exact opening rfl
    · exact divides
  cases token with
  | word word =>
      rcases scanned.1 with ⟨c, tail, rfl, start, names⟩
      exact next_word start names divides
  | number spelled =>
      rw [lexemeOf, Option.map_map]
      exact next_number scanned divides
  | quoted name =>
      have read := next_quoted name divides
      have shape : piece (.quoted name) ++ rest = '"' :: (Str.double '"' name ++ '"' :: rest) :=
        by simp [piece]
      rw [shape, read, lexemeOf]
      split <;> rfl
  | text text =>
      have shape : piece (.text text) ++ rest = '\'' :: (Str.double '\'' text ++ '\'' :: rest) :=
        by simp [piece]
      rw [shape, next_text text divides]
      rfl
  | punct punct => exact next_punct scanned divides

/--
The pieces of the tokens with what joins them, behind a place that needs no space or may need one.
-/
def spaced (tight : Bool) : List Token → Str
  | [] => []
  | token :: tokens =>
      (if tight || ([[')'], [','], ['(']] : List Str).contains (piece token) then [] else [' ']) ++
        (piece token ++ spaced (piece token == ['(']) tokens)

/--
A piece is more than nothing, does not begin with a blank, and is a parenthesis if it ends in one.
-/
theorem piece_shape {token : Token} (scanned : IsScanned token) :
    (∃ c tail, piece token = c :: tail ∧ isBlank c = false) ∧
      ((piece token).getLast? = some '(' ↔ piece token = ['(']) := by
  have inside {p : Char → Bool} {s : Str} (each : ∀ c ∈ s, p c = true) (other : p '(' = false) :
      s.getLast? = some '(' ↔ s = ['('] := by
    constructor
    · intro last
      rw [each '(' (List.mem_of_getLast? last)] at other
      cases other
    · rintro rfl
      rfl
  cases token with
  | word word =>
      rcases scanned.1 with ⟨c, tail, rfl, start, names⟩
      refine ⟨⟨c, tail, rfl, isBlank_of_isIdentStart start⟩, ?_⟩
      exact inside (List.forall_mem_cons.mpr ⟨isIdentChar_of_isIdentStart start, names⟩) rfl
  | number number =>
      cases number with
      | nil => cases scanned
      | cons c tail =>
          have numeral : isNumeral (c :: tail) = true := scanned
          simp only [isNumeral, Bool.and_eq_true, List.all_eq_true] at numeral
          refine ⟨⟨c, tail, rfl, ?_⟩, ?_⟩
          · rw [Bool.eq_false_iff]
            intro blank
            have range := (Str.isDigit_iff c).mp numeral.1
            have space := isWhitespace_of_isBlank blank
            rw [Str.isWhitespace_iff_of_small (by omega)] at space
            omega
          · exact inside (p := fun c => c.isDigit || c == '.')
              (digit_or_point_of_isNumeral scanned) rfl
  | quoted name =>
      refine ⟨⟨'"', _, rfl, rfl⟩, ?_⟩
      rw [piece, List.getLast?_append_of_ne_nil _ (by simp)]
      simp
  | text text =>
      refine ⟨⟨'\'', _, rfl, rfl⟩, ?_⟩
      rw [piece, List.getLast?_append_of_ne_nil _ (by simp)]
      simp
  | punct punct =>
      refine ⟨⟨punct, [], rfl, ?_⟩, ?_⟩
      · rw [Bool.eq_false_iff]
        intro blank
        have solid := scanned.2.1
        rw [isWhitespace_of_isBlank blank] at solid
        cases solid
      · simp [piece]

omit [Unicode] in
theorem joint_eq (out written : Str) :
    joint out written = if (out.isEmpty || out.getLast? == some '(') ||
      ([[')'], [','], ['(']] : List Str).contains written then [] else [' '] := by
  unfold joint
  cases out.isEmpty with
  | true => rfl
  | false =>
      cases ([[')'], [','], ['(']] : List Str).contains written with
      | true => simp
      | false => by_cases last : out.getLast? = some '(' <;> simp [last]

/-- A rendered list, from the left. -/
theorem render_eq_spaced {tokens : List Token} (scanned : ∀ token ∈ tokens, IsScanned token) :
    render tokens = spaced true tokens := by
  have general (out : Str) :
      tokens.foldl (fun out token => out ++ joint out (piece token) ++ piece token) out =
      out ++ spaced (out.isEmpty || out.getLast? == some '(') tokens := by
    induction tokens generalizing out with
    | nil => exact (List.append_nil out).symm
    | cons token tokens ih =>
        rcases List.forall_mem_cons.mp scanned with ⟨first, scanned⟩
        rcases piece_shape first with ⟨⟨c, tail, shape, -⟩, last⟩
        have more : piece token ≠ [] := by
          rw [shape]
          exact List.cons_ne_nil c tail
        have tight : ((out ++ joint out (piece token) ++ piece token).isEmpty ||
            (out ++ joint out (piece token) ++ piece token).getLast? == some '(') =
              (piece token == ['(']) := by
          have nonempty : (out ++ joint out (piece token) ++ piece token).isEmpty = false := by
            rw [List.isEmpty_eq_false_iff]
            exact List.append_ne_nil_of_right_ne_nil _ more
          rw [nonempty, Bool.false_or, List.getLast?_append_of_ne_nil _ more,
            Bool.eq_iff_iff, beq_iff_eq, beq_iff_eq]
          exact last
        rw [List.foldl_cons, ih scanned, tight, spaced, joint_eq, List.append_assoc,
          List.append_assoc]
  exact general []

theorem divides_spaced {tokens : List Token} (scanned : ∀ token ∈ tokens, IsScanned token) :
    Divides (spaced false tokens) := by
  cases tokens with
  | nil => exact divides_nil
  | cons token tokens =>
      rcases piece_shape (scanned token List.mem_cons_self) with ⟨⟨c, tail, shape, solid⟩, -⟩
      rw [spaced, Bool.false_or]
      by_cases separator : ([[')'], [','], ['(']] : List Str).contains (piece token) = true
      · rw [if_pos separator, List.nil_append]
        simp only [List.contains_eq_mem, List.mem_cons, List.not_mem_nil, or_false,
          decide_eq_true_eq] at separator
        rcases separator with same | same | same
        · rw [same]
          exact ⟨by simp, rfl⟩
        · rw [same]
          exact ⟨by simp, rfl⟩
        · rw [same]
          exact ⟨by simp, rfl⟩
      · rw [if_neg separator, shape]
        refine ⟨by simp, ?_⟩
        -- the one blank is no line break
        change continuation (' ' :: c :: (tail ++ _)) = none
        have dropped (rest : Str) : (' ' :: c :: rest).dropWhile isBlank = c :: rest := by
          rw [List.dropWhile_cons_of_pos rfl,
            List.dropWhile_cons_of_neg (by rw [solid]; exact Bool.false_ne_true)]
        have taken (rest : Str) : (' ' :: c :: rest).takeWhile isBlank = [' '] := by
          rw [List.takeWhile_cons_of_pos rfl,
            List.takeWhile_cons_of_neg (by rw [solid]; exact Bool.false_ne_true)]
        rw [continuation, dropped, taken]
        split
        · rfl
        · rfl

omit [Unicode] in
theorem mapM_cons_eq_some {tokens : List Token} {token : Token} {lexemes : List Lexeme} :
    (token :: tokens).mapM lexemeOf = some lexemes ↔
      ∃ lexeme more, lexemeOf token = some lexeme ∧ tokens.mapM lexemeOf = some more ∧
        lexemes = lexeme :: more := by
  rw [List.mapM_cons, Option.bind_eq_bind, Option.bind_eq_some_iff]
  constructor
  · rintro ⟨lexeme, written, later⟩
    rcases Option.bind_eq_some_iff.mp later with ⟨more, rest, same⟩
    cases same
    exact ⟨lexeme, more, written, rest, rfl⟩
  · rintro ⟨lexeme, more, written, rest, rfl⟩
    exact ⟨lexeme, written, Option.bind_eq_some_iff.mpr ⟨more, rest, rfl⟩⟩

/-- A rendered list reads as the lexemes of its tokens, if each of them is one. -/
theorem reads_spaced {tokens : List Token} (scanned : ∀ token ∈ tokens, IsScanned token)
    (tight : Bool) (lexemes : List Lexeme) : Reads (spaced tight tokens) lexemes [] ↔
      tokens.mapM lexemeOf = some lexemes := by
  induction tokens generalizing tight lexemes with
  | nil =>
      rw [spaced, reads_nil_iff, List.mapM_nil, Option.pure_def, Option.some_inj, eq_comm]
  | cons token tokens ih =>
      rcases List.forall_mem_cons.mp scanned with ⟨first, scanned⟩
      have follows : piece token = ['('] ∨ Divides (spaced (piece token == ['(']) tokens) := by
        by_cases opening : piece token = ['(']
        · exact .inl opening
        · rw [beq_eq_false_iff_ne.mpr opening]
          exact .inr (divides_spaced scanned)
      have front := next_piece first follows
      have unspaced : Reads (spaced tight (token :: tokens)) lexemes [] ↔
          Reads (piece token ++ spaced (piece token == ['(']) tokens) lexemes [] := by
        rw [spaced]
        split
        · rfl
        · exact reads_blank_iff rfl
      rw [unspaced, mapM_cons_eq_some]
      cases written : lexemeOf token with
      | none =>
          rw [written] at front
          rcases piece_shape first with ⟨⟨c, tail, shape, -⟩, -⟩
          rw [iff_false_left (not_reads front (by rw [shape]; exact List.cons_ne_nil _ _) lexemes)]
          rintro ⟨lexeme, more, found, -⟩
          cases found
      | some lexeme =>
          rw [written] at front
          rw [reads_cons_iff front]
          constructor
          · rintro ⟨more, rfl, after⟩
            exact ⟨lexeme, more, rfl, (ih scanned _ more).mp after, rfl⟩
          · rintro ⟨found, more, same, after, rfl⟩
            cases same
            exact ⟨more, rfl, (ih scanned _ more).mpr after⟩

theorem reads_render {tokens : List Token} (scanned : ∀ token ∈ tokens, IsScanned token)
    (lexemes : List Lexeme) : Reads (render tokens) lexemes [] ↔
      tokens.mapM lexemeOf = some lexemes := by
  rw [render_eq_spaced scanned]
  exact reads_spaced scanned true lexemes

end SchemaForge.Sql
