import SchemaForge.Sql.Script

/-!
# Texts that close their quotes

A text that opens no comment and holds no semicolon is read as tokens only. What
follows it is read apart from it exactly if every quote that it opens is closed
in it: a quote that is left open takes the rest of the script.
-/

namespace SchemaForge.Sql

open Scanner

/-- The delimiter comes, and is not doubled. -/
def closesRun (delimiter : Char) : Str → Bool
  | [] => false
  | c :: rest =>
      if c = delimiter then
        match rest with
        | d :: rest => if d = delimiter then closesRun delimiter rest else true
        | [] => true
      else closesRun delimiter rest

variable [Unicode]

/-- The places of a text where its pieces start: a character, and what follows it. -/
def pieces (s : Str) : List (Char × Str) :=
  match s with
  | [] => []
  | c :: rest => (c, rest) :: pieces ((c :: rest).drop (lexeme c rest).2)
termination_by s.length
decreasing_by
  have := lexeme_pos c rest
  simp only [List.length_drop, List.length_cons]
  omega

omit [Unicode] in
/-- A semicolon or a comment starts here. -/
def breaksOff (piece : Char × Str) : Bool :=
  piece.1 == ';' || ("--" : Str).isPrefixOf (piece.1 :: piece.2) || ("/*" : Str).isPrefixOf
    (piece.1 :: piece.2)

/-- The quote that starts here, if there is one, is closed. -/
def closes (piece : Char × Str) : Bool :=
  if piece.1 = '\'' ∨ piece.1 = '"' then closesRun piece.1 piece.2
  else
    match if piece.1 = '$' then tagRun piece.2 else none with
    | some tag =>
        let body := (piece.1 :: piece.2).drop ("$" ++ tag ++ "$" : Str).length
        (untilDelimiter ("$" ++ tag ++ "$") body).length < body.length
    | none => true

/-- No semicolon and no comment is in the text. -/
def isUnbroken (s : Str) : Bool := (pieces s).all fun piece => !breaksOff piece

/-- Every quote of the text is closed. -/
def isClosed (s : Str) : Bool := (pieces s).all closes

theorem pieces_nil : pieces [] = [] := by
  rw [pieces]

theorem pieces_cons (c : Char) (rest : Str) :
    pieces (c :: rest) = (c, rest) :: pieces ((c :: rest).drop (lexeme c rest).2) := by
  rw [pieces]

theorem isUnbroken_cons {c : Char} {rest : Str} : isUnbroken (c :: rest) = true ↔
    breaksOff (c, rest) = false ∧ isUnbroken ((c :: rest).drop (lexeme c rest).2) = true := by
  rw [isUnbroken, pieces_cons, List.all_cons, Bool.and_eq_true, Bool.not_eq_true']
  rfl

theorem isClosed_cons {c : Char} {rest : Str} : isClosed (c :: rest) = true ↔
    closes (c, rest) = true ∧ isClosed ((c :: rest).drop (lexeme c rest).2) = true := by
  rw [isClosed, pieces_cons, List.all_cons, Bool.and_eq_true]
  rfl

section Following

variable {rest after : Str}

omit [Unicode] in
theorem quotedRun_append {delimiter : Char} (closed : closesRun delimiter rest = true)
    (apart : ∀ c ∈ after.head?, c ≠ delimiter) :
    quotedRun delimiter (rest ++ after) = quotedRun delimiter rest ∧ (quotedRun delimiter rest).2 ≤
      rest.length := by
  fun_induction closesRun delimiter rest with
  | case1 => contradiction
  | case2 rest ih =>
      rcases ih closed with ⟨same, bound⟩
      simp only [List.cons_append, quotedRun, if_true, same, List.length_cons]
      exact ⟨trivial, by omega⟩
  | case3 d rest other =>
      simp [quotedRun, other]
  | case4 =>
      cases after with
      | nil => simp [quotedRun]
      | cons d after =>
          have other := apart d rfl
          simp [quotedRun, other]
  | case5 c rest other ih =>
      rcases ih closed with ⟨same, bound⟩
      rw [List.cons_append, quotedRun_cons_of_ne _ other, quotedRun_cons_of_ne _ other, same]
      exact ⟨rfl, Nat.succ_le_succ bound⟩

omit [Unicode] in
/-- A quote that is not closed takes everything in which its delimiter does not come. -/
theorem quotedRun_open {delimiter : Char} (isOpen : closesRun delimiter rest = false)
    (none : delimiter ∉ after) :
    (quotedRun delimiter (rest ++ after)).2 = (rest ++ after).length := by
  fun_induction closesRun delimiter rest with
  | case1 =>
      induction after with
      | nil => rfl
      | cons c after ih =>
          rw [List.mem_cons, not_or] at none
          rw [List.nil_append, quotedRun_cons_of_ne _ (Ne.symm none.1)]
          exact congrArg Nat.succ (ih none.2)
  | case2 rest ih =>
      simp only [List.cons_append, quotedRun, if_true, ih isOpen, List.length_cons]
  | case3 => contradiction
  | case4 => contradiction
  | case5 c rest other ih =>
      rw [List.cons_append, quotedRun_cons_of_ne _ other, ih isOpen]
      rfl

theorem tagRun_append_of_stops (stops : Stops after) : tagRun (rest ++ after) = tagRun rest := by
  induction rest with
  | nil => exact tagRun_of_stops stops
  | cons c rest ih => rw [List.cons_append, tagRun, tagRun, ih]

theorem length_of_tagRun {tag : Str} (found : tagRun rest = some tag) :
    tag.length < rest.length := by
  induction rest generalizing tag with
  | nil => cases found
  | cons c rest ih =>
      rw [tagRun] at found
      split_ifs at found
      · cases found
        exact Nat.succ_pos _
      · rcases Option.map_eq_some_iff.mp found with ⟨more, later, rfl⟩
        exact Nat.succ_lt_succ (ih later)

theorem isNameChar_of_mem_tagRun {tag : Str} (found : tagRun rest = some tag) :
    ∀ c ∈ tag, isNameChar c = true := by
  induction rest generalizing tag with
  | nil => cases found
  | cons c rest ih =>
      rw [tagRun] at found
      split_ifs at found with dollar name
      · cases found
        intro d mem
        cases mem
      · rcases Option.map_eq_some_iff.mp found with ⟨more, later, rfl⟩
        exact List.forall_mem_cons.mpr ⟨name, ih later⟩

/-- No stop is part of the delimiter of a dollar quote. -/
theorem isStop_of_mem_delimiter {tag : Str} (found : tagRun rest = some tag) :
    ∀ c ∈ ("$" ++ tag ++ "$" : Str), isStop c = false := by
  intro c mem
  by_contra stop
  rw [Bool.not_eq_false] at stop
  have mem : c = '$' ∨ c ∈ tag := by
    simp only [List.mem_append] at mem
    rcases mem with (first | inside) | last
    · exact .inl (List.mem_singleton.mp first)
    · exact .inr inside
    · exact .inl (List.mem_singleton.mp last)
  rcases mem with rfl | inside
  · exact absurd stop (by decide)
  · have name := isNameChar_of_mem_tagRun found c inside
    rw [isNameChar_of_isStop stop] at name
    cases name

omit [Unicode] in
theorem isPrefixOf_append_of_stops {delimiter : Str} (solid : ∀ c ∈ delimiter, isStop c = false)
    (stops : Stops after) : delimiter.isPrefixOf (rest ++ after) = delimiter.isPrefixOf rest := by
  induction rest generalizing delimiter with
  | nil =>
      cases delimiter with
      | nil => rfl
      | cons d delimiter =>
          cases after with
          | nil => rfl
          | cons c after =>
              have other : d ≠ c := by
                rintro rfl
                have stop := solid d List.mem_cons_self
                rw [stops d rfl] at stop
                cases stop
              simp [List.isPrefixOf, other]
  | cons c rest ih =>
      cases delimiter with
      | nil => rfl
      | cons d delimiter =>
          rw [List.cons_append, List.isPrefixOf, List.isPrefixOf,
            ih fun e mem => solid e (List.mem_cons_of_mem _ mem)]

omit [Unicode] in
theorem untilDelimiter_append {delimiter : Str} (solid : ∀ c ∈ delimiter, isStop c = false)
    (stops : Stops after) (closed : (untilDelimiter delimiter rest).length < rest.length) :
    untilDelimiter delimiter (rest ++ after) = untilDelimiter delimiter rest := by
  induction rest with
  | nil => contradiction
  | cons c rest ih =>
      have same := @isPrefixOf_append_of_stops (c :: rest) after delimiter solid stops
      rw [List.cons_append] at same ⊢
      rw [untilDelimiter, same, untilDelimiter]
      rw [untilDelimiter] at closed
      split_ifs at closed ⊢ with here
      · rfl
      · rw [ih (Nat.lt_of_succ_lt_succ closed)]

omit [Unicode] in
theorem untilDelimiter_fits {delimiter : Str}
    (closed : (untilDelimiter delimiter rest).length < rest.length) :
    (untilDelimiter delimiter rest).length + delimiter.length ≤ rest.length := by
  induction rest with
  | nil => contradiction
  | cons c rest ih =>
      rw [untilDelimiter] at closed ⊢
      split_ifs at closed ⊢ with here
      · rw [List.length_nil, Nat.zero_add]
        exact (List.isPrefixOf_iff_prefix.mp here).length_le
      · have fits := ih (Nat.lt_of_succ_lt_succ closed)
        simp only [List.length_cons]
        omega

omit [Unicode] in
theorem untilDelimiter_open {delimiter : Str} (solid : ∀ c ∈ delimiter, isStop c = false)
    (stops : Stops after) (isOpen : ¬(untilDelimiter delimiter rest).length < rest.length)
    {c : Char} (mem : c ∈ delimiter) (none : c ∉ after) :
    untilDelimiter delimiter (rest ++ after) = rest ++ after := by
  have nowhere {s : Str} (none : c ∉ s) : untilDelimiter delimiter s = s := by
    induction s with
    | nil => rfl
    | cons d s ih =>
        rw [untilDelimiter, if_neg, ih fun later => none (List.mem_cons_of_mem _ later)]
        intro here
        exact none ((List.isPrefixOf_iff_prefix.mp here).subset mem)
  induction rest with
  | nil => exact nowhere none
  | cons d rest ih =>
      have same := @isPrefixOf_append_of_stops (d :: rest) after delimiter solid stops
      rw [untilDelimiter] at isOpen
      rw [List.cons_append] at same ⊢
      rw [untilDelimiter, same]
      split_ifs at isOpen ⊢ with here
      · exact absurd (Nat.succ_pos _) isOpen
      · rw [ih fun less => isOpen (Nat.succ_lt_succ less)]

end Following

section Pieces

variable {c : Char} {rest after : Str}

omit [Unicode] in
theorem takeWhile_append_of_none {p : Char → Bool} (outside : ∀ d ∈ after.head?, p d = false) :
    (rest ++ after).takeWhile p = rest.takeWhile p := by
  induction rest with
  | nil =>
      cases after with
      | nil => rfl
      | cons d after => rw [List.nil_append, List.takeWhile_cons, outside d rfl]; rfl
  | cons d rest ih => rw [List.cons_append, List.takeWhile_cons, List.takeWhile_cons, ih]

theorem plainLexeme_append (stops : Stops after) :
    plainLexeme c (rest ++ after) = plainLexeme c rest := by
  have digits : ∀ d ∈ after.head?, (d.isDigit || d == '.') = false := by
    intro d mem
    have stop := stops d mem
    simp only [isStop, List.contains_eq_mem, List.mem_cons, List.not_mem_nil, or_false,
      decide_eq_true_eq] at stop
    rcases stop with rfl | rfl | rfl | rfl | rfl | rfl <;> decide
  have names : ∀ d ∈ after.head?, isNameChar d = false :=
    fun d mem => isNameChar_of_isStop (stops d mem)
  have number := @takeWhile_append_of_none (c :: rest) after _ digits
  have name := @takeWhile_append_of_none (c :: rest) after _ names
  rw [List.cons_append] at number name
  rw [plainLexeme, plainLexeme, number, name]

theorem plainLexeme_le (c : Char) (rest : Str) : (plainLexeme c rest).2 ≤ (c :: rest).length := by
  unfold plainLexeme
  split_ifs
  · exact Nat.succ_pos _
  · exact (List.takeWhile_prefix _).length_le
  · exact (List.takeWhile_prefix _).length_le
  · exact Nat.succ_pos _

omit [Unicode] in
/-- What starts no comment starts none with a stop behind it. -/
theorem breaksOff_append (whole : breaksOff (c, rest) = false) (stops : Stops after) :
    breaksOff (c, rest ++ after) = false := by
  have line : ("--" : Str).isPrefixOf (c :: (rest ++ after)) = ("--" : Str).isPrefixOf
      (c :: rest) :=
    @isPrefixOf_append_of_stops (c :: rest) after _ (by simp [isStop]) stops
  have block : ("/*" : Str).isPrefixOf (c :: (rest ++ after)) = ("/*" : Str).isPrefixOf
      (c :: rest) :=
    @isPrefixOf_append_of_stops (c :: rest) after _ (by simp [isStop]) stops
  rw [breaksOff] at whole ⊢
  rw [line, block]
  exact whole

omit [Unicode] in
theorem breaksOff_eq_false_iff : breaksOff (c, rest) = false ↔
    c ≠ ';' ∧ ("--" : Str).isPrefixOf (c :: rest) = false ∧ ("/*" : Str).isPrefixOf
      (c :: rest) = false := by
  simp only [breaksOff, Bool.or_eq_false_iff, beq_eq_false_iff_ne, ne_eq, and_assoc]

/-- What is neither a semicolon nor a comment. -/
theorem lexeme_of_whole (whole : breaksOff (c, rest) = false) : lexeme c rest =
    if c = '\'' then (some (.token (.text (quotedRun '\'' rest).1)), (quotedRun '\'' rest).2 + 1)
    else if c =
      '"' then (some (.token (.quoted (quotedRun '"' rest).1)), (quotedRun '"' rest).2 + 1)
    else (if c = '$' then tagRun rest else none).elim (plainLexeme c rest) fun tag =>
      let delimiter : Str := "$" ++ tag ++ "$"
      let value := untilDelimiter delimiter ((c :: rest).drop delimiter.length)
      (some (.token (.text value)), delimiter.length + value.length + delimiter.length) := by
  rcases breaksOff_eq_false_iff.mp whole with ⟨semicolon, line, block⟩
  rw [lexeme, if_neg semicolon, line, block, Bool.and_false, Bool.and_false,
    if_neg Bool.false_ne_true, if_neg Bool.false_ne_true]
  split
  · rfl
  · split
    · rfl
    · split
      · rename_i tag found
        rw [found]
        rfl
      · rename_i found
        rw [found]
        rfl

omit [Unicode] in
theorem ne_of_isStop {d e : Char} (stop : isStop d = true) (other : isStop e = false) : d ≠ e := by
  rintro rfl
  rw [stop] at other
  cases other

/-- A piece whose quote is closed ends before what follows. -/
theorem lexeme_append (whole : breaksOff (c, rest) = false) (closed : closes (c, rest) = true)
    (stops : Stops after) :
    lexeme c (rest ++ after) = lexeme c rest ∧ (lexeme c rest).2 ≤ (c :: rest).length := by
  rw [lexeme_of_whole (breaksOff_append whole stops), lexeme_of_whole whole]
  unfold closes at closed
  dsimp only at closed
  by_cases single : c = '\''
  · subst single
    rw [if_pos (.inl rfl)] at closed
    rcases quotedRun_append closed fun d mem =>
      ne_of_isStop (stops d mem) (by decide) with ⟨same, bound⟩
    rw [if_pos rfl, if_pos rfl, same]
    exact ⟨rfl, Nat.succ_le_succ bound⟩
  · by_cases double : c = '"'
    · subst double
      rw [if_pos (.inr rfl)] at closed
      rcases quotedRun_append closed fun d mem =>
        ne_of_isStop (stops d mem) (by decide) with ⟨same, bound⟩
      rw [if_neg single, if_pos rfl, if_neg single, if_pos rfl, same]
      exact ⟨rfl, Nat.succ_le_succ bound⟩
    · rw [if_neg single, if_neg double, if_neg single, if_neg double]
      rw [if_neg (by simp [single, double])] at closed
      have tagged : (if c = '$' then tagRun (rest ++ after) else none) = if c = '$' then tagRun rest
          else none := by
        rw [tagRun_append_of_stops stops]
      rw [tagged]
      cases found : if c = '$' then tagRun rest else none with
      | none => exact ⟨plainLexeme_append stops, plainLexeme_le c rest⟩
      | some tag =>
          have tag_ : tagRun rest = some tag := by
            split_ifs at found
            exact found
          have shorter := length_of_tagRun tag_
          have solid := isStop_of_mem_delimiter tag_
          rw [found] at closed
          dsimp only at closed
          rw [decide_eq_true_eq] at closed
          have length : ("$" ++ tag ++ "$" : Str).length = tag.length + 2 := by
            have one : ("$" : Str).length = 1 := rfl
            rw [List.length_append, List.length_append, one]
            omega
          have bound : ("$" ++ tag ++ "$" : Str).length ≤ (c :: rest).length := by
            rw [length]
            exact Nat.succ_le_succ shorter
          have dropped : (c :: (rest ++ after)).drop ("$" ++ tag ++ "$" : Str).length =
              (c :: rest).drop ("$" ++ tag ++ "$" : Str).length ++ after :=
            @List.drop_append_of_le_length _ (c :: rest) after _ bound
          simp only [Option.elim_some]
          rw [dropped, untilDelimiter_append solid stops closed]
          have fits := untilDelimiter_fits closed
          rw [List.length_drop] at fits
          exact ⟨rfl, by omega⟩

theorem isToken_of_whole (whole : breaksOff (c, rest) = false) {event : Event}
    (read : (lexeme c rest).1 = some event) : ∃ token, event = .token token := by
  have plain (read : (plainLexeme c rest).1 = some event) : ∃ token, event = .token token := by
    unfold plainLexeme at read
    split_ifs at read
    · cases read
      exact ⟨_, rfl⟩
    · cases read
      exact ⟨_, rfl⟩
    · cases read
      exact ⟨_, rfl⟩
  rw [lexeme_of_whole whole] at read
  split_ifs at read
  · cases read
    exact ⟨_, rfl⟩
  · cases read
    exact ⟨_, rfl⟩
  · cases found : tagRun rest with
    | none =>
        rw [found] at read
        exact plain read
    | some tag =>
        rw [found] at read
        cases read
        exact ⟨_, rfl⟩
  · exact plain read

/-- A quote that is left open takes everything that follows, as one token. -/
theorem lexeme_open (whole : breaksOff (c, rest) = false) (isOpen : closes (c, rest) = false)
    (stops : Stops after) (plain : ∀ d ∈ (['\'', '"', '$'] : Str), d ∉ after) :
    ∃ token, (lexeme c (rest ++ after)).1 = some (.token token) ∧ (∀ punct, token ≠ .punct punct) ∧
      (c :: (rest ++ after)).length ≤ (lexeme c (rest ++ after)).2 := by
  rw [lexeme_of_whole (breaksOff_append whole stops)]
  unfold closes at isOpen
  dsimp only at isOpen
  by_cases single : c = '\''
  · subst single
    rw [if_pos (.inl rfl)] at isOpen
    rw [if_pos rfl]
    refine ⟨_, rfl, by simp, ?_⟩
    rw [quotedRun_open isOpen (plain _ (by simp))]
    exact Nat.le_refl _
  · by_cases double : c = '"'
    · subst double
      rw [if_pos (.inr rfl)] at isOpen
      rw [if_neg single, if_pos rfl]
      refine ⟨_, rfl, by simp, ?_⟩
      rw [quotedRun_open isOpen (plain _ (by simp))]
      exact Nat.le_refl _
    · rw [if_neg single, if_neg double]
      rw [if_neg (by simp [single, double])] at isOpen
      by_cases dollar : c = '$'
      · rw [if_pos dollar] at isOpen ⊢
        rw [tagRun_append_of_stops stops]
        cases found : tagRun rest with
        | none =>
            rw [found] at isOpen
            cases isOpen
        | some tag =>
            rw [found] at isOpen
            dsimp only at isOpen
            rw [decide_eq_false_iff_not] at isOpen
            have shorter := length_of_tagRun found
            have one : ("$" : Str).length = 1 := rfl
            have bound : ("$" ++ tag ++ "$" : Str).length ≤ (c :: rest).length := by
              rw [List.length_append, List.length_append, one, List.length_cons]
              omega
            have dropped : (c :: (rest ++ after)).drop ("$" ++ tag ++ "$" : Str).length =
                (c :: rest).drop ("$" ++ tag ++ "$" : Str).length ++ after :=
              @List.drop_append_of_le_length _ (c :: rest) after _ bound
            have taken := untilDelimiter_open (isStop_of_mem_delimiter found) stops isOpen
              (List.mem_append_right _ (List.mem_singleton.mpr rfl) : '$' ∈
                ("$" ++ tag ++ "$" : Str))
              (plain '$' (by simp))
            rw [Option.elim_some]
            refine ⟨_, rfl, by simp, ?_⟩
            dsimp only
            have left : ((c :: rest).drop ("$" ++ tag ++ "$" : Str).length ++ after).length =
                (c :: rest).length - ("$" ++ tag ++ "$" : Str).length + after.length := by
              rw [List.length_append, List.length_drop]
            have total : (c :: (rest ++ after)).length = (c :: rest).length + after.length :=
              @List.length_append _ (c :: rest) after
            rw [dropped, taken, left, total]
            omega
      · rw [if_neg dollar] at isOpen
        cases isOpen

end Pieces

section Texts

variable {s after : Str}

theorem tokensOf_cons {c : Char} {rest : Str} (whole : breaksOff (c, rest) = false) :
    ((tokensOf (c :: rest)).map .token : List Event) = (lexeme c rest).1.toList ++
      (tokensOf ((c :: rest).drop (lexeme c rest).2)).map .token := by
  rw [tokensOf, lex_cons, List.filterMap_append, List.map_append]
  congr 1
  cases read : (lexeme c rest).1 with
  | none => rfl
  | some event =>
      rcases isToken_of_whole whole read with ⟨token, rfl⟩
      rfl

/--
A text without semicolons and comments that closes its quotes is read apart from what follows.
-/
theorem selfContained_of_isClosed (unbroken : isUnbroken s = true) (closed : isClosed s = true) :
    SelfContained s := by
  intro after stops
  induction s using lex.induct with
  | case1 =>
      rw [tokensOf, lex_nil]
      rfl
  | case2 c rest ih =>
      rcases isUnbroken_cons.mp unbroken with ⟨whole, unbroken⟩
      rcases isClosed_cons.mp closed with ⟨closes, closed⟩
      rcases lexeme_append whole closes stops with ⟨same, bound⟩
      rw [List.cons_append, lex_cons, same, tokensOf_cons whole, List.append_assoc,
        ← ih unbroken closed, ← List.drop_append_of_le_length bound, List.cons_append]

/-- What follows a text with a quote left open ends in a token that is no punctuation. -/
theorem lex_of_isOpen (unbroken : isUnbroken s = true) (isOpen : isClosed s = false)
    (stops : Stops after) (plain : ∀ d ∈ (['\'', '"', '$'] : Str), d ∉ after) :
    ∃ front token, lex (s ++ after) = (front ++ [token]).map .token ∧ ∀ punct,
    token ≠ .punct punct := by
  induction s using lex.induct with
  | case1 =>
      rw [isClosed, pieces_nil] at isOpen
      cases isOpen
  | case2 c rest ih =>
      rcases isUnbroken_cons.mp unbroken with ⟨whole, unbroken⟩
      cases here : closes (c, rest) with
      | false =>
          rcases lexeme_open whole here stops plain with ⟨token, read, other, all⟩
          refine ⟨[], token, ?_, other⟩
          rw [List.cons_append, lex_cons, read, List.drop_eq_nil_of_le all, lex_nil]
          rfl
      | true =>
          rcases lexeme_append whole here stops with ⟨same, bound⟩
          have later : isClosed ((c :: rest).drop (lexeme c rest).2) = false := by
            rw [Bool.eq_false_iff] at isOpen ⊢
            exact fun closed => isOpen (isClosed_cons.mpr ⟨here, closed⟩)
          rcases ih unbroken later with ⟨front, token, read, other⟩
          rw [List.cons_append, lex_cons, same, ← List.cons_append,
            List.drop_append_of_le_length bound, read]
          cases event : (lexeme c rest).1 with
          | none => exact ⟨front, token, rfl, other⟩
          | some event =>
              rcases isToken_of_whole whole event with ⟨first, rfl⟩
              exact ⟨first :: front, token, rfl, other⟩

end Texts

end SchemaForge.Sql
