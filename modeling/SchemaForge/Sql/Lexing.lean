import SchemaForge.Sql.Scan

/-!
# Lexical events

What the scanner does next depends only on the characters it has still to read.
This file states that dependence: `lexeme` is the piece at the front of a text,
`lex` is the sequence of pieces of a whole text, and a `Reading` is what the
scanner has collected from them. The loop of the scanner is a fold of the
events (`loop_reading`), so that later developments reason about `lex` and never
about offsets.
-/

namespace SchemaForge.Sql

/-- What one piece of text means to the scanner. -/
inductive Event where
  | token (token : Token)
  /-- A comment line, which may be a layout hint. -/
  | line (text : Str)
  /-- The end of a statement. -/
  | finish
deriving DecidableEq

/-- What the scanner has collected, less the source text of the statements. -/
structure Reading where
  statements : List (List Token)
  hints : List LayoutHint
  tokens : List Token

namespace Reading

def empty : Reading := ⟨[], [], []⟩

def feed (reading : Reading) : Event → Reading
  | .token token => { reading with tokens := reading.tokens ++ [token] }
  | .line text =>
      match layoutHint text with
      | none => reading
      | some hint =>
          let above := if reading.tokens.isEmpty then some reading.statements.length else none
          { reading with hints := reading.hints ++ [{ hint with above := above }] }
  | .finish =>
      if reading.tokens.isEmpty then reading
      else { reading with statements := reading.statements ++ [reading.tokens], tokens := [] }

end Reading

section Lexing

variable [Unicode]

open Scanner

/-- The piece at the front of a text that starts with none of the special characters. -/
def plainLexeme (c : Char) (rest : Str) : Option Event × Nat :=
  if Str.isWhitespace c then (none, 1)
  else if c.isDigit then
    let value := (c :: rest).takeWhile fun c => c.isDigit || c == '.'
    (some (.token (.number value)), value.length)
  else if isNameStart c then
    let value := (c :: rest).takeWhile isNameChar
    (some (.token (.word (Str.toLowercase value))), value.length)
  else (some (.token (.punct c)), 1)

/-- The event at the front of a non-empty text, if it means anything, and its length. -/
def lexeme (c : Char) (rest : Str) : Option Event × Nat :=
  if c = ';' then (some .finish, 1)
  else if c = '-' && ("--" : Str).isPrefixOf (c :: rest) then
    let line := (c :: rest).takeWhile (· != '\n')
    (some (.line line), line.length)
  else if c = '/' && ("/*" : Str).isPrefixOf (c :: rest) then
    (none, blockCommentLength 0 (c :: rest))
  else if c = '\'' then
    let (value, count) := quotedRun '\'' rest
    (some (.token (.text value)), count + 1)
  else if c = '"' then
    let (value, count) := quotedRun '"' rest
    (some (.token (.quoted value)), count + 1)
  else
    match if c = '$' then tagRun rest else none with
    | some tag =>
        let delimiter : Str := "$" ++ tag ++ "$"
        let value := untilDelimiter delimiter ((c :: rest).drop delimiter.length)
        (some (.token (.text value)), delimiter.length + value.length + delimiter.length)
    | none => plainLexeme c rest

theorem isNameChar_of_isNameStart {c : Char} (start : isNameStart c = true) :
    isNameChar c = true := by
  simp only [isNameStart, Bool.or_eq_true] at start
  rcases start with alphabetic | underscore
  · simp [isNameChar, Str.isAlphanumeric, alphabetic]
  · simp [isNameChar, underscore]

theorem plainLexeme_pos (c : Char) (rest : Str) : 0 < (plainLexeme c rest).2 := by
  unfold plainLexeme
  split_ifs with space digit start
  · exact Nat.one_pos
  · simp [digit]
  · simp [isNameChar_of_isNameStart start]
  · exact Nat.one_pos

theorem lexeme_pos (c : Char) (rest : Str) : 0 < (lexeme c rest).2 := by
  unfold lexeme
  split_ifs with semicolon line block single double dollar
  · exact Nat.one_pos
  · simp only [Bool.and_eq_true, decide_eq_true_eq] at line
    simp [line.1]
  · simp only [Bool.and_eq_true, decide_eq_true_eq, List.isPrefixOf_iff_prefix] at block
    obtain ⟨_, after, shape⟩ := block
    rw [← shape]
    simp [blockCommentLength]
  · exact Nat.succ_pos _
  · exact Nat.succ_pos _
  · split
    · simp
    · exact plainLexeme_pos c rest
  · exact plainLexeme_pos c rest

/-- The events of a text, in order. -/
def lex (s : Str) : List Event :=
  match s with
  | [] => []
  | c :: rest => (lexeme c rest).1.toList ++ lex ((c :: rest).drop (lexeme c rest).2)
termination_by s.length
decreasing_by
  have := lexeme_pos c rest
  simp only [List.length_drop, List.length_cons]
  omega

@[simp]
theorem lex_nil : lex [] = [] := by rw [lex]

theorem lex_cons (c : Char) (rest : Str) :
    lex (c :: rest) = (lexeme c rest).1.toList ++ lex ((c :: rest).drop (lexeme c rest).2) := by
  rw [lex]

end Lexing

namespace Scanner

/-- What a scanner has collected. -/
def reading (s : Scanner) : Reading := ⟨s.statements.map Statement.tokens, s.hints, s.tokens⟩

@[simp]
theorem rest_advance (s : Scanner) (count : Nat) : (s.advance count).rest = s.rest.drop count := by
  simp [rest, advance]

@[simp]
theorem reading_advance (s : Scanner) (count : Nat) : (s.advance count).reading = s.reading := rfl

@[simp]
theorem chars_advance (s : Scanner) (count : Nat) : (s.advance count).chars = s.chars := rfl

@[simp]
theorem rest_push (s : Scanner) (token : Token) : (s.push token).rest = s.rest := rfl

@[simp]
theorem chars_push (s : Scanner) (token : Token) : (s.push token).chars = s.chars := rfl

@[simp]
theorem reading_push (s : Scanner) (token : Token) :
    (s.push token).reading = s.reading.feed (.token token) := rfl

@[simp]
theorem rest_finish (s : Scanner) : s.finish.rest = s.rest := by
  unfold finish
  split <;> rfl

@[simp]
theorem chars_finish (s : Scanner) : s.finish.chars = s.chars := by
  unfold finish
  split <;> rfl

@[simp]
theorem reading_finish (s : Scanner) : s.finish.reading = s.reading.feed .finish := by
  unfold finish
  by_cases none : s.tokens.isEmpty = true
  · simp [none, reading, Reading.feed]
  · simp [none, reading, Reading.feed]

/-- The scanner has read the event of a piece of `count` characters. -/
structure Reads (s next : Scanner) (event : Option Event) (count : Nat) : Prop where
  reading : next.reading = event.toList.foldl Reading.feed s.reading
  rest : next.rest = s.rest.drop count
  chars : next.chars = s.chars

theorem lineComment_reads (s : Scanner) :
    Reads s s.lineComment (some (.line (s.rest.takeWhile (· != '\n'))))
      (s.rest.takeWhile (· != '\n')).length := by
  cases hint : layoutHint (s.rest.takeWhile (· != '\n')) with
  | none => constructor <;> simp [lineComment, hint, Reading.feed]
  | some found =>
      constructor
      · simp [lineComment, hint, Reading.feed, reading, advance]
      · rw [← rest_advance]
        simp only [lineComment, hint]
        rfl
      · simp [lineComment, hint]

theorem quoted_reads {s : Scanner} {c : Char} {rest : Str} (front : s.rest = c :: rest)
    (delimiter : Char) (wrap : Str → Token) :
    Reads s (s.quoted delimiter wrap) (some (.token (wrap (quotedRun delimiter rest).1)))
      ((quotedRun delimiter rest).2 + 1) := by
  constructor <;> simp [quoted, front]

theorem dollarQuoted_reads (s : Scanner) (tag : Str) :
    Reads s (s.dollarQuoted tag)
      (some (.token (.text (untilDelimiter ("$" ++ tag ++ "$")
        (s.rest.drop ("$" ++ tag ++ "$" : Str).length)))))
      (("$" ++ tag ++ "$" : Str).length + (untilDelimiter ("$" ++ tag ++ "$")
        (s.rest.drop ("$" ++ tag ++ "$" : Str).length)).length +
          ("$" ++ tag ++ "$" : Str).length) := by
  constructor
  · rw [← rest_advance]
    rfl
  · simp only [dollarQuoted, rest_push, rest_advance]
    generalize ("$" ++ tag ++ "$" : Str) = delimiter
    generalize untilDelimiter delimiter (s.rest.drop delimiter.length) = value
    simp only [rest, advance, List.drop_drop]
    -- Past the end of the text nothing is left, wherever the offset is cut off.
    rcases Nat.le_total (s.offset + delimiter.length + value.length + delimiter.length)
      s.chars.length with inside | beyond
    · rw [Nat.min_eq_left inside]
      congr 1
      omega
    · rw [Nat.min_eq_right beyond, List.drop_length, eq_comm, List.drop_eq_nil_iff]
      omega
  · rfl

theorem number_reads (s : Scanner) :
    Reads s s.number (some (.token (.number (s.rest.takeWhile fun c => c.isDigit || c == '.'))))
      (s.rest.takeWhile fun c => c.isDigit || c == '.').length := by
  constructor <;> simp [number]

variable [Unicode]

theorem word_reads (s : Scanner) :
    Reads s s.word (some (.token (.word (Str.toLowercase (s.rest.takeWhile isNameChar)))))
      (s.rest.takeWhile isNameChar).length := by
  constructor <;> simp [word]

theorem plain_reads {s : Scanner} {c : Char} {rest : Str} (front : s.rest = c :: rest) :
    Reads s (s.plain c) (plainLexeme c rest).1 (plainLexeme c rest).2 := by
  unfold plain plainLexeme
  split_ifs
  · constructor <;> simp
  · rw [← front]
    exact number_reads s
  · rw [← front]
    exact word_reads s
  · constructor <;> simp

/-- One step reads the piece at the front of the text. -/
theorem step_reads {s : Scanner} {c : Char} {rest : Str} (front : s.rest = c :: rest) :
    Reads s s.step (lexeme c rest).1 (lexeme c rest).2 := by
  have marked : ∀ {next : Scanner} {event : Option Event} {count : Nat},
      Reads { s with tokenAt := s.offset } next event count → Reads s next event count :=
    fun reads => ⟨reads.reading, reads.rest, reads.chars⟩
  unfold step lexeme
  rw [front]
  apply marked
  have front' : { s with tokenAt := s.offset }.rest = c :: rest := front
  generalize { s with tokenAt := s.offset } = s at front'
  simp only [looksAt, front', dollarTag, List.drop_one, List.tail_cons]
  split_ifs with semicolon line block single double dollar
  · constructor <;> simp
  · rw [← front']
    exact lineComment_reads s
  · constructor <;> simp [blockComment, front']
  · exact quoted_reads front' '\'' .text
  · exact quoted_reads front' '"' .quoted
  · split
    · rename_i tag tagged
      have reads := dollarQuoted_reads s tag
      rw [front'] at reads
      simpa only [tagged] using reads
    · rename_i untagged
      simpa only [untagged] using plain_reads front'
  · exact plain_reads front'

/-- With enough fuel the loop reads the whole text, and collects its events in order. -/
theorem loop_reading {fuel : Nat} {s : Scanner} (enough : s.rest.length ≤ fuel) :
    (loop fuel s).reading = (lex s.rest).foldl Reading.feed s.reading := by
  induction fuel generalizing s with
  | zero =>
      have done : s.rest = [] := List.eq_nil_of_length_eq_zero (by omega)
      rw [done, lex_nil]
      rfl
  | succ fuel ih =>
      rw [loop]
      rcases front : s.rest with _ | ⟨c, rest⟩
      · have finished : ¬s.offset < s.chars.length := by
          have := List.drop_eq_nil_iff.mp front
          omega
        rw [if_neg finished, lex_nil]
        rfl
      · have unfinished : s.offset < s.chars.length := by
          by_contra finished
          have : s.rest = [] := List.drop_eq_nil_iff.mpr (by omega)
          simp [this] at front
        have reads := step_reads front
        have positive := lexeme_pos c rest
        rw [if_pos unfinished, ih, lex_cons, List.foldl_append, reads.reading, reads.rest, front]
        rw [reads.rest, List.length_drop]
        simp only [front, List.length_cons] at enough ⊢
        omega

end Scanner

variable [Unicode]

/-- What a whole text reads as. -/
def readingOf (sql : Str) : Reading := ((lex sql).foldl Reading.feed .empty).feed .finish

theorem scan_reading (sql : Str) :
    (scan sql).1.map Statement.tokens = (readingOf sql).statements ∧ (scan sql).2 =
    (readingOf sql).hints := by
  have looped := @Scanner.loop_reading _ sql.length (Scanner.new sql) (by
    simp [Scanner.rest, Scanner.new])
  have finished := Scanner.reading_finish ((Scanner.new sql).loop sql.length)
  rw [looped] at finished
  exact ⟨congrArg Reading.statements finished, congrArg Reading.hints finished⟩

omit [Unicode] in
theorem foldl_feed_tokens (tokens : List Token) (statements : List (List Token))
    (hints : List LayoutHint) (taken : List Token) :
    (tokens.map Event.token).foldl Reading.feed ⟨statements, hints, taken⟩ =
      ⟨statements, hints, taken ++ tokens⟩ := by
  induction tokens generalizing taken with
  | nil => rw [List.append_nil, List.map_nil, List.foldl_nil]
  | cons token tokens ih =>
      rw [List.map_cons, List.foldl_cons]
      change (tokens.map Event.token).foldl Reading.feed ⟨statements, hints, taken ++ [token]⟩ = _
      rw [ih, List.append_assoc]
      rfl

/-- A text of tokens only is one statement. -/
theorem scan_of_lex {sql : Str} {tokens : List Token} (lexed : lex sql = tokens.map .token)
    (nonempty : tokens ≠ []) :
    (scan sql).1.map Statement.tokens = [tokens] ∧ (scan sql).2 = [] := by
  have fed : readingOf sql = ⟨[tokens], [], []⟩ := by
    rw [readingOf, lexed, Reading.empty, foldl_feed_tokens, List.nil_append, Reading.feed, if_neg]
    · rfl
    · rwa [List.isEmpty_iff]
  rw [(scan_reading sql).1, (scan_reading sql).2, fed]
  exact ⟨rfl, rfl⟩

omit [Unicode] in
theorem Reading.ne_nil_of_mem_feed {reading : Reading}
    (before : ∀ tokens ∈ reading.statements, tokens ≠ []) (event : Event) :
    ∀ tokens ∈ (reading.feed event).statements, tokens ≠ [] := by
  cases event with
  | token token => exact before
  | line text =>
      unfold feed
      dsimp only
      split
      · exact before
      · exact before
  | finish =>
      unfold feed
      dsimp only
      split
      · exact before
      · rename_i nonempty
        intro tokens mem
        rcases List.mem_append.mp mem with old | new
        · exact before tokens old
        · rw [List.mem_singleton.mp new]
          exact fun empty => nonempty (List.isEmpty_iff.mpr empty)

/-- No statement is empty. -/
theorem tokens_ne_nil_of_mem_scan {sql : Str} {statement : Statement}
    (mem : statement ∈ (scan sql).1) :
    statement.tokens ≠ [] := by
  have fed : ∀ (events : List Event) (reading : Reading),
      (∀ tokens ∈ reading.statements, tokens ≠ []) →
      ∀ tokens ∈ (events.foldl Reading.feed reading).statements, tokens ≠ [] := by
    intro events
    induction events with
    | nil => exact fun _ before => before
    | cons event events ih =>
        exact fun reading before => ih _ (Reading.ne_nil_of_mem_feed before event)
  have read := Reading.ne_nil_of_mem_feed (fed (lex sql) .empty nofun) .finish
  rw [← readingOf, ← (scan_reading sql).1] at read
  exact read _ (List.mem_map_of_mem mem)

end SchemaForge.Sql
