import SchemaForge.Sql.Spelling

/-!
# Scanning one script after another

A text whose last character is read as the end of a statement leaves nothing open:
what follows it is scanned as it is on its own. The scanner is a fold over the
pieces of its text; beside the events of `SchemaForge.Sql.Lexing` the fold keeps the
text of the open statement, from its first token on.
-/

namespace SchemaForge.Sql

/-- The hint, once a number of statements has come to stand before its script. -/
def LayoutHint.raise (count : Nat) (hint : LayoutHint) : LayoutHint :=
  { hint with above := hint.above.map (· + count) }

/-- What the scanner has collected, with the text of the statement that is open. -/
structure Collected where
  statements : List Statement
  hints : List LayoutHint
  tokens : List Token
  /-- The text since the first token, which means nothing before there is one. -/
  source : Str

namespace Collected

def empty : Collected := ⟨[], [], [], []⟩

def note (collected : Collected) (line : Str) : List LayoutHint :=
  match layoutHint line with
  | none => collected.hints
  | some hint =>
      let above := if collected.tokens.isEmpty then some collected.statements.length else none
      collected.hints ++ [{ hint with above := above }]

/-- A piece of text, with what it means. -/
def feed (collected : Collected) (part : Option Event × Str) : Collected :=
  match part.1 with
  | none => { collected with source := collected.source ++ part.2 }
  | some (.token token) =>
      { collected with
        tokens := collected.tokens ++ [token]
        source := if collected.tokens.isEmpty then part.2 else collected.source ++ part.2 }
  | some (.line line) =>
      { collected with hints := collected.note line, source := collected.source ++ part.2 }
  | some .finish =>
      if collected.tokens.isEmpty then { collected with source := [] }
      else
        { collected with
          statements :=
            collected.statements ++ [⟨collected.tokens, Str.trim (collected.source ++ part.2)⟩]
          tokens := []
          source := [] }

/-- The same behind a script that has been read already. -/
def behind (statements : List Statement) (hints : List LayoutHint) (collected : Collected) :
    Collected :=
  { collected with
    statements := statements ++ collected.statements
    hints := hints ++ collected.hints.map (LayoutHint.raise statements.length) }

theorem feed_behind (statements : List Statement) (hints : List LayoutHint) (collected : Collected)
    (part : Option Event × Str) :
    (collected.behind statements hints).feed part =
    (collected.feed part).behind statements hints := by
  rcases part with ⟨event, text⟩
  cases event with
  | none => rfl
  | some event =>
      cases event with
      | token token => rfl
      | line line =>
          have noted : (collected.behind statements hints).note line =
              hints ++ (collected.note line).map (LayoutHint.raise statements.length) := by
            unfold note
            cases layoutHint line with
            | none => rfl
            | some hint =>
                simp only [behind, List.length_append, List.map_append, List.append_assoc]
                cases collected.tokens with
                | nil => simp [LayoutHint.raise, Nat.add_comm]
                | cons token tokens => simp [LayoutHint.raise]
          simp only [feed, noted]
          rfl
      | finish =>
          unfold feed
          dsimp only
          by_cases none : collected.tokens.isEmpty = true
          · rw [if_pos none,
              if_pos (show (collected.behind statements hints).tokens.isEmpty = true from none)]
            rfl
          · rw [if_neg none,
              if_neg (show ¬ (collected.behind statements hints).tokens.isEmpty = true from none)]
            simp only [behind, List.append_assoc]

theorem foldl_feed_behind (statements : List Statement) (hints : List LayoutHint)
    (collected : Collected) (parts : List (Option Event × Str)) :
    parts.foldl feed (collected.behind statements hints) =
      (parts.foldl feed collected).behind statements hints := by
  induction parts generalizing collected with
  | nil => rfl
  | cons part parts ih => rw [List.foldl_cons, List.foldl_cons, feed_behind, ih]

theorem nothing_open (collected : Collected) (text : Str) :
    (collected.feed (some .finish, text)).tokens = [] ∧
    (collected.feed (some .finish, text)).source = [] := by
  unfold feed
  dsimp only
  split
  · rename_i none
    exact ⟨List.isEmpty_iff.mp none, rfl⟩
  · exact ⟨rfl, rfl⟩

variable {collected : Collected}

theorem eq_behind (closed : collected.tokens = []) (nothing : collected.source = []) :
    collected = empty.behind collected.statements collected.hints := by
  rcases collected with ⟨statements, hints, tokens, source⟩
  rw [show tokens = [] from closed, show source = [] from nothing, behind, empty,
    List.append_nil, List.map_nil, List.append_nil]

theorem feed_finish (closed : collected.tokens = []) (nothing : collected.source = [])
    (text : Str) :
    collected.feed (some .finish, text) = collected := by
  unfold feed
  dsimp only
  rw [if_pos (List.isEmpty_iff.mpr closed), ← nothing]

end Collected

namespace Scanner

/-- The scanner behind a piece of text, with what the piece means. -/
def moveTo (s : Scanner) (event : Option Event) (stop : Nat) : Scanner :=
  let s := { s with tokenAt := s.offset }
  match event with
  | none => { s with offset := stop }
  | some (.token token) => { s.push token with offset := stop }
  | some (.line line) =>
      match layoutHint line with
      | none => { s with offset := stop }
      | some hint =>
          let above := if s.tokens.isEmpty then some s.statements.length else none
          { s with offset := stop, hints := s.hints ++ [{ hint with above := above }] }
  | some .finish => { s with offset := stop }.finish

theorem lineComment_eq (s : Scanner) :
    { s with tokenAt := s.offset }.lineComment =
      s.moveTo (some (.line (s.rest.takeWhile (· != '\n'))))
        (s.offset + (s.rest.takeWhile (· != '\n')).length) := by
  have front : { s with tokenAt := s.offset }.rest = s.rest := rfl
  cases hint : layoutHint (s.rest.takeWhile (· != '\n')) with
  | none =>
      simp only [lineComment, moveTo, front, hint]
      rfl
  | some found =>
      simp only [lineComment, moveTo, front, hint]
      rfl

variable [Unicode]

theorem plain_eq {s : Scanner} {c : Char} {rest : Str} (front : s.rest = c :: rest) :
    { s with tokenAt := s.offset }.plain c =
      s.moveTo (plainLexeme c rest).1 (s.offset + (plainLexeme c rest).2) := by
  have front' : { s with tokenAt := s.offset }.rest = c :: rest := front
  unfold plain plainLexeme
  split_ifs
  · rfl
  · unfold number
    rw [front']
    rfl
  · unfold word
    rw [front']
    rfl
  · rfl

/-- A step moves behind the piece at the front of the text. -/
theorem step_eq {s : Scanner} {c : Char} {rest : Str} (front : s.rest = c :: rest) :
    ∃ stop, s.offset ≤ stop ∧ s.step = s.moveTo (lexeme c rest).1 stop := by
  have front' : { s with tokenAt := s.offset }.rest = c :: rest := front
  unfold step lexeme
  rw [front]
  simp only [looksAt, front', dollarTag, List.drop_one, List.tail_cons]
  split_ifs with semicolon line block single double dollar
  · exact ⟨s.offset + 1, Nat.le_add_right _ _, rfl⟩
  · rw [lineComment_eq, front]
    exact ⟨_, Nat.le_add_right _ _, rfl⟩
  · exact ⟨_, Nat.le_add_right s.offset (blockCommentLength 0 s.rest), rfl⟩
  · unfold quoted
    rw [front']
    exact ⟨_, Nat.le_add_right s.offset ((quotedRun '\'' rest).2 + 1), rfl⟩
  · unfold quoted
    rw [front']
    exact ⟨_, Nat.le_add_right s.offset ((quotedRun '"' rest).2 + 1), rfl⟩
  · cases tagged : tagRun rest with
    | none =>
        dsimp only
        rw [plain_eq front]
        exact ⟨_, Nat.le_add_right _ _, rfl⟩
    | some tag =>
        dsimp only
        have behindTag (count : Nat) :
            ({ s with tokenAt := s.offset }.advance count).rest = (c :: rest).drop count := by
          rw [rest_advance, front']
        have started : s.offset ≤ s.chars.length := by
          have more : s.rest ≠ [] := by
            rw [front]
            exact List.cons_ne_nil _ _
          have bound := List.length_pos_of_ne_nil more
          rw [Scanner.rest, List.length_drop] at bound
          omega
        simp only [dollarQuoted, behindTag]
        refine ⟨_, Nat.le_min.mpr ⟨?_, started⟩, rfl⟩
        dsimp only [advance]
        omega
  · dsimp only
    rw [plain_eq front]
    exact ⟨_, Nat.le_add_right _ _, rfl⟩

end Scanner

namespace Scanner

/-- The scanner has collected this. -/
structure Agrees (s : Scanner) (collected : Collected) : Prop where
  statements : s.statements = collected.statements
  hints : s.hints = collected.hints
  tokens : s.tokens = collected.tokens
  source : s.tokens ≠ [] → s.slice s.startedAt s.offset = collected.source
  started : s.startedAt ≤ s.offset

theorem slice_eq (s : Scanner) (start stop : Nat) :
    s.slice start stop = (s.chars.drop start).take (stop - start) :=
  List.drop_take

theorem slice_append (s : Scanner) {start middle stop : Nat} (first : start ≤ middle)
    (second : middle ≤ stop) :
    s.slice start stop = s.slice start middle ++ s.slice middle stop := by
  have whole : stop - start = (middle - start) + (stop - middle) := by omega
  have behind : start + (middle - start) = middle := by omega
  rw [slice_eq, slice_eq, slice_eq, whole, List.take_add, List.drop_drop, behind]

/-- The text of a piece, from where it starts to where it ends. -/
theorem slice_of_drop {s : Scanner} {stop count : Nat} (forward : s.offset ≤ stop)
    (left : s.chars.drop stop = s.rest.drop count) : s.slice s.offset stop = s.rest.take count := by
  have same : s.rest.drop (stop - s.offset) = s.rest.drop count := by
    rw [← left, rest, List.drop_drop, Nat.add_sub_cancel' forward]
  have halves :
      s.rest.take (stop - s.offset) ++ s.rest.drop count = s.rest.take count ++
        s.rest.drop count := by
    rw [← same, List.take_append_drop, same, List.take_append_drop]
  rw [slice_eq]
  exact List.append_cancel_right halves

variable {s : Scanner} {collected : Collected} {stop : Nat} {text : Str}

theorem moveTo_agrees (agrees : s.Agrees collected) (forward : s.offset ≤ stop)
    (between : s.slice s.offset stop = text) (event : Option Event) :
    (s.moveTo event stop).Agrees (collected.feed (event, text)) := by
  rcases agrees with ⟨statements, hints, tokens, source, started⟩
  have longer (opened : s.tokens ≠ []) : s.slice s.startedAt stop = collected.source ++ text := by
    rw [s.slice_append started forward, source opened, between]
  cases event with
  | none => exact ⟨statements, hints, tokens, longer, Nat.le_trans started forward⟩
  | some event =>
      cases event with
      | token token =>
          refine ⟨statements, hints, congrArg (· ++ [token]) tokens, ?_, ?_⟩
          · intro _
            change s.slice (if s.tokens.isEmpty then s.offset else s.startedAt) stop =
              if collected.tokens.isEmpty then text else collected.source ++ text
            rw [← tokens]
            split
            · exact between
            · rename_i opened
              exact longer fun empty => opened (List.isEmpty_iff.mpr empty)
          · change (if s.tokens.isEmpty then s.offset else s.startedAt) ≤ stop
            split
            · exact forward
            · exact Nat.le_trans started forward
      | line line =>
          unfold moveTo Collected.feed Collected.note
          dsimp only
          cases layoutHint line with
          | none => exact ⟨statements, hints, tokens, longer, Nat.le_trans started forward⟩
          | some hint =>
              refine ⟨statements, ?_, tokens, longer, Nat.le_trans started forward⟩
              dsimp only
              rw [hints, tokens, statements]
      | finish =>
          unfold moveTo Collected.feed finish
          dsimp only
          rw [← tokens]
          split
          · rename_i none
            exact ⟨statements, hints, rfl, fun opened => absurd (List.isEmpty_iff.mp none) opened,
              Nat.le_refl _⟩
          · rename_i opened
            refine ⟨?_, hints, rfl, fun opened => absurd rfl opened, Nat.le_refl _⟩
            dsimp only
            rw [statements]
            change collected.statements ++ [⟨s.tokens, Str.trim (s.slice s.startedAt stop)⟩] = _
            rw [longer fun empty => opened (List.isEmpty_iff.mpr empty)]

@[simp]
theorem offset_moveTo (s : Scanner) (event : Option Event) (stop : Nat) :
    (s.moveTo event stop).offset = stop := by
  unfold moveTo
  cases event with
  | none => rfl
  | some event =>
      cases event with
      | token token => rfl
      | line line =>
          dsimp only
          split <;> rfl
      | finish =>
          unfold finish
          dsimp only
          split <;> rfl

theorem moveTo_finish (s : Scanner) :
    (s.moveTo (some .finish) s.offset).statements = s.finish.statements ∧
      (s.moveTo (some .finish) s.offset).hints = s.finish.hints := by
  unfold moveTo finish
  dsimp only
  split
  · exact ⟨rfl, rfl⟩
  · exact ⟨rfl, rfl⟩

variable [Unicode]

theorem step_agrees {c : Char} {rest : Str} (front : s.rest = c :: rest)
    (agrees : s.Agrees collected) :
    s.step.Agrees (collected.feed ((lexeme c rest).1, (c :: rest).take (lexeme c rest).2)) := by
  rcases step_eq front with ⟨stop, forward, same⟩
  have reads := step_reads front
  have left : s.chars.drop stop = s.rest.drop (lexeme c rest).2 := by
    rw [← reads.rest, Scanner.rest, reads.chars, same, offset_moveTo]
  have between := slice_of_drop forward left
  rw [front] at between
  rw [same]
  exact moveTo_agrees agrees forward between _

end Scanner

section Texts

variable [Unicode]

/-- The pieces of a text, each with what it means. -/
def parts (s : Str) : List (Option Event × Str) :=
  match s with
  | [] => []
  | c :: rest =>
      ((lexeme c rest).1, (c :: rest).take (lexeme c rest).2) ::
        parts ((c :: rest).drop (lexeme c rest).2)
termination_by s.length
decreasing_by
  have := lexeme_pos c rest
  simp only [List.length_drop, List.length_cons]
  omega

@[simp]
theorem parts_nil : parts [] = [] := by rw [parts]

theorem parts_cons (c : Char) (rest : Str) : parts (c :: rest) =
    ((lexeme c rest).1, (c :: rest).take (lexeme c rest).2) :: parts
    ((c :: rest).drop (lexeme c rest).2) := by
  rw [parts]

theorem loop_agrees {fuel : Nat} {s : Scanner} {collected : Collected}
    (enough : s.rest.length ≤ fuel) (agrees : s.Agrees collected) :
    (s.loop fuel).Agrees ((parts s.rest).foldl Collected.feed collected) := by
  induction fuel generalizing s collected with
  | zero =>
      have done : s.rest = [] := List.eq_nil_of_length_eq_zero (by omega)
      rw [done, parts_nil]
      exact agrees
  | succ fuel ih =>
      rw [Scanner.loop]
      rcases front : s.rest with _ | ⟨c, rest⟩
      · have finished : ¬s.offset < s.chars.length := by
          have := List.drop_eq_nil_iff.mp front
          omega
        rw [if_neg finished, parts_nil]
        exact agrees
      · have unfinished : s.offset < s.chars.length := by
          by_contra finished
          have : s.rest = [] := List.drop_eq_nil_iff.mpr (by omega)
          simp [this] at front
        have reads := Scanner.step_reads front
        have positive := lexeme_pos c rest
        have shorter : s.step.rest.length ≤ fuel := by
          rw [reads.rest, List.length_drop]
          rw [front] at enough ⊢
          rw [List.length_cons] at enough ⊢
          omega
        rw [if_pos unfinished, parts_cons, List.foldl_cons]
        have later := ih shorter (Scanner.step_agrees front agrees)
        rwa [reads.rest, front] at later

/-- What is collected of a whole text. -/
def collect (sql : Str) : Collected :=
  ((parts sql).foldl Collected.feed .empty).feed (some .finish, [])

theorem scan_eq (sql : Str) : scan sql = ((collect sql).statements, (collect sql).hints) := by
  have initial :
      (Scanner.new sql).Agrees .empty :=
    ⟨rfl, rfl, rfl, fun opened => absurd rfl opened, Nat.le_refl _⟩
  have looped :
      ((Scanner.new sql).loop sql.length).Agrees ((parts sql).foldl Collected.feed .empty) :=
    loop_agrees (Nat.le_refl _) initial
  have between :
      ((Scanner.new sql).loop sql.length).slice ((Scanner.new sql).loop sql.length).offset
      ((Scanner.new sql).loop sql.length).offset = [] := by
    rw [Scanner.slice_eq, Nat.sub_self, List.take_zero]
  have closed := Scanner.moveTo_agrees looped (Nat.le_refl _) between (some .finish)
  rcases Scanner.moveTo_finish ((Scanner.new sql).loop sql.length) with ⟨statements, hints⟩
  exact Prod.ext (statements.symm.trans closed.statements) (hints.symm.trans closed.hints)

end Texts

section Inside

open Scanner

variable {rest : Str} (more : Str)

theorem takeWhile_append_of_shorter {p : Char → Bool}
    (shorter : (rest.takeWhile p).length < rest.length) :
    (rest ++ more).takeWhile p = rest.takeWhile p := by
  rw [List.takeWhile_append, if_neg (Nat.ne_of_lt shorter)]

theorem quotedRun_append_of_shorter {delimiter : Char}
    (shorter : (quotedRun delimiter rest).2 < rest.length) :
    quotedRun delimiter (rest ++ more) = quotedRun delimiter rest := by
  fun_induction quotedRun delimiter rest with
  | case1 => exact absurd shorter (Nat.lt_irrefl 0)
  | case2 _ value count run ih =>
      rw [run] at ih
      have same := ih (by simp only [List.length_cons] at shorter; omega)
      rw [List.cons_append, List.cons_append, quotedRun, if_pos rfl]
      dsimp only
      rw [if_pos rfl, same]
  | case3 d _ other =>
      rw [List.cons_append, List.cons_append, quotedRun, if_pos rfl]
      dsimp only
      rw [if_neg other]
  | case4 => exact absurd shorter (Nat.lt_irrefl 1)
  | case5 c _ other value count run ih =>
      rw [run] at ih
      have same := ih (by simp only [List.length_cons] at shorter; omega)
      rw [List.cons_append, quotedRun.eq_def]
      dsimp only
      rw [if_neg other, same]

theorem blockCommentLength_append_of_shorter {depth : Nat}
    (shorter : blockCommentLength depth rest < rest.length) :
    blockCommentLength depth (rest ++ more) = blockCommentLength depth rest := by
  fun_induction blockCommentLength depth rest with
  | case1 => exact absurd shorter (Nat.lt_irrefl 0)
  | case2 depth rest ih =>
      have same := ih (by simp only [List.length_cons] at shorter; omega)
      rw [List.cons_append, List.cons_append, blockCommentLength, same]
  | case3 depth rest last =>
      rw [List.cons_append, List.cons_append, blockCommentLength, if_pos last]
  | case4 depth rest last ih =>
      have same := ih (by simp only [List.length_cons] at shorter; omega)
      rw [List.cons_append, List.cons_append, blockCommentLength, if_neg last, same]
  | case5 depth c rest opens closes ih =>
      have same := ih (by simp only [List.length_cons] at shorter; omega)
      cases rest with
      | nil => exact absurd shorter (Nat.lt_irrefl 1)
      | cons d rest =>
          rw [List.cons_append, List.cons_append, blockCommentLength, ← List.cons_append, same]
          · rintro after rfl here
            injection here with star
            exact opens rest rfl (congrArg (· :: rest) star)
          · rintro after rfl here
            injection here with slash
            exact closes rest rfl (congrArg (· :: rest) slash)

theorem tagRun_append_of_semicolon [Unicode] (semicolon : ';' ∈ rest) :
    tagRun (rest ++ more) = tagRun rest := by
  induction rest with
  | nil => cases semicolon
  | cons c rest ih =>
      rw [List.cons_append, tagRun, tagRun]
      by_cases dollar : c = '$'
      · rw [if_pos dollar, if_pos dollar]
      · rw [if_neg dollar, if_neg dollar]
        by_cases name : isNameChar c = true
        · rw [if_pos name, if_pos name]
          have later : ';' ∈ rest := by
            rcases List.mem_cons.mp semicolon with rfl | later
            · rw [isNameChar_of_isStop rfl] at name
              cases name
            · exact later
          rw [ih later]
        · rw [if_neg name, if_neg name]

theorem untilDelimiter_append_of_fits {delimiter : Str}
    (fits : (untilDelimiter delimiter rest).length + delimiter.length ≤ rest.length) :
    untilDelimiter delimiter (rest ++ more) = untilDelimiter delimiter rest := by
  induction rest with
  | nil =>
      have none : delimiter = [] := List.eq_nil_of_length_eq_zero
          (by simp only [List.length_nil] at fits; omega)
      rw [none]
      cases more with
      | nil => rfl
      | cons c more => rfl
  | cons c rest ih =>
      have same : delimiter.isPrefixOf (c :: rest ++ more) = delimiter.isPrefixOf (c :: rest) := by
        rw [Bool.eq_iff_iff, List.isPrefixOf_iff_prefix, List.isPrefixOf_iff_prefix]
        constructor
        · intro here
          exact List.prefix_of_prefix_length_le here (List.prefix_append _ _) (by omega)
        · intro here
          exact here.trans (List.prefix_append _ _)
      rw [untilDelimiter] at fits ⊢
      rw [List.cons_append] at same ⊢
      rw [untilDelimiter, same]
      split_ifs at fits ⊢ with here
      · rfl
      · rw [ih (by simp only [List.length_cons] at fits; omega)]

variable [Unicode] {c : Char}

theorem plainLexeme_append_of_shorter (shorter : (plainLexeme c rest).2 < (c :: rest).length) :
    plainLexeme c (rest ++ more) = plainLexeme c rest := by
  unfold plainLexeme at shorter ⊢
  split_ifs at shorter ⊢ with space digit start
  · rfl
  · have same := takeWhile_append_of_shorter more shorter
    rw [List.cons_append] at same
    rw [same]
  · have same := takeWhile_append_of_shorter more shorter
    rw [List.cons_append] at same
    rw [same]
  · rfl

/-- A piece that ends before its text does is the same with more text behind it. -/
theorem lexeme_append_of_shorter (shorter : (lexeme c rest).2 < (c :: rest).length)
    (semicolon : ';' ∈ rest) :
    lexeme c (rest ++ more) = lexeme c rest := by
  have opener (d e : Char) : (decide (c = d) && ([d, e] : Str).isPrefixOf (c :: (rest ++ more))) =
      (decide (c = d) && ([d, e] : Str).isPrefixOf (c :: rest)) := by
    cases rest with
    | nil => cases semicolon
    | cons next rest => simp [List.isPrefixOf]
  have dashes : (c = '-' && ("--" : Str).isPrefixOf (c :: (rest ++ more))) =
      (c = '-' && ("--" : Str).isPrefixOf (c :: rest)) := opener '-' '-'
  have slash : (c = '/' && ("/*" : Str).isPrefixOf (c :: (rest ++ more))) =
      (c = '/' && ("/*" : Str).isPrefixOf (c :: rest)) := opener '/' '*'
  rw [lexeme] at shorter ⊢
  rw [dashes, slash, lexeme]
  split_ifs at shorter ⊢ with finish line block single double dollar
  · rfl
  · have same := takeWhile_append_of_shorter more shorter
    rw [List.cons_append] at same
    rw [same]
  · have same := blockCommentLength_append_of_shorter more shorter
    rw [List.cons_append] at same
    rw [same]
  · rw [quotedRun_append_of_shorter more (Nat.lt_of_succ_lt_succ shorter)]
  · rw [quotedRun_append_of_shorter more (Nat.lt_of_succ_lt_succ shorter)]
  · rw [tagRun_append_of_semicolon more semicolon]
    cases tagged : tagRun rest with
    | none =>
        rw [tagged] at shorter
        exact plainLexeme_append_of_shorter more shorter
    | some tag =>
        rw [tagged] at shorter
        dsimp only at shorter ⊢
        generalize ("$" ++ tag ++ "$" : Str) = delimiter at shorter ⊢
        have within : delimiter.length ≤ (c :: rest).length := by omega
        have dropped :
            (c :: (rest ++ more)).drop delimiter.length =
            (c :: rest).drop delimiter.length ++ more :=
          List.drop_append_of_le_length within
        have fits : (untilDelimiter delimiter ((c :: rest).drop delimiter.length)).length +
            delimiter.length ≤
            ((c :: rest).drop delimiter.length).length := by
          rw [List.length_drop]
          omega
        rw [dropped, untilDelimiter_append_of_fits more fits]
  · exact plainLexeme_append_of_shorter more shorter

end Inside

section Append

open Scanner

variable [Unicode]

/--
The scanner comes to the last character of the text, a semicolon, with nothing else left to read.
-/
def EndsStatement (sql : Str) : Prop := ∃ fuel, ((Scanner.new sql).loop fuel).rest = [';']

theorem suffix_of_loop {fuel : Nat} {s : Scanner} {left : Str}
    (reaches : (s.loop fuel).rest = left) :
    left <:+ s.rest := by
  induction fuel generalizing s with
  | zero => exact reaches ▸ List.suffix_refl _
  | succ fuel ih =>
      rw [loop] at reaches
      by_cases unfinished : s.offset < s.chars.length
      · rw [if_pos unfinished] at reaches
        cases front : s.rest with
        | nil =>
            have stays : s.step = s := by
              unfold step
              rw [front]
            rw [stays] at reaches
            exact front ▸ ih reaches
        | cons c rest =>
            have later := ih reaches
            rw [(step_reads front).rest, front] at later
            exact later.trans (List.drop_suffix _ _)
      · rw [if_neg unfinished] at reaches
        exact reaches ▸ List.suffix_refl _

/-- The pieces of a text that ends a statement stay what they are, and end one too. -/
theorem parts_append {fuel : Nat} {s : Scanner} (reaches : (s.loop fuel).rest = [';'])
    (more : Str) :
    parts (s.rest ++ more) = parts s.rest ++ parts more ∧
      ∃ front, parts s.rest = front ++ [(some .finish, [';'])] := by
  have finished : lexeme ';' more = (some .finish, 1) := rfl
  have last : parts [';'] = [(some .finish, [';'])] := by
    rw [parts_cons]
    change [(some Event.finish, [';'])] ++ parts [] = _
    rw [parts_nil]
    rfl
  induction fuel generalizing s with
  | zero =>
      rw [loop] at reaches
      rw [reaches, last]
      refine ⟨?_, [], rfl⟩
      rw [List.cons_append, List.nil_append, parts_cons, finished]
      rfl
  | succ fuel ih =>
      rw [loop] at reaches
      by_cases unfinished : s.offset < s.chars.length
      · rw [if_pos unfinished] at reaches
        rcases front : s.rest with _ | ⟨c, rest⟩
        · rw [Scanner.rest, List.drop_eq_nil_iff] at front
          omega
        · have later := ih reaches
          have suffix := suffix_of_loop reaches
          rw [(step_reads front).rest, front] at later suffix
          rcases later with ⟨apart, pieces, closed⟩
          have shorter : (lexeme c rest).2 < (c :: rest).length := by
            have bound := suffix.length_le
            rw [List.length_drop, List.length_singleton] at bound
            omega
          have semicolon : ';' ∈ rest := by
            cases count : (lexeme c rest).2 with
            | zero => exact absurd (lexeme_pos c rest) (by omega)
            | succ count' =>
                rw [count, List.drop_succ_cons] at suffix
                exact (suffix.trans (List.drop_suffix _ _)).subset List.mem_cons_self
          have same := lexeme_append_of_shorter more shorter semicolon
          have taken : (c :: (rest ++ more)).take (lexeme c rest).2 =
              (c :: rest).take (lexeme c rest).2 :=
            List.take_append_of_le_length (Nat.le_of_lt shorter)
          have dropped :
              (c :: (rest ++ more)).drop (lexeme c rest).2 = (c :: rest).drop
              (lexeme c rest).2 ++ more :=
            List.drop_append_of_le_length (Nat.le_of_lt shorter)
          constructor
          · rw [List.cons_append, parts_cons, same, taken, dropped, apart, parts_cons,
              List.cons_append]
          · exact ⟨_ :: pieces, by rw [parts_cons, closed, List.cons_append]⟩
      · rw [if_neg unfinished] at reaches
        rw [Scanner.rest, List.drop_eq_nil_iff.mpr (by omega)] at reaches
        cases reaches

/-- The statements of a script behind one that ends a statement are those it has alone. -/
theorem scan_append {first : Str} (ends : EndsStatement first) (second : Str) :
    scan (first ++ second) = ((scan first).1 ++ (scan second).1,
      (scan first).2 ++ (scan second).2.map (LayoutHint.raise (scan first).1.length)) := by
  rcases ends with ⟨fuel, reaches⟩
  rcases parts_append reaches second with ⟨apart, front, closed⟩
  change parts (first ++ second) = parts first ++ parts second at apart
  change parts first = front ++ [(some .finish, [';'])] at closed
  have nothing : ((parts first).foldl Collected.feed .empty).tokens = [] ∧
      ((parts first).foldl Collected.feed .empty).source = [] := by
    rw [closed, List.foldl_append]
    exact Collected.nothing_open _ _
  have whole : (parts first).foldl Collected.feed .empty = collect first := by
    rw [collect, Collected.feed_finish nothing.1 nothing.2]
  have behind :
      collect first = Collected.empty.behind (collect first).statements (collect first).hints := by
    rw [← whole]
    exact Collected.eq_behind nothing.1 nothing.2
  have appended : collect (first ++ second) =
      (collect second).behind (collect first).statements (collect first).hints := by
    rw [collect, apart, List.foldl_append, whole, behind, Collected.foldl_feed_behind,
      Collected.feed_behind, ← behind]
    rfl
  rw [scan_eq, scan_eq first, scan_eq second, appended]
  rfl

omit [Unicode] in
theorem scan_append_usersPosts : letI := Unicode.ascii
    scan ("create table users (id int);create table posts (id int);" : Str) =
      ((scan ("create table users (id int);" : Str)).1 ++
        (scan ("create table posts (id int);" : Str)).1,
      (scan ("create table users (id int);" : Str)).2 ++
        (scan ("create table posts (id int);" : Str)).2.map
          (LayoutHint.raise (scan ("create table users (id int);" : Str)).1.length)) :=
  letI := Unicode.ascii
  scan_append (⟨11, by decide⟩ : EndsStatement "create table users (id int);")
    "create table posts (id int);"

end Append

end SchemaForge.Sql
