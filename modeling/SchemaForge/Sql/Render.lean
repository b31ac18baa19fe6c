import SchemaForge.Sql.Cursor
import SchemaForge.Sql.Script

/-!
# Rendered tokens are read back

The tokens that the scanner reads from ASCII text are spellable: each can be
written out so that it is read back. Rendering writes them one after another
with the fewest spaces that keep them apart, so a rendered list of tokens is read
back as that list.
-/

namespace SchemaForge.Sql

/-- A token of ASCII text, in the form the scanner gives it. -/
def isSpellable : Token → Bool
  | .word word => isAsciiWord word && Str.toAsciiLowercase word == word
  | .number number => isNumeral number
  | .punct punct => isPunctuation punct
  | .quoted _ => true
  | .text _ => true

section Render

theorem render_append (tokens : List Token) (token : Token) :
    render (tokens ++ [token]) =
      render tokens ++ joint (render tokens) (piece token) ++ piece token := by
  simp [render]

theorem piece_ne_nil {token : Token} (spellable : isSpellable token = true) : piece token ≠ [] := by
  cases token with
  | word word => rintro rfl; simp [isSpellable, isAsciiWord] at spellable
  | number number => rintro rfl; simp [isSpellable, isNumeral] at spellable
  | quoted name => simp [piece]
  | text text => simp [piece]
  | punct punct => simp [piece]

/-- Only an opening parenthesis ends in one. -/
theorem piece_eq_of_getLast? {token : Token} (spellable : isSpellable token = true)
    (last : (piece token).getLast? = some '(') : piece token = ['('] := by
  have mem := List.mem_of_getLast? last
  cases token with
  | word word =>
      simp only [isSpellable, Bool.and_eq_true] at spellable
      rcases word with _ | ⟨c, tail⟩
      · contradiction
      · exact absurd ((isAsciiWord_cons spellable.1).2 '(' mem) (by decide)
  | number number =>
      rcases number with _ | ⟨c, tail⟩
      · contradiction
      · simp only [isSpellable, isNumeral, Bool.and_eq_true, List.all_eq_true] at spellable
        rcases List.mem_cons.mp mem with rfl | mem
        · exact absurd spellable.1 (by decide)
        · exact absurd (spellable.2 _ mem) (by decide)
  | quoted name =>
      rw [piece, List.getLast?_append_of_ne_nil _ (by simp)] at last
      exact absurd last (by decide)
  | text text =>
      rw [piece, List.getLast?_append_of_ne_nil _ (by simp)] at last
      exact absurd last (by decide)
  | punct punct => simpa [piece] using last

/-- Whatever may follow the rendered tokens: a stop, or anything after an opening parenthesis. -/
def MayFollow (out rest : Str) : Prop := out = [] ∨ out.getLast? = some '(' ∨ Stops rest

/-- Where no space is put, none is needed. -/
theorem mayFollow_joint {out : Str} (written rest : Str) :
    MayFollow out (joint out written ++ (written ++ rest)) := by
  unfold joint
  split
  · exact .inr (.inr (by simp [isStop]))
  · rename_i tight
    simp only [Bool.and_eq_true, not_and, Bool.not_eq_true', List.isEmpty_eq_false_iff,
      bne_iff_ne, ne_eq, Decidable.not_not] at tight
    by_cases empty : out = []
    · exact .inl empty
    · by_cases separator : ([[')'], [','], ['(']] : List Str).contains written = true
      · refine .inr (.inr ?_)
        simp only [List.contains_eq_mem, List.mem_cons, List.not_mem_nil, or_false,
          decide_eq_true_eq] at separator
        rcases separator with rfl | rfl | rfl <;> simp [isStop]
      · exact .inr (.inl (tight ⟨empty, by simpa using separator⟩))

variable [Unicode]

/-- A token that a stop follows, or that is an opening parenthesis, is read back. -/
theorem lex_piece {token : Token} (spellable : isSpellable token = true) {rest : Str}
    (follows : Stops rest ∨ piece token = ['(']) :
    lex (piece token ++ rest) = .token token :: lex rest := by
  have closed {c : Char} (stops : Stops rest) (other : isStop c = false) :
      ∀ d ∈ rest.head?, d ≠ c := by
    rintro d mem rfl
    exact absurd (stops d mem) (by simp [other])
  by_cases opening : piece token = ['(']
  · have shape : token = .punct '(' := by
      cases token with
      | word word =>
          obtain rfl : word = ['('] := opening
          exact absurd spellable (by decide)
      | number number =>
          obtain rfl : number = ['('] := opening
          exact absurd spellable (by decide)
      | quoted name => simp [piece] at opening
      | text text => simp [piece] at opening
      | punct punct => simpa [piece] using opening
    rw [opening, shape, List.singleton_append, lex_opening]
  · have stops : Stops rest := follows.resolve_right opening
    cases token with
    | word word =>
        simp only [isSpellable, Bool.and_eq_true, beq_iff_eq] at spellable
        rw [piece, lex_word spellable.1 stops, spellable.2]
    | number number => exact lex_number spellable stops
    | quoted name => exact lex_quoted name (closed stops (by decide))
    | text text => exact lex_text text (closed stops (by decide))
    | punct punct => exact lex_punct spellable stops

theorem lex_joint (out written rest : Str) :
    lex (joint out written ++ rest) = lex rest := by
  unfold joint
  split <;> simp

theorem lex_render {tokens : List Token} (spellable : ∀ token ∈ tokens, isSpellable token = true)
    {rest : Str} (follows : MayFollow (render tokens) rest) :
    lex (render tokens ++ rest) = tokens.map .token ++ lex rest := by
  induction tokens using List.reverseRecOn generalizing rest with
  | nil => rfl
  | append_singleton tokens token ih =>
      have last := spellable token (by simp)
      have before := ih (fun token mem => spellable token (List.mem_append_left _ mem))
        (mayFollow_joint (piece token) rest)
      -- The last token decides what may follow the whole.
      have next : Stops rest ∨ piece token = ['('] := by
        rw [render_append] at follows
        rcases follows with empty | parenthesis | stops
        · exact absurd (List.append_eq_nil_iff.mp empty).2 (piece_ne_nil last)
        · rw [List.getLast?_append_of_ne_nil _ (piece_ne_nil last)] at parenthesis
          exact .inr (piece_eq_of_getLast? last parenthesis)
        · exact .inl stops
      rw [render_append, List.append_assoc, List.append_assoc, before, lex_joint,
        lex_piece last next]
      simp

/-- Rendered tokens are read back wherever a stop follows them. -/
theorem spells_render {tokens : List Token}
    (spellable : ∀ token ∈ tokens, isSpellable token = true) :
    Spells (render tokens) tokens := fun _ stops =>
  lex_render spellable (.inr (.inr stops))

theorem tokensOf_render {tokens : List Token}
    (spellable : ∀ token ∈ tokens, isSpellable token = true) :
    tokensOf (render tokens) = tokens := by
  have whole := spells_render spellable [] stops_nil
  rw [List.append_nil, lex_nil, List.append_nil] at whole
  rw [tokensOf, whole, List.filterMap_map]
  exact List.filterMap_some

theorem selfContained_render {tokens : List Token}
    (spellable : ∀ token ∈ tokens, isSpellable token = true) : SelfContained (render tokens) := by
  rw [SelfContained, tokensOf_render spellable]
  exact spells_render spellable

end Render

section Ascii

variable [Unicode]

open Scanner

/-- Every character of the text is an ASCII one. -/
def IsAscii (s : Str) : Prop := ∀ c ∈ s, c.toNat < 128

omit [Unicode] in
/-- The letter case of a name's characters does not matter. -/
theorem isAsciiWord_toAsciiLowercase {word : Str} (spelled : isAsciiWord word = true) :
    isAsciiWord (Str.toAsciiLowercase word) = true := by
  have lowered (c : Char) : c.toLower = c ∨ c.toLower.isAlpha = true := by
    rcases Str.toLower_cases c with same | ⟨_, _, value⟩
    · exact .inl same
    · exact .inr ((Str.isAlpha_iff _).mpr (by omega))
  cases word with
  | nil => simp [isAsciiWord] at spelled
  | cons c tail =>
      simp only [isAsciiWord, Bool.and_eq_true, List.all_eq_true] at spelled
      simp only [Str.toAsciiLowercase, List.map_cons, isAsciiWord, Bool.and_eq_true,
        List.all_eq_true, List.forall_mem_map]
      refine ⟨?_, fun d mem => ?_⟩
      · rcases lowered c with same | alpha
        · rw [same]
          exact spelled.1
        · simp [alpha]
      · rcases lowered d with same | alpha
        · rw [same]
          exact spelled.2 d mem
        · simp [Char.isAlphanum, alpha]

omit [Unicode] in
theorem toAsciiLowercase_toAsciiLowercase (s : Str) :
    Str.toAsciiLowercase (Str.toAsciiLowercase s) = Str.toAsciiLowercase s := by
  rw [Str.toAsciiLowercase, Str.toAsciiLowercase, List.map_map]
  refine List.map_congr_left fun c _ => ?_
  rw [Function.comp_apply]
  rcases Str.toLower_cases c with same | ⟨_, _, value⟩
  · rw [same, same]
  · rcases Str.toLower_cases c.toLower with same | ⟨_, _, _⟩
    · exact same
    · omega

theorem isSpellable_word {c : Char} {rest : Str} (ascii : IsAscii (c :: rest))
    (start : isNameStart c = true) :
    isSpellable (.word (Str.toLowercase ((c :: rest).takeWhile isNameChar))) = true := by
  have small : ∀ d ∈ (c :: rest).takeWhile isNameChar, d.toNat < 128 := fun d mem =>
    ascii d ((List.takeWhile_prefix _).subset mem)
  have spelled : isAsciiWord ((c :: rest).takeWhile isNameChar) = true := by
    rw [List.takeWhile_cons_of_pos (isNameChar_of_isNameStart start), isAsciiWord,
      Bool.and_eq_true, List.all_eq_true]
    refine ⟨by rw [← isNameStart_ascii (ascii c (by simp)), start], fun d mem => ?_⟩
    rw [← isNameChar_ascii
      (ascii d (List.mem_cons_of_mem _ ((List.takeWhile_prefix _).subset mem)))]
    exact List.mem_takeWhile_imp mem
  rw [isSpellable, Str.toLowercase_ascii small, isAsciiWord_toAsciiLowercase spelled,
    toAsciiLowercase_toAsciiLowercase]
  simp

omit [Unicode] in
theorem isSpellable_number {c : Char} (rest : Str) (digit : c.isDigit = true) :
    isSpellable (.number ((c :: rest).takeWhile fun c => c.isDigit || c == '.')) = true := by
  rw [List.takeWhile_cons_of_pos (by simp [digit]), isSpellable, isNumeral, digit, Bool.true_and,
    List.all_eq_true]
  intro d mem
  exact List.mem_takeWhile_imp (p := fun c : Char => c.isDigit || c == '.') mem

/-- The piece at the front of ASCII text is spellable. -/
theorem isSpellable_of_lexeme {c : Char} {rest : Str} (ascii : IsAscii (c :: rest)) {token : Token}
    (read : (lexeme c rest).1 = some (.token token)) : isSpellable token = true := by
  have plain (special : c ∉ ([';', '\'', '"'] : Str))
      (read : (plainLexeme c rest).1 = some (.token token)) : isSpellable token = true := by
    unfold plainLexeme at read
    split_ifs at read with space digit start
    · obtain rfl : _ = token := by simpa using read
      exact isSpellable_number rest digit
    · obtain rfl : _ = token := by simpa using read
      exact isSpellable_word ascii start
    · obtain rfl : _ = token := by simpa using read
      have small := ascii c (by simp)
      rw [isNameStart_ascii small] at start
      exact isPunctuation_iff.mpr ⟨small, special, by simpa using space, by simpa using digit,
        by simpa using start⟩
  unfold lexeme at read
  split_ifs at read with semicolon line block single double
  · simp at read
  · simp at read
  · obtain rfl : _ = token := by simpa using read
    rfl
  · obtain rfl : _ = token := by simpa using read
    rfl
  · have special : c ∉ ([';', '\'', '"'] : Str) := by simp [semicolon, single, double]
    split at read
    · obtain rfl : _ = token := by simpa using read
      rfl
    · exact plain special read
  · exact plain (by simp [semicolon, single, double]) read

theorem isSpellable_of_mem_lex {s : Str} (ascii : IsAscii s) {token : Token}
    (mem : .token token ∈ lex s) : isSpellable token = true := by
  induction s using lex.induct with
  | case1 => simp at mem
  | case2 c rest ih =>
      rw [lex_cons, List.mem_append, Option.mem_toList] at mem
      rcases mem with here | later
      · exact isSpellable_of_lexeme ascii here
      · exact ih (fun d found => ascii d (List.mem_of_mem_drop found)) later

omit [Unicode] in
/-- What holds of every token that is fed holds of every token that is collected. -/
theorem forall_token_feed {p : Token → Prop} {events : List Event}
    (each : ∀ token, .token token ∈ events → p token) {reading : Reading}
    (before : (∀ tokens ∈ reading.statements, ∀ token ∈ tokens, p token) ∧
      ∀ token ∈ reading.tokens, p token) :
    (∀ tokens ∈ (events.foldl Reading.feed reading).statements, ∀ token ∈ tokens, p token) ∧
      ∀ token ∈ (events.foldl Reading.feed reading).tokens, p token := by
  induction events generalizing reading with
  | nil => exact before
  | cons event events ih =>
      refine ih (fun token mem => each token (List.mem_cons_of_mem _ mem)) ?_
      obtain ⟨statements, tokens⟩ := before
      cases event with
      | token token =>
          refine ⟨statements, fun other mem => ?_⟩
          rcases List.mem_append.mp mem with old | new
          · exact tokens other old
          · rw [List.mem_singleton.mp new]
            exact each token (List.mem_cons_self ..)
      | line text =>
          simp only [Reading.feed]
          split <;> exact ⟨statements, tokens⟩
      | finish =>
          simp only [Reading.feed]
          split
          · exact ⟨statements, tokens⟩
          · refine ⟨fun list mem => ?_, by simp⟩
            rcases List.mem_append.mp mem with old | new
            · exact statements list old
            · rw [List.mem_singleton.mp new]
              exact tokens

/-- The tokens of a statement of ASCII text are spellable. -/
theorem isSpellable_of_mem_scan {text : Str} (ascii : IsAscii text) {statement : Statement}
    (mem : statement ∈ (scan text).1) {token : Token} (tokenMem : token ∈ statement.tokens) :
    isSpellable token = true := by
  have fed : ∀ tokens ∈ (readingOf text).statements, ∀ token ∈ tokens,
      isSpellable token = true := by
    have folded : readingOf text = (lex text ++ [Event.finish]).foldl Reading.feed .empty := by
      rw [List.foldl_append]
      rfl
    rw [folded]
    refine (forall_token_feed (fun token found => ?_) ⟨by simp [Reading.empty], by
      simp [Reading.empty]⟩).1
    simp only [List.mem_append, List.mem_singleton, reduceCtorEq, or_false] at found
    exact isSpellable_of_mem_lex ascii found
  rw [← (scan_reading text).1] at fed
  exact fed _ (List.mem_map_of_mem mem) token tokenMem

/-- The tokens of a statement, rendered, are scanned as that statement again. -/
theorem scan_render {text : Str} (ascii : IsAscii text) {statement : Statement}
    (mem : statement ∈ (scan text).1) :
    (∃ source, (scan (render statement.tokens)).1 = [⟨statement.tokens, source⟩]) ∧
      (scan (render statement.tokens)).2 = [] := by
  have spellable : ∀ token ∈ statement.tokens, isSpellable token = true := fun token found =>
    isSpellable_of_mem_scan ascii mem found
  have lexed := @lex_render _ _ spellable [] (.inr (.inr stops_nil))
  rw [List.append_nil, lex_nil, List.append_nil] at lexed
  rcases scan_of_lex lexed (tokens_ne_nil_of_mem_scan mem) with ⟨statements, hints⟩
  refine ⟨?_, hints⟩
  rcases List.map_eq_singleton_iff.mp statements with ⟨one, alone, tokens⟩
  refine ⟨one.source, ?_⟩
  rw [alone, ← tokens]

/-- A call whose argument is quoted between dollar signs. -/
def taggedCall : Statement where
  tokens := [.word "a", .punct '(', .text "b'c", .punct ')']
  source := "A($x$b'c$x$);"

omit [Unicode] in
theorem scan_render_taggedCall :
    (∃ source, (@scan Unicode.ascii (render taggedCall.tokens)).1 = [⟨taggedCall.tokens, source⟩]) ∧
      (@scan Unicode.ascii (render taggedCall.tokens)).2 = [] := by
  have small : (taggedCall.source.all fun c => decide (c.toNat < 128)) = true := by decide
  have ascii : IsAscii taggedCall.source :=
    fun c found => of_decide_eq_true (List.all_eq_true.mp small c found)
  have mem : taggedCall ∈ (@scan Unicode.ascii taggedCall.source).1 := by decide
  exact @scan_render Unicode.ascii _ ascii _ mem

end Ascii

end SchemaForge.Sql
