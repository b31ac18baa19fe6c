import SchemaForge.Sql.Lexemes

/-!
# The top level of a line

What PostgreSQL reads the line of a column as, one character after another: the quote
or the comment that it is in, the brackets that are open, and whether it has met the
word `UNIQUE` among the column's own clauses. The word is reserved, so that at the top
level and behind no dot it is the clause.
-/

namespace SchemaForge.Sql

namespace TopLevel

open Lexical

/-- What the last characters belong to. -/
inductive Mode where
  | between
  /-- An unquoted word, as far as it is spelled. -/
  | word (spelled : Str)
  | number
  /-- The first character of what may be a comment, perhaps behind a constant. -/
  | dash (constant : Option Bool)
  | slash
  | quoted
  | text (escapes : Bool)
  /-- A backslash in a constant with escapes. -/
  | escape
  /-- Behind a constant, with the blanks since; a quote on another line continues it. -/
  | closed (escapes : Bool) (blanks : Str)
  /-- A dollar sign and what may be the tag behind it. -/
  | tag (name : Str)
  /-- A dollar-quoted constant, and what stands behind its last dollar sign. -/
  | dollar (name : Str) (since : Option Str)
  | lineComment (constant : Option Bool)
  | blockComment (depth : Nat) (last : Option Char)
deriving DecidableEq

/-- How far a line has been read. -/
structure Reading where
  mode : Mode
  /-- The parentheses and brackets that are open. -/
  depth : Nat
  /-- The column is over. -/
  ended : Bool
  /-- The last token is a dot. -/
  dotted : Bool
  /-- The column has the clause. -/
  unique : Bool
deriving DecidableEq

namespace Reading

def start : Reading := ⟨.between, 0, false, false, false⟩

/-- The character begins something, or separates. -/
def begin (reading : Reading) (c : Char) : Reading :=
  if isBlank c then { reading with mode := .between }
  else if isIdentStart c then { reading with mode := .word [c] }
  else if c.isDigit then { reading with mode := .number, dotted := false }
  else
    match c with
    | '-' => { reading with mode := .dash none }
    | '/' => { reading with mode := .slash }
    | '.' => { reading with mode := .between, dotted := true }
    | '"' => { reading with mode := .quoted, dotted := false }
    | '\'' => { reading with mode := .text false, dotted := false }
    | '$' => { reading with mode := .tag [], dotted := false }
    | '(' | '[' => { reading with mode := .between, depth := reading.depth + 1, dotted := false }
    | ')' | ']' =>
        { reading with
          mode := .between
          depth := reading.depth - 1
          ended := reading.ended || reading.depth == 0
          dotted := false }
    | ',' =>
        { reading with
          mode := .between
          ended := reading.ended || reading.depth == 0
          dotted := false }
    | ';' => { reading with mode := .between, ended := true, dotted := false }
    | _ => { reading with mode := .between, dotted := false }

/-- The word is over, and it may have been the clause. -/
def settle (reading : Reading) (spelled : Str) : Reading :=
  { reading with
    dotted := false
    unique := reading.unique || (Str.eqIgnoreAsciiCase spelled "UNIQUE" && reading.depth == 0 &&
      !reading.ended && !reading.dotted) }

/-- A word goes on, opens a constant with escapes, or is over. -/
def inWord (reading : Reading) (spelled : Str) (c : Char) : Reading :=
  if isIdentChar c then { reading with mode := .word (spelled ++ [c]) }
  else if c = '\'' ∧
    (spelled = "e" ∨ spelled = "E") then { reading with mode := .text true, dotted := false }
  else (reading.settle spelled).begin c

def step (reading : Reading) (c : Char) : Reading :=
  match reading.mode with
  | .between => reading.begin c
  | .word spelled => reading.inWord spelled c
  | .number => if isIdentChar c || c == '.' then reading else reading.begin c
  | .dash constant =>
      if c = '-' then { reading with mode := .lineComment constant }
      else { reading with dotted := false }.begin c
  | .slash =>
      if c = '*' then { reading with mode := .blockComment 1 none }
      else { reading with dotted := false }.begin c
  | .quoted => if c = '"' then { reading with mode := .between } else reading
  | .text escapes =>
      if c = '\'' then { reading with mode := .closed escapes [] }
      else if escapes && c == '\\' then { reading with mode := .escape }
      else reading
  | .escape => { reading with mode := .text true }
  | .closed escapes blanks =>
      if c = '\'' ∧
        (blanks = [] ∨ blanks.any isLineBreak) then { reading with mode := .text escapes }
      else if isBlank c then { reading with mode := .closed escapes (blanks ++ [c]) }
      else if c = '-' then { reading with mode := .dash (some escapes) }
      else reading.begin c
  | .tag name =>
      if c = '$' then { reading with mode := .dollar name none }
      else if isIdentStart c ||
        (c.isDigit && !name.isEmpty) then { reading with mode := .tag (name ++ [c]) }
      else if name.isEmpty then reading.begin c
      else reading.inWord name c
  | .dollar name since =>
      if c = '$' then
        if since = some name then { reading with mode := .between }
        else { reading with mode := .dollar name (some []) }
      else { reading with mode := .dollar name (since.map (· ++ [c])) }
  | .lineComment constant =>
      if isLineBreak c then
        match constant with
        | some escapes => { reading with mode := .closed escapes [c] }
        | none => { reading with mode := .between }
      else reading
  | .blockComment depth last =>
      if last = some '/' ∧ c = '*' then { reading with mode := .blockComment (depth + 1) none }
      else if last = some '*' ∧ c = '/' then
        if depth ≤ 1 then { reading with mode := .between }
        else { reading with mode := .blockComment (depth - 1) none }
      else { reading with mode := .blockComment depth (some c) }

def run (reading : Reading) (s : Str) : Reading := s.foldl step reading

/-- A quote or a comment is open, and what follows is part of it. -/
def hides (reading : Reading) : Bool :=
  match reading.mode with
  | .quoted | .text _ | .escape | .dollar _ _ | .lineComment _ | .blockComment _ _ => true
  | _ => false

/-- What follows is no clause of the column: it is hidden, a bracket is open, the column is over, or
the last token is a dot. -/
def isOpen (reading : Reading) : Bool :=
  reading.hides || reading.depth != 0 || reading.ended || reading.dotted

variable {reading : Reading}

@[simp]
theorem run_nil : reading.run [] = reading := rfl

@[simp]
theorem run_cons {c : Char} {s : Str} : reading.run (c :: s) = (reading.step c).run s := rfl

theorem run_append {first second : Str} :
    reading.run (first ++ second) = (reading.run first).run second :=
  List.foldl_append

/-- A quoted name is passed over, whatever is in it. -/
theorem run_double (name : Str) (depth : Nat) (ended unique : Bool) :
    (Reading.mk .quoted depth ended false unique).run (Str.double '"' name) =
      ⟨.quoted, depth, ended, false, unique⟩ := by
  induction name with
  | nil => rfl
  | cons c name ih =>
      rw [Str.double, List.flatMap_cons, run_append, ← Str.double]
      by_cases quote : c = '"'
      · rw [if_pos quote]
        exact ih
      · rw [if_neg quote, run_cons, run_nil]
        have inside : (Reading.mk .quoted depth ended false unique).step c =
            ⟨.quoted, depth, ended, false, unique⟩ :=
          if_neg quote
        rw [inside, ih]

theorem step_digit {c : Char} (digit : c.isDigit = true) (depth : Nat) (ended unique : Bool) :
    (Reading.mk .between depth ended false unique).step c =
      ⟨.number, depth, ended, false, unique⟩ := by
  have small := (Str.isDigit_iff c).mp digit
  have noBlank : isBlank c = false := by
    rw [isBlank, List.contains_eq_mem, decide_eq_false_iff_not]
    intro mem
    simp only [List.mem_cons, List.not_mem_nil, or_false] at mem
    rcases mem with rfl | rfl | rfl | rfl | rfl | rfl <;> cases digit
  have noLetter : isIdentStart c = false := by
    rw [isIdentStart, Bool.or_eq_false_iff, Bool.or_eq_false_iff]
    refine ⟨⟨?_, ?_⟩, decide_eq_false (by omega)⟩
    · rw [Bool.eq_false_iff, ne_eq, Str.isAlpha_iff]
      omega
    · rw [beq_eq_false_iff_ne]
      rintro rfl
      cases digit
  simp only [step, begin, noBlank, noLetter, digit, Bool.false_eq_true, if_false, if_true]

theorem run_digits {s : Str} (digits : ∀ c ∈ s, c.isDigit = true) (depth : Nat)
    (ended unique : Bool) :
    (Reading.mk .number depth ended false unique).run s =
      ⟨.number, depth, ended, false, unique⟩ := by
  induction s with
  | nil => rfl
  | cons c s ih =>
      rw [List.forall_mem_cons] at digits
      have inside : (isIdentChar c || c == '.') = true := by
        rw [isIdentChar, digits.1, Bool.or_true, Bool.true_or, Bool.true_or]
      rw [run_cons, step]
      simp only [inside, if_true]
      exact ih digits.2

theorem run_ofNat (n depth : Nat) (ended unique : Bool) :
    (Reading.mk .between depth ended false unique).run (Str.ofNat n) =
      ⟨.number, depth, ended, false, unique⟩ := by
  have digits : ∀ c ∈ Str.ofNat n, c.isDigit = true := fun _ => Str.isDigit_of_mem_ofNat
  cases shape : Str.ofNat n with
  | nil => exact absurd shape (Str.ofNat_ne_nil n)
  | cons c rest =>
      rw [shape, List.forall_mem_cons] at digits
      rw [run_cons, step_digit digits.1, run_digits digits.2]

/-- The character neither closes a quote or a comment nor opens one inside it. -/
def isPlain (c : Char) : Bool := !(['"', '\'', '$', '\\', '*', '/', '\n', '\r'] : Str).contains c

theorem step_of_hides {c : Char} (hides : reading.hides = true) (plain : isPlain c = true) :
    (reading.step c).hides = true ∧ (reading.step c).unique = reading.unique := by
  rcases reading with ⟨mode, depth, ended, dotted, unique⟩
  simp only [isPlain, List.contains_eq_mem, List.mem_cons, List.not_mem_nil, or_false, not_or,
    Bool.not_eq_true', decide_eq_false_iff_not] at plain
  rcases plain with ⟨quote, apostrophe, dollar, backslash, star, slash, newline, carriage⟩
  have lineBreak : isLineBreak c = false := by simp [isLineBreak, newline, carriage]
  cases mode with
  | between | word | number | dash | slash | closed | tag => cases hides
  | quoted => simp [step, quote, Reading.hides]
  | text escapes => simp [step, apostrophe, backslash, Reading.hides]
  | escape => exact ⟨rfl, rfl⟩
  | dollar name since => simp [step, dollar, Reading.hides]
  | lineComment constant => simp [step, lineBreak, Reading.hides]
  | blockComment level last => simp [step, star, slash, Reading.hides]

theorem run_of_hides {s : Str} (hides : reading.hides = true) (plain : ∀ c ∈ s, isPlain c = true) :
    (reading.run s).hides = true ∧ (reading.run s).unique = reading.unique := by
  induction s generalizing reading with
  | nil => exact ⟨hides, rfl⟩
  | cons c s ih =>
      rw [List.forall_mem_cons] at plain
      rcases step_of_hides hides plain.1 with ⟨hides', same⟩
      rw [run_cons, ← same]
      exact ih hides' plain.2

/-- A blank ends a word, a number and an operator. -/
theorem mode_step_blank (reading : Reading) : (reading.step ' ').hides = true ∨
    (reading.step ' ').mode = .between ∨ ∃ escapes blanks, (reading.step ' ').mode =
      .closed escapes blanks := by
  rcases reading with ⟨mode, depth, ended, dotted, unique⟩
  cases mode with
  | between | word _ | number | dash _ | slash => exact .inr (.inl rfl)
  | quoted | text _ | escape | dollar _ _ | lineComment _ =>
      exact .inl (step_of_hides rfl rfl).1
  | blockComment _ _ => exact .inl (step_of_hides rfl rfl).1
  | closed escapes blanks => exact .inr (.inr ⟨escapes, blanks ++ [' '], rfl⟩)
  | tag name =>
      cases name with
      | nil => exact .inr (.inl rfl)
      | cons _ _ => exact .inr (.inl rfl)

/--
Between two tokens the clause is met unless a bracket is open, the column is over or a dot is
behind.
-/
theorem unique_run_of_between (between : reading.mode = .between) :
    ((reading.run "UNIQUE").step ' ').unique =
    (reading.unique || !(reading.depth != 0 || reading.ended || reading.dotted)) := by
  rcases reading with ⟨mode, depth, ended, dotted, unique⟩
  cases between
  have word : Reading.run ⟨.between, depth, ended, dotted, unique⟩ "UNIQUE" =
      ⟨.word "UNIQUE", depth, ended, dotted, unique⟩ := rfl
  have ending : (Reading.mk (.word "UNIQUE") depth ended dotted unique).step ' ' =
      { (Reading.mk .between depth ended dotted unique).settle "UNIQUE" with mode := .between } :=
    rfl
  rw [word, ending, settle, Str.eqIgnoreAsciiCase_refl]
  cases depth with
  | zero => simp [Bool.not_or]
  | succ depth => simp

/-- The clause at the end of a line is met unless something is open in front of it. -/
theorem unique_run_clause (reading : Reading) :
    (((reading.step ' ').run "UNIQUE").step ' ').unique =
    ((reading.step ' ').unique || !(reading.step ' ').isOpen) := by
  generalize stands : reading.step ' ' = behind
  rcases stands ▸ mode_step_blank reading with hides | between | ⟨escapes, blanks, closed⟩
  · rcases run_of_hides (s := "UNIQUE ") hides (List.all_eq_true.mp rfl) with ⟨-, same⟩
    rw [isOpen, hides, Bool.true_or, Bool.true_or, Bool.true_or, Bool.not_true, Bool.or_false]
    exact same
  · rw [unique_run_of_between between, isOpen, hides, between, Bool.false_or]
  · -- The first letter does not continue the constant.
    have begins : behind.step 'U' = ({ behind with mode := .between } : Reading).step 'U' := by
      rw [step, closed]
      rfl
    have word : ("UNIQUE" : Str) = 'U' :: "NIQUE" := rfl
    have met := @unique_run_of_between { behind with mode := .between } rfl
    rw [word, run_cons, ← begins, ← run_cons, ← word] at met
    rw [met, isOpen, hides, closed, Bool.false_or]

end Reading

/-- The column of the line has a `UNIQUE` of its own. -/
def carriesUnique (line : Str) : Bool := ((Reading.start.run line).step ' ').unique

/-- What follows the text is no clause of the column. -/
def leavesOpen (text : Str) : Bool := ((Reading.start.run text).step ' ').isOpen

/-- A text that the clause stands behind has it too, or leaves something open. -/
theorem carriesUnique_append_clause (text : Str) :
    carriesUnique (text ++ " UNIQUE") = (carriesUnique text || !leavesOpen text) := by
  rw [carriesUnique, Reading.run_append]
  exact Reading.unique_run_clause (Reading.start.run text)

/-- A comment hides the clause that stands in it. -/
example : carriesUnique "0, -- UNIQUE" = false := rfl

end TopLevel

end SchemaForge.Sql
