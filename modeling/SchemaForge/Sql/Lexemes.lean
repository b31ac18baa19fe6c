import SchemaForge.Foundation.Strings
import Mathlib.Data.List.DropRight

/-!
# The lexical rules of PostgreSQL

What PostgreSQL reads an expression as, from its characters: words, quoted names,
string constants, numbers, parentheses, commas and operators. A character that begins
none of these is no part of the language, and neither is a comment.
-/

namespace SchemaForge.Sql

inductive Lexeme where
  /-- An unquoted word, as it is spelled. -/
  | word (spelled : Str)
  | quoted (name : Str)
  /-- A string constant, with one segment for each line that it goes on on. -/
  | text (segments : List Str)
  /-- A constant with escapes, its segments as they are written. -/
  | escaped (segments : List Str)
  | number (spelled : Str)
  | opening
  | closing
  | comma
  | typecast
  | operator (symbols : Str)
deriving DecidableEq

namespace Lexical

def isBlank (c : Char) : Bool := ([' ', '\t', '\n', '\r', '\x0b', '\x0c'] : Str).contains c

def isLineBreak (c : Char) : Bool := c == '\n' || c == '\r'

/-- A letter, an underscore, or any character beyond ASCII. -/
def isIdentStart (c : Char) : Bool := c.isAlpha || c == '_' || 128 ≤ c.toNat

def isIdentChar (c : Char) : Bool := isIdentStart c || c.isDigit || c == '$'

/-- The operator characters that the arithmetic and comparison operators lack. -/
def isSpecialChar (c : Char) : Bool :=
  (['~', '!', '@', '#', '^', '&', '|', '\x60', '?', '%'] : Str).contains c

def isOperatorChar (c : Char) : Bool :=
  isSpecialChar c || (['+', '-', '*', '/', '<', '>', '='] : Str).contains c

/-- What stands before a closing delimiter, and what follows it. A doubled delimiter stands for
itself; with escapes, a backslash keeps the character after it from closing. -/
def delimited (delimiter : Char) (escapes : Bool) : Str → Option (Str × Str)
  | [] => none
  | [c] => if c = delimiter then some ([], []) else none
  | c :: d :: rest =>
      if c = delimiter then
        if d = delimiter then (delimited delimiter escapes rest).map fun (value, left) =>
          (c :: value, left)
        else some ([], d :: rest)
      else if escapes && c == '\\' then
        (delimited delimiter escapes rest).map fun (value, left) => (c :: d :: value, left)
      else (delimited delimiter escapes (d :: rest)).map fun (value, left) => (c :: value, left)

/-- What follows the quote by which a constant goes on on another line. -/
def continuation (s : Str) : Option Str :=
  match s.dropWhile isBlank with
  | '\'' :: rest => if (s.takeWhile isBlank).any isLineBreak then some rest else none
  | _ => none

/-- The segments of a constant after its opening quote, at most `fuel` of them. -/
def constant (escapes : Bool) : Nat → Str → Option (List Str × Str)
  | 0, _ => none
  | fuel + 1, s =>
      match delimited '\'' escapes s with
      | none => none
      | some (value, left) =>
          match continuation left with
          | none => some ([value], left)
          | some s =>
              (constant escapes fuel s).map fun (segments, left) => (value :: segments, left)

/-- What stands before a delimiter, and what follows it. -/
def before (delimiter : Str) : Str → Option (Str × Str)
  | [] => none
  | c :: rest =>
      if delimiter.isPrefixOf (c :: rest) then some ([], (c :: rest).drop delimiter.length)
      else (before delimiter rest).map fun (value, left) => (c :: value, left)

section

variable [Unicode]

def isLetter (c : Char) : Bool := Unicode.isAlphabetic c || c == '_'

/-- A tag is spelled like a word, without a dollar sign. -/
def isTag (tag : Str) : Bool :=
  tag.head?.all isLetter && tag.all fun c => isLetter c || c.isDigit

/-- A dollar-quoted constant after its first dollar sign. -/
def dollarQuoted (s : Str) : Option (Str × Str) :=
  match s.span (· != '$') with
  | (tag, '$' :: body) => if isTag tag then before ("$" ++ tag ++ "$") body else none
  | _ => none

end

/-- The exponent at the front of a text, if there is one, and what follows it. -/
def exponent : Str → Str × Str
  | e :: sign :: digits =>
      if e = 'e' ∨ e = 'E' then
        if sign.isDigit then (e :: (sign :: digits).takeWhile Char.isDigit,
          (sign :: digits).dropWhile Char.isDigit)
        else if (sign = '+' ∨ sign = '-') ∧ digits.head?.any Char.isDigit then
          (e :: sign :: digits.takeWhile Char.isDigit, digits.dropWhile Char.isDigit)
        else ([], e :: sign :: digits)
      else ([], e :: sign :: digits)
  | s => ([], s)

/-- The point and the digits after it, if there is one, and what follows them. -/
def fraction : Str → Str × Str
  | '.' :: digits => ('.' :: digits.takeWhile Char.isDigit, digits.dropWhile Char.isDigit)
  | s => ([], s)

/-- A number that runs into a name or into another point is none. -/
def number (s : Str) : Option (Lexeme × Str) :=
  let whole := s.takeWhile Char.isDigit
  let (point, left) := fraction (s.dropWhile Char.isDigit)
  let (power, left) := exponent left
  if left.head?.any fun c => isIdentChar c || c == '.' then none
  else some (.number (whole ++ point ++ power), left)

/-- The prefix of a constant of bits, or of a national or a Unicode one; these are no part of the
language. -/
def opensOther (c : Char) (rest : Str) : Bool :=
  (("bBxXnN" : Str).contains c && rest.head? == some '\'') ||
    (("uU" : Str).contains c && (rest.take 2 == "&'" || rest.take 2 == "&\""))

/-- A word, or the constant that the prefix `E` opens. -/
def word (c : Char) (rest : Str) : Option (Lexeme × Str) :=
  if (c = 'e' ∨ c = 'E') ∧ rest.head? = some '\'' then
    (constant true rest.length (rest.drop 1)).map fun (segments, left) => (.escaped segments, left)
  else if opensOther c rest then none
  else some (.word ((c :: rest).takeWhile isIdentChar), (c :: rest).dropWhile isIdentChar)

/-- A comment begins somewhere in the run. -/
def opensComment : Str → Bool
  | '-' :: '-' :: _ => true
  | '/' :: '*' :: _ => true
  | _ :: rest => opensComment rest
  | [] => false

/-- The operator at the front of a maximal run of operator characters: a `+` or a `-` at its end is
given back, unless the run has a special character. -/
def trimmed (run : Str) : Str :=
  if run.any isSpecialChar then run
  else run.take 1 ++ (run.drop 1).rdropWhile fun c => c == '+' || c == '-'

def operator (s : Str) : Option (Lexeme × Str) :=
  let run := s.takeWhile isOperatorChar
  if opensComment run then none else some (.operator (trimmed run), s.drop (trimmed run).length)

variable [Unicode]

/-- The lexeme at the front of a text, if no blank is there, and what follows. -/
def next : Str → Option (Option Lexeme × Str)
  | [] => none
  | c :: rest =>
      if isBlank c then some (none, rest)
      else if c = '\'' then
        (constant false (rest.length + 1) rest).map fun (segments, left) =>
          (some (.text segments), left)
      else if c = '"' then
        match delimited '"' false rest with
        | some (value, left) => if value.isEmpty then none else some (some (.quoted value), left)
        | none => none
      else if c = '$' then (dollarQuoted rest).map fun (value, left) => (some (.text [value]), left)
      else if c = '(' then some (some .opening, rest)
      else if c = ')' then some (some .closing, rest)
      else if c = ',' then some (some .comma, rest)
      else if c = ':' then if rest.head? = some ':' then some (some .typecast, rest.drop 1)
        else none
      else if c.isDigit || (c == '.' && rest.head?.any Char.isDigit) then
        (number (c :: rest)).map fun (lexeme, left) => (some lexeme, left)
      else if isIdentStart c then (word c rest).map fun (lexeme, left) => (some lexeme, left)
      else if isOperatorChar c then (operator (c :: rest)).map fun (lexeme, left) =>
        (some lexeme, left)
      else none

/-- The lexemes are read from the text, and leave the rest of it. -/
inductive Reads : Str → List Lexeme → Str → Prop
  | nil (s : Str) : Reads s [] s
  | blank {s s' left : Str} {lexemes : List Lexeme} (front : next s = some (none, s'))
      (after : Reads s' lexemes left) : Reads s lexemes left
  | cons {s s' left : Str} {lexeme : Lexeme} {lexemes : List Lexeme}
      (front : next s = some (some lexeme, s')) (after : Reads s' lexemes left) :
      Reads s (lexeme :: lexemes) left

theorem blank_of_next {s s' : Str} (front : next s = some (none, s')) :
    ∃ c, s = c :: s' ∧ isBlank c = true := by
  cases s with
  | nil => cases front
  | cons c rest =>
      rw [next] at front
      by_cases blank : isBlank c = true
      · rw [if_pos blank] at front
        cases front
        exact ⟨c, rfl, blank⟩
      rw [if_neg blank] at front
      by_cases quote : c = '\''
      · rw [if_pos quote] at front
        rcases Option.map_eq_some_iff.mp front with ⟨pair, -, same⟩
        cases same
      rw [if_neg quote] at front
      by_cases doubleQuote : c = '"'
      · rw [if_pos doubleQuote] at front
        cases read : delimited '"' false rest with
        | none =>
            rw [read] at front
            cases front
        | some pair =>
            rw [read] at front
            by_cases empty : pair.1.isEmpty = true
            · simp only [empty, if_true] at front
              cases front
            · simp only [empty, Bool.false_eq_true, if_false] at front
              cases front
      rw [if_neg doubleQuote] at front
      by_cases dollar : c = '$'
      · rw [if_pos dollar] at front
        rcases Option.map_eq_some_iff.mp front with ⟨pair, -, same⟩
        cases same
      rw [if_neg dollar] at front
      by_cases opening : c = '('
      · rw [if_pos opening] at front
        cases front
      rw [if_neg opening] at front
      by_cases closing : c = ')'
      · rw [if_pos closing] at front
        cases front
      rw [if_neg closing] at front
      by_cases comma : c = ','
      · rw [if_pos comma] at front
        cases front
      rw [if_neg comma] at front
      by_cases colon : c = ':'
      · rw [if_pos colon] at front
        by_cases second : rest.head? = some ':'
        · rw [if_pos second] at front
          cases front
        · rw [if_neg second] at front
          cases front
      rw [if_neg colon] at front
      by_cases numeric : (c.isDigit || (c == '.' && rest.head?.any Char.isDigit)) = true
      · rw [if_pos numeric] at front
        rcases Option.map_eq_some_iff.mp front with ⟨pair, -, same⟩
        cases same
      rw [if_neg numeric] at front
      by_cases start : isIdentStart c = true
      · rw [if_pos start] at front
        rcases Option.map_eq_some_iff.mp front with ⟨pair, -, same⟩
        cases same
      rw [if_neg start] at front
      by_cases symbol : isOperatorChar c = true
      · rw [if_pos symbol] at front
        rcases Option.map_eq_some_iff.mp front with ⟨pair, -, same⟩
        cases same
      rw [if_neg symbol] at front
      cases front

theorem reads_nil_iff {lexemes : List Lexeme} : Reads [] lexemes [] ↔ lexemes = [] := by
  constructor
  · intro read
    cases read with
    | nil => rfl
    | blank front | cons front => cases front
  · rintro rfl
    exact .nil []

theorem reads_blank_iff {s s' : Str} {lexemes : List Lexeme} (front : next s = some (none, s')) :
    Reads s lexemes [] ↔ Reads s' lexemes [] := by
  constructor
  · intro read
    cases read with
    | nil => cases front
    | blank other after =>
        rw [front] at other
        cases other
        exact after
    | cons other =>
        rw [front] at other
        cases other
  · exact .blank front

theorem reads_cons_iff {s s' : Str} {lexeme : Lexeme} {lexemes : List Lexeme}
    (front : next s = some (some lexeme, s')) :
    Reads s lexemes [] ↔ ∃ more, lexemes = lexeme :: more ∧ Reads s' more [] := by
  constructor
  · intro read
    cases read with
    | nil => cases front
    | blank other =>
        rw [front] at other
        cases other
    | cons other after =>
        rw [front] at other
        cases other
        exact ⟨_, rfl, after⟩
  · rintro ⟨more, rfl, after⟩
    exact .cons front after

theorem not_reads {s : Str} (front : next s = none) (more : s ≠ []) (lexemes : List Lexeme) :
    ¬ Reads s lexemes [] := by
  intro read
  cases read with
  | nil => exact more rfl
  | blank other | cons other =>
      rw [front] at other
      cases other

end Lexical

end SchemaForge.Sql
