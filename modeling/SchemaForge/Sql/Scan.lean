import SchemaForge.Domain.Schema

/-!
# The SQL scanner

A hand-written scanner cuts a script into statements and each statement into
tokens. It also reads layout hints, the comment lines that say where a table
sits on the canvas. The scanner works on the characters of the whole script and
an offset into them; every iteration of its loop is one call of `step`.
-/

namespace SchemaForge.Sql

inductive Token where
  /-- A bare word: a keyword or an unquoted identifier, in lower case. -/
  | word (value : Str)
  | quoted (value : Str)
  | text (value : Str)
  | number (value : Str)
  | punct (value : Char)
deriving DecidableEq, Repr

namespace Token

def isWord (token : Token) (expected : Str) : Bool :=
  match token with
  | word found => found == expected
  | _ => false

def isPunct (token : Token) (expected : Char) : Bool :=
  match token with
  | punct found => found == expected
  | _ => false

/-- Either spelling of a name, with the quoted one keeping its case. -/
def name : Token → Option Str
  | word value => some value
  | quoted value => some value
  | _ => none

end Token

structure Statement where
  tokens : List Token
  /-- The original text, kept so a statement nobody can read can be named. -/
  source : Str
deriving DecidableEq

structure LayoutHint where
  table : Str
  x : F64
  y : F64
  /-- The statement the line sits directly above, when it sits above one at all. -/
  above : Option Nat
deriving DecidableEq

/-- The rest of a quoted name after its opening quote: the name, and what follows it. -/
def splitQuoted : Str → Option (Str × Str)
  | [] => none
  | '"' :: '"' :: rest => (splitQuoted rest).map fun (name, after) => ('"' :: name, after)
  | '"' :: rest => some ([], rest)
  | c :: rest => (splitQuoted rest).map fun (name, after) => (c :: name, after)

/-- The name at the front of a layout line, quoted or bare, and what follows it. -/
def hintName (line : Str) : Option (Str × Str) :=
  match line with
  | '"' :: quoted => splitQuoted quoted
  | _ =>
      if line.any Str.isWhitespace then
        some (line.takeWhile (!Str.isWhitespace ·), line.dropWhile (!Str.isWhitespace ·))
      else none

/-- `-- @table "users" 120 340`, the line the generator writes above each table. -/
def layoutHint (line : Str) : Option LayoutHint := do
  let rest ← ("@table" : Str).isPrefixOf? (Str.trim (line.dropWhile (· == '-')))
  let (table, rest) ← hintName (Str.trim rest)
  match Str.splitWhitespace rest with
  | first :: second :: _ =>
      let x ← F64.parse first
      let y ← F64.parse second
      some ⟨table, x, y, none⟩
  | _ => none

section Scanner

variable [Unicode]

def isNameStart (c : Char) : Bool := Unicode.isAlphabetic c || c == '_'

def isNameChar (c : Char) : Bool := Str.isAlphanumeric c || c == '_' || c == '$'

structure Scanner where
  chars : Str
  offset : Nat
  statements : List Statement
  hints : List LayoutHint
  tokens : List Token
  startedAt : Nat
  tokenAt : Nat

namespace Scanner

def new (source : Str) : Scanner where
  chars := source
  offset := 0
  statements := []
  hints := []
  tokens := []
  startedAt := 0
  tokenAt := 0

/-- The characters that are still to be read. -/
def rest (s : Scanner) : Str := s.chars.drop s.offset

def slice (s : Scanner) (start stop : Nat) : Str := (s.chars.take stop).drop start

def looksAt (s : Scanner) (expected : Str) : Bool := expected.isPrefixOf s.rest

def push (s : Scanner) (token : Token) : Scanner :=
  { s with
    startedAt := if s.tokens.isEmpty then s.tokenAt else s.startedAt
    tokens := s.tokens ++ [token] }

def finish (s : Scanner) : Scanner :=
  if s.tokens.isEmpty then { s with startedAt := s.offset }
  else
    { s with
      statements := s.statements ++ [⟨s.tokens, Str.trim (s.slice s.startedAt s.offset)⟩]
      tokens := []
      startedAt := s.offset }

/-- Moves past a number of characters. -/
def advance (s : Scanner) (count : Nat) : Scanner := { s with offset := s.offset + count }

def lineComment (s : Scanner) : Scanner :=
  let line := s.rest.takeWhile (· != '\n')
  let s := s.advance line.length
  match layoutHint line with
  | none => s
  | some hint =>
      let above := if s.tokens.isEmpty then some s.statements.length else none
      { s with hints := s.hints ++ [{ hint with above := above }] }

/-- How many characters a block comment takes, with `depth` comments open before them. -/
def blockCommentLength (depth : Nat) : Str → Nat
  | [] => 0
  | '/' :: '*' :: rest => blockCommentLength (depth + 1) rest + 2
  | '*' :: '/' :: rest => if depth - 1 = 0 then 2 else blockCommentLength (depth - 1) rest + 2
  | _ :: rest => blockCommentLength depth rest + 1

/-- PostgreSQL nests block comments. -/
def blockComment (s : Scanner) : Scanner := s.advance (blockCommentLength 0 s.rest)

/-- What stands between two delimiters, and how many characters it takes with the closing one. -/
def quotedRun (delimiter : Char) : Str → Str × Nat
  | [] => ([], 0)
  | c :: rest =>
      if c = delimiter then
        match rest with
        | d :: rest =>
            if d = delimiter then
              let (value, count) := quotedRun delimiter rest
              (delimiter :: value, count + 2)
            else ([], 1)
        | [] => ([], 1)
      else
        let (value, count) := quotedRun delimiter rest
        (c :: value, count + 1)

def quoted (s : Scanner) (delimiter : Char) (wrap : Str → Token) : Scanner :=
  let (value, count) := quotedRun delimiter (s.rest.drop 1)
  (s.advance (count + 1)).push (wrap value)

/-- The tag between two dollar signs, from the text after the first. -/
def tagRun : Str → Option Str
  | [] => none
  | c :: rest =>
      if c = '$' then some []
      else if isNameChar c then (tagRun rest).map (c :: ·)
      else none

def dollarTag (s : Scanner) : Option Str := tagRun (s.rest.drop 1)

/-- The text before the first occurrence of a delimiter. -/
def untilDelimiter (delimiter : Str) : Str → Str
  | [] => []
  | c :: rest =>
      if delimiter.isPrefixOf (c :: rest) then [] else c :: untilDelimiter delimiter rest

def dollarQuoted (s : Scanner) (tag : Str) : Scanner :=
  let delimiter : Str := "$" ++ tag ++ "$"
  let s := s.advance delimiter.length
  let value := untilDelimiter delimiter s.rest
  let s := s.advance value.length
  { s with offset := min (s.offset + delimiter.length) s.chars.length }.push (.text value)

def number (s : Scanner) : Scanner :=
  let value := s.rest.takeWhile fun c => c.isDigit || c == '.'
  (s.advance value.length).push (.number value)

def word (s : Scanner) : Scanner :=
  let value := s.rest.takeWhile isNameChar
  (s.advance value.length).push (.word (Str.toLowercase value))

/-- The iterations that no special character selects. -/
def plain (s : Scanner) (c : Char) : Scanner :=
  if Str.isWhitespace c then s.advance 1
  else if c.isDigit then s.number
  else if isNameStart c then s.word
  else (s.push (.punct c)).advance 1

/-- One iteration of the scanner's loop. -/
def step (s : Scanner) : Scanner :=
  match s.rest with
  | [] => s
  | c :: _ =>
      let s := { s with tokenAt := s.offset }
      if c = ';' then (s.advance 1).finish
      else if c = '-' && s.looksAt "--" then s.lineComment
      else if c = '/' && s.looksAt "/*" then s.blockComment
      else if c = '\'' then s.quoted '\'' .text
      else if c = '"' then s.quoted '"' .quoted
      else
        match if c = '$' then s.dollarTag else none with
        | some tag => s.dollarQuoted tag
        | none => s.plain c

/-- The scanner's loop, for at most `fuel` iterations. -/
def loop : Nat → Scanner → Scanner
  | 0, s => s
  | fuel + 1, s => if s.offset < s.chars.length then loop fuel s.step else s

/-- Every iteration reads a character, so there are no more iterations than characters. -/
def run (s : Scanner) : List Statement × List LayoutHint :=
  let s := (loop s.chars.length s).finish
  (s.statements, s.hints)

end Scanner

def scan (sql : Str) : List Statement × List LayoutHint := (Scanner.new sql).run

end Scanner

end SchemaForge.Sql
