import SchemaForge.Sql.Scan

/-!
# The token cursor

A cursor is the list of the tokens it has not passed. An operation that may fail
after it has moved returns where it stopped in either case, because its callers
go on from there.
-/

namespace SchemaForge.Sql

/-- The tokens from a cursor's place on. -/
abbrev Cursor := List Token

namespace Cursor

def atWord (cursor : Cursor) (word : Str) : Bool := cursor.head?.any (Token.isWord · word)

def atPunct (cursor : Cursor) (punct : Char) : Bool := cursor.head?.any (Token.isPunct · punct)

/-- The cursor past the keyword, when it is there. -/
def eatWord (cursor : Cursor) (word : Str) : Option Cursor :=
  if cursor.atWord word then some cursor.tail else none

/-- Several keywords in a row, taken only when all of them are there. -/
def eatWords (cursor : Cursor) (words : List Str) : Option Cursor :=
  match words with
  | [] => some cursor
  | word :: words => (eatWord cursor word).bind fun cursor => eatWords cursor words

def eatPunct (cursor : Cursor) (punct : Char) : Option Cursor :=
  if cursor.atPunct punct then some cursor.tail else none

/-- The rest of a name whose first parts are known. -/
def nameParts (name : Str) : Cursor → Option Str × Cursor
  | [] => (some name, [])
  | [token] => if token.isPunct '.' then (none, []) else (some name, [token])
  | token :: next :: rest =>
      if token.isPunct '.' then
        match next.name with
        | some part => nameParts (name ++ "." ++ part) rest
        | none => (none, rest)
      else (some name, token :: next :: rest)

/-- A name, with the schema kept on the front when it carries one. -/
def qualifiedName : Cursor → Option Str × Cursor
  | [] => (none, [])
  | token :: rest =>
      match token.name with
      | some name => nameParts name rest
      | none => (none, rest)

/-- The names of a list after its opening parenthesis. -/
def nameItems (names : List Str) : Cursor → Option (List Str) × Cursor
  | [] => (none, [])
  | [_] => (none, [])
  | token :: next :: rest =>
      match token.name with
      | none => (none, next :: rest)
      | some name =>
          if next.isPunct ',' then nameItems (names ++ [name]) rest
          else if next.isPunct ')' then (some (names ++ [name]), rest)
          else (none, next :: rest)

/-- The names inside `(a, b, c)`. -/
def nameList (cursor : Cursor) : Option (List Str) × Cursor :=
  match cursor.eatPunct '(' with
  | some cursor => nameItems [] cursor
  | none => (none, cursor)

/-- What is taken by `takeUntilSeparator` inside `depth` open parentheses, and what is left. -/
def takeInside (stop : List Str) (depth : Nat) : Cursor → List Token × Cursor
  | [] => ([], [])
  | token :: rest =>
      match token with
      | .punct '(' =>
          let (taken, left) := takeInside stop (depth + 1) rest
          (token :: taken, left)
      | .punct ')' =>
          if depth = 0 then ([], token :: rest)
          else
            let (taken, left) := takeInside stop (depth - 1) rest
            (token :: taken, left)
      | .punct ',' =>
          if depth = 0 then ([], token :: rest)
          else
            let (taken, left) := takeInside stop depth rest
            (token :: taken, left)
      | .word word =>
          if depth = 0 && stop.contains word then ([], token :: rest)
          else
            let (taken, left) := takeInside stop depth rest
            (token :: taken, left)
      | _ =>
          let (taken, left) := takeInside stop depth rest
          (token :: taken, left)

/-- Everything up to the next comma, closing parenthesis or stop word at this depth. -/
def takeUntilSeparator (stop : List Str) (cursor : Cursor) : List Token × Cursor :=
  takeInside stop 0 cursor

/-- The tokens past the parenthesis that closes the outermost of `depth` open ones. -/
def skipInside (depth : Nat) : Cursor → Cursor
  | [] => []
  | token :: rest =>
      if token.isPunct '(' then skipInside (depth + 1) rest
      else if token.isPunct ')' then if depth - 1 = 0 then rest else skipInside (depth - 1) rest
      else skipInside depth rest

def skipBalanced (cursor : Cursor) : Cursor :=
  match cursor.eatPunct '(' with
  | some cursor => skipInside 1 cursor
  | none => cursor

end Cursor

/-- A token written out. -/
def piece : Token → Str
  | .word word => word
  | .quoted name => "\"" ++ Str.double '"' name ++ "\""
  | .text text => "'" ++ Str.double '\'' text ++ "'"
  | .number number => number
  | .punct punct => [punct]

/-- What stands before a piece: a space, unless a parenthesis or a comma makes it needless. -/
def joint (out written : Str) : Str :=
  if !out.isEmpty && !([[')'], [','], ['(']] : List Str).contains written &&
      out.getLast? != some '(' then [' ']
  else []

/-- Tokens written back out as SQL. -/
def render (tokens : List Token) : Str :=
  tokens.foldl (fun out token => out ++ joint out (piece token) ++ piece token) []

end SchemaForge.Sql
