import SchemaForge.Foundation.Lists
import SchemaForge.Sql.Cursor

/-!
# Reading a table

The reader of `CREATE TABLE`. The items between the parentheses are read one
after another from one cursor; an item that the model cannot hold leaves a note,
and the loop goes on at the comma the item's reader stopped at.
-/

namespace SchemaForge.Sql

/-- The spellings of a type, as PostgreSQL knows them. -/
def typeAliases : List (String × DataTypeKind) :=
  [("text", .text), ("varchar", .varchar), ("character varying", .varchar), ("char", .char),
    ("character", .char), ("bpchar", .char), ("smallint", .smallInt), ("int2", .smallInt),
    ("smallserial", .smallInt), ("serial2", .smallInt), ("int", .integer), ("integer", .integer),
    ("int4", .integer), ("serial", .integer), ("serial4", .integer), ("bigint", .bigInt),
    ("int8", .bigInt), ("bigserial", .bigInt), ("serial8", .bigInt), ("numeric", .numeric),
    ("decimal", .numeric), ("real", .real), ("float4", .real),
    ("double precision", .doublePrecision), ("float8", .doublePrecision),
    ("float", .doublePrecision), ("boolean", .boolean), ("bool", .boolean), ("date", .date),
    ("time", .time), ("time without time zone", .time), ("timestamp", .timestamp),
    ("timestamp without time zone", .timestamp), ("timestamptz", .timestampTz),
    ("timestamp with time zone", .timestampTz), ("uuid", .uuid), ("json", .json),
    ("jsonb", .jsonb), ("bytea", .bytea)]

def kindOf (name : Str) : Option DataTypeKind :=
  (typeAliases.find? fun spelling => spelling.1.toList == name).map Prod.snd

/-- A serial column fills itself in, so the database never leaves it empty. -/
def isSerial (name : Str) : Bool :=
  (["smallserial", "serial2", "serial", "serial4", "bigserial", "serial8"] : List String).any
    fun spelling => spelling.toList == name

structure ParsedColumn where
  name : Str
  dataType : DataType
  nullable : Bool
  primaryKey : Bool
  unique : Bool
  defaultValue : Option Str
deriving DecidableEq

structure ParsedForeignKey where
  column : Str
  table : Str
  /-- Absent when the script wrote `REFERENCES other` with no column. -/
  target : Option Str
deriving DecidableEq

structure ParsedTable where
  name : Str
  columns : List ParsedColumn
  foreignKeys : List ParsedForeignKey
  /-- Notes on what the table is kept without. -/
  skipped : List Str
deriving DecidableEq

/-- The words that can only be a constraint, where the name of a type stops. -/
def afterType : List Str :=
  ["not", "null", "primary", "unique", "default", "references", "check", "constraint", "collate",
    "generated"]

namespace ParsedTable

def skip (table : ParsedTable) (note : Str) : ParsedTable :=
  { table with skipped := table.skipped ++ [note] }

/-- Changes the first column of the name. -/
def updateColumn (table : ParsedTable) (name : Str) (change : ParsedColumn → ParsedColumn) :
    ParsedTable :=
  { table with
    columns := table.columns.updateFirst
      (fun column => Str.eqIgnoreAsciiCase column.name name) change }

def markPrimary (table : ParsedTable) (names : List Str) : ParsedTable :=
  names.foldl (fun table name =>
    table.updateColumn name fun column => { column with primaryKey := true, nullable := false })
    table

def markUnique (table : ParsedTable) (name : Str) : ParsedTable :=
  table.updateColumn name fun column => { column with unique := true }

end ParsedTable

/-- The words of a type name, or of what trails it. -/
def typeWords : Cursor → List Str × Cursor
  | .word word :: rest =>
      if afterType.contains word then ([], .word word :: rest)
      else
        let (words, left) := typeWords rest
        (word :: words, left)
  | cursor => ([], cursor)

/-- The numbers between the parentheses of a type, up to where the list breaks off. -/
def numbers : Cursor → List UInt32 × Cursor
  | .number number :: rest =>
      let parsed := (Str.parseU32 number).toList
      match rest with
      | .punct ',' :: rest =>
          let (more, left) := numbers rest
          (parsed ++ more, left)
      | rest => (parsed, rest)
  | cursor => ([], cursor)

/-- The parameters of a type, and the cursor past the words that trail them. -/
def parameters (cursor : Cursor) (kind : DataTypeKind) : DataType × Cursor :=
  let (numbers, cursor) := match cursor.eatPunct '(' with
    | some cursor =>
        let (numbers, cursor) := numbers cursor
        (numbers, (cursor.eatPunct ')').getD cursor)
    | none => ([], cursor)
  let (_, cursor) := typeWords cursor
  if kind.takesLength then (⟨kind, numbers.head?, none, none⟩, cursor)
  else if kind.takesPrecision then (⟨kind, none, numbers.head?, numbers[1]?⟩, cursor)
  else (⟨kind, none, none, none⟩, cursor)

/-- One iteration over the constraints of a column, when the column goes on. -/
def constraint (cursor : Cursor) (column : ParsedColumn) : Cursor × ParsedColumn :=
  match cursor.eatWords ["not", "null"] with
  | some cursor => (cursor, { column with nullable := false })
  | none =>
    match cursor.eatWords ["primary", "key"] with
    | some cursor => (cursor, { column with primaryKey := true, nullable := false })
    | none =>
      match cursor.eatWord "unique" with
      | some cursor => (cursor, { column with unique := true })
      | none =>
        match cursor.eatWord "null" with
        | some cursor => (cursor, { column with nullable := true })
        | none =>
          match cursor.eatWord "default" with
          | some cursor =>
              let (expression, cursor) := cursor.takeUntilSeparator afterType
              if expression.isEmpty then (cursor, column)
              else (cursor, { column with defaultValue := some (render expression) })
          | none =>
            match cursor.eatWord "constraint" with
            | some cursor => (cursor.tail, column)
            | none =>
              match cursor.eatWord "check" with
              | some cursor => (cursor.skipBalanced, column)
              | none => (cursor.tail, column)

/--
The constraints of a column, for at most `fuel` iterations. `REFERENCES` is left in place for the
caller, which can see the other tables.
-/
def constraints : Nat → Cursor → ParsedColumn → Cursor × ParsedColumn
  | 0, cursor, column => (cursor, column)
  | fuel + 1, cursor, column =>
      if cursor.isEmpty || cursor.atPunct ',' || cursor.atPunct ')' ||
        cursor.atWord "references" then
        (cursor, column)
      else
        let (cursor, column) := constraint cursor column
        constraints fuel cursor column

/-- A column, or the name under which a column that could not be read is noted. -/
def column (cursor : Cursor) : Except Str ParsedColumn × Cursor :=
  match cursor with
  | [] => (.error [], [])
  | token :: rest =>
      match token.name with
      | none => (.error [], token :: rest)
      | some name =>
          let (words, cursor) := typeWords rest
          let typeName := Str.join " " words
          match kindOf typeName with
          | none => (.error (if typeName.isEmpty then name else name ++ " " ++ typeName), cursor)
          | some kind =>
              let (dataType, cursor) := parameters cursor kind
              let (cursor, parsed) := constraints cursor.length cursor
                ⟨name, dataType, !isSerial typeName, false, false, none⟩
              (.ok parsed, cursor)

/-- The inline `REFERENCES` of a column, read once the column itself is known. -/
def inlineReference (cursor : Cursor) (column : Str) (table : ParsedTable) :
    Bool × Cursor × ParsedTable :=
  match cursor.eatWord "references" with
  | none => (false, cursor, table)
  | some cursor =>
      match cursor.qualifiedName with
      | (none, cursor) => (true, cursor, table.skip "a reference with no target")
      | (some targetTable, cursor) =>
          let (targets, cursor) := cursor.nameList
          (true, cursor, { table with
            foreignKeys := table.foreignKeys ++ [⟨column, targetTable, targets.bind List.head?⟩] })

def readForeignKey (cursor : Cursor) (table : ParsedTable) : Cursor × ParsedTable :=
  match cursor.nameList with
  | (none, cursor) => (cursor, table.skip "a foreign key it could not read")
  | (some columns, cursor) =>
      match cursor.eatWord "references" with
      | none => (cursor, table.skip "a foreign key with no target")
      | some cursor =>
          match cursor.qualifiedName with
          | (none, cursor) => (cursor, table.skip "a foreign key with no target")
          | (some targetTable, cursor) =>
              let (targets, cursor) := cursor.nameList
              match columns with
              | [column] =>
                  let table := { table with
                    foreignKeys := table.foreignKeys ++
                      [⟨column, targetTable, targets.bind List.head?⟩] }
                  ((cursor.takeUntilSeparator []).2, table)
              -- A composite key is dropped whole, and the cursor stays where its list ends.
              | _ => (cursor, table.skip "a foreign key across several columns")

/-- A column, with whatever references it makes. -/
def columnItem (cursor : Cursor) (table : ParsedTable) : Cursor × ParsedTable :=
  match column cursor with
  | (.ok parsed, cursor) =>
      match inlineReference cursor parsed.name table with
      | (true, cursor, table) =>
          let (cursor, parsed) := constraints cursor.length cursor parsed
          (cursor, { table with columns := table.columns ++ [parsed] })
      | (false, cursor, table) => (cursor, { table with columns := table.columns ++ [parsed] })
  | (.error name, cursor) =>
      let (rest, cursor) := cursor.takeUntilSeparator []
      let written := render rest
      let note : Str := if written.isEmpty then "the column `" ++ name ++ "`"
        else "the column `" ++ name ++ " " ++ written ++ "`"
      (cursor, table.skip note)

/-- What an item is after its optional `CONSTRAINT` name. -/
def itemBody (named : Bool) (cursor : Cursor) (table : ParsedTable) : Cursor × ParsedTable :=
  match cursor.eatWords ["primary", "key"] with
  | some cursor =>
      match cursor.nameList with
      | (some names, cursor) => (cursor, table.markPrimary names)
      | (none, cursor) => (cursor, table.skip "a primary key it could not read")
  | none =>
    match cursor.eatWords ["foreign", "key"] with
    | some cursor => readForeignKey cursor table
    | none =>
      match cursor.eatWord "unique" with
      | some cursor =>
          match cursor.nameList with
          | (some [name], cursor) => (cursor, table.markUnique name)
          -- One column at a time is all the model can say.
          | (_, cursor) => (cursor, table.skip "a unique constraint across several columns")
      | none =>
        if cursor.atWord "check" || cursor.atWord "exclude" then
          (Cursor.skipBalanced cursor.tail, table.skip "a check constraint")
        else if named then
          let (rest, cursor) := cursor.takeUntilSeparator []
          (cursor, table.skip ("the constraint `" ++ render rest ++ "`"))
        else columnItem cursor table

def item (cursor : Cursor) (table : ParsedTable) : Cursor × ParsedTable :=
  match cursor.eatWord "constraint" with
  | some cursor => itemBody true cursor.tail table
  | none => itemBody false cursor table

/-- The items between the parentheses, for at most `fuel` iterations. -/
def items : Nat → Cursor → ParsedTable → ParsedTable
  | 0, _, table => table
  | fuel + 1, cursor, table =>
      if cursor.isEmpty || cursor.atPunct ')' then table
      else
        let (cursor, table) := item cursor table
        match cursor.eatPunct ',' with
        | some cursor => items fuel cursor table
        | none => table

def parse (tokens : List Token) : Option ParsedTable := do
  let cursor ← Cursor.eatWord tokens "create"
  -- `UNLOGGED`, `TEMP` and friends change nothing about the shape.
  let cursor ← Cursor.eatWord (cursor.dropWhile fun token => !token.isWord "table") "table"
  let cursor := (cursor.eatWords ["if", "not", "exists"]).getD cursor
  let (name, cursor) := cursor.qualifiedName
  let table : ParsedTable := ⟨← name, [], [], []⟩
  match cursor.eatPunct '(' with
  | none => some table
  | some cursor => some (items cursor.length cursor table)

end SchemaForge.Sql
