import SchemaForge.Exchange.Names
import SchemaForge.Sql.Table

/-!
# Reading a script

The statements of a script are classified one by one. The tables they create
become entities, the references are linked once every table is known, comments
become descriptions, and layout lines become positions. What the model cannot
hold is named in the report.
-/

namespace SchemaForge.Sql

open SchemaForge.Exchange

structure Comment where
  table : Str
  column : Option Str
  text : Str
deriving DecidableEq

inductive Read where
  | table (parsed : ParsedTable)
  | foreignKey (holder : Str) (key : ParsedForeignKey)
  | comment (comment : Comment)
  | skipped
deriving DecidableEq

namespace Read

def asTable : Read → Option ParsedTable
  | table parsed => some parsed
  | _ => none

def asForeignKey : Read → Option (Str × ParsedForeignKey)
  | foreignKey holder key => some (holder, key)
  | _ => none

def asComment : Read → Option Comment
  | comment parsed => some parsed
  | _ => none

def isSkipped : Read → Bool
  | skipped => true
  | _ => false

end Read

/-- `ALTER TABLE x ADD CONSTRAINT c FOREIGN KEY (a) REFERENCES y (b)`. -/
def alter (tokens : List Token) : Option (Str × ParsedForeignKey) := do
  let cursor := (Cursor.eatWord tokens "alter").getD tokens
  let cursor ← cursor.eatWord "table"
  let cursor := (cursor.eatWords ["if", "exists"]).getD cursor
  let cursor := (cursor.eatWord "only").getD cursor
  let (holder, cursor) := cursor.qualifiedName
  let holder ← holder
  let cursor ← cursor.eatWord "add"
  let cursor : Cursor := match cursor.eatWord "constraint" with
    | some cursor => cursor.tail
    | none => cursor
  let cursor ← cursor.eatWords ["foreign", "key"]
  let (columns, cursor) := cursor.nameList
  let columns ← columns
  let cursor ← cursor.eatWord "references"
  let (table, cursor) := cursor.qualifiedName
  let table ← table
  match columns with
  | [column] => some (holder, ⟨column, table, cursor.nameList.1.bind List.head?⟩)
  | _ => none

def comment (tokens : List Token) : Option Comment := do
  let cursor := (Cursor.eatWord tokens "comment").getD tokens
  let cursor ← cursor.eatWord "on"
  let (onColumn, cursor) ← match cursor.eatWord "column" with
    | some cursor => some (true, cursor)
    | none => (cursor.eatWord "table").map fun cursor => (false, cursor)
  let (name, cursor) := cursor.qualifiedName
  let name ← name
  let cursor ← cursor.eatWord "is"
  match cursor.head? with
  | some (.text text) =>
      if onColumn then
        let (table, column) ← Str.rsplitOnce '.' name
        some ⟨table, some column, text⟩
      else some ⟨name, none, text⟩
  -- `COMMENT ON TABLE x IS NULL` has nothing to carry onto the canvas.
  | _ => none

def classify (tokens : List Token) : Read :=
  if Cursor.atWord tokens "create" then
    match parse tokens with
    | some parsed => .table parsed
    | none => .skipped
  else if Cursor.atWord tokens "alter" then
    match alter tokens with
    | some (holder, key) => .foreignKey holder key
    | none => .skipped
  else if Cursor.atWord tokens "comment" then
    match comment tokens with
    | some comment => .comment comment
    | none => .skipped
  else .skipped

/-- How much of a statement goes into the warning. -/
def sourceLimit : Nat := 120

def skipped (source : Str) : Diagnostic :=
  let singleLine := Str.join " " (Str.splitWhitespace source)
  let shortened : Str :=
    if sourceLimit < singleLine.length then singleLine.take sourceLimit ++ "..." else singleLine
  .warning .importSkipped
    ("skipped a statement the reader does not handle: `" ++ shortened ++ "`")

/-- The schema on the front of a name is only compared when both sides carry one. -/
def sameTable (left right : Str) : Bool :=
  Str.eqIgnoreAsciiCase left right ||
    Str.eqIgnoreAsciiCase (Str.rsplitFirst '.' left) (Str.rsplitFirst '.' right)

/-- The table of a name, by its place in the draft. -/
def find (draft : SchemaDraft) (name : Str) : Option Nat :=
  (draft.entities.findIdx? fun entity => Str.eqIgnoreAsciiCase entity.name name).or
    (draft.entities.findIdx? fun entity => sameTable entity.name name)

def attributeId (entity : Entity) (name : Str) : Option Str :=
  (entity.attributeByName name).map Attribute.id

section Draft

variable (uuid : Element → Str)

/-- A key column is unique, although a script does not say so. -/
def attributeFrom (entity index : Nat) (column : ParsedColumn) : Attribute :=
  { Attribute.new (freshId uuid (.attr entity index)) column.name column.dataType with
    nullable := column.nullable
    primaryKey := column.primaryKey
    unique := column.unique || column.primaryKey
    defaultValue := column.defaultValue }

def entityFrom (index : Nat) (parsed : ParsedTable) : Entity :=
  { Entity.new (freshId uuid (.entity index)) parsed.name with
    attributes := parsed.columns.mapIdx (attributeFrom uuid index) }

/-- A column that a reference points at: the one it names, or else the table's key. -/
def targetId (entity : Entity) (target : Option Str) : Option Str :=
  match target with
  | some name => attributeId entity name
  | none => entity.primaryKey.head?.map Attribute.id

/-- The draft with a reference linked, and the warnings this adds. -/
def link (draft : SchemaDraft) (holder : Str) (key : ParsedForeignKey) :
    SchemaDraft × List Diagnostic :=
  let note : Diagnostic := .warning .importSkipped ("`" ++ holder ++ "." ++ key.column ++
    "` is not a foreign key, because it points at `" ++ key.table ++ "`")
  let linked : Option SchemaDraft := do
    let holderIndex ← find draft holder
    let targetIndex ← find draft key.table
    let holderEntity ← draft.entities[holderIndex]?
    let targetEntity ← draft.entities[targetIndex]?
    let holderAttribute ← attributeId holderEntity key.column
    let targetAttribute ← targetId targetEntity key.target
    let entities := draft.entities.modify holderIndex fun entity =>
      { entity with
        attributes := entity.attributes.updateFirst (fun attr => attr.id == holderAttribute)
          fun attr => { attr with foreignKey := some ⟨targetEntity.id, targetAttribute⟩ } }
    -- The line leads from the key it points at to the column that holds it.
    let relationship := Relationship.new (freshId uuid (.relationship draft.relationships.length))
      (targetEntity.id, targetAttribute) (holderEntity.id, holderAttribute) .oneToMany
    return { draft with
      entities := entities
      relationships := draft.relationships ++ [relationship] }
  match linked with
  | some draft => (draft, [])
  | none => (draft, [note])

def describe (draft : SchemaDraft) (comment : Comment) : SchemaDraft × List Diagnostic :=
  match find draft comment.table with
  | none => (draft, [.warning .importSkipped
      ("a comment on `" ++ comment.table ++ "`, which is not in the file")])
  | some index =>
      match comment.column with
      | none => ({ draft with
          entities := draft.entities.modify index fun entity =>
            { entity with description := comment.text } }, [])
      | some column =>
          let found := (draft.entities[index]?.bind fun entity => entity.attributeByName column)
          if found.isSome then ({ draft with
            entities := draft.entities.modify index fun entity =>
              { entity with
                attributes := entity.attributes.updateFirst
                  (fun attr => Str.eqIgnoreAsciiCase attr.name column)
                  fun attr => { attr with description := comment.text } } }, [])
          else (draft, [.warning .importSkipped
            ("a comment on `" ++ comment.table ++ "." ++ column ++
              "`, which is not in the file")])

/-- A line directly above the table beats one from elsewhere in the script. -/
def placeAt (hints : List LayoutHint) (tableAt : Option Nat) (name : Str) (index : Nat)
    (includePositions : Bool) : Position :=
  let hint := if includePositions then
      (hints.find? fun hint => hint.above == tableAt && sameTable hint.table name).or
        (hints.find? fun hint => sameTable hint.table name)
    else none
  match hint with
  | some hint => ⟨hint.x, hint.y⟩
  | none => gridSlot index

def place (draft : SchemaDraft) (hints : List LayoutHint) (tableAt : List Nat)
    (includePositions : Bool) : SchemaDraft :=
  { draft with
    entities := draft.entities.mapIdx fun index entity =>
      { entity with
        position := placeAt hints tableAt[index]? entity.name index includePositions } }

/-- The draft after a step for each item, and the warnings of all the steps. -/
def foldWith {α : Type} (step : SchemaDraft → α → SchemaDraft × List Diagnostic) :
    SchemaDraft → List α → SchemaDraft × List Diagnostic
  | draft, [] => (draft, [])
  | draft, item :: items =>
      let (draft, noted) := step draft item
      let (draft, more) := foldWith step draft items
      (draft, noted ++ more)

/-- The tables of a script, each with the index of its statement. -/
def tablesOf (statements : List Statement) : List (Nat × ParsedTable) :=
  statements.zipIdx.filterMap fun (statement, index) =>
    (classify statement.tokens).asTable.map fun parsed => (index, parsed)

def lateKeysOf (statements : List Statement) : List (Str × ParsedForeignKey) :=
  statements.filterMap fun statement => (classify statement.tokens).asForeignKey

def commentsOf (statements : List Statement) : List Comment :=
  statements.filterMap fun statement => (classify statement.tokens).asComment

def skippedOf (statements : List Statement) : List Diagnostic :=
  (statements.filter fun statement => (classify statement.tokens).isSkipped).map fun statement =>
    skipped statement.source

/-- The warnings about what a table is kept without. -/
def notesOf (parsed : ParsedTable) : List Diagnostic :=
  parsed.skipped.map fun note =>
    .warning .importSkipped ("`" ++ parsed.name ++ "` kept, without " ++ note)

variable [Unicode]

def read (content : Str) (includePositions : Bool) : Except Error (SchemaDraft × Report) :=
  let (statements, hints) := scan content
  let tables := (tablesOf statements).map Prod.snd
  if tables.isEmpty then
    .error (.validation "the file holds no table the canvas could draw"
      [("content", ["expected at least one CREATE TABLE statement"])])
  else
    let draft : SchemaDraft := ⟨[], [], tables.mapIdx (entityFrom uuid), []⟩
    let keys := tables.flatMap fun parsed => parsed.foreignKeys.map fun key => (parsed.name, key)
    let (draft, unlinked) := foldWith (fun draft (holder, key) => link uuid draft holder key) draft
      (keys ++ lateKeysOf statements)
    let (draft, unplaced) := foldWith describe draft (commentsOf statements)
    let draft := place draft hints ((tablesOf statements).map Prod.fst) includePositions
    .ok (draft, ⟨skippedOf statements ++ tables.flatMap notesOf ++ unlinked ++ unplaced⟩)

end Draft

end SchemaForge.Sql
