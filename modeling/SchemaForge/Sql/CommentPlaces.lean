import SchemaForge.Sql.Binding
import SchemaForge.Sql.ColumnLines
import SchemaForge.Sql.RoundTrip

/-!
# Where comments land

A comment names a table, or a table and a column with a point between them. The
reader joins the parts of the name first and takes it apart at the last point
later on, so a table keeps the points of its name and a column loses them.
-/

namespace SchemaForge.Sql

open Generator Exchange

/-- A table by its place, or a column of it by its place there. -/
abbrev Spot := Nat × Option Nat

/-- The names of what is at a spot. -/
abbrev Path := Str × Option Str

section Notes

/-- The description at a spot. -/
def noteAt (draft : SchemaDraft) : Spot → Option Str
  | (index, none) => draft.entities[index]?.map Entity.description
  | (index, some column) =>
      (draft.entities[index]?.bind fun entity => entity.attributes[column]?).map
        Attribute.description

def pathAt (tables : List ParsedTable) : Spot → Option Path
  | (index, none) => tables[index]?.map fun table => (table.name, none)
  | (index, some column) => tables[index]?.bind fun table =>
      table.columns[column]?.map fun column => (table.name, some column.name)

/-- The descriptions of tables and of their columns, each with the name of what it describes. -/
def notes (entities : List Entity) : List (Path × Str) :=
  entities.flatMap fun entity =>
    ((entity.name, none), entity.description) ::
      entity.attributes.map fun attr => ((entity.name, some attr.name), attr.description)

/-- The spot that a comment is put at. -/
def landing (tables : List ParsedTable) (comment : Comment) : Option Spot :=
  (tableFor tables comment.table).bind fun index =>
    comment.column.elim (some (index, none)) fun column =>
      (tables[index]?.bind fun table => columnFor table column).map fun place => (index, some place)

variable {draft : SchemaDraft} {tables : List ParsedTable}

theorem entity_plate (plates : namePlates draft = tables.map plateOf) {index : Nat}
    {table : ParsedTable} :
    tables[index]? = some table → ∃ entity, draft.entities[index]? = some entity ∧
      entity.name = table.name ∧
      entity.attributes.map Attribute.name = table.columns.map ParsedColumn.name := by
  intro found
  have plate := plates_at plates index
  rw [found, Option.map_some, Option.map_eq_some_iff] at plate
  rcases plate with ⟨entity, entityAt, same⟩
  rw [plateOf, Prod.mk.injEq] at same
  refine ⟨entity, entityAt, same.1, ?_⟩
  have names := congrArg (List.map Prod.fst) same.2
  rw [List.map_map, List.map_map] at names
  exact names

theorem table_plate (plates : namePlates draft = tables.map plateOf) {index : Nat}
    {entity : Entity} :
    draft.entities[index]? = some entity → ∃ table, tables[index]? = some table ∧
      entity.name = table.name ∧
      entity.attributes.map Attribute.name = table.columns.map ParsedColumn.name := by
  intro found
  have plate := plates_at plates index
  rw [found, Option.map_some, eq_comm, Option.map_eq_some_iff] at plate
  rcases plate with ⟨table, tableAt, same⟩
  rcases entity_plate plates tableAt with ⟨entity', entityAt, name, names⟩
  rw [found, Option.some.injEq] at entityAt
  subst entityAt
  exact ⟨table, tableAt, name, names⟩

theorem mem_notes (plates : namePlates draft = tables.map plateOf) {path : Path} {text : Str} :
    (path, text) ∈ notes draft.entities ↔
      ∃ spot, pathAt tables spot = some path ∧ noteAt draft spot = some text := by
  rw [notes, List.mem_flatMap]
  constructor
  · rintro ⟨entity, mem, listed⟩
    rcases List.mem_iff_getElem?.mp mem with ⟨index, entityAt⟩
    rcases table_plate plates entityAt with ⟨table, tableAt, name, names⟩
    rcases List.mem_cons.mp listed with here | column
    · cases here
      refine ⟨(index, none), ?_, ?_⟩
      · rw [pathAt, tableAt, Option.map_some, name]
      · rw [noteAt, entityAt, Option.map_some]
    · rcases List.mem_map.mp column with ⟨attr, attrMem, same⟩
      cases same
      rcases List.mem_iff_getElem?.mp attrMem with ⟨place, attrAt⟩
      have named := congrArg (·[place]?) names
      simp only [List.getElem?_map, attrAt, Option.map_some] at named
      rcases Option.map_eq_some_iff.mp named.symm with ⟨column, columnAt, columnName⟩
      refine ⟨(index, some place), ?_, ?_⟩
      · rw [pathAt, tableAt, Option.bind_some, columnAt, Option.map_some, columnName, name]
      · rw [noteAt, entityAt, Option.bind_some, attrAt, Option.map_some]
  · rintro ⟨⟨index, place⟩, found, noted⟩
    cases place with
    | none =>
        rcases Option.map_eq_some_iff.mp found with ⟨table, tableAt, rfl⟩
        rcases entity_plate plates tableAt with ⟨entity, entityAt, name, -⟩
        rw [noteAt, entityAt, Option.map_some, Option.some.injEq] at noted
        refine ⟨entity, List.mem_of_getElem? entityAt, ?_⟩
        rw [← noted, ← name]
        exact List.mem_cons_self ..
    | some place =>
        rcases Option.bind_eq_some_iff.mp found with ⟨table, tableAt, named⟩
        rcases Option.map_eq_some_iff.mp named with ⟨column, columnAt, rfl⟩
        rcases entity_plate plates tableAt with ⟨entity, entityAt, name, names⟩
        rw [noteAt, entityAt, Option.bind_some, Option.map_eq_some_iff] at noted
        rcases noted with ⟨attr, attrAt, rfl⟩
        have alike := congrArg (·[place]?) names
        simp only [List.getElem?_map, attrAt, columnAt, Option.map_some, Option.some.injEq] at alike
        refine ⟨entity, List.mem_of_getElem? entityAt, List.mem_cons_of_mem _ ?_⟩
        rw [← name, ← alike]
        exact List.mem_map.mpr ⟨attr, List.mem_of_getElem? attrAt, rfl⟩

end Notes

section Comments

variable {draft : SchemaDraft} {tables : List ParsedTable}

/-- The note at a spot after a comment that is put there, or elsewhere. -/
def noted (tables : List ParsedTable) (spot : Spot) (note : Option Str) (comment : Comment) :
    Option Str :=
  if landing tables comment = some spot then some comment.text else note

theorem noteAt_describe_table {index : Nat} (inside : index < draft.entities.length) (text : Str)
    (spot : Spot) :
    noteAt { draft with entities := draft.entities.modify index fun entity =>
        { entity with description := text } } spot =
      if some (index, none) = some spot then some text else noteAt draft spot := by
  rcases spot with ⟨other, place⟩
  by_cases here : index = other
  · subst here
    rcases List.getElem?_eq_some_iff.mpr ⟨inside, rfl⟩ with entityAt
    cases place with
    | none => simp [noteAt, entityAt]
    | some place => simp [noteAt, entityAt]
  · have elsewhere : some (index, (none : Option Nat)) ≠ some (other, place) := by
      simp [here]
    rw [if_neg elsewhere]
    cases place with
    | none => simp [noteAt, here]
    | some place => simp [noteAt, here]

theorem noteAt_describe_column {index place : Nat} {entity : Entity} {column : Str}
    (entityAt : draft.entities[index]? = some entity)
    (named : columnIndex entity column = some place) (text : Str) (spot : Spot) :
    noteAt { draft with
        entities := draft.entities.modify index fun entity =>
          { entity with
            attributes := entity.attributes.updateFirst
              (fun attr => Str.eqIgnoreAsciiCase attr.name column)
              fun attr => { attr with description := text } } } spot =
      if some (index, some place) = some spot then some text else noteAt draft spot := by
  rcases spot with ⟨other, otherPlace⟩
  by_cases here : index = other
  · subst here
    have modified := List.updateFirst_eq_modify
        (fun attr : Attribute => { attr with description := text }) named
    cases otherPlace with
    | none => simp [noteAt, entityAt]
    | some otherPlace =>
        rcases (List.findIdx?_eq_some_iff_getElem.mp named) with ⟨short, -⟩
        by_cases same : place = otherPlace
        · subst same
          simp [noteAt, entityAt, modified, short]
        · simp [noteAt, entityAt, modified, same]
  · have elsewhere : some (index, some place) ≠ some (other, otherPlace) := by
      simp [here]
    rw [if_neg elsewhere]
    cases otherPlace with
    | none => simp [noteAt, here]
    | some otherPlace => simp [noteAt, here]

/-- A comment changes the note at the spot where it lands, and says so if there is none. -/
theorem noteAt_describe (plates : namePlates draft = tables.map plateOf) (comment : Comment) :
    ((describe draft comment).2 = [] ↔ (landing tables comment).isSome = true) ∧
      ∀ spot, noteAt (describe draft comment).1 spot = noted tables spot
        (noteAt draft spot) comment := by
  unfold noted landing
  cases reached : tableFor tables comment.table with
  | none => simp [describe, find_eq plates, reached]
  | some index =>
      have inTables : index < tables.length := by
        rw [tableFor, Option.or_eq_some_iff] at reached
        rcases reached with exact | ⟨-, loose⟩
        · rcases List.findIdx?_eq_some_iff_getElem.mp exact with ⟨short, -⟩
          exact short
        · rcases List.findIdx?_eq_some_iff_getElem.mp loose with ⟨short, -⟩
          exact short
      have tableAt := List.getElem?_eq_getElem inTables
      rcases entity_plate plates tableAt with ⟨entity, entityAt, -, -⟩
      cases about : comment.column with
      | none =>
          simp only [describe, find_eq plates, reached, about]
          refine ⟨by simp, ?_⟩
          intro spot
          exact noteAt_describe_table (List.getElem?_eq_some_iff.mp entityAt).1 comment.text spot
      | some column =>
          have same : columnIndex entity column = columnFor tables[index] column := by
            have plate := plates_at plates index
            rw [entityAt, tableAt, Option.map_some, Option.map_some, Option.some.injEq, plateOf,
              Prod.mk.injEq] at plate
            exact columnIndex_eq plate.2 column
          have found : (entity.attributeByName column).isSome =
              (columnIndex entity column).isSome := by
            rw [Entity.attributeByName, columnIndex, List.findIdx?_isSome, List.isSome_find?]
          simp only [describe, find_eq plates, reached, about, entityAt, tableAt, Option.bind_some,
            Option.elim_some, found, ← same]
          cases named : columnIndex entity column with
          | none => simp
          | some place =>
              refine ⟨by simp, ?_⟩
              intro spot
              exact noteAt_describe_column entityAt named comment.text spot

/-- Comments are silent if each of them lands, and the last one at a spot is what is noted there. -/
theorem noteAt_foldWith_describe (plates : namePlates draft = tables.map plateOf)
    (comments : List Comment) :
    ((foldWith describe draft comments).2 = [] ↔
        ∀ comment ∈ comments, (landing tables comment).isSome = true) ∧
      ∀ spot, noteAt (foldWith describe draft comments).1 spot =
        comments.foldl (noted tables spot) (noteAt draft spot) := by
  induction comments generalizing draft with
  | nil => exact ⟨by simp [foldWith], fun _ => rfl⟩
  | cons comment comments ih =>
      rcases noteAt_describe plates comment with ⟨silent, written⟩
      rcases ih ((namePlates_describe draft comment).trans plates) with ⟨silentRest, writtenRest⟩
      constructor
      · rw [foldWith, List.forall_mem_cons, ← silent, ← silentRest]
        exact List.append_eq_nil_iff
      · intro spot
        rw [List.foldl_cons, ← written spot]
        exact writtenRest spot

/-- What is noted at a spot is there from the start, unless a comment lands on it. -/
theorem noted_cases (comments : List Comment) (spot : Spot) (note : Option Str) :
    (comments.foldl (noted tables spot) note = note ∧
        ∀ comment ∈ comments, landing tables comment ≠ some spot) ∨
      ∃ comment ∈ comments, landing tables comment = some spot ∧
        comments.foldl (noted tables spot) note = some comment.text := by
  induction comments generalizing note with
  | nil =>
      left
      exact ⟨rfl, fun _ mem => absurd mem List.not_mem_nil⟩
  | cons comment comments ih =>
      rw [List.foldl_cons]
      rcases ih (noted tables spot note comment) with ⟨kept, elsewhere⟩ |
        ⟨other, mem, lands, written⟩
      · by_cases here : landing tables comment = some spot
        · right
          refine ⟨comment, List.mem_cons_self .., here, ?_⟩
          rw [kept, noted, if_pos here]
        · left
          rw [kept, noted, if_neg here]
          exact ⟨rfl, List.forall_mem_cons.mpr ⟨here, elsewhere⟩⟩
      · right
        exact ⟨other, List.mem_cons_of_mem _ mem, lands, written⟩

end Comments

section Schema

variable [Unicode] {schema : Schema}

/-- The tables of a schema as the generator writes them. -/
def createTables (schema : Schema) : Str := Str.join "\n\n" (schema.entities.map createTable)

/-- The comments of a schema as the generator writes them. -/
def documentation (schema : Schema) : Str := Str.join "\n" (comments schema)

/-- The draft that is read from the tables, with the comments read into it, and their warnings. -/
def commented (uuid : Element → Str) (schema : Schema) : SchemaDraft × List Diagnostic :=
  let statements := (scan (documentation schema)).1
  let (draft, unplaced) :=
    foldWith describe (created uuid (tablesIn (createTables schema))) (commentsOf statements)
  (draft, skippedOf statements ++ unplaced)

/-- What a comment names, with the text that it carries. -/
def noteOf : Entity × Option Attribute → Path × Str
  | (entity, none) => ((entity.name, none), Str.trim entity.description)
  | (entity, some attr) => ((entity.name, some attr.name), Str.trim attr.description)

/-- Every description is read into what it describes and into nothing else, without a warning. -/
structure CommentsLand (uuid : Element → Str) (schema : Schema) : Prop where
  silent : (commented uuid schema).2 = []
  notes_iff : ∀ note : Path × Str, note.2 ≠ [] →
    (note ∈ notes (commented uuid schema).1.entities ↔ note ∈ (documented schema).map noteOf)

/-- The first table that answers to a name has it letter for letter, and so has the column in it. -/
def IsReadAs (tables : List ParsedTable) (about : Entity × Option Attribute) : Prop :=
  ∃ table, tables.find? (fun table => Str.eqIgnoreAsciiCase table.name about.1.name) = some table ∧
    table.name = about.1.name ∧ ∀ attr ∈ about.2, ∃ column,
      table.columns.find?
        (fun column => Str.eqIgnoreAsciiCase column.name attr.name) = some column ∧
        column.name = attr.name

/-- There is no point in the name of the column. -/
def HasNoPoint (about : Entity × Option Attribute) : Prop := ∀ attr ∈ about.2, '.' ∉ attr.name

/-- The names of tables and columns are written as they are. -/
def HasTrimmedNames (schema : Schema) : Prop :=
  ∀ entity ∈ schema.entities, Str.trim entity.name = entity.name ∧
    ∀ attr ∈ entity.attributes, Str.trim attr.name = attr.name

/-- A comment as the reader takes it apart, wherever the last point is. -/
def commentRead : Entity × Option Attribute → Comment
  | (entity, none) => ⟨entity.name, none, Str.trim entity.description⟩
  | (entity, some attr) =>
      ⟨((entity.name ++ "." ++ attr.name).reverse.dropWhile (· != '.')).tail.reverse,
        some (Str.rsplitFirst '.' (entity.name ++ "." ++ attr.name)), Str.trim attr.description⟩

omit [Unicode] in
theorem commentRead_of_hasNoPoint {about : Entity × Option Attribute} (plain : HasNoPoint about) :
    commentRead about = commentOf about := by
  rcases about with ⟨entity, column⟩
  cases column with
  | none => rfl
  | some attr =>
      have split := Str.rsplitOnce_of_mem (by simp : '.' ∈ entity.name ++ "." ++ attr.name)
      have apart := @Str.rsplitOnce_append '.' entity.name attr.name (plain attr rfl)
      have named : entity.name ++ "." ++ attr.name = entity.name ++ '.' :: attr.name := by
        simp
      rw [← named, split, Option.some.injEq, Prod.mk.injEq] at apart
      rw [commentRead, apart.1, apart.2, commentOf]

omit [Unicode] in
theorem classify_commentTokens (trimmed : HasTrimmedNames schema) :
    (commentTokens schema).map classify =
      (documented schema).map fun about => .comment (commentRead about) := by
  rw [commentTokens, documented, List.map_flatMap, List.map_flatMap]
  apply List.flatMap_congr
  intro entity mem
  rcases trimmed entity mem with ⟨name, names⟩
  rw [List.map_append, List.map_append, List.map_map, List.map_map]
  congr 1
  · split
    · rw [List.map_singleton, List.map_singleton, classify_commentOnTableTokens, name]
      rfl
    · rfl
  · apply List.map_congr_left
    intro attr attrMem
    have attrName := names attr (List.mem_of_mem_filter attrMem)
    apply classify_commentOnColumnTokens_of_split
    rw [name, attrName]
    apply Str.rsplitOnce_of_mem
    simp

theorem scan_documentation (schema : Schema) :
    (scan (documentation schema)).1.map Statement.tokens = commentTokens schema := by
  have yields : lex (Str.join "\n" (comments schema) ++ []) =
      ((commentTokens schema).map statementEvents).flatten ++ lex [] :=
    Yields.join (yields_comments schema) lex_newline []
  rw [List.append_nil, lex_nil, List.append_nil] at yields
  have nonempty : ∀ tokens ∈ commentTokens schema, tokens ≠ [] :=
    fun _ mem => commentTokens_ne_nil mem
  have fed := feed_statements nonempty [] []
  rw [(scan_reading _).1, readingOf, documentation, yields, ← List.flatMap_def, Reading.empty, fed]
  rfl

omit [Unicode] in
theorem text_commentRead (about : Entity × Option Attribute) :
    (commentRead about).text = (noteOf about).2 := by
  rcases about with ⟨entity, column⟩
  cases column with
  | none => rfl
  | some attr => rfl

omit [Unicode] in
theorem noteOf_ne_nil {about : Entity × Option Attribute} (mem : about ∈ documented schema) :
    (noteOf about).2 ≠ [] := by
  rcases about with ⟨entity, column⟩
  rcases mem_documented.mp mem with ⟨-, found⟩
  cases column with
  | none => simpa [noteOf, Entity.isDocumented] using found
  | some attr => simpa [noteOf, Attribute.isDocumented] using found.2

theorem classify_documentation (trimmed : HasTrimmedNames schema) :
    ((scan (documentation schema)).1.map fun statement => classify statement.tokens) =
      (documented schema).map fun about => .comment (commentRead about) := by
  rw [← classify_commentTokens trimmed, ← scan_documentation, List.map_map]
  rfl

theorem commentsOf_documentation (trimmed : HasTrimmedNames schema) :
    commentsOf (scan (documentation schema)).1 = (documented schema).map commentRead := by
  have picked := congrArg (List.filterMap Read.asComment) (classify_documentation trimmed)
  rw [List.filterMap_map, List.filterMap_map] at picked
  exact picked.trans (congrFun List.filterMap_eq_map (documented schema))

theorem skippedOf_documentation (trimmed : HasTrimmedNames schema) :
    skippedOf (scan (documentation schema)).1 = [] := by
  rw [skippedOf, List.map_eq_nil_iff, List.filter_eq_nil_iff]
  intro statement mem
  have listed : classify statement.tokens ∈
      (documented schema).map fun about => Read.comment (commentRead about) := by
    rw [← classify_documentation trimmed]
    exact List.mem_map_of_mem mem
  rcases List.mem_map.mp listed with ⟨about, -, same⟩
  rw [← same]
  exact Bool.false_ne_true

omit [Unicode] in
theorem noteAt_created {uuid : Element → Str} {tables : List ParsedTable} {spot : Spot}
    {text : Str} :
    noteAt (created uuid tables) spot = some text → text = [] := by
  rcases spot with ⟨index, place⟩
  intro found
  cases place with
  | none =>
      rw [noteAt, getElem?_created] at found
      rcases Option.map_eq_some_iff.mp found with ⟨entity, entityAt, rfl⟩
      rcases Option.map_eq_some_iff.mp entityAt with ⟨table, -, rfl⟩
      rfl
  | some place =>
      rw [noteAt, getElem?_created] at found
      rcases Option.map_eq_some_iff.mp found with ⟨attr, attrAt, rfl⟩
      rcases Option.bind_eq_some_iff.mp attrAt with ⟨entity, entityAt, columnAt⟩
      rcases Option.map_eq_some_iff.mp entityAt with ⟨table, -, rfl⟩
      rw [entityFrom, List.getElem?_mapIdx] at columnAt
      rcases Option.map_eq_some_iff.mp columnAt with ⟨column, -, rfl⟩
      rfl

variable {uuid : Element → Str}

theorem namePlates_commented (schema : Schema) :
    namePlates (commented uuid schema).1 = (tablesIn (createTables schema)).map plateOf :=
  (foldWith_kept namePlates_describe _ _).trans namePlates_created

theorem silent_commented_iff (trimmed : HasTrimmedNames schema) :
    (commented uuid schema).2 = [] ↔ ∀ about ∈ documented schema,
      (landing (tablesIn (createTables schema)) (commentRead about)).isSome = true := by
  have run := noteAt_foldWith_describe (@namePlates_created uuid (tablesIn (createTables schema)))
    (commentsOf (scan (documentation schema)).1)
  have quiet := run.1
  rw [commentsOf_documentation trimmed, List.forall_mem_map] at quiet
  dsimp only [commented]
  rw [skippedOf_documentation trimmed, List.nil_append, commentsOf_documentation trimmed, quiet]

theorem landed_of_note (trimmed : HasTrimmedNames schema) {note : Path × Str}
    (mem : note ∈ notes (commented uuid schema).1.entities) (given : note.2 ≠ []) :
    ∃ spot, pathAt (tablesIn (createTables schema)) spot = some note.1 ∧
      ∃ about ∈ documented schema, landing (tablesIn (createTables schema))
        (commentRead about) = some spot ∧ (noteOf about).2 = note.2 := by
  have run := noteAt_foldWith_describe (@namePlates_created uuid (tablesIn (createTables schema)))
    (commentsOf (scan (documentation schema)).1)
  rcases (mem_notes (namePlates_commented schema)).mp mem with ⟨spot, named, written⟩
  refine ⟨spot, named, ?_⟩
  have followed := (run.2 spot).symm.trans written
  rcases noted_cases (commentsOf (scan (documentation schema)).1) spot _ with
    ⟨kept, -⟩ | ⟨comment, listed, lands, text⟩
  · rw [kept] at followed
    exact absurd (noteAt_created followed) given
  · rw [text, Option.some.injEq] at followed
    rw [commentsOf_documentation trimmed] at listed
    rcases List.mem_map.mp listed with ⟨about, aboutMem, rfl⟩
    rw [text_commentRead] at followed
    exact ⟨about, aboutMem, lands, followed⟩

theorem note_of_landed (trimmed : HasTrimmedNames schema) {about : Entity × Option Attribute}
    (mem : about ∈ documented schema) {spot : Spot} {path : Path}
    (lands : landing (tablesIn (createTables schema)) (commentRead about) = some spot)
    (named : pathAt (tablesIn (createTables schema)) spot = some path) :
    ∃ other ∈ documented schema,
      landing (tablesIn (createTables schema)) (commentRead other) = some spot ∧
        (path, (noteOf other).2) ∈ notes (commented uuid schema).1.entities := by
  have run := noteAt_foldWith_describe (@namePlates_created uuid (tablesIn (createTables schema)))
    (commentsOf (scan (documentation schema)).1)
  rcases noted_cases (commentsOf (scan (documentation schema)).1) spot
    (noteAt (created uuid (tablesIn (createTables schema))) spot) with
    ⟨-, elsewhere⟩ | ⟨comment, listed, here, text⟩
  · rw [commentsOf_documentation trimmed, List.forall_mem_map] at elsewhere
    exact absurd lands (elsewhere about mem)
  · have followed := (run.2 spot).trans text
    rw [commentsOf_documentation trimmed] at listed
    rcases List.mem_map.mp listed with ⟨other, otherMem, rfl⟩
    rw [text_commentRead] at followed
    exact ⟨other, otherMem, here,
      (mem_notes (namePlates_commented schema)).mpr ⟨spot, named, followed⟩⟩

/-- A path as it is compared. -/
def lowered (path : Path) : Path := (Str.toAsciiLowercase path.1, path.2.map Str.toAsciiLowercase)

omit [Unicode] in
theorem findIdx?_of_find? {α : Type} {test : α → Bool} {items : List α} {item : α}
    (found : items.find? test = some item) :
    ∃ index, items.findIdx? test = some index ∧ items[index]? = some item := by
  rw [List.find?_eq_bind_findIdx?_getElem?, Option.bind_eq_some_iff] at found
  exact found

omit [Unicode] in
theorem find?_of_findIdx? {α : Type} {test : α → Bool} {items : List α} {index : Nat}
    (found : items.findIdx? test = some index) :
    ∃ item, items[index]? = some item ∧ test item = true ∧ items.find? test = some item := by
  rcases List.findIdx?_eq_some_iff_getElem.mp found with ⟨short, accepted, -⟩
  have itemAt := List.getElem?_eq_getElem short
  refine ⟨items[index], itemAt, accepted, ?_⟩
  rw [List.find?_eq_bind_findIdx?_getElem?, found, Option.bind_some, itemAt]

variable {tables : List ParsedTable}

omit [Unicode] in
theorem landing_of_isReadAs {about : Entity × Option Attribute} (asNamed : IsReadAs tables about) :
    ∃ spot, landing tables (commentOf about) = some spot ∧
      pathAt tables spot = some (noteOf about).1 := by
  rcases about with ⟨entity, column⟩
  rcases asNamed with ⟨table, found, name, columns⟩
  rcases findIdx?_of_find? found with ⟨index, reached, tableAt⟩
  have here : tableFor tables entity.name = some index := by
    rw [tableFor, reached, Option.some_or]
  cases column with
  | none =>
      refine ⟨(index, none), ?_, ?_⟩
      · rw [landing, commentOf, here]
        rfl
      · rw [pathAt, tableAt, Option.map_some, name]
        rfl
  | some attr =>
      rcases columns attr rfl with ⟨column, columnFound, columnName⟩
      rcases findIdx?_of_find? columnFound with ⟨place, columnReached, columnAt⟩
      have there : columnFor table attr.name = some place := columnReached
      refine ⟨(index, some place), ?_, ?_⟩
      · rw [landing, commentOf, here, Option.bind_some, Option.elim_some, tableAt,
          Option.bind_some, there]
        rfl
      · rw [pathAt, tableAt, Option.bind_some, columnAt, Option.map_some, columnName, name]
        rfl

omit [Unicode] in
/-- A comment on a table that is there lands on a name that is compared as equal. -/
theorem isReadAs_of_landing {about : Entity × Option Attribute} {spot : Spot}
    (lands : landing tables (commentOf about) = some spot)
    (named : ∃ table ∈ tables, table.name = about.1.name) :
    ∃ path, pathAt tables spot = some path ∧ lowered path = lowered (noteOf about).1 ∧
      (path = (noteOf about).1 → IsReadAs tables about) := by
  rcases about with ⟨entity, column⟩
  rcases Option.bind_eq_some_iff.mp lands with ⟨index, reached, put⟩
  have exact :
      (tables.findIdx? fun table => Str.eqIgnoreAsciiCase table.name entity.name) = some index := by
    have reached : tableFor tables entity.name = some index := by
      cases column with
      | none => exact reached
      | some attr => exact reached
    rw [tableFor] at reached
    cases first : tables.findIdx? fun table => Str.eqIgnoreAsciiCase table.name entity.name with
    | some other =>
        rw [first, Option.some_or] at reached
        exact reached
    | none =>
        rcases named with ⟨table, mem, name⟩
        have refused := List.findIdx?_eq_none_iff.mp first table mem
        rw [name, Str.eqIgnoreAsciiCase_refl] at refused
        cases refused
  rcases find?_of_findIdx? exact with ⟨table, tableAt, alike, found⟩
  have tableLowered := Str.eqIgnoreAsciiCase_iff.mp alike
  cases column with
  | none =>
      cases put
      refine ⟨(table.name, none), ?_, ?_, ?_⟩
      · rw [pathAt, tableAt, Option.map_some]
      · rw [lowered, tableLowered]
        rfl
      · intro same
        refine ⟨table, found, congrArg Prod.fst same, ?_⟩
        intro attr none
        cases none
  | some attr =>
      rcases Option.map_eq_some_iff.mp put with ⟨place, columnReached, rfl⟩
      rw [tableAt, Option.bind_some] at columnReached
      rcases find?_of_findIdx? columnReached with ⟨column, columnAt, columnAlike, columnFound⟩
      refine ⟨(table.name, some column.name), ?_, ?_, ?_⟩
      · rw [pathAt, tableAt, Option.bind_some, columnAt, Option.map_some]
      · rw [lowered, tableLowered, Option.map_some, Str.eqIgnoreAsciiCase_iff.mp columnAlike]
        rfl
      · intro same
        refine ⟨table, found, congrArg Prod.fst same, ?_⟩
        rintro _ ⟨⟩
        exact ⟨column, columnFound, Option.some.inj (congrArg Prod.snd same)⟩

omit [Unicode] in
/-- The column that a comment lands on has no point in its name. -/
theorem noPoint_of_landing {about : Entity × Option Attribute} {spot : Spot} {table column : Str}
    (lands : landing tables (commentRead about) = some spot)
    (named : pathAt tables spot = some (table, some column)) : '.' ∉ column := by
  rcases Option.bind_eq_some_iff.mp lands with ⟨index, -, put⟩
  rcases about with ⟨entity, holder⟩
  cases holder with
  | none =>
      cases put
      rcases Option.map_eq_some_iff.mp named with ⟨other, -, same⟩
      cases same
  | some attr =>
      rcases Option.map_eq_some_iff.mp put with ⟨place, reached, rfl⟩
      rcases Option.bind_eq_some_iff.mp reached with ⟨parsed, tableAt, columnReached⟩
      rcases find?_of_findIdx? columnReached with ⟨read, columnAt, alike, -⟩
      rw [pathAt, tableAt, Option.bind_some, columnAt, Option.map_some, Option.some.injEq,
        Prod.mk.injEq, Option.some.injEq] at named
      rw [← named.2]
      intro mem
      have kept := List.mem_map_of_mem (f := Char.toLower) mem
      have equal := Str.eqIgnoreAsciiCase_iff.mp alike
      rw [Str.toAsciiLowercase] at equal
      rw [equal] at kept
      exact Str.notMem_toAsciiLowercase rfl (Str.notMem_rsplitFirst '.' _) kept

theorem eq_of_lowered {about other : Entity × Option Attribute} (valid : Verifier.IsValid schema)
    (mem : about ∈ documented schema) (otherMem : other ∈ documented schema)
    (alike : lowered (noteOf about).1 = lowered (noteOf other).1) : about = other := by
  rcases about with ⟨entity, column⟩
  rcases other with ⟨otherEntity, otherColumn⟩
  rcases mem_documented.mp mem with ⟨entityMem, found⟩
  rcases mem_documented.mp otherMem with ⟨otherEntityMem, otherFound⟩
  have names : Str.eqIgnoreAsciiCase entity.name otherEntity.name = true := by
    rw [Str.eqIgnoreAsciiCase_iff]
    cases column <;> cases otherColumn <;> exact congrArg Prod.fst alike
  have same : entity = otherEntity :=
    eq_of_same_name (namesApart_of_nodup valid.nodup_entityKeys) entityMem otherEntityMem names
  subst same
  cases column with
  | none =>
      cases otherColumn with
      | none => rfl
      | some attr => cases congrArg Prod.snd alike
  | some attr =>
      cases otherColumn with
      | none => cases congrArg Prod.snd alike
      | some other =>
          have columns : Str.eqIgnoreAsciiCase attr.name other.name = true := by
            rw [Str.eqIgnoreAsciiCase_iff]
            exact Option.some.inj (congrArg Prod.snd alike)
          have apart := namesApart_of_nodup (valid.nodup_attributeKeys entityMem)
          rw [eq_of_same_name apart found.1 otherFound.1 columns]

theorem commentsLand_of_isReadAs (valid : Verifier.IsValid schema)
    (trimmed : HasTrimmedNames schema) (plain : ∀ about ∈ documented schema, HasNoPoint about ∧
      IsReadAs (tablesIn (createTables schema)) about) : CommentsLand uuid schema := by
  have lands (about : Entity × Option Attribute) (mem : about ∈ documented schema) :
      ∃ spot, landing (tablesIn (createTables schema)) (commentRead about) = some spot ∧
        pathAt (tablesIn (createTables schema)) spot = some (noteOf about).1 := by
    rw [commentRead_of_hasNoPoint (plain about mem).1]
    exact landing_of_isReadAs (plain about mem).2
  constructor
  · rw [silent_commented_iff trimmed]
    intro about mem
    rcases lands about mem with ⟨spot, here, -⟩
    rw [here]
    rfl
  · intro note given
    constructor
    · intro mem
      rcases landed_of_note trimmed mem given with ⟨spot, named, about, aboutMem, here, text⟩
      rcases lands about aboutMem with ⟨other, there, path⟩
      rw [here, Option.some.injEq] at there
      rw [← there, named, Option.some.injEq] at path
      exact List.mem_map.mpr ⟨about, aboutMem, Prod.ext path.symm text⟩
    · intro mem
      rcases List.mem_map.mp mem with ⟨about, aboutMem, rfl⟩
      rcases lands about aboutMem with ⟨spot, here, path⟩
      rcases @note_of_landed _ schema uuid trimmed about aboutMem spot _ here path with
        ⟨other, otherMem, there, noted⟩
      -- The comment that is read last at a spot has the name of the spot.
      rcases lands other otherMem with ⟨otherSpot, otherHere, otherPath⟩
      rw [there, Option.some.injEq] at otherHere
      rw [← otherHere, path, Option.some.injEq] at otherPath
      have same := eq_of_lowered valid aboutMem otherMem (congrArg lowered otherPath)
      rw [← same] at noted
      exact noted

theorem isReadAs_of_commentsLand (valid : Verifier.IsValid schema)
    (trimmed : HasTrimmedNames schema) (landed : CommentsLand uuid schema)
    {about : Entity × Option Attribute} (mem : about ∈ documented schema) :
    HasNoPoint about ∧ IsReadAs (tablesIn (createTables schema)) about := by
  have noted := (landed.notes_iff (noteOf about) (noteOf_ne_nil mem)).mpr (List.mem_map_of_mem mem)
  rcases landed_of_note trimmed noted (noteOf_ne_nil mem) with ⟨spot, named, writer, -, here, -⟩
  have plain : HasNoPoint about := by
    rcases about with ⟨entity, column⟩
    rintro attr ⟨⟩
    exact noPoint_of_landing here named
  refine ⟨plain, ?_⟩
  have table : ∃ table ∈ tablesIn (createTables schema), table.name = about.1.name := by
    rcases about with ⟨entity, column⟩
    rcases spot with ⟨index, place⟩
    cases place with
    | none =>
        rcases Option.map_eq_some_iff.mp named with ⟨table, tableAt, path⟩
        refine ⟨table, List.mem_of_getElem? tableAt, ?_⟩
        cases column <;> exact congrArg Prod.fst path
    | some place =>
        rcases Option.bind_eq_some_iff.mp named with ⟨table, tableAt, found⟩
        rcases Option.map_eq_some_iff.mp found with ⟨read, -, path⟩
        refine ⟨table, List.mem_of_getElem? tableAt, ?_⟩
        cases column <;> exact congrArg Prod.fst path
  -- The comment lands somewhere, and what it lands on is documented under its own name.
  rcases Option.isSome_iff_exists.mp
    ((silent_commented_iff trimmed).mp landed.silent about mem) with
    ⟨own, lands⟩
  have read := commentRead_of_hasNoPoint plain
  rw [read] at lands
  rcases isReadAs_of_landing lands table with ⟨path, pathHere, alike, exact⟩
  rw [← read] at lands
  rcases @note_of_landed _ schema uuid trimmed about mem own path lands pathHere with
    ⟨last, lastMem, -, lastNoted⟩
  have listed := (landed.notes_iff (path, (noteOf last).2) (noteOf_ne_nil lastMem)).mp lastNoted
  rcases List.mem_map.mp listed with ⟨other, otherMem, same⟩
  have otherPath : (noteOf other).1 = path := congrArg Prod.fst same
  rw [← otherPath] at alike
  rw [eq_of_lowered valid otherMem mem alike] at otherPath
  exact exact otherPath.symm

theorem scan_createTables (readable : ∀ entity ∈ schema.entities, IsReadableTable entity) :
    (scan (createTables schema)).1.map Statement.tokens =
      schema.entities.map createTableTokens := by
  have defaults (entity : Entity) (mem : entity ∈ schema.entities) :
      DefaultsSelfContained entity := by
    intro attr attrMem value given
    rcases ((readable entity mem).columns attr attrMem).default value given with
      ⟨tokens, -, spellable, -, rfl⟩
    exact selfContained_render spellable
  have yields : List.Forall₂ Yields (schema.entities.map createTable)
      (schema.entities.map fun entity => statementEvents (createTableTokens entity)) := by
    apply Yields.map
    intro entity mem rest
    rw [lex_createTable (defaults entity mem), statementEvents]
    simp
  have blank (rest : Str) : lex ("\n\n" ++ rest) = lex rest := by
    rw [show ("\n\n" : Str) = ['\n', '\n'] from rfl]
    simp
  have script := Yields.join yields blank []
  rw [List.append_nil, lex_nil, List.append_nil] at script
  have nonempty : ∀ tokens ∈ schema.entities.map createTableTokens, tokens ≠ [] := by
    simp [createTableTokens_ne_nil]
  have fed := feed_statements nonempty [] []
  rw [List.flatMap_map] at fed
  rw [(scan_reading _).1, readingOf, createTables, script, ← List.flatMap_def, Reading.empty, fed]
  rfl

theorem tablesIn_createTables (readable : ∀ entity ∈ schema.entities, IsReadableTable entity) :
    tablesIn (createTables schema) = schema.entities.map parsedTable := by
  have parsed : tablesIn (createTables schema) =
      ((scan (createTables schema)).1.map Statement.tokens).filterMap parse := by
    rw [tablesIn_eq, List.filterMap_map]
    rfl
  rw [parsed, scan_createTables readable, List.filterMap_map, ← List.filterMap_eq_map]
  apply List.filterMap_congr
  intro entity mem
  exact parse_createTableTokens (readable entity mem)

theorem isReadAs_of_isReadableTable (valid : Verifier.IsValid schema)
    (readable : ∀ entity ∈ schema.entities, IsReadableTable entity)
    {about : Entity × Option Attribute} (mem : about ∈ documented schema) :
    IsReadAs (tablesIn (createTables schema)) about := by
  rcases about with ⟨entity, column⟩
  rcases mem_documented.mp mem with ⟨entityMem, found⟩
  have tables := @namesApart_of_nodup _ Entity schema.entities Entity.name valid.nodup_entityKeys
  have columns := namesApart_of_nodup (valid.nodup_attributeKeys entityMem)
  rw [tablesIn_createTables readable]
  refine ⟨parsedTable entity, ?_, rfl, ?_⟩
  · rw [List.find?_map]
    have first :
        (schema.entities.find? fun other => Str.eqIgnoreAsciiCase other.name entity.name) =
          some entity :=
      List.find?_eq_some_of_unique entityMem (Str.eqIgnoreAsciiCase_refl _)
        fun other otherMem alike =>
        eq_of_same_name tables otherMem entityMem alike
    exact congrArg (Option.map parsedTable) first
  · rintro attr ⟨⟩
    refine ⟨keyedColumn attr, ?_, rfl⟩
    have first :
        (entity.attributes.find? fun other =>
          Str.eqIgnoreAsciiCase other.name attr.name) = some attr :=
      List.find?_eq_some_of_unique found.1 (Str.eqIgnoreAsciiCase_refl _)
        fun other otherMem alike =>
        eq_of_same_name columns otherMem found.1 alike
    rw [parsedTable, List.find?_map]
    exact congrArg (Option.map keyedColumn) first

/-- Comments land where they were written, unless a column that has one has a point in its name. -/
theorem commentsLand_iff (valid : Verifier.IsValid schema) (trimmed : HasTrimmedNames schema) :
    (CommentsLand uuid schema ↔ ∀ about ∈ documented schema,
        HasNoPoint about ∧ IsReadAs (tablesIn (createTables schema)) about) ∧
    ((∀ entity ∈ schema.entities, IsReadableTable entity) →
      (CommentsLand uuid schema ↔ ∀ about ∈ documented schema, HasNoPoint about)) := by
  have lands : CommentsLand uuid schema ↔ ∀ about ∈ documented schema,
      HasNoPoint about ∧ IsReadAs (tablesIn (createTables schema)) about :=
    ⟨fun landed _ mem => isReadAs_of_commentsLand valid trimmed landed mem,
      commentsLand_of_isReadAs valid trimmed⟩
  refine ⟨lands, ?_⟩
  intro readable
  rw [lands]
  constructor
  · intro plain about mem
    exact (plain about mem).1
  · intro plain about mem
    exact ⟨plain about mem, isReadAs_of_isReadableTable valid readable mem⟩

omit [Unicode] in
theorem commentsLand_shelfSchema : @CommentsLand Unicode.ascii shelfUuid shelfSchema := by
  have valid := @IsWritable.valid Unicode.ascii _ isWritable_shelfSchema
  have trimmed : HasTrimmedNames shelfSchema := by
    unfold HasTrimmedNames
    decide +kernel
  have readable : ∀ entity ∈ shelfSchema.entities, IsReadableTable entity :=
    fun _ mem => @IsWritable.isReadableTable Unicode.ascii _ isWritable_shelfSchema _ mem
  have plain : ∀ about ∈ documented shelfSchema, HasNoPoint about := by
    unfold HasNoPoint
    decide +kernel
  exact ((@commentsLand_iff Unicode.ascii shelfSchema shelfUuid valid trimmed).2 readable).mpr plain

/-- A table with a point in the name of its second column. -/
def pointedSchema : Schema where
  id := "s"
  name := "prices"
  description := []
  entities :=
    [{ Entity.new "t" "a" with
        attributes :=
          [{ Attribute.new "b" "id" ⟨.uuid, none, none, none⟩ with
              nullable := false, primaryKey := true, unique := true },
            { Attribute.new "c" "c.d" ⟨.text, none, none, none⟩ with description := "the price" }]
              }]
  relationships := []

omit [Unicode] in
theorem not_commentsLand_pointedSchema : @Verifier.IsValid Unicode.ascii pointedSchema ∧
    HasTrimmedNames pointedSchema ∧ ¬@CommentsLand Unicode.ascii shelfUuid pointedSchema ∧
    (@commented Unicode.ascii shelfUuid pointedSchema).2 =
      [.warning .importSkipped "a comment on `a.c`, which is not in the file"] := by
  have valid : @Verifier.IsValid Unicode.ascii pointedSchema := by
    decide +kernel
  have trimmed : HasTrimmedNames pointedSchema := by
    unfold HasTrimmedNames
    decide +kernel
  have warned : (@commented Unicode.ascii shelfUuid pointedSchema).2 =
      [.warning .importSkipped "a comment on `a.c`, which is not in the file"] := by
    decide +kernel
  refine ⟨valid, trimmed, ?_, warned⟩
  intro landed
  have silent := @CommentsLand.silent Unicode.ascii _ _ landed
  rw [warned] at silent
  cases silent

end Schema

end SchemaForge.Sql
