import SchemaForge.Exchange.CompareSound
import SchemaForge.Sql.Read

/-!
# Linking references

Where the reader puts the references of a script. Names are looked up among the
tables and columns as they are created, and linking changes no name, so the
columns that a reference is put between can be found before anything is linked.
A draft under way is the created one with references marked on its columns.
-/

namespace SchemaForge.Sql

open Exchange

/-- The place of a column: its table's, and its own among the columns of the table. -/
abbrev ColumnPlace := Nat × Nat

def columnIndex (entity : Entity) (name : Str) : Option Nat :=
  entity.attributes.findIdx? fun attr => Str.eqIgnoreAsciiCase attr.name name

def targetIndex (entity : Entity) (target : Option Str) : Option Nat :=
  target.elim (entity.attributes.findIdx? Attribute.primaryKey) (columnIndex entity)

/-- The columns that a reference is put between: the one that holds it, and the one it points at. -/
def linkedPlaces (draft : SchemaDraft) (holder : Str) (key : ParsedForeignKey) :
    Option (ColumnPlace × ColumnPlace) := do
  let holderIndex ← find draft holder
  let tableIndex ← find draft key.table
  let holderEntity ← draft.entities[holderIndex]?
  let targetEntity ← draft.entities[tableIndex]?
  let column ← columnIndex holderEntity key.column
  let target ← targetIndex targetEntity key.target
  return ((holderIndex, column), (tableIndex, target))

section Plates

/--
What a lookup reads of a table: its name, and the name of each column with whether it is a key.
-/
abbrev Plate := Str × List (Str × Bool)

def namePlates (draft : SchemaDraft) : List Plate :=
  draft.entities.map fun entity =>
    (entity.name, entity.attributes.map fun attr => (attr.name, attr.primaryKey))

/-- The plate of a table as it is parsed. -/
def plateOf (table : ParsedTable) : Plate :=
  (table.name, table.columns.map fun column => (column.name, column.primaryKey))

/-- The table that a name stands for, among the tables of a script. -/
def tableFor (tables : List ParsedTable) (name : Str) : Option Nat :=
  (tables.findIdx? fun table => Str.eqIgnoreAsciiCase table.name name).or
    (tables.findIdx? fun table => sameTable table.name name)

def columnFor (table : ParsedTable) (name : Str) : Option Nat :=
  table.columns.findIdx? fun column => Str.eqIgnoreAsciiCase column.name name

/-- The column that a reference points at: the one it names, or else the table's key. -/
def targetFor (table : ParsedTable) (target : Option Str) : Option Nat :=
  target.elim (table.columns.findIdx? ParsedColumn.primaryKey) (columnFor table)

/-- The columns that a reference of a script joins: the one that holds it, and its target. -/
def columnsJoined (tables : List ParsedTable) (holder : Str) (key : ParsedForeignKey) :
    Option (ColumnPlace × ColumnPlace) := do
  let holderIndex ← tableFor tables holder
  let tableIndex ← tableFor tables key.table
  let holderTable ← tables[holderIndex]?
  let targetTable ← tables[tableIndex]?
  let column ← columnFor holderTable key.column
  let target ← targetFor targetTable key.target
  return ((holderIndex, column), (tableIndex, target))

variable {draft : SchemaDraft} {tables : List ParsedTable}

theorem find_eq (plates : namePlates draft = tables.map plateOf) (name : Str) :
    find draft name = tableFor tables name := by
  have names : draft.entities.map Entity.name = tables.map ParsedTable.name := by
    have firsts := congrArg (List.map Prod.fst) plates
    rw [namePlates, List.map_map, List.map_map] at firsts
    exact firsts
  have lookup (test : Str → Bool) : (draft.entities.findIdx? fun entity => test entity.name) =
      tables.findIdx? fun table => test table.name := by
    have mapped := congrArg (List.findIdx? test) names
    rw [List.findIdx?_map, List.findIdx?_map] at mapped
    exact mapped
  rw [find, lookup (Str.eqIgnoreAsciiCase · name), lookup (sameTable · name), tableFor]

theorem columnIndex_eq {entity : Entity} {table : ParsedTable}
    (plates : (entity.attributes.map fun attr => (attr.name, attr.primaryKey)) =
      table.columns.map fun column => (column.name, column.primaryKey)) (name : Str) :
    columnIndex entity name = columnFor table name := by
  have mapped := congrArg
    (List.findIdx? fun plate => Str.eqIgnoreAsciiCase plate.1 name) plates
  rw [List.findIdx?_map, List.findIdx?_map] at mapped
  exact mapped

theorem targetIndex_eq {entity : Entity} {table : ParsedTable}
    (plates : (entity.attributes.map fun attr => (attr.name, attr.primaryKey)) =
      table.columns.map fun column => (column.name, column.primaryKey)) (target : Option Str) :
    targetIndex entity target = targetFor table target := by
  cases target with
  | some name => exact columnIndex_eq plates name
  | none =>
      have mapped := congrArg (List.findIdx? Prod.snd) plates
      rw [List.findIdx?_map, List.findIdx?_map] at mapped
      exact mapped

theorem plates_at (plates : namePlates draft = tables.map plateOf) (index : Nat) :
    (draft.entities[index]?.map fun entity =>
      (entity.name, entity.attributes.map fun attr => (attr.name, attr.primaryKey))) =
        tables[index]?.map plateOf := by
  rw [← List.getElem?_map, ← List.getElem?_map, ← plates, namePlates]

/-- References are looked up by what the script says, whatever was filled in meanwhile. -/
theorem linkedPlaces_eq (plates : namePlates draft = tables.map plateOf) (holder : Str)
    (key : ParsedForeignKey) : linkedPlaces draft holder key = columnsJoined tables holder key := by
  simp only [linkedPlaces, columnsJoined, find_eq plates, Option.bind_eq_bind]
  apply Option.bind_congr
  intro holderIndex _
  apply Option.bind_congr
  intro tableIndex _
  have holderPlate := plates_at plates holderIndex
  have tablePlate := plates_at plates tableIndex
  cases holderAt : draft.entities[holderIndex]? with
  | none =>
      rw [holderAt, Option.map_none, eq_comm, Option.map_eq_none_iff] at holderPlate
      rw [holderPlate]
      rfl
  | some holderEntity =>
  cases tableAt : draft.entities[tableIndex]? with
  | none =>
      rw [tableAt, Option.map_none, eq_comm, Option.map_eq_none_iff] at tablePlate
      rw [tablePlate]
      simp
  | some targetEntity =>
  rw [holderAt, Option.map_some, eq_comm, Option.map_eq_some_iff] at holderPlate
  rw [tableAt, Option.map_some, eq_comm, Option.map_eq_some_iff] at tablePlate
  rcases holderPlate with ⟨holderTable, holderFound, holderSame⟩
  rcases tablePlate with ⟨targetTable, tableFound, tableSame⟩
  simp only [holderFound, tableFound, Option.bind_some,
    columnIndex_eq (Prod.mk.inj holderSame).2.symm, targetIndex_eq (Prod.mk.inj tableSame).2.symm]

end Plates

theorem attributeId_eq (entity : Entity) (name : Str) :
    attributeId entity name =
      (columnIndex entity name).bind fun index => entity.attributes[index]?.map Attribute.id := by
  rw [attributeId, Entity.attributeByName, List.find?_eq_bind_findIdx?_getElem?, Option.map_bind]
  rfl

theorem targetId_eq (entity : Entity) (target : Option Str) :
    targetId entity target =
      (targetIndex entity target).bind fun index => entity.attributes[index]?.map Attribute.id := by
  cases target with
  | some name => exact attributeId_eq entity name
  | none =>
      rw [targetId, Entity.primaryKey, List.head?_filter, List.find?_eq_bind_findIdx?_getElem?,
        Option.map_bind]
      rfl

section Marked

/-- A table with references marked on its columns. -/
def markEntity (keys : ColumnPlace → Option ForeignKeyRef) (i : Nat) (entity : Entity) : Entity :=
  { entity with
    attributes := entity.attributes.mapIdx fun j attr => { attr with foreignKey := keys (i, j) } }

/-- A draft with references marked on its columns, and lines drawn. -/
def marked (base : SchemaDraft) (keys : ColumnPlace → Option ForeignKeyRef)
    (links : List Relationship) : SchemaDraft :=
  { base with
    entities := base.entities.mapIdx (markEntity keys)
    relationships := links }

variable {base : SchemaDraft} {keys : ColumnPlace → Option ForeignKeyRef}
  {links : List Relationship}

theorem find_congr {left right : SchemaDraft}
    (names : left.entities.map Entity.name = right.entities.map Entity.name) (name : Str) :
    find left name = find right name := by
  have lookup (draft : SchemaDraft) (test : Str → Bool) :
      (draft.entities.findIdx? fun entity => test entity.name) =
        (draft.entities.map Entity.name).findIdx? test := by
    rw [List.findIdx?_map]
    rfl
  rw [find, find, lookup left (Str.eqIgnoreAsciiCase · name), lookup left (sameTable · name),
    lookup right (Str.eqIgnoreAsciiCase · name), lookup right (sameTable · name), names]

theorem find_marked (name : Str) : find (marked base keys links) name = find base name := by
  apply find_congr
  exact List.map_mapIdx_of_same fun _ _ => rfl

theorem getElem?_marked (index : Nat) :
    (marked base keys links).entities[index]? =
      base.entities[index]?.map (markEntity keys index) := by
  rw [marked, List.getElem?_mapIdx]

theorem getElem?_markEntity (i j : Nat) (entity : Entity) :
    (markEntity keys i entity).attributes[j]? = entity.attributes[j]?.map fun attr =>
      { attr with foreignKey := keys (i, j) } := by
  rw [markEntity, List.getElem?_mapIdx]

theorem columnIndex_markEntity (i : Nat) (entity : Entity) (name : Str) :
    columnIndex (markEntity keys i entity) name = columnIndex entity name :=
  List.findIdx?_mapIdx_of_same fun _ _ => rfl

theorem targetIndex_markEntity (i : Nat) (entity : Entity) (target : Option Str) :
    targetIndex (markEntity keys i entity) target = targetIndex entity target := by
  cases target with
  | some name => exact columnIndex_markEntity i entity name
  | none => exact List.findIdx?_mapIdx_of_same fun _ _ => rfl

/-- What the places of a reference stand for. -/
structure LinksAt (base : SchemaDraft) (holder : Str) (key : ParsedForeignKey)
    (places : ColumnPlace × ColumnPlace) (holderEntity targetEntity : Entity)
    (column target : Attribute) : Prop where
  findHolder : find base holder = some places.1.1
  findTable : find base key.table = some places.2.1
  holderAt : base.entities[places.1.1]? = some holderEntity
  tableAt : base.entities[places.2.1]? = some targetEntity
  columnIndex : columnIndex holderEntity key.column = some places.1.2
  targetIndex : targetIndex targetEntity key.target = some places.2.2
  columnAt : holderEntity.attributes[places.1.2]? = some column
  targetAt : targetEntity.attributes[places.2.2]? = some target

theorem exists_getElem?_of_findIdx? {α : Type} {test : α → Bool} {items : List α} {index : Nat}
    (found : items.findIdx? test = some index) : ∃ item, items[index]? = some item := by
  rcases List.findIdx?_eq_some_iff_getElem.mp found with ⟨bound, -⟩
  exact ⟨_, List.getElem?_eq_getElem bound⟩

theorem linksAt_of_linkedPlaces {holder : Str} {key : ParsedForeignKey}
    {places : ColumnPlace × ColumnPlace} (linked : linkedPlaces base holder key = some places) :
    ∃ holderEntity targetEntity column target,
      LinksAt base holder key places holderEntity targetEntity column target := by
  simp only [linkedPlaces, Option.bind_eq_bind, Option.bind_eq_some_iff, Option.pure_def,
    Option.some.injEq] at linked
  rcases linked with ⟨holderIndex, foundHolder, tableIndex, foundTable, holderEntity, holderAt,
    targetEntity, targetAt, column, columnAt, target, keyAt, rfl⟩
  rcases exists_getElem?_of_findIdx? columnAt with ⟨columnAttr, columnFound⟩
  have targetFound : ∃ attr, targetEntity.attributes[target]? = some attr := by
    unfold targetIndex at keyAt
    cases named : key.target with
    | none =>
        rw [named] at keyAt
        exact exists_getElem?_of_findIdx? keyAt
    | some name =>
        rw [named] at keyAt
        exact exists_getElem?_of_findIdx? keyAt
  rcases targetFound with ⟨targetAttr, targetFound⟩
  exact ⟨holderEntity, targetEntity, columnAttr, targetAttr, foundHolder, foundTable, holderAt,
    targetAt, columnAt, keyAt, columnFound, targetFound⟩

theorem attributeId_markEntity (i : Nat) (entity : Entity) (name : Str) :
    attributeId (markEntity keys i entity) name = attributeId entity name := by
  rw [attributeId_eq, attributeId_eq, columnIndex_markEntity]
  apply Option.bind_congr
  intro j _
  rw [getElem?_markEntity, Option.map_map]
  rfl

theorem targetId_markEntity (i : Nat) (entity : Entity) (target : Option Str) :
    targetId (markEntity keys i entity) target = targetId entity target := by
  rw [targetId_eq, targetId_eq, targetIndex_markEntity]
  apply Option.bind_congr
  intro j _
  rw [getElem?_markEntity, Option.map_map]
  rfl

/-- Marking one more reference. -/
def mark (keys : ColumnPlace → Option ForeignKeyRef) (place : ColumnPlace)
    (reference : ForeignKeyRef) : ColumnPlace → Option ForeignKeyRef :=
  fun other => if other = place then some reference else keys other

theorem markEntity_mark_of_ne {i : Nat} {place : ColumnPlace} (different : place.1 ≠ i)
    (reference : ForeignKeyRef) (entity : Entity) :
    markEntity (mark keys place reference) i entity = markEntity keys i entity := by
  have elsewhere (j : Nat) : mark keys place reference (i, j) = keys (i, j) := by
    apply if_neg
    rintro rfl
    exact different rfl
  simp only [markEntity, elsewhere]

/-- Putting a reference on the first column of an id is marking the place of the id. -/
theorem updateFirst_markEntity {i j : Nat} {entity : Entity} {column : Attribute}
    (distinct : (entity.attributes.map Attribute.id).Nodup)
    (columnAt : entity.attributes[j]? = some column) (reference : ForeignKeyRef) :
    { markEntity keys i entity with
      attributes := (markEntity keys i entity).attributes.updateFirst
        (fun attr => attr.id == column.id) fun attr =>
        { attr with foreignKey := some reference } } =
      markEntity (mark keys (i, j) reference) i entity := by
  have found : ((markEntity keys i entity).attributes.findIdx? fun attr => attr.id == column.id) =
      some j := by
    rw [← List.findIdx?_key_of_nodup distinct columnAt]
    exact List.findIdx?_mapIdx_of_same fun _ _ => rfl
  rw [List.updateFirst_eq_modify _ found]
  refine congrArg (fun attributes => { entity with attributes := attributes }) ?_
  apply List.ext_getElem?
  intro other
  rw [List.getElem?_modify, markEntity, List.getElem?_mapIdx, List.getElem?_mapIdx]
  cases entity.attributes[other]? with
  | none => simp
  | some attr =>
      by_cases here : j = other
      · simp [here, mark]
      · have elsewhere : other ≠ j := fun same => here same.symm
        simp [here, elsewhere, mark]

/-- A reference that is linked is marked on its column, and a line is drawn for it. -/
theorem link_of_linkedPlaces (ids : HasDistinctIds base) {uuid : Element → Str} {holder : Str}
    {key : ParsedForeignKey} {places : ColumnPlace × ColumnPlace}
    {holderEntity targetEntity : Entity} {column target : Attribute}
    (linked : LinksAt base holder key places holderEntity targetEntity column target) :
    link uuid (marked base keys links) holder key =
      (marked base (mark keys places.1 ⟨targetEntity.id, target.id⟩) (links ++
        [Relationship.new (freshId uuid (.relationship links.length)) (targetEntity.id, target.id)
          (holderEntity.id, column.id) .oneToMany]), []) := by
  have columnId : attributeId holderEntity key.column = some column.id := by
    rw [attributeId_eq, linked.columnIndex, Option.bind_some, linked.columnAt]
    rfl
  have targetId : targetId targetEntity key.target = some target.id := by
    rw [targetId_eq, linked.targetIndex, Option.bind_some, linked.targetAt]
    rfl
  have distinct := ids.2 holderEntity (List.mem_of_getElem? linked.holderAt)
  have changed : ((marked base keys links).entities.modify places.1.1 fun entity =>
      { entity with
        attributes := entity.attributes.updateFirst (fun attr => attr.id == column.id)
          fun attr => { attr with foreignKey := some ⟨targetEntity.id, target.id⟩ } }) =
      base.entities.mapIdx (markEntity (mark keys places.1 ⟨targetEntity.id, target.id⟩)) := by
    apply List.ext_getElem?
    intro index
    by_cases here : places.1.1 = index
    · subst here
      rw [List.getElem?_modify_eq, getElem?_marked, List.getElem?_mapIdx, linked.holderAt]
      exact congrArg some (updateFirst_markEntity distinct linked.columnAt _)
    · rw [List.getElem?_modify_ne _ _ here, getElem?_marked, List.getElem?_mapIdx]
      cases base.entities[index]? with
      | none => rfl
      | some entity => exact congrArg some (markEntity_mark_of_ne here _ entity).symm
  simp only [link, find_marked, linked.findHolder, linked.findTable, getElem?_marked,
    linked.holderAt, linked.tableAt, Option.map_some, Option.bind_eq_bind, Option.bind_some,
    attributeId_markEntity, targetId_markEntity, columnId, targetId]
  exact congrArg (fun entities => (({ base with
    entities := entities
    relationships := links ++ [Relationship.new (freshId uuid (.relationship links.length))
      (targetEntity.id, target.id) (holderEntity.id, column.id) .oneToMany] } : SchemaDraft),
      ([] : List Diagnostic))) changed

/-- The warning about a reference that is not linked. -/
def unlinkedNote (holder : Str) (key : ParsedForeignKey) : Diagnostic :=
  .warning .importSkipped ("`" ++ holder ++ "." ++ key.column ++
    "` is not a foreign key, because it points at `" ++ key.table ++ "`")

/-- A reference that no places are found for changes nothing, and is noted. -/
theorem link_of_linkedPlaces_eq_none {uuid : Element → Str} {holder : Str} {key : ParsedForeignKey}
    {draft : SchemaDraft} (unlinked : linkedPlaces draft holder key = none) :
    link uuid draft holder key = (draft, [unlinkedNote holder key]) := by
  simp only [linkedPlaces, Option.bind_eq_bind] at unlinked
  simp only [link, attributeId_eq, targetId_eq, Option.bind_eq_bind]
  cases findHolder : find draft holder with
  | none => rfl
  | some holderIndex =>
  cases findTable : find draft key.table with
  | none => rfl
  | some tableIndex =>
  simp only [findHolder, findTable, Option.bind_some] at unlinked ⊢
  cases holderAt : draft.entities[holderIndex]? with
  | none => rfl
  | some holderEntity =>
  cases tableAt : draft.entities[tableIndex]? with
  | none => rfl
  | some targetEntity =>
  simp only [holderAt, tableAt, Option.bind_some] at unlinked ⊢
  cases columnAt : columnIndex holderEntity key.column with
  | none => rfl
  | some column =>
  cases targetAt : targetIndex targetEntity key.target with
  | none =>
      simp only [Option.bind_none, Option.bind_fun_none]
      rfl
  | some target => simp [columnAt, targetAt] at unlinked

end Marked

section Frames

variable {β : Type} {get : Entity → β}

theorem foldWith_kept {α γ : Type} {step : SchemaDraft → α → SchemaDraft × List Diagnostic}
    {get : SchemaDraft → γ} (kept : ∀ draft item, get (step draft item).1 = get draft)
    (draft : SchemaDraft) (items : List α) : get (foldWith step draft items).1 = get draft := by
  induction items generalizing draft with
  | nil => rfl
  | cons item items ih => exact (ih (step draft item).1).trans (kept draft item)

/-- Linking changes no more of a table than the foreign key of a column. -/
theorem map_link {uuid : Element → Str}
    (kept : ∀ (entity : Entity) (test : Attribute → Bool) (reference : ForeignKeyRef),
      get { entity with attributes := entity.attributes.updateFirst test fun attr =>
        { attr with foreignKey := some reference } } = get entity)
    (draft : SchemaDraft) (holder : Str) (key : ParsedForeignKey) :
    (link uuid draft holder key).1.entities.map get = draft.entities.map get := by
  unfold link
  dsimp only
  split
  · rename_i linked
    simp only [Option.bind_eq_bind, Option.bind_eq_some_iff, Option.pure_def,
      Option.some.injEq] at linked
    rcases linked with ⟨_, _, _, _, _, _, _, _, _, _, _, _, rfl⟩
    apply List.map_modify_of_kept
    intro entity
    exact kept entity _ _
  · rfl

/-- A comment changes no more of a table than its description, or that of a column. -/
theorem map_describe
    (keptTable : ∀ (entity : Entity) (text : Str),
      get { entity with description := text } = get entity)
    (keptColumn : ∀ (entity : Entity) (test : Attribute → Bool) (text : Str),
      get { entity with attributes := entity.attributes.updateFirst test fun attr =>
        { attr with description := text } } = get entity)
    (draft : SchemaDraft) (comment : Comment) :
    (describe draft comment).1.entities.map get = draft.entities.map get := by
  unfold describe
  split
  · rfl
  · split
    · apply List.map_modify_of_kept
      intro entity
      exact keptTable entity _
    · dsimp only
      split
      · apply List.map_modify_of_kept
        intro entity
        exact keptColumn entity _ _
      · rfl

theorem relationships_describe (draft : SchemaDraft) (comment : Comment) :
    (describe draft comment).1.relationships = draft.relationships := by
  unfold describe
  split
  · rfl
  · split
    · rfl
    · dsimp only
      split <;> rfl

theorem map_place
    (kept : ∀ (entity : Entity) (position : Position),
      get { entity with position := position } = get entity)
    (draft : SchemaDraft) (hints : List LayoutHint) (tableAt : List Nat) (includePositions : Bool) :
    (place draft hints tableAt includePositions).entities.map get = draft.entities.map get :=
  List.map_mapIdx_of_same fun _ entity => kept entity _

end Frames

end SchemaForge.Sql
