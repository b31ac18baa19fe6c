import SchemaForge.Sql.Statements

/-!
# Putting a drawing back together

The draft that is read from a generated script is the image of the schema: the
same tables and columns under fresh ids. The passes of the reader fill the image
in. Linking puts a reference on one column, a comment puts one description, and
neither touches anything else; this file follows them through all the statements
of a script.
-/

namespace SchemaForge.Sql

open Generator Exchange

/-- A schema whose tables and columns are told apart by what they are, and by their names. -/
structure IsDistinct (schema : Schema) : Prop where
  entities : schema.entities.Nodup
  attributes : ∀ entity ∈ schema.entities, entity.attributes.Nodup
  tables : NamesApart (schema.entities.map Entity.name)
  columns : ∀ entity ∈ schema.entities, NamesApart (entity.attributes.map Attribute.name)

/-- Items whose names are apart are equal when their names are. -/
theorem eq_of_same_name {α : Type} {name : α → Str} {items : List α}
    (apart : NamesApart (items.map name)) {left right : α} (leftMem : left ∈ items)
    (rightMem : right ∈ items) (same : Str.eqIgnoreAsciiCase (name left) (name right) = true) :
    left = right := by
  have symmetric : Std.Symm fun left right : α =>
      Str.eqIgnoreAsciiCase (name left) (name right) = false :=
    ⟨fun left right differ => by rwa [Str.eqIgnoreAsciiCase_comm]⟩
  by_contra distinct
  have differ := (List.pairwise_map.mp apart).forall leftMem rightMem distinct
  simp [same] at differ

/-- The tables and columns of a schema, by their places. -/
def elements (schema : Schema) : List Element :=
  schema.entities.zipIdx.flatMap fun (entity, index) =>
    .entity index :: (List.range entity.attributes.length).map (.attr index)

/-- The uuids that are drawn for the tables and columns of a schema are distinct. -/
def IsFresh (uuid : Element → Str) (schema : Schema) : Prop :=
  ∀ left ∈ elements schema, ∀ right ∈ elements schema, uuid left = uuid right → left = right

instance (uuid : Element → Str) (schema : Schema) : Decidable (IsFresh uuid schema) :=
  inferInstanceAs (Decidable (∀ left ∈ elements schema, ∀ right ∈ elements schema, _ → _))

section Image

variable (uuid : Element → Str) (schema : Schema)

/-- The id under which a table is read. -/
def tableId (entity : Entity) : Str := freshId uuid (.entity (schema.entities.idxOf entity))

/-- The id under which a column is read. -/
def columnId (entity : Entity) (attr : Attribute) : Str :=
  freshId uuid (.attr (schema.entities.idxOf entity) (entity.attributes.idxOf attr))

/-- What the passes of the reader have filled in so far. -/
structure Marks where
  key : Entity → Attribute → Option ForeignKeyRef
  note : Entity → Str
  columnNote : Entity → Attribute → Str

/-- Nothing filled in yet. -/
def Marks.blank : Marks := ⟨fun _ _ => none, fun _ => [], fun _ _ => []⟩

def columnImage (marks : Marks) (entity : Entity) (attr : Attribute) : Attribute :=
  { attr with
    id := columnId uuid schema entity attr
    description := marks.columnNote entity attr
    foreignKey := marks.key entity attr }

def tableImage (marks : Marks) (entity : Entity) : Entity where
  id := tableId uuid schema entity
  name := entity.name
  description := marks.note entity
  attributes := entity.attributes.map (columnImage uuid schema marks entity)
  position := .origin

def draftImage (marks : Marks) (links : List Relationship) : SchemaDraft where
  name := []
  description := []
  entities := schema.entities.map (tableImage uuid schema marks)
  relationships := links

end Image

section Find

variable {uuid : Element → Str} {schema : Schema}

theorem entity_mem_elements {entity : Entity} (mem : entity ∈ schema.entities) :
    .entity (schema.entities.idxOf entity) ∈ elements schema := by
  have placed : (entity, schema.entities.idxOf entity) ∈ schema.entities.zipIdx :=
    List.mem_zipIdx_iff_getElem?.mpr (List.getElem?_idxOf mem)
  exact List.mem_flatMap.mpr ⟨_, placed, List.mem_cons_self ..⟩

theorem attr_mem_elements {entity : Entity} (mem : entity ∈ schema.entities) {attr : Attribute}
    (attrMem : attr ∈ entity.attributes) :
    .attr (schema.entities.idxOf entity) (entity.attributes.idxOf attr) ∈ elements schema := by
  have placed : (entity, schema.entities.idxOf entity) ∈ schema.entities.zipIdx :=
    List.mem_zipIdx_iff_getElem?.mpr (List.getElem?_idxOf mem)
  have bound := List.mem_range.mpr (List.idxOf_lt_length_of_mem attrMem)
  exact List.mem_flatMap.mpr ⟨_, placed, List.mem_cons_of_mem _ (List.mem_map_of_mem bound)⟩

theorem tableId_injective (fresh : IsFresh uuid schema) {entity other : Entity}
    (mem : entity ∈ schema.entities) (otherMem : other ∈ schema.entities)
    (same : tableId uuid schema entity = tableId uuid schema other) : entity = other := by
  have drawn : uuid (.entity (schema.entities.idxOf entity)) =
      uuid (.entity (schema.entities.idxOf other)) := List.append_cancel_left same
  have places : schema.entities.idxOf entity = schema.entities.idxOf other := by
    simpa using fresh _ (entity_mem_elements mem) _ (entity_mem_elements otherMem) drawn
  exact List.idxOf_inj mem |>.mp places

theorem columnId_injective (fresh : IsFresh uuid schema) {entity : Entity}
    (entityMem : entity ∈ schema.entities) {attr other : Attribute} (mem : attr ∈ entity.attributes)
    (otherMem : other ∈ entity.attributes)
    (same : columnId uuid schema entity attr = columnId uuid schema entity other) :
    attr = other := by
  have drawn : uuid (.attr (schema.entities.idxOf entity) (entity.attributes.idxOf attr)) =
      uuid (.attr (schema.entities.idxOf entity) (entity.attributes.idxOf other)) :=
    List.append_cancel_left same
  have places : entity.attributes.idxOf attr = entity.attributes.idxOf other := by
    simpa using fresh _ (attr_mem_elements entityMem mem) _ (attr_mem_elements entityMem otherMem)
      drawn
  exact List.idxOf_inj mem |>.mp places

theorem find_draftImage (distinct : IsDistinct schema) {entity : Entity}
    (mem : entity ∈ schema.entities) (marks : Marks) (links : List Relationship) :
    find (draftImage uuid schema marks links)
      entity.name = some (schema.entities.idxOf entity) := by
  have found : (schema.entities.findIdx? fun other =>
      Str.eqIgnoreAsciiCase other.name entity.name) =
      some (schema.entities.idxOf entity) :=
    List.findIdx?_eq_some_idxOf mem (Str.eqIgnoreAsciiCase_refl _) fun other otherMem same =>
      eq_of_same_name distinct.tables otherMem mem same
  have mapped : ((draftImage uuid schema marks links).entities.findIdx? fun other =>
      Str.eqIgnoreAsciiCase other.name entity.name) = some (schema.entities.idxOf entity) := by
    rw [draftImage, List.findIdx?_map]
    exact found
  rw [find, mapped]
  rfl

theorem getElem?_draftImage {entity : Entity} (mem : entity ∈ schema.entities) (marks : Marks)
    (links : List Relationship) :
    (draftImage uuid schema marks links).entities[schema.entities.idxOf entity]? =
      some (tableImage uuid schema marks entity) := by
  rw [draftImage, List.getElem?_map, List.getElem?_idxOf mem, Option.map_some]

theorem attributeByName_tableImage (distinct : IsDistinct schema) {entity : Entity}
    (mem : entity ∈ schema.entities) {attr : Attribute} (attrMem : attr ∈ entity.attributes)
    (marks : Marks) : (tableImage uuid schema marks entity).attributeByName attr.name =
      some (columnImage uuid schema marks entity attr) := by
  have found : (entity.attributes.find? fun other => Str.eqIgnoreAsciiCase other.name attr.name) =
      some attr :=
    List.find?_eq_some_of_unique attrMem (Str.eqIgnoreAsciiCase_refl _) fun other otherMem same =>
      eq_of_same_name (distinct.columns entity mem) otherMem attrMem same
  rw [Entity.attributeByName, tableImage, List.find?_map]
  exact congrArg (Option.map _) found

end Find

section Change

variable {uuid : Element → Str} {schema : Schema} {marks marks' : Marks}

/-- A change at the place of one table, which agrees with a change of the marks there. -/
theorem modify_draftImage (distinct : IsDistinct schema) {holder : Entity}
    (mem : holder ∈ schema.entities) {change : Entity → Entity}
    (here : change (tableImage uuid schema marks holder) = tableImage uuid schema marks' holder)
    (elsewhere : ∀ other, other ≠ holder →
      tableImage uuid schema marks' other = tableImage uuid schema marks other)
    (links : List Relationship) :
    (draftImage uuid schema marks links).entities.modify (schema.entities.idxOf holder) change =
      schema.entities.map (tableImage uuid schema marks') := by
  rw [draftImage, List.modify_idxOf distinct.entities mem]
  refine List.map_congr_left fun other _ => ?_
  by_cases changed : other = holder
  · rw [if_pos changed, changed, here]
  · rw [if_neg changed, elsewhere other changed]

/--
A change of the one column that a test accepts, which agrees with a change of the marks there.
-/
theorem modify_column (distinct : IsDistinct schema) {holder : Entity}
    (mem : holder ∈ schema.entities) {column : Attribute} {test : Attribute → Bool}
    {change : Attribute → Attribute}
    (accepts : ∀ other ∈ holder.attributes,
      test (columnImage uuid schema marks holder other) = true ↔ other = column)
    (here : change (columnImage uuid schema marks holder column) =
      columnImage uuid schema marks' holder column)
    (elsewhere : ∀ entity attr, ¬(entity = holder ∧ attr = column) →
      columnImage uuid schema marks' entity attr = columnImage uuid schema marks entity attr)
    (notes : marks'.note = marks.note) (links : List Relationship) :
    ((draftImage uuid schema marks links).entities.modify (schema.entities.idxOf holder)
        fun entity => { entity with attributes := entity.attributes.updateFirst test change }) =
      schema.entities.map (tableImage uuid schema marks') := by
  have single : (holder.attributes.map (columnImage uuid schema marks holder)).Pairwise
      fun left right => ¬(test left = true ∧ test right = true) := by
    refine List.pairwise_map.mpr ((distinct.attributes holder mem).imp_of_mem
      fun leftMem rightMem different => ?_)
    rintro ⟨left, right⟩
    exact different (((accepts _ leftMem).mp left).trans ((accepts _ rightMem).mp right).symm)
  have columns : (tableImage uuid schema marks holder).attributes.updateFirst test change =
      holder.attributes.map (columnImage uuid schema marks' holder) := by
    rw [tableImage, List.updateFirst_eq_map single, List.map_map]
    refine List.map_congr_left fun other otherMem => ?_
    rw [Function.comp_apply]
    by_cases changed : other = column
    · rw [if_pos ((accepts other otherMem).mpr changed), changed, here]
    · rw [if_neg fun accepted => changed ((accepts other otherMem).mp accepted),
        elsewhere holder other fun same => changed same.2]
  refine modify_draftImage distinct mem ?_ (fun other different => ?_) links
  · rw [columns, tableImage, tableImage, notes]
  · have kept : columnImage uuid schema marks' other = columnImage uuid schema marks other :=
      funext fun attr => elsewhere other attr fun same => different same.1
    rw [tableImage, kept, notes, tableImage]

end Change

section Created

variable {uuid : Element → Str} {schema : Schema}

/-- A schema whose key columns say what a script says about key columns. -/
def KeysAreFlagged (schema : Schema) : Prop :=
  ∀ entity ∈ schema.entities, ∀ attr ∈ entity.attributes, attr.primaryKey = true →
    attr.unique = true ∧ attr.nullable = false

theorem attributeFrom_keyedColumn {entity : Entity} {attr : Attribute}
    (flags : attr.primaryKey = true → attr.unique = true ∧ attr.nullable = false) :
    attributeFrom uuid (schema.entities.idxOf entity) (entity.attributes.idxOf attr)
      (keyedColumn attr) = columnImage uuid schema .blank entity attr := by
  obtain ⟨id, name, description, dataType, nullable, primaryKey, unique, foreignKey,
      defaultValue⟩ :=
    attr
  cases primaryKey with
  | true =>
      obtain ⟨rfl, rfl⟩ := flags rfl
      simp [attributeFrom, keyedColumn, parsedColumn, columnImage, columnId,
        Attribute.new, Marks.blank]
  | false =>
      simp [attributeFrom, keyedColumn, parsedColumn, columnImage, columnId,
        Attribute.new, Marks.blank]

/-- The tables of the script are the image with nothing filled in. -/
theorem mapIdx_entityFrom (distinct : IsDistinct schema) (flagged : KeysAreFlagged schema) :
    (schema.entities.map parsedTable).mapIdx (entityFrom uuid) =
      schema.entities.map (tableImage uuid schema .blank) := by
  rw [List.mapIdx_eq_map_idxOf distinct.entities]
  refine List.map_congr_left fun entity mem => ?_
  have columns : (parsedTable entity).columns.mapIdx
      (attributeFrom uuid (schema.entities.idxOf entity)) =
        entity.attributes.map (columnImage uuid schema .blank entity) := by
    rw [parsedTable, List.mapIdx_eq_map_idxOf (distinct.attributes entity mem)]
    exact List.map_congr_left fun attr attrMem =>
      attributeFrom_keyedColumn (flagged entity mem attr attrMem)
  rw [entityFrom, columns]
  rfl

end Created

section Linked

variable (uuid : Element → Str) (schema : Schema)

/-- The reference that a foreign key is read as. -/
def referenceTo (target : Entity) (key : Attribute) : ForeignKeyRef :=
  ⟨tableId uuid schema target, columnId uuid schema target key⟩

/-- The line that is drawn for a foreign key. -/
def lineOf (index : Nat) (resolved : ResolvedKey) : Relationship :=
  Relationship.new (freshId uuid (.relationship index))
    (tableId uuid schema resolved.target, columnId uuid schema resolved.target resolved.key)
    (tableId uuid schema resolved.entity, columnId uuid schema resolved.entity resolved.attr)
    .oneToMany

def Marks.point (marks : Marks) (resolved : ResolvedKey) : Marks :=
  { marks with
    key := fun entity attr =>
      if entity = resolved.entity ∧ attr = resolved.attr then
        some (referenceTo uuid schema resolved.target resolved.key)
      else marks.key entity attr }

variable {uuid schema}

theorem link_keyOf (distinct : IsDistinct schema) (fresh : IsFresh uuid schema)
    {resolved : ResolvedKey} (mem : resolved ∈ resolvedKeys schema) (marks : Marks)
    (links : List Relationship) :
    link uuid (draftImage uuid schema marks links) (keyOf resolved).1 (keyOf resolved).2 =
      (draftImage uuid schema (marks.point uuid schema resolved)
        (links ++ [lineOf uuid schema links.length resolved]), []) := by
  obtain ⟨holderMem, attrMem, reference, _, resolves⟩ := mem_resolvedKeys.mp mem
  obtain ⟨targetMem, keyMem, _, _⟩ := Schema.mem_of_resolve resolves
  have holderColumn :
      attributeId (tableImage uuid schema marks resolved.entity) resolved.attr.name =
      some (columnId uuid schema resolved.entity resolved.attr) := by
    rw [attributeId, attributeByName_tableImage distinct holderMem attrMem]
    rfl
  have targetColumn : targetId (tableImage uuid schema marks resolved.target)
      (some resolved.key.name) = some (columnId uuid schema resolved.target resolved.key) := by
    rw [targetId, attributeId, attributeByName_tableImage distinct targetMem keyMem]
    rfl
  -- Only the column that holds the key is changed.
  have changed := @modify_column uuid schema marks (marks.point uuid schema resolved) distinct
    resolved.entity holderMem resolved.attr
    (fun attr => attr.id == columnId uuid schema resolved.entity resolved.attr)
    (fun attr => { attr with
      foreignKey := some (referenceTo uuid schema resolved.target resolved.key) })
    (fun other otherMem => beq_iff_eq.trans
      ⟨fun same => columnId_injective fresh holderMem otherMem attrMem same,
        fun same => same ▸ rfl⟩)
    (by simp [columnImage, Marks.point])
    (fun entity attr different => by simp only [columnImage, Marks.point, if_neg different])
    rfl links
  simp only [link, keyOf, find_draftImage distinct holderMem, find_draftImage distinct targetMem,
    getElem?_draftImage holderMem, getElem?_draftImage targetMem, holderColumn, targetColumn,
    Option.bind_eq_bind, Option.bind_some]
  refine congrArg (·, []) ?_
  exact congrArg
    (SchemaDraft.mk [] [] · (links ++ [lineOf uuid schema links.length resolved])) changed

/-- Linking the foreign keys of a script one after another. -/
theorem foldWith_link (distinct : IsDistinct schema) (fresh : IsFresh uuid schema)
    {keys : List ResolvedKey} (resolved : ∀ key ∈ keys, key ∈ resolvedKeys schema) (marks : Marks)
    (links : List Relationship) :
    foldWith (fun draft (holder, key) => link uuid draft holder key)
        (draftImage uuid schema marks links) (keys.map keyOf) =
      (draftImage uuid schema (keys.foldl (Marks.point uuid schema) marks)
        (links ++ (keys.zipIdx links.length).map fun (key, index) => lineOf uuid schema index key),
        []) := by
  induction keys generalizing marks links with
  | nil => simp [foldWith]
  | cons key keys ih =>
      rw [List.forall_mem_cons] at resolved
      have step := link_keyOf distinct fresh resolved.1 marks links
      rw [List.map_cons, foldWith]
      simp only [step, ih resolved.2]
      simp

/-- Every column that holds a foreign key gets the reference it stands for. -/
theorem key_foldl_point {entity : Entity} {attr : Attribute} {resolved : ResolvedKey}
    (mem : resolved ∈ resolvedKeys schema) (holder : resolved.entity = entity)
    (column : resolved.attr = attr) (marks : Marks) :
    ((resolvedKeys schema).foldl (Marks.point uuid schema) marks).key entity attr =
      some (referenceTo uuid schema resolved.target resolved.key) := by
  subst holder column
  refine @List.foldl_get_of_written _ _ _ (Marks.point uuid schema)
    (fun marks => marks.key resolved.entity resolved.attr) _
    (fun other => resolved.entity = other.entity ∧ resolved.attr = other.attr) _ ?_ ?_
    ⟨resolved, mem, rfl, rfl⟩ marks
  · intro state other otherMem here
    -- A column has one reference, so it is resolved to one column.
    obtain ⟨_, _, reference, points, resolves⟩ := mem_resolvedKeys.mp mem
    obtain ⟨_, _, otherReference, alsoPoints, alsoResolves⟩ := mem_resolvedKeys.mp otherMem
    rw [← here.2, points, Option.some.injEq] at alsoPoints
    rw [← alsoPoints, resolves, Option.some.injEq, Prod.mk.injEq] at alsoResolves
    simp only [Marks.point, if_pos here, alsoResolves.1, alsoResolves.2]
  · intro state other _ elsewhere
    simp only [Marks.point, if_neg elsewhere]

theorem key_foldl_point_of_none {entity : Entity} {attr : Attribute}
    (plain : attr.foreignKey = none) (marks : Marks) :
    ((resolvedKeys schema).foldl (Marks.point uuid schema) marks).key entity attr =
      marks.key entity attr := by
  refine @List.foldl_get_of_kept _ _ _ (Marks.point uuid schema)
    (fun marks => marks.key entity attr) _ (fun state resolved mem => ?_) marks
  obtain ⟨_, _, reference, points, _⟩ := mem_resolvedKeys.mp mem
  have elsewhere : ¬(entity = resolved.entity ∧ attr = resolved.attr) := by
    rintro ⟨-, rfl⟩
    simp [plain] at points
  simp only [Marks.point, if_neg elsewhere]

end Linked

section Described

variable {uuid : Element → Str} {schema : Schema}

def Marks.describe (marks : Marks) : Entity × Option Attribute → Marks
  | (holder, none) =>
      { marks with
        note := fun entity =>
          if entity = holder then Str.trim holder.description else marks.note entity }
  | (holder, some column) =>
      { marks with
        columnNote := fun entity attr =>
          if entity = holder ∧ attr = column then Str.trim column.description
          else marks.columnNote entity attr }

@[simp] theorem key_describe (marks : Marks) (about : Entity × Option Attribute) :
    (marks.describe about).key = marks.key := by
  obtain ⟨holder, column⟩ := about
  cases column <;> rfl

theorem describe_table (distinct : IsDistinct schema) {holder : Entity}
    (mem : holder ∈ schema.entities) (marks : Marks) (links : List Relationship) :
    describe (draftImage uuid schema marks links) (commentOf (holder, none)) =
      (draftImage uuid schema (marks.describe (holder, none)) links, []) := by
  have changed := @modify_draftImage uuid schema marks (marks.describe (holder, none)) distinct
    holder mem (fun entity => { entity with description := Str.trim holder.description })
    (by
      simp only [tableImage, Marks.describe, if_true]
      rfl)
    (fun other different => by
      simp only [tableImage, Marks.describe, if_neg different]
      rfl) links
  simp only [describe, commentOf, find_draftImage distinct mem]
  exact congrArg (SchemaDraft.mk [] [] · links, []) changed

theorem describe_column (distinct : IsDistinct schema) {holder : Entity}
    (mem : holder ∈ schema.entities) {column : Attribute} (columnMem : column ∈ holder.attributes)
    (marks : Marks) (links : List Relationship) :
    describe (draftImage uuid schema marks links) (commentOf (holder, some column)) =
      (draftImage uuid schema (marks.describe (holder, some column)) links, []) := by
  have changed := @modify_column uuid schema marks (marks.describe (holder, some column)) distinct
    holder mem column (fun attr => Str.eqIgnoreAsciiCase attr.name column.name)
    (fun attr => { attr with description := Str.trim column.description })
    (fun other otherMem =>
      ⟨fun same => eq_of_same_name (distinct.columns holder mem) otherMem columnMem same,
        fun same => same ▸ Str.eqIgnoreAsciiCase_refl _⟩)
    (by simp [columnImage, Marks.describe])
    (fun entity attr different => by simp only [columnImage, Marks.describe, if_neg different])
    rfl links
  simp only [describe, commentOf, find_draftImage distinct mem, getElem?_draftImage mem,
    Option.bind_some, attributeByName_tableImage distinct mem columnMem,
    Option.isSome_some, if_true]
  exact congrArg (SchemaDraft.mk [] [] · links, []) changed

/-- The comments of a script one after another. -/
theorem foldWith_describe (distinct : IsDistinct schema)
    {comments : List (Entity × Option Attribute)}
    (listed : ∀ about ∈ comments, about ∈ documented schema) (marks : Marks)
    (links : List Relationship) :
    foldWith describe (draftImage uuid schema marks links) (comments.map commentOf) =
      (draftImage uuid schema (comments.foldl Marks.describe marks) links, []) := by
  induction comments generalizing marks with
  | nil => rfl
  | cons about comments ih =>
      rw [List.forall_mem_cons] at listed
      have step : describe (draftImage uuid schema marks links) (commentOf about) =
          (draftImage uuid schema (marks.describe about) links, []) := by
        obtain ⟨holder, column⟩ := about
        obtain ⟨mem, found⟩ := mem_documented.mp listed.1
        cases column with
        | none => exact describe_table distinct mem marks links
        | some column => exact describe_column distinct mem found.1 marks links
      rw [List.map_cons, foldWith]
      simp only [step, ih listed.2]
      simp

theorem trim_eq_nil_of_not_documented {description : Str}
    (undocumented : (!(Str.trim description).isEmpty) ≠ true) : Str.trim description = [] := by
  simpa using undocumented

/-- Every table gets its description back, trimmed. -/
theorem note_foldl_describe {entity : Entity} (mem : entity ∈ schema.entities) {marks : Marks}
    (blank : marks.note entity = []) :
    ((documented schema).foldl Marks.describe marks).note entity = Str.trim entity.description := by
  have keeps (state : Marks) (about : Entity × Option Attribute)
      (elsewhere : about ≠ (entity, none)) :
      (state.describe about).note entity = state.note entity := by
    obtain ⟨holder, column⟩ := about
    cases column with
    | none =>
        have different : entity ≠ holder := fun same => elsewhere (same ▸ rfl)
        simp only [Marks.describe, if_neg different]
    | some column => rfl
  by_cases isDocumented : entity.isDocumented = true
  · refine @List.foldl_get_of_written _ _ _ Marks.describe (fun marks => marks.note entity) _
      (· = (entity, none)) _ ?_ (fun state about _ => keeps state about)
      ⟨(entity, none), mem_documented.mpr ⟨mem, isDocumented⟩, rfl⟩ marks
    rintro state _ _ rfl
    simp only [Marks.describe, if_true]
  · rw [trim_eq_nil_of_not_documented isDocumented, ← blank]
    refine @List.foldl_get_of_kept _ _ _ Marks.describe (fun marks => marks.note entity) _
      (fun state about aboutMem => keeps state about ?_) marks
    rintro rfl
    exact isDocumented (mem_documented.mp aboutMem).2

/-- Every column gets its description back, trimmed. -/
theorem columnNote_foldl_describe {entity : Entity} (mem : entity ∈ schema.entities)
    {attr : Attribute} (attrMem : attr ∈ entity.attributes) {marks : Marks}
    (blank : marks.columnNote entity attr = []) :
    ((documented schema).foldl Marks.describe marks).columnNote entity attr =
      Str.trim attr.description := by
  have keeps (state : Marks) (about : Entity × Option Attribute)
      (elsewhere : about ≠ (entity, some attr)) :
      (state.describe about).columnNote entity attr = state.columnNote entity attr := by
    obtain ⟨holder, column⟩ := about
    cases column with
    | none => rfl
    | some column =>
        have different : ¬(entity = holder ∧ attr = column) := by
          rintro ⟨rfl, rfl⟩
          exact elsewhere rfl
        simp only [Marks.describe, if_neg different]
  by_cases isDocumented : attr.isDocumented = true
  · refine @List.foldl_get_of_written _ _ _ Marks.describe
      (fun marks => marks.columnNote entity attr) _ (· = (entity, some attr)) _ ?_
      (fun state about _ => keeps state about)
      ⟨(entity, some attr), mem_documented.mpr ⟨mem, attrMem, isDocumented⟩, rfl⟩ marks
    rintro state _ _ rfl
    simp only [Marks.describe, and_self, if_true]
  · rw [trim_eq_nil_of_not_documented isDocumented, ← blank]
    refine @List.foldl_get_of_kept _ _ _ Marks.describe
      (fun marks => marks.columnNote entity attr) _
      (fun state about aboutMem => keeps state about ?_)
      marks
    rintro rfl
    exact isDocumented (mem_documented.mp aboutMem).2.2

theorem key_foldl_describe (comments : List (Entity × Option Attribute)) (marks : Marks) :
    (comments.foldl Marks.describe marks).key = marks.key :=
  List.foldl_get_of_kept (fun state about _ => key_describe state about) marks

end Described

end SchemaForge.Sql
