import SchemaForge.Exchange.CompareSound
import SchemaForge.Sql.Positions
import SchemaForge.Sql.Relinking

/-!
# Scripts read back

A schema that is written as a script and read back is the schema again, under
fresh ids. The reader follows the statements of the script: tables, references,
comments, position lines. What it builds is compared with the schema it came
from, and the comparison finds no difference.
-/

namespace SchemaForge.Sql

open Generator Exchange

section Draft

variable (uuid : Element → Str) (schema : Schema)

/-- What the statements of a script fill in. -/
def scriptMarks : Marks :=
  (documented schema).foldl Marks.describe
    ((resolvedKeys schema).foldl (Marks.point uuid schema) .blank)

/-- The lines that are drawn for the foreign keys of a script. -/
def scriptLines : List Relationship :=
  (resolvedKeys schema).zipIdx.map fun (key, index) => lineOf uuid schema index key

/-- The place that a position line gives back. -/
def writtenPosition (entity : Entity) : Position :=
  ⟨.ofInt entity.position.x.round.toI64, .ofInt entity.position.y.round.toI64⟩

def placedImage (entity : Entity) : Entity :=
  { tableImage uuid schema (scriptMarks uuid schema) entity with
    position := writtenPosition entity }

/-- The draft that is read from the script of a schema. -/
def scriptDraft : SchemaDraft where
  name := []
  description := []
  entities := schema.entities.map (placedImage uuid schema)
  relationships := scriptLines uuid schema

end Draft

section Read

variable {uuid : Element → Str} {schema : Schema}

/-- The position line above a table is the one that places it. -/
theorem placeAt_positionHint {entity : Entity}
    (mem : entity ∈ schema.entities) (trimmed : Str.trim entity.name = entity.name) :
    placeAt (schema.entities.zipIdx.map fun (entity, index) => positionHint entity index)
        (some (schema.entities.idxOf entity)) entity.name (schema.entities.idxOf entity) true =
      writtenPosition entity := by
  have drawn : (entity, schema.entities.idxOf entity) ∈ schema.entities.zipIdx :=
    List.mem_zipIdx_iff_getElem?.mpr (List.getElem?_idxOf mem)
  have found : ((schema.entities.zipIdx.map fun (entity, index) => positionHint entity index).find?
      fun hint => hint.above == some (schema.entities.idxOf entity) &&
        sameTable hint.table entity.name) =
      some (positionHint entity (schema.entities.idxOf entity)) := by
    refine List.find?_eq_some_of_unique (List.mem_map.mpr ⟨_, drawn, rfl⟩) ?_ ?_
    · simp [positionHint, trimmed, sameTable, Str.eqIgnoreAsciiCase_refl]
    · intro hint hintMem accepted
      obtain ⟨⟨other, index⟩, otherMem, rfl⟩ := List.mem_map.mp hintMem
      have above : index = schema.entities.idxOf entity := by
        simp only [positionHint, Bool.and_eq_true, beq_iff_eq, Option.some.injEq] at accepted
        exact accepted.1
      have there := List.mem_zipIdx_iff_getElem?.mp otherMem
      simp only at there
      rw [above, List.getElem?_idxOf mem, Option.some.injEq] at there
      rw [above, there]
  rw [placeAt, if_pos rfl, found]
  rfl

theorem place_draftImage (nodup : schema.entities.Nodup)
    (trimmed : ∀ entity ∈ schema.entities, Str.trim entity.name = entity.name) :
    place (draftImage uuid schema (scriptMarks uuid schema) (scriptLines uuid schema))
        (schema.entities.zipIdx.map fun (entity, index) => positionHint entity index)
        ((schema.entities.zipIdx.map fun (entity, index) =>
          (index, parsedTable entity)).map Prod.fst)
        true =
      scriptDraft uuid schema := by
  refine congrArg (SchemaDraft.mk [] [] · _) ?_
  rw [draftImage, List.mapIdx_eq_map_idxOf nodup]
  refine List.map_congr_left fun entity mem => ?_
  have index : ((schema.entities.zipIdx.map fun (entity, index) =>
      (index, parsedTable entity)).map Prod.fst)[schema.entities.idxOf entity]? =
        some (schema.entities.idxOf entity) := by
    rw [List.getElem?_map, List.getElem?_map, List.getElem?_zipIdx, List.getElem?_idxOf mem]
    simp
  rw [index]
  have placed := placeAt_positionHint mem (trimmed entity mem)
  exact congrArg (fun position => { tableImage uuid schema (scriptMarks uuid schema) entity with
    position := position }) placed

variable [Unicode]

/-- A schema that a script can carry. -/
structure IsCarried (schema : Schema) : Prop where
  nonempty : schema.entities ≠ []
  readable : IsReadableSchema schema
  distinct : IsDistinct schema
  flagged : KeysAreFlagged schema
  single : NamesOnOneLine schema

theorem defaultsSelfContained {schema : Schema} (readable : IsReadableSchema schema)
    {entity : Entity} (mem : entity ∈ schema.entities) : DefaultsSelfContained entity := by
  intro attr attrMem value given
  obtain ⟨tokens, _, spellable, _, rfl⟩ :=
    ((readable.tables entity mem).columns attr attrMem).default value given
  exact selfContained_render spellable

/-- The script is scanned as its statements, with a hint above every table. -/
theorem scan_generate (carried : IsCarried schema) :
    ∃ statements, scan (generate schema .standard) =
        (statements, schema.entities.zipIdx.map fun (entity, index) => positionHint entity index) ∧
      ReadsAsScript schema statements := by
  have reading := @readingOf_generate_with_positions _ schema true
    (fun entity mem => defaultsSelfContained carried.readable mem) carried.single
  have scanned := scan_reading (generate schema .standard)
  rw [GenerateOptions.standard, reading] at scanned
  refine ⟨_, Prod.ext rfl scanned.2, ?_⟩
  rw [ReadsAsScript, ← map_classify_scriptTokens carried.readable, GenerateOptions.standard]
  refine Eq.trans ?_ (congrArg (List.map classify) scanned.1)
  rw [List.map_map]
  rfl

/-- The script of a schema is read as the image of the schema, and nothing is reported. -/
theorem read_generate (carried : IsCarried schema) (fresh : IsFresh uuid schema) :
    read uuid (generate schema .standard) true = .ok (scriptDraft uuid schema, ⟨[]⟩) := by
  obtain ⟨statements, scanned, script⟩ := scan_generate carried
  have tables : (tablesOf statements).map Prod.snd = schema.entities.map parsedTable := by
    rw [tablesOf_script script, List.map_map]
    refine Eq.trans ?_ (congrArg (List.map parsedTable) (List.zipIdx_map_fst 0 schema.entities))
    rw [List.map_map]
    rfl
  have some_ : (schema.entities.map parsedTable).isEmpty = false := by
    simp [carried.nonempty]
  have plain : ((schema.entities.map parsedTable).flatMap fun parsed =>
      parsed.foreignKeys.map fun key => (parsed.name, key)) = [] := by
    simp [parsedTable]
  have quiet : (schema.entities.map parsedTable).flatMap notesOf = [] := by
    simp [parsedTable, notesOf]
  have linked := @foldWith_link uuid schema carried.distinct fresh (resolvedKeys schema)
    (fun key mem => mem) .blank []
  have described := @foldWith_describe uuid schema carried.distinct (documented schema)
    (fun about mem => mem) ((resolvedKeys schema).foldl (Marks.point uuid schema) .blank)
    (scriptLines uuid schema)
  have placed := @place_draftImage uuid schema carried.distinct.entities fun entity mem =>
    (carried.readable.tables entity mem).name
  have created : (⟨[], [], (schema.entities.map parsedTable).mapIdx (entityFrom uuid), []⟩ :
      SchemaDraft) = draftImage uuid schema .blank [] := by
    rw [mapIdx_entityFrom carried.distinct carried.flagged]
    rfl
  rw [← tablesOf_script script] at placed
  rw [List.length_nil, List.nil_append] at linked
  rw [read, scanned]
  simp only [tables, some_, Bool.false_eq_true, if_false, plain, quiet, List.nil_append, created,
    lateKeysOf_script script, commentsOf_script script, skippedOf_script script]
  rw [linked]
  simp only
  rw [show (resolvedKeys schema).zipIdx.map (fun (key, index) => lineOf uuid schema index key) =
    scriptLines uuid schema from rfl, described]
  exact congrArg (fun draft => Except.ok (draft, (⟨[]⟩ : Report))) placed

end Read

section Writable

/-- A default value that the scanner has read: the spelling of the tokens of some statement. -/
def IsScannedDefault [Unicode] (value : Str) : Prop :=
  ∃ text, IsAscii text ∧ ∃ statement ∈ (scan text).1, statement.tokens ≠ [] ∧
    staysInside 0 statement.tokens = true ∧ value = render statement.tokens

/-- Both ends of a line, by the ids of their tables and columns. -/
def endIds (link : Relationship) : (Str × Str) × Str × Str :=
  ((link.fromEntityId, link.fromAttributeId), (link.toEntityId, link.toAttributeId))

/-- The ends of the lines that foreign keys stand for: the key, then the column that holds it. -/
def keyEnds (schema : Schema) : List ((Str × Str) × Str × Str) :=
  schema.entities.flatMap fun entity => entity.attributes.filterMap fun attr =>
    attr.foreignKey.map fun reference =>
      ((reference.entityId, reference.attributeId), (entity.id, attr.id))

/-- A schema that a script can say everything about. -/
structure IsWritable [Unicode] (schema : Schema) : Prop where
  nonempty : schema.entities ≠ []
  valid : Verifier.IsValid schema
  ids : HasDistinctIds schema.draft
  tableNames : ∀ entity ∈ schema.entities, Str.trim entity.name = entity.name ∧ '\n' ∉ entity.name
  columnNames : ∀ entity ∈ schema.entities, ∀ attr ∈ entity.attributes,
    Str.trim attr.name = attr.name ∧ '.' ∉ attr.name
  flagged : KeysAreFlagged schema
  parameters : ∀ entity ∈ schema.entities, ∀ attr ∈ entity.attributes,
    attr.dataType.carriesOwnParameters = true
  positions : ∀ entity ∈ schema.entities, entity.position.x.isWholeUpTo (2 ^ 53) = true ∧
    entity.position.y.isWholeUpTo (2 ^ 53) = true
  defaults : ∀ entity ∈ schema.entities, ∀ attr ∈ entity.attributes, ∀ value ∈ attr.defaultValue,
    IsScannedDefault value
  lines : (schema.relationships.map endIds).Perm (keyEnds schema)
  plain : ∀ link ∈ schema.relationships, link.cardinality = .oneToMany ∧
    Str.trim link.description = []

variable [Unicode] {schema : Schema}

theorem namesApart_of_nodup {α : Type} {items : List α} {name : α → Str}
    (nodup : (items.map fun item => Verifier.nameKey (name item)).Nodup) :
    NamesApart (items.map name) := by
  refine List.pairwise_map.mpr ((List.pairwise_map.mp nodup).imp fun {left right} different => ?_)
  rw [Bool.eq_false_iff]
  exact fun same => different (Verifier.nameKey_eq_of_eqIgnoreAsciiCase same)

theorem IsWritable.isDistinct (writable : IsWritable schema) : IsDistinct schema where
  entities := .of_map _ writable.ids.1
  attributes _ mem := .of_map _ (writable.ids.2 _ mem)
  tables := namesApart_of_nodup writable.valid.nodup_entityKeys
  columns _ mem := namesApart_of_nodup (writable.valid.nodup_attributeKeys mem)

theorem isReadableDefault_of_isScannedDefault {value : Str} (scanned : IsScannedDefault value) :
    IsReadableDefault value := by
  obtain ⟨text, ascii, statement, mem, nonempty, inside, rfl⟩ := scanned
  exact ⟨statement.tokens, nonempty, fun token => isSpellable_of_mem_scan ascii mem, inside, rfl⟩

theorem IsWritable.isReadableTable (writable : IsWritable schema) {entity : Entity}
    (mem : entity ∈ schema.entities) : IsReadableTable entity where
  name := (writable.tableNames entity mem).1
  columns attr attrMem :=
    { name := (writable.columnNames entity mem attr attrMem).1
      parameters := writable.parameters entity mem attr attrMem
      sound := writable.valid.parameterProblem_eq_none mem attrMem
      default := fun value given =>
        isReadableDefault_of_isScannedDefault
          (writable.defaults entity mem attr attrMem value given) }
  apart := writable.isDistinct.columns entity mem
  key := writable.valid.hasPrimaryKey mem

theorem IsWritable.isCarried (writable : IsWritable schema) : IsCarried schema where
  nonempty := writable.nonempty
  readable :=
    ⟨fun _ mem => writable.isReadableTable mem, fun entity mem attr attrMem =>
      (writable.columnNames entity mem attr attrMem).2⟩
  distinct := writable.isDistinct
  flagged := writable.flagged
  single entity mem := by
    have named := writable.tableNames entity mem
    rw [named.1]
    exact named.2

end Writable

section Compared

variable {uuid : Element → Str} {schema : Schema}

theorem position_eq_writtenPosition {entity : Entity}
    (whole : entity.position.x.isWholeUpTo (2 ^ 53) = true ∧
      entity.position.y.isWholeUpTo (2 ^ 53) = true) :
    entity.position.eq (writtenPosition entity) = true := by
  have coordinate {x : F64} (whole : x.isWholeUpTo (2 ^ 53) = true) :
      x.eq (.ofInt x.round.toI64) = true := by
    have kept := (F64.eq_ofInt_toI64_round_iff x).mpr (F64.fitsI64_of_isWholeUpTo whole)
    rw [F64.round_eq_self_of_isWholeUpTo whole] at kept ⊢
    rw [F64.eq_comm]
    exact kept
  simp only [Position.eq, writtenPosition, coordinate whole.1, coordinate whole.2, Bool.and_self]

/-- A column is read back as it was drawn. -/
theorem sameColumn_columnImage {entity : Entity} (mem : entity ∈ schema.entities)
    {attr : Attribute} (attrMem : attr ∈ entity.attributes) :
    SameColumn attr (columnImage uuid schema (scriptMarks uuid schema) entity attr) where
  dataType := rfl
  nullable := rfl
  default := rfl
  primaryKey := rfl
  unique := rfl
  description := by
    have note := @columnNote_foldl_describe schema entity mem attr attrMem
      ((resolvedKeys schema).foldl (Marks.point uuid schema) .blank) (by
        refine @List.foldl_get_of_kept _ _ _ (Marks.point uuid schema)
          (fun marks => marks.columnNote entity attr) _ (fun _ _ _ => rfl) _)
    rw [columnImage, scriptMarks, note, Str.trim_trim]

theorem sameTable_placedImage {entity : Entity} (mem : entity ∈ schema.entities)
    (whole : entity.position.x.isWholeUpTo (2 ^ 53) = true ∧
      entity.position.y.isWholeUpTo (2 ^ 53) = true) :
    SameTable true entity (placedImage uuid schema entity) := by
  have fit : ∀ attr ∈ entity.attributes, same
      (columnImage uuid schema (scriptMarks uuid schema) entity attr).name attr.name = true :=
    fun attr _ => Str.eqIgnoreAsciiCase_refl attr.name
  refine ⟨?_, fun _ => position_eq_writtenPosition whole, isComplete_map fit, ?_⟩
  · have note := @note_foldl_describe schema entity mem
      ((resolvedKeys schema).foldl (Marks.point uuid schema) .blank) (by
        refine @List.foldl_get_of_kept _ _ _ (Marks.point uuid schema)
          (fun marks => marks.note entity) _ (fun _ _ _ => rfl) _)
    rw [placedImage, tableImage, scriptMarks, note, Str.trim_trim]
  · intro attr other matched
    obtain ⟨rfl, attrMem⟩ := @eq_of_mem_matchUp_map _ _
      (fun left right : Attribute => same right.name left.name) _ _ fit _ _ matched
    exact sameColumn_columnImage mem attrMem

theorem hasDistinctIds_scriptDraft (distinct : IsDistinct schema) (fresh : IsFresh uuid schema) :
    HasDistinctIds (scriptDraft uuid schema) := by
  constructor
  · rw [scriptDraft, List.map_map]
    exact distinct.entities.map_on fun entity mem other otherMem same =>
      tableId_injective fresh mem otherMem same
  · intro image mem
    obtain ⟨entity, entityMem, rfl⟩ := List.mem_map.mp mem
    rw [placedImage, tableImage, List.map_map]
    exact (distinct.attributes entity entityMem).map_on fun attr attrMem other otherMem same =>
      columnId_injective fresh entityMem attrMem otherMem same

theorem pointAt_scriptDraft (distinct : IsDistinct schema) (fresh : IsFresh uuid schema)
    {entity : Entity} (mem : entity ∈ schema.entities) {attr : Attribute}
    (attrMem : attr ∈ entity.attributes) :
    pointAt (scriptDraft uuid schema) (tableId uuid schema entity)
      (columnId uuid schema entity attr) =
      spellColumn entity attr :=
  pointAt_of_mem (hasDistinctIds_scriptDraft distinct fresh) (List.mem_map_of_mem mem)
    (List.mem_map_of_mem attrMem)

theorem key_scriptMarks {resolved : ResolvedKey} (mem : resolved ∈ resolvedKeys schema) :
    (scriptMarks uuid schema).key resolved.entity resolved.attr =
      some (referenceTo uuid schema resolved.target resolved.key) := by
  rw [scriptMarks, key_foldl_describe, key_foldl_point mem rfl rfl]

theorem key_scriptMarks_of_none {attr : Attribute} (plain : attr.foreignKey = none)
    (entity : Entity) : (scriptMarks uuid schema).key entity attr = none := by
  rw [scriptMarks, key_foldl_describe, key_foldl_point_of_none plain]
  rfl

/-- Where no column name holds a point, foreign keys spelled alike are one foreign key. -/
theorem sameKeys_self (distinct : IsDistinct schema)
    (points : ∀ entity ∈ schema.entities, ∀ attr ∈ entity.attributes, '.' ∉ attr.name) :
    SameKeys schema.draft schema.draft := by
  refine sameKeys_self_iff.mpr fun left leftMem right rightMem alike => ?_
  obtain ⟨entity, mem, attr, attrMem, reference, key, rfl⟩ := mem_references.mp leftMem
  obtain ⟨other, otherMem, column, columnMem, reference', key', rfl⟩ := mem_references.mp rightMem
  have shape (entity : Entity) (attr : Attribute) :
      spellColumn entity attr = entity.name ++ '.' :: attr.name := by
    rw [spellColumn, List.append_assoc]
    rfl
  simp only [shape] at alike
  obtain ⟨tables, columns⟩ := Str.eqIgnoreAsciiCase_of_append (by decide)
    (points entity mem attr attrMem) (points other otherMem column columnMem) alike
  obtain rfl := eq_of_same_name distinct.tables mem otherMem tables
  obtain rfl := eq_of_same_name (distinct.columns entity mem) attrMem columnMem columns
  obtain rfl : reference = reference' := by
    rw [key, Option.some.injEq] at key'
    exact key'
  exact Str.eqIgnoreAsciiCase_refl _

variable [Unicode]

/-- The foreign keys are read back, spelled as they were. -/
theorem references_scriptDraft (valid : Verifier.IsValid schema) (distinct : IsDistinct schema)
    (fresh : IsFresh uuid schema) :
    references (scriptDraft uuid schema) = references schema.draft := by
  unfold references
  rw [show (scriptDraft uuid schema).entities = schema.entities.map (placedImage uuid schema)
    from rfl, List.flatMap_map]
  refine List.flatMap_congr fun entity mem => ?_
  rw [show (placedImage uuid schema entity).attributes = entity.attributes.map
    (columnImage uuid schema (scriptMarks uuid schema) entity) from rfl, List.filterMap_map]
  refine List.filterMap_congr fun attr attrMem => ?_
  rw [Function.comp_apply, columnImage]
  cases points : attr.foreignKey with
  | none =>
      rw [key_scriptMarks_of_none points]
      rfl
  | some reference =>
      obtain ⟨target, column, resolves, -⟩ := valid.foreignKey_resolves mem attrMem points
      obtain ⟨targetMem, columnMem, -, -⟩ := Schema.mem_of_resolve resolves
      have resolved : (⟨entity, attr, target, column⟩ : ResolvedKey) ∈ resolvedKeys schema :=
        mem_resolvedKeys.mpr ⟨mem, attrMem, reference, points, resolves⟩
      have key := @key_scriptMarks uuid schema _ resolved
      simp only at key
      rw [key, Option.map_some, Option.map_some, referenceTo,
        pointAt_scriptDraft distinct fresh targetMem columnMem, pointAt_of_resolve resolves]
      rfl

/-- The line of a foreign key, spelled from the key to the column that holds it. -/
def spellLine (resolved : ResolvedKey) : Str :=
  spellColumn resolved.target resolved.key ++ " -> " ++ spellColumn resolved.entity resolved.attr

theorem map_keyEnds (valid : Verifier.IsValid schema) (ids : HasDistinctIds schema.draft) :
    ((keyEnds schema).map fun ends => pointAt schema.draft ends.1.1 ends.1.2 ++ " -> " ++
        pointAt schema.draft ends.2.1 ends.2.2) = (resolvedKeys schema).map spellLine := by
  rw [keyEnds, resolvedKeys, List.map_flatMap, List.map_flatMap]
  refine List.flatMap_congr fun entity mem => ?_
  rw [List.filterMap_eq_flatMap_toList, List.map_flatMap, List.map_flatMap]
  refine List.flatMap_congr fun attr attrMem => ?_
  cases points : attr.foreignKey with
  | none => rfl
  | some reference =>
      obtain ⟨target, column, resolves, -⟩ := valid.foreignKey_resolves mem attrMem points
      have holder : pointAt schema.draft entity.id attr.id = spellColumn entity attr :=
        pointAt_of_mem ids mem attrMem
      simp only [resolves, Option.map_some, Option.toList_some, List.map_singleton, spellLine,
        pointAt_of_resolve resolves, holder]

theorem map_ends_relationships (writable : IsWritable schema) :
    (schema.relationships.map (ends schema.draft)).Perm ((resolvedKeys schema).map spellLine) := by
  have spelled := writable.lines.map fun ends => pointAt schema.draft ends.1.1 ends.1.2 ++ " -> " ++
    pointAt schema.draft ends.2.1 ends.2.2
  rw [map_keyEnds writable.valid writable.ids, List.map_map] at spelled
  exact spelled

omit [Unicode] in
theorem map_ends_scriptLines (distinct : IsDistinct schema) (fresh : IsFresh uuid schema) :
    (scriptLines uuid schema).map (ends (scriptDraft uuid schema)) =
      (resolvedKeys schema).map spellLine := by
  rw [scriptLines, List.map_map]
  refine Eq.trans (List.map_congr_left fun (resolved, index) mem => ?_)
    (congrArg (List.map spellLine) (List.zipIdx_map_fst 0 (resolvedKeys schema)) ▸
      (List.map_map ..).symm)
  obtain ⟨holderMem, attrMem, reference, _, resolves⟩ :=
    mem_resolvedKeys.mp (List.fst_mem_of_mem_zipIdx mem)
  obtain ⟨targetMem, keyMem, _, _⟩ := Schema.mem_of_resolve resolves
  have start := pointAt_scriptDraft distinct fresh targetMem keyMem
  have stop := pointAt_scriptDraft distinct fresh holderMem attrMem
  rw [Function.comp_apply, Function.comp_apply, spellLine, ← start, ← stop]
  rfl

theorem sameLinks_scriptDraft (writable : IsWritable schema) (fresh : IsFresh uuid schema) :
    SameLinks schema.draft (scriptDraft uuid schema) := by
  have complete : IsComplete (linkMatching schema.draft (scriptDraft uuid schema)) := by
    refine @isComplete_of_perm _ _ _ _ _ (fun link => Str.toAsciiLowercase link.2)
      (fun link => Str.toAsciiLowercase link.2) (fun link other => ?_) _ _ ?_
    · rw [same, Bool.eq_iff_iff, Str.eqIgnoreAsciiCase_iff, decide_eq_true_eq, eq_comm]
    · have spelled := map_ends_relationships writable
      rw [← map_ends_scriptLines writable.isDistinct fresh] at spelled
      have lowered := spelled.map Str.toAsciiLowercase
      rw [List.map_map, List.map_map] at lowered
      rw [links, links, List.map_map, List.map_map]
      exact lowered
  refine ⟨complete, fun link other matched => ?_⟩
  obtain ⟨mem, otherMem⟩ := mem_of_isComplete complete matched
  obtain ⟨_, linkMem, rfl⟩ := List.mem_map.mp mem
  obtain ⟨_, lineMem, rfl⟩ := List.mem_map.mp otherMem
  obtain ⟨⟨resolved, index⟩, -, rfl⟩ := List.mem_map.mp lineMem
  have plain := writable.plain _ linkMem
  exact ⟨plain.1.symm, plain.2⟩

/-- The script of a schema is read back with nothing to report, and as an equal drawing. -/
theorem read_generate_isEqual (writable : IsWritable schema) (fresh : IsFresh uuid schema) :
    ∃ draft, read uuid (generate schema .standard) true = .ok (draft, ⟨[]⟩) ∧
      (compare schema.draft draft true).isEqual = true := by
  refine ⟨_, read_generate writable.isCarried fresh, compare_isEqual_iff.mpr ?_⟩
  have distinct := writable.isDistinct
  have fit : ∀ entity ∈ schema.entities, same (placedImage uuid schema entity).name entity.name =
      true := fun entity _ => Str.eqIgnoreAsciiCase_refl entity.name
  refine ⟨isComplete_map fit, fun entity other matched =>
    ?_, ?_, sameLinks_scriptDraft writable fresh⟩
  · obtain ⟨rfl, mem⟩ := @eq_of_mem_matchUp_map _ _
      (fun left right : Entity => same right.name left.name) _ _ fit _ _ matched
    exact sameTable_placedImage mem (writable.positions entity mem)
  · have keys := sameKeys_self distinct fun entity mem attr attrMem =>
      (writable.columnNames entity mem attr attrMem).2
    have references := references_scriptDraft writable.valid distinct fresh
    exact ⟨by rw [references]; exact keys.found, by rw [references]; exact keys.known⟩

/-- Two tables with a foreign key between them, a default value and a description. -/
def shelfSchema : Schema where
  id := "s"
  name := "library"
  description := "What is on the shelves"
  entities :=
    [{ Entity.new "t" "authors" with
        attributes :=
          [{ Attribute.new "a" "id" ⟨.uuid, none, none, none⟩ with
            nullable := false, primaryKey := true, unique := true }] },
      { Entity.new "u" "books" with
        description := "One row for each copy"
        attributes :=
          [{ Attribute.new "b" "shelf mark" ⟨.varchar, some 80, none, none⟩ with
              nullable := false, primaryKey := true, unique := true },
            { Attribute.new "c" "title" ⟨.text, none, none, none⟩ with
              defaultValue := some "'Untitled'" },
            { Attribute.new "d" "author" ⟨.uuid, none, none, none⟩ with
              foreignKey := some ⟨"t", "a"⟩ }]
        position := ⟨.ofInt 320, .ofInt (-40)⟩ }]
  relationships := [.new "r" ("t", "a") ("u", "d") .oneToMany]

/-- Uuids as they are drawn for the tables and columns of a small schema. -/
def shelfUuid : Element → Str
  | .entity index => "f81d4fae7dec41d0a76500a0c91e6e" ++ [index.digitChar, '0']
  | .attr entity index => "f81d4fae7dec41d0a76500a0c91e6a" ++ [entity.digitChar, index.digitChar]
  | .relationship index => "f81d4fae7dec41d0a76500a0c91e60" ++ [index.digitChar, '0']

omit [Unicode] in
theorem isWritable_shelfSchema : @IsWritable Unicode.ascii shelfSchema := by
  refine @IsWritable.mk Unicode.ascii _ ?nonempty ?valid ?ids ?tableNames ?columnNames ?flagged
    ?parameters ?positions ?defaults ?lines ?plain
  case flagged =>
    unfold KeysAreFlagged
    decide +kernel
  case defaults =>
    have single : ∀ entity ∈ shelfSchema.entities, ∀ attr ∈ entity.attributes,
        ∀ value ∈ attr.defaultValue, value = "'Untitled'" := by
      decide +kernel
    intro entity mem attr attrMem value given
    have small : ("'Untitled'".toList.all fun c => decide (c.toNat < 128)) = true := by decide
    refine ⟨"'Untitled'", fun c mem => of_decide_eq_true (List.all_eq_true.mp small c mem), ?_⟩
    rw [single entity mem attr attrMem value given]
    decide +kernel
  all_goals decide +kernel

omit [Unicode] in
theorem read_generate_shelfSchema :
    @IsWritable Unicode.ascii shelfSchema ∧ IsFresh shelfUuid shelfSchema ∧
      ∃ draft, @read shelfUuid Unicode.ascii (generate shelfSchema .standard) true =
          .ok (draft, ⟨[]⟩) ∧ (compare shelfSchema.draft draft true).isEqual = true := by
  have fresh : IsFresh shelfUuid shelfSchema := by decide +kernel
  exact ⟨isWritable_shelfSchema, fresh,
    @read_generate_isEqual _ _ Unicode.ascii isWritable_shelfSchema fresh⟩

end Compared

end SchemaForge.Sql
