import SchemaForge.Generator
import SchemaForge.Verifier.WellFormed

/-!
# Copies of a drawing

A copy has the tables and columns of a drawing in their order, under ids of its
own, and its foreign keys point at the copies of what they point at in the
drawing. The ids are all that it may change about tables and columns, apart from
descriptions and places. A copy of a well-formed drawing whose lines are borne is
well-formed, and is written as the same script.
-/

namespace SchemaForge.Verifier

open Generator

/-- The column is declared as the other is. -/
structure DeclaredAlike (attr other : Attribute) : Prop where
  name : other.name = attr.name
  dataType : other.dataType = attr.dataType
  nullable : other.nullable = attr.nullable
  primaryKey : other.primaryKey = attr.primaryKey
  unique : other.unique = attr.unique
  defaultValue : other.defaultValue = attr.defaultValue

/-- What the foreign key of a column resolves to. -/
def keyTarget (schema : Schema) (attr : Attribute) : Option (Entity × Attribute) :=
  attr.foreignKey.bind fun reference => schema.resolve reference.entityId reference.attributeId

structure IsCopy (table : Entity → Entity) (column : Entity → Attribute → Attribute)
    (schema copy : Schema) :
    Prop where
  tables : copy.entities = schema.entities.map table
  names : ∀ entity ∈ schema.entities, (table entity).name = entity.name
  columns : ∀ entity ∈ schema.entities, (table entity).attributes = entity.attributes.map
    (column entity)
  declared : ∀ entity ∈ schema.entities, ∀ attr ∈ entity.attributes,
    DeclaredAlike attr (column entity attr)
  targets : ∀ entity ∈ schema.entities, ∀ attr ∈ entity.attributes,
    keyTarget copy (column entity attr) =
      (keyTarget schema attr).map fun (target, key) => (table target, column target key)
  keyless : ∀ entity ∈ schema.entities, ∀ attr ∈ entity.attributes,
    attr.foreignKey = none → (column entity attr).foreignKey = none

section Copies

variable {table : Entity → Entity} {column : Entity → Attribute → Attribute} {schema copy : Schema}

namespace IsCopy

theorem length (isCopy : IsCopy table column schema copy) :
    copy.entities.length = schema.entities.length := by
  rw [isCopy.tables, List.length_map]

theorem primaryKey (isCopy : IsCopy table column schema copy) {entity : Entity}
    (mem : entity ∈ schema.entities) :
    (table entity).primaryKey = entity.primaryKey.map (column entity) := by
  rw [Entity.primaryKey, isCopy.columns entity mem, List.filter_map, Entity.primaryKey]
  exact congrArg _ (List.filter_congr fun attr attrMem =>
    (isCopy.declared entity mem attr attrMem).primaryKey)

theorem isUniqueKey (isCopy : IsCopy table column schema copy) {entity : Entity}
    (mem : entity ∈ schema.entities) {attr : Attribute} (attrMem : attr ∈ entity.attributes) :
    isUniqueKey (table entity) (column entity attr) = isUniqueKey entity attr := by
  have declared := isCopy.declared entity mem attr attrMem
  rw [Verifier.isUniqueKey, Verifier.isUniqueKey, declared.unique, declared.primaryKey,
    isCopy.primaryKey mem, List.length_map]

/-- The copy of a foreign key that resolves. -/
def copyKey (table : Entity → Entity) (column : Entity → Attribute → Attribute)
    (resolved : ResolvedKey) : ResolvedKey :=
  ⟨table resolved.entity, column resolved.entity resolved.attr, table resolved.target,
    column resolved.target resolved.key⟩

theorem resolvedKeys_eq (schema : Schema) :
    resolvedKeys schema = schema.entities.flatMap fun entity =>
    entity.attributes.flatMap fun attr =>
      (keyTarget schema attr).toList.map fun (target, key) => ⟨entity, attr, target, key⟩ := by
  refine List.flatMap_congr fun entity _ => List.flatMap_congr fun attr _ => ?_
  rw [keyTarget]
  cases attr.foreignKey with
  | none => rfl
  | some reference =>
      simp only [Option.bind_some]
      cases schema.resolve reference.entityId reference.attributeId <;> rfl

theorem resolvedKeys (isCopy : IsCopy table column schema copy) :
    resolvedKeys copy = (resolvedKeys schema).map (copyKey table column) := by
  rw [resolvedKeys_eq, resolvedKeys_eq, isCopy.tables, List.flatMap_map, List.map_flatMap]
  refine List.flatMap_congr fun entity mem => ?_
  rw [isCopy.columns entity mem, List.flatMap_map, List.map_flatMap]
  refine List.flatMap_congr fun attr attrMem => ?_
  rw [isCopy.targets entity mem attr attrMem]
  cases keyTarget schema attr <;> rfl

theorem createTable (isCopy : IsCopy table column schema copy) {entity : Entity}
    (mem : entity ∈ schema.entities) :
    createTable (table entity) = createTable entity := by
  have lines : (table entity).attributes.map Generator.column =
      entity.attributes.map Generator.column := by
    rw [isCopy.columns entity mem, List.map_map]
    refine List.map_congr_left fun attr attrMem => ?_
    have declared := isCopy.declared entity mem attr attrMem
    rw [Function.comp_apply, Generator.column, Generator.column, declared.name, declared.dataType,
      declared.nullable, declared.defaultValue, declared.unique, declared.primaryKey]
  have key : Generator.primaryKey (table entity) = Generator.primaryKey entity := by
    have quoted : (entity.primaryKey.map (column entity)).map (fun attr => quote attr.name) =
        entity.primaryKey.map fun attr => quote attr.name := by
      rw [List.map_map]
      refine List.map_congr_left fun attr attrMem => ?_
      rw [Function.comp_apply,
        (isCopy.declared entity mem attr (List.mem_of_mem_filter attrMem)).name]
    rw [Generator.primaryKey, Generator.primaryKey, isCopy.primaryKey mem, quoted, List.isEmpty_map]
  rw [Generator.createTable, Generator.createTable, lines, key, isCopy.names entity mem]

theorem alterTable (isCopy : IsCopy table column schema copy) {resolved : ResolvedKey}
    (mem : resolved ∈ Generator.resolvedKeys schema) :
    alterTable (copyKey table column resolved) = alterTable resolved := by
  rcases mem_resolvedKeys.mp mem with ⟨entityMem, attrMem, reference, -, resolves⟩
  rcases Schema.mem_of_resolve resolves with ⟨targetMem, keyMem, -, -⟩
  have holder := isCopy.names _ entityMem
  have target := isCopy.names _ targetMem
  have attr := (isCopy.declared _ entityMem _ attrMem).name
  have key := (isCopy.declared _ targetMem _ keyMem).name
  unfold Generator.alterTable copyKey
  dsimp only
  rw [holder, target, attr, key]

/-- The copy says of its tables and columns what the drawing says, but for blanks around it. -/
structure DescribedAlike (table : Entity → Entity) (column : Entity → Attribute → Attribute)
    (schema : Schema) :
    Prop where
  tables : ∀ entity ∈ schema.entities, Str.trim (table entity).description =
    Str.trim entity.description
  columns : ∀ entity ∈ schema.entities, ∀ attr ∈ entity.attributes,
    Str.trim (column entity attr).description = Str.trim attr.description

theorem comments (isCopy : IsCopy table column schema copy)
    (described : DescribedAlike table column schema) :
    comments copy = comments schema := by
  rw [Generator.comments, Generator.comments, isCopy.tables, List.flatMap_map]
  refine List.flatMap_congr fun entity mem => ?_
  have onTable : commentOnTable (table entity) = commentOnTable entity := by
    unfold commentOnTable literal
    rw [described.tables entity mem, isCopy.names entity mem]
  have isDocumented : (table entity).isDocumented = entity.isDocumented := by
    rw [Entity.isDocumented, Entity.isDocumented, described.tables entity mem]
  rw [onTable, isDocumented, isCopy.columns entity mem, List.filter_map, List.map_map]
  refine congrArg _ ?_
  have documented : entity.attributes.filter (Attribute.isDocumented ∘ column entity) =
      entity.attributes.filter Attribute.isDocumented := by
    refine List.filter_congr fun attr attrMem => ?_
    rw [Function.comp_apply, Attribute.isDocumented, Attribute.isDocumented,
      described.columns entity mem attr attrMem]
  rw [documented]
  refine List.map_congr_left fun attr attrMem => ?_
  have attrMem := List.mem_of_mem_filter attrMem
  rw [Function.comp_apply]
  unfold commentOnColumn literal
  rw [isCopy.names entity mem, (isCopy.declared entity mem attr attrMem).name,
    described.columns entity mem attr attrMem]

/-- The position lines of the copy are those of the drawing. -/
def PlacedAlike (table : Entity → Entity) (schema : Schema) : Prop :=
  ∀ entity ∈ schema.entities, (table entity).position.x.round.toI64 =
    entity.position.x.round.toI64 ∧
    (table entity).position.y.round.toI64 = entity.position.y.round.toI64

/-- A copy is written as the same script. -/
theorem generate (isCopy : IsCopy table column schema copy)
    (described : DescribedAlike table column schema) (placed : PlacedAlike table schema)
    (options : GenerateOptions) :
    generate copy options = generate schema options := by
  have tables : (schema.entities.map table).map (fun entity =>
      if options.includePositions then position entity ++ "\n" ++ Generator.createTable entity
        else Generator.createTable entity) =
      schema.entities.map fun entity =>
        if options.includePositions then position entity ++ "\n" ++ Generator.createTable entity
        else Generator.createTable entity := by
    rw [List.map_map]
    refine List.map_congr_left fun entity mem => ?_
    have line : position (table entity) = position entity := by
      unfold position
      rw [isCopy.names entity mem, (placed entity mem).1, (placed entity mem).2]
    rw [Function.comp_apply, line, isCopy.createTable mem]
  have keys : foreignKeys copy = foreignKeys schema := by
    rw [foreignKeys, foreignKeys, isCopy.resolvedKeys, List.map_map]
    exact List.map_congr_left fun resolved mem => isCopy.alterTable mem
  rw [Generator.generate, Generator.generate, keys, isCopy.comments described,
    isCopy.tables, tables]

/-- A foreign key of the copy resolves to the copy of the key that the original points at. -/
theorem exists_target (isCopy : IsCopy table column schema copy) {entity : Entity}
    (mem : entity ∈ schema.entities) {attr : Attribute} (attrMem : attr ∈ entity.attributes)
    (points : PointsAtKey schema attr) {reference : ForeignKeyRef}
    (key : (column entity attr).foreignKey = some reference) :
    ∃ original target column', attr.foreignKey = some original ∧
      schema.resolve original.entityId original.attributeId = some (target, column') ∧
      copy.resolve reference.entityId reference.attributeId = some (table target,
        column target column') ∧
      Verifier.isUniqueKey target column' = true ∧
        attr.dataType.isCompatibleWith column'.dataType = true := by
  cases pointer : attr.foreignKey with
  | none =>
      rw [isCopy.keyless entity mem attr attrMem pointer] at key
      cases key
  | some original =>
      rcases points original pointer with ⟨target, column', resolves, accepted⟩
      have copied := isCopy.targets entity mem attr attrMem
      rw [keyTarget, key, keyTarget, pointer, Option.bind_some, Option.bind_some,
        resolves] at copied
      exact ⟨original, target, column', rfl, resolves, copied, accepted⟩

/-- An edge between two tables of the copy is one between their originals. -/
theorem edge (isCopy : IsCopy table column schema copy) {keep : Attribute → Bool}
    (kept : ∀ entity ∈ schema.entities, ∀ attr ∈ entity.attributes,
      keep (column entity attr) = keep attr)
    (distinct : (schema.entities.map Entity.id).Nodup)
    (copyDistinct : (copy.entities.map Entity.id).Nodup)
    (resolves : ∀ entity ∈ schema.entities, ∀ attr ∈ entity.attributes, PointsAtKey schema attr)
    {start stop : Fin copy.entities.length} (edge : (start, stop) ∈ keyEdges copy keep) :
    (start.cast isCopy.length, stop.cast isCopy.length) ∈ keyEdges schema keep := by
  have original (place : Fin copy.entities.length) :
      copy.entities.get place = table (schema.entities.get (place.cast isCopy.length)) := by
    simp [isCopy.tables]
  rcases (mem_keyEdges copyDistinct).mp edge with
    ⟨proper, _, copyMem, required, reference, key, named⟩
  have mem := List.get_mem schema.entities (start.cast isCopy.length)
  rw [original, isCopy.columns _ mem] at copyMem
  rcases List.mem_map.mp copyMem with ⟨attr, attrMem, rfl⟩
  rcases isCopy.exists_target mem attrMem (resolves _ mem attr attrMem) key with
    ⟨reference', target, column', key', found, copied, -⟩
  have here := Schema.mem_of_resolve found
  have there := Schema.mem_of_resolve copied
  -- Both ids name one table of the copy, and so one place.
  rcases List.get_of_mem here.1 with ⟨place, same⟩
  have arrives : place = stop.cast isCopy.length := by
    have one : idAt copy (place.cast isCopy.length.symm) = idAt copy stop := by
      rw [← named, ← there.2.2.1, idAt, original]
      exact congrArg (fun entity => (table entity).id) same
    have places := idAt_injective copyDistinct one
    rw [← places]
    rfl
  refine (mem_keyEdges distinct).mpr ⟨fun loop => proper (Fin.cast_injective _ loop), attr, attrMem,
    ?_, reference', key', ?_⟩
  · rw [← kept _ mem attr attrMem]
    exact required
  · rw [← here.2.2.1, ← same, arrives]
    rfl

theorem requiredEdge (isCopy : IsCopy table column schema copy)
    (distinct : (schema.entities.map Entity.id).Nodup)
    (copyDistinct : (copy.entities.map Entity.id).Nodup)
    (resolves : ∀ entity ∈ schema.entities, ∀ attr ∈ entity.attributes, PointsAtKey schema attr)
    (start stop : Fin copy.entities.length) (edge : (start, stop) ∈ requiredEdges copy) :
    (start.cast isCopy.length, stop.cast isCopy.length) ∈ requiredEdges schema := by
  refine isCopy.edge (fun entity mem attr attrMem => ?_) distinct copyDistinct resolves edge
  rw [(isCopy.declared entity mem attr attrMem).nullable]

/-- A copy of a well-formed drawing is well-formed if its lines are borne by its foreign keys. -/
theorem isWellFormed [Unicode] (isCopy : IsCopy table column schema copy)
    (sound : IsWellFormed schema) (distinct : (schema.entities.map Entity.id).Nodup)
    (copyDistinct : (copy.entities.map Entity.id).Nodup)
    (lines : ∀ link ∈ copy.relationships, IsBorne copy link) : IsWellFormed copy := by
  have drawn {property : Entity → Prop}
      (holds : ∀ entity ∈ schema.entities, property (table entity)) :
      ∀ entity ∈ copy.entities, property entity := by
    rw [isCopy.tables]
    exact List.forall_mem_map.mpr holds
  have declared {property : Attribute → Prop} {entity : Entity} (mem : entity ∈ schema.entities)
      (holds : ∀ attr ∈ entity.attributes, property (column entity attr)) :
      ∀ attr ∈ (table entity).attributes, property attr := by
    rw [isCopy.columns entity mem]
    exact List.forall_mem_map.mpr holds
  constructor
  case tablesNamed =>
    refine drawn fun entity mem => ?_
    rw [isCopy.names entity mem]
    exact sound.tablesNamed entity mem
  case columnsNamed =>
    refine drawn fun entity mem => declared mem fun attr attrMem => ?_
    rw [(isCopy.declared entity mem attr attrMem).name]
    exact sound.columnsNamed entity mem attr attrMem
  case parameters =>
    refine drawn fun entity mem => declared mem fun attr attrMem => ?_
    rw [(isCopy.declared entity mem attr attrMem).dataType]
    exact sound.parameters entity mem attr attrMem
  case tablesApart =>
    have keys : copy.entities.map (fun entity => nameKey entity.name) =
        schema.entities.map fun entity => nameKey entity.name := by
      rw [isCopy.tables, List.map_map]
      exact List.map_congr_left fun entity mem => congrArg nameKey (isCopy.names entity mem)
    rw [keys]
    exact sound.tablesApart
  case columnsApart =>
    refine drawn fun entity mem => ?_
    have keys : (table entity).attributes.map (fun attr => nameKey attr.name) =
        entity.attributes.map fun attr => nameKey attr.name := by
      rw [isCopy.columns entity mem, List.map_map]
      exact List.map_congr_left fun attr attrMem =>
        congrArg nameKey (isCopy.declared entity mem attr attrMem).name
    rw [keys]
    exact sound.columnsApart entity mem
  case keyed =>
    refine drawn fun entity mem => ?_
    rcases sound.keyed entity mem with ⟨attr, attrMem, flagged⟩
    refine ⟨column entity attr, ?_,
      (isCopy.declared entity mem attr attrMem).primaryKey.trans flagged⟩
    rw [isCopy.columns entity mem]
    exact List.mem_map_of_mem attrMem
  case references =>
    refine drawn fun entity mem => declared mem fun attr attrMem reference key => ?_
    rcases isCopy.exists_target mem attrMem (sound.references entity mem attr attrMem) key with
      ⟨original, target, column', -, found, copied, unique, compatible⟩
    rcases Schema.mem_of_resolve found with ⟨targetMem, columnMem, -, -⟩
    refine ⟨table target, column target column', copied, ?_, ?_⟩
    · rw [isCopy.isUniqueKey targetMem columnMem]
      exact unique
    · rw [(isCopy.declared entity mem attr attrMem).dataType,
        (isCopy.declared target targetMem column' columnMem).dataType]
      exact compatible
  case lines => exact lines
  case enterable =>
    intro start stop different connected
    have edges := isCopy.requiredEdge distinct copyDistinct sound.references
    refine sound.enterable (start.cast isCopy.length) (stop.cast isCopy.length)
      (fun same => different (Fin.cast_injective _ same)) ⟨?_, ?_⟩
    · exact connected.1.lift (Fin.cast isCopy.length) edges
    · exact connected.2.lift (Fin.cast isCopy.length) edges

end IsCopy

end Copies

end SchemaForge.Verifier
