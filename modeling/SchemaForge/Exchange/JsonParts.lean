import SchemaForge.Exchange.Json
import SchemaForge.Foundation.Machine

/-!
# What the parts of a file are read as

Each reader of a part reads its members one after the other. If it reads the part, it has
read every member, and the part is put together from them.
-/

namespace SchemaForge.Exchange.Json

open SchemaForge.Json

variable {uuid : Element → Str} {includePositions : Bool} {source : Fields}
    {value : Value} {path : Str}
  {index : Nat}

/-- What is read of an array is read of its elements, each at its place. -/
theorem exists_of_readEach {α : Type} {read : Nat → Value → Except Error α} {values : List Value}
    {items : List α} (ok : readEach read index values = .ok items) {item : α} (mem : item ∈ items) :
    ∃ offset < items.length, ∃ value, read (index + offset) value = .ok item := by
  induction values generalizing index items with
  | nil =>
      rcases Except.ok.inj ok
      cases mem
  | cons value values ih =>
      rcases exists_of_bind_eq_ok ok with ⟨first, firstRead, ok⟩
      rcases exists_of_bind_eq_ok ok with ⟨rest, restRead, ok⟩
      rcases Except.ok.inj ok
      rcases List.mem_cons.mp mem with rfl | later
      · exact ⟨0, Nat.succ_pos _, value, firstRead⟩
      · rcases ih restRead later with ⟨offset, inside, value, found⟩
        exact ⟨offset + 1, Nat.succ_lt_succ inside, value, by
          rwa [Nat.add_assoc, Nat.add_comm 1] at found⟩

/-- Parameters are kept as far as the kind takes them. -/
theorem exists_of_dataTypeFrom {dataType : DataType}
    (ok : dataTypeFrom source path = .ok dataType) :
    ∃ kind length precision scale, dataType = ⟨kind, if kind.takesLength then length else none,
      if kind.takesPrecision then precision else none, if kind.takesPrecision then scale
        else none⟩ := by
  rcases exists_of_bind_eq_ok ok with ⟨_, -, ok⟩
  rcases exists_of_bind_eq_ok ok with ⟨_, -, ok⟩
  rcases exists_of_bind_eq_ok ok with ⟨name, -, ok⟩
  cases known : kindFromName name with
  | none =>
      rw [known] at ok
      cases ok
  | some kind =>
      rw [known] at ok
      rcases exists_of_bind_eq_ok ok with ⟨length, -, ok⟩
      rcases exists_of_bind_eq_ok ok with ⟨precision, -, ok⟩
      rcases exists_of_bind_eq_ok ok with ⟨scale, -, ok⟩
      rcases Except.ok.inj ok
      exact ⟨kind, length, precision, scale, rfl⟩

/-- A column is read from these members. -/
structure AttributeOf (uuid : Element → Str) (element : Element) (source : Fields) (path : Str)
    (attr : Attribute) : Prop where
  id : attr.id = identity source "id" (freshId uuid element)
  name : requiredText source "name" (path ++ ".name") = .ok attr.name
  dataType : dataTypeFrom source path = .ok attr.dataType
  description : (optionalText source "description" (path ++ ".description")).map
    (Option.getD · []) =
    .ok attr.description
  nullable : (flag source "nullable" (path ++ ".nullable") true).map (· && !attr.primaryKey) =
    .ok attr.nullable
  primaryKey : flag source "primaryKey" (path ++ ".primaryKey") false = .ok attr.primaryKey
  unique : flag source "unique" (path ++ ".unique") false = .ok attr.unique
  defaultValue : optionalText source "defaultValue" (path ++ ".defaultValue") =
    .ok attr.defaultValue
  foreignKey : foreignKeyFrom source path = .ok attr.foreignKey

theorem attributeOf_of_attributeFrom {element : Element} {attr : Attribute}
    (ok : attributeFrom uuid element value path = .ok attr) :
    ∃ source, object value path = .ok source ∧ AttributeOf uuid element source path attr := by
  rcases exists_of_bind_eq_ok ok with ⟨source, members, ok⟩
  rcases exists_of_bind_eq_ok ok with ⟨name, named, ok⟩
  rcases exists_of_bind_eq_ok ok with ⟨dataType, typed, ok⟩
  rcases exists_of_bind_eq_ok ok with ⟨description, described, ok⟩
  rcases exists_of_bind_eq_ok ok with ⟨nullable, left, ok⟩
  rcases exists_of_bind_eq_ok ok with ⟨primaryKey, key, ok⟩
  rcases exists_of_bind_eq_ok ok with ⟨unique, single, ok⟩
  rcases exists_of_bind_eq_ok ok with ⟨defaultValue, filled, ok⟩
  rcases exists_of_bind_eq_ok ok with ⟨foreignKey, points, ok⟩
  rcases Except.ok.inj ok
  refine ⟨source, members, rfl, named, typed, ?_, ?_, key, single, filled, points⟩
  · rw [described, Except.map]
  · rw [left, Except.map]

/-- The columns of a table are read from the elements of an array. -/
theorem exists_of_attributesFrom {attributes : List Attribute}
    (ok : attributesFrom uuid source index path = .ok attributes)
    {attr : Attribute} (mem : attr ∈ attributes) : ∃ element value path,
      attributeFrom uuid element value path = .ok attr := by
  unfold attributesFrom at ok
  split at ok
  · rcases Except.ok.inj ok
    cases mem
  · rcases exists_of_bind_eq_ok ok with ⟨values, -, ok⟩
    rcases exists_of_readEach ok mem with ⟨_, -, value, read⟩
    exact ⟨_, _, _, read⟩

/-- A table is read from these members. -/
structure EntityOf (uuid : Element → Str) (includePositions : Bool) (index : Nat)
    (source : Fields) (path : Str) (entity : Entity) : Prop where
  id : entity.id = identity source "id" (freshId uuid (.entity index))
  name : requiredText source "name" (path ++ ".name") = .ok entity.name
  description : (optionalText source "description" (path ++ ".description")).map
    (Option.getD · []) =
    .ok entity.description
  position : positionFrom source index includePositions path = .ok entity.position
  attributes : attributesFrom uuid source index path = .ok entity.attributes

theorem entityOf_of_entityFrom {entity : Entity}
    (ok : entityFrom uuid includePositions index value = .ok entity) :
    ∃ source, object value (item "$.entities" index) = .ok source ∧
      EntityOf uuid includePositions index source (item "$.entities" index) entity := by
  rcases exists_of_bind_eq_ok ok with ⟨source, members, ok⟩
  rcases exists_of_bind_eq_ok ok with ⟨name, named, ok⟩
  rcases exists_of_bind_eq_ok ok with ⟨description, described, ok⟩
  rcases exists_of_bind_eq_ok ok with ⟨position, placed, ok⟩
  rcases exists_of_bind_eq_ok ok with ⟨attributes, columns, ok⟩
  rcases Except.ok.inj ok
  refine ⟨source, members, rfl, named, ?_, placed, columns⟩
  rw [described, Except.map]

/-- A place is in the grid, or it is read from two coordinates. -/
theorem cases_of_positionFrom {position : Position}
    (ok : positionFrom source index includePositions path = .ok position) :
    position = gridSlot index ∨ ∃ members, coordinate members "x" (path ++ ".position" ++ ".x") =
      .ok position.x ∧
      coordinate members "y" (path ++ ".position" ++ ".y") = .ok position.y := by
  unfold positionFrom at ok
  split at ok
  · rcases Except.ok.inj ok
    exact Or.inl rfl
  · split at ok
    · rcases Except.ok.inj ok
      exact Or.inl rfl
    · rcases exists_of_bind_eq_ok ok with ⟨members, -, ok⟩
      rcases exists_of_bind_eq_ok ok with ⟨x, first, ok⟩
      rcases exists_of_bind_eq_ok ok with ⟨y, second, ok⟩
      rcases Except.ok.inj ok
      exact Or.inr ⟨members, first, second⟩

/-- How the reader of a line goes on from the name of its cardinality, in three branches. -/
def cardinalityThen (path : Str) (name : Option Str)
    (rest : Cardinality → Except Error Relationship) :
    Except Error Relationship :=
  match name with
  | none => Except.ok Cardinality.oneToMany >>= rest
  | some name =>
      match cardinalityFromName name with
      | some cardinality => Except.ok cardinality >>= rest
      | none =>
          Except.error (refuse (path ++ ".cardinality") "field must name a known cardinality") >>= rest

theorem exists_of_cardinalityThen {name : Option Str}
    {rest : Cardinality → Except Error Relationship} {link : Relationship}
    (ok : cardinalityThen path name rest = .ok link) :
    ∃ cardinality, (name.elim (some .oneToMany) cardinalityFromName) = some cardinality ∧
      rest cardinality = .ok link := by
  unfold cardinalityThen at ok
  split at ok
  · exact ⟨_, rfl, ok⟩
  · split at ok
    · rename_i known
      exact ⟨_, known, ok⟩
    · cases ok

/-- A line is read from these members, and both of its tables are there. -/
structure RelationshipOf (uuid : Element → Str) (entities : List Entity) (index : Nat)
    (source : Fields) (path : Str) (link : Relationship) : Prop where
  id : link.id = identity source "id" (freshId uuid (.relationship index))
  cardinality : ∃ name, optionalText source "cardinality" (path ++ ".cardinality") = .ok name ∧
    name.elim (some .oneToMany) cardinalityFromName = some link.cardinality
  fromEntityId : requiredText source "fromEntityId" (path ++ ".fromEntityId") =
    .ok link.fromEntityId
  fromAttributeId : requiredText source "fromAttributeId" (path ++ ".fromAttributeId") =
    .ok link.fromAttributeId
  toEntityId : requiredText source "toEntityId" (path ++ ".toEntityId") = .ok link.toEntityId
  toAttributeId : requiredText source "toAttributeId" (path ++ ".toAttributeId") =
    .ok link.toAttributeId
  name : (optionalText source "name" (path ++ ".name")).map (Option.getD · []) = .ok link.name
  description : (optionalText source "description" (path ++ ".description")).map
    (Option.getD · []) =
    .ok link.description
  start : checkEnd entities path "fromEntityId" link.fromEntityId = .ok ()
  stop : checkEnd entities path "toEntityId" link.toEntityId = .ok ()

theorem relationshipOf_of_relationshipFrom {entities : List Entity} {link : Relationship}
    (ok : relationshipFrom uuid entities index value = .ok link) :
    ∃ source, object value (item "$.relationships" index) = .ok source ∧
      RelationshipOf uuid entities index source (item "$.relationships" index) link := by
  rcases exists_of_bind_eq_ok ok with ⟨source, members, ok⟩
  rcases exists_of_bind_eq_ok ok with ⟨spelled, spelling, ok⟩
  rcases exists_of_cardinalityThen ok with ⟨cardinality, known, ok⟩
  rcases exists_of_bind_eq_ok ok with ⟨fromEntityId, startTable, ok⟩
  rcases exists_of_bind_eq_ok ok with ⟨fromAttributeId, startColumn, ok⟩
  rcases exists_of_bind_eq_ok ok with ⟨toEntityId, stopTable, ok⟩
  rcases exists_of_bind_eq_ok ok with ⟨toAttributeId, stopColumn, ok⟩
  rcases exists_of_bind_eq_ok ok with ⟨name, named, ok⟩
  rcases exists_of_bind_eq_ok ok with ⟨description, described, ok⟩
  rcases exists_of_bind_eq_ok ok with ⟨_, start, ok⟩
  rcases exists_of_bind_eq_ok ok with ⟨_, stop, ok⟩
  rcases Except.ok.inj ok
  refine ⟨source, members, rfl, ⟨spelled, spelling, known⟩, startTable, startColumn, stopTable,
    stopColumn, ?_, ?_, start, stop⟩
  · rw [named, Except.map]
  · rw [described, Except.map]

/-- The members of a file, its tables, and its lines. -/
structure DraftOf (uuid : Element → Str) (includePositions : Bool) (root : Fields)
    (draft : SchemaDraft) : Prop where
  name : requiredText root "name" "$.name" = .ok draft.name
  description : (optionalText root "description" "$.description").map (Option.getD · []) =
    .ok draft.description
  entities : ∃ values, readEach (entityFrom uuid includePositions) 0 values = .ok draft.entities
  relationships : relationshipsFrom uuid root draft.entities = .ok draft.relationships

theorem draftOf_of_read {document : Value} {draft : SchemaDraft}
    (ok : read uuid document includePositions = .ok draft) :
    ∃ root, object document "$" = .ok root ∧ DraftOf uuid includePositions root draft := by
  rcases exists_of_bind_eq_ok ok with ⟨root, members, ok⟩
  rcases exists_of_bind_eq_ok ok with ⟨name, named, ok⟩
  rcases exists_of_bind_eq_ok ok with ⟨description, described, ok⟩
  rcases exists_of_bind_eq_ok ok with ⟨_, -, ok⟩
  rcases exists_of_bind_eq_ok ok with ⟨values, -, ok⟩
  rcases exists_of_bind_eq_ok ok with ⟨entities, tables, ok⟩
  rcases exists_of_bind_eq_ok ok with ⟨relationships, lines, ok⟩
  rcases Except.ok.inj ok
  refine ⟨root, members, named, ?_, ⟨values, tables⟩, lines⟩
  rw [described, Except.map]

namespace DraftOf

variable {root : Fields} {draft : SchemaDraft}

/-- Each table of a file is read from an element at its place. -/
theorem exists_of_mem_entities (parts : DraftOf uuid includePositions root draft) {entity : Entity}
    (mem : entity ∈ draft.entities) :
    ∃ index < draft.entities.length, ∃ value, entityFrom uuid includePositions index value =
      .ok entity := by
  rcases parts.entities with ⟨values, read⟩
  rcases exists_of_readEach read mem with ⟨index, inside, value, read⟩
  rw [Nat.zero_add] at read
  exact ⟨index, inside, value, read⟩

theorem exists_of_mem_relationships (parts : DraftOf uuid includePositions root draft)
    {link : Relationship} (mem : link ∈ draft.relationships) :
    ∃ index value, relationshipFrom uuid draft.entities index value = .ok link := by
  have read := parts.relationships
  unfold relationshipsFrom at read
  split at read
  · rw [← Except.ok.inj read] at mem
    cases mem
  · rcases exists_of_bind_eq_ok read with ⟨values, -, read⟩
    rcases exists_of_readEach read mem with ⟨index, -, value, read⟩
    exact ⟨_, value, read⟩

end DraftOf

end SchemaForge.Exchange.Json
