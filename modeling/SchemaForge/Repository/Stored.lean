import SchemaForge.Domain.Schema

/-!
# Stored drawings

The records in which the store keeps the entities and relationships of a schema.
Writing them cannot fail; reading them fails on a name of a data type or of a
cardinality that the model does not know.
-/

namespace SchemaForge

/-- What can go wrong in the store. -/
inductive DomainError where
  | schemaNotFound
  | duplicateSchemaName (name : Str)
  | storage (cause : Str)
deriving DecidableEq

namespace Repository

structure StoredDataType where
  kind : Str
  length : Option UInt32
  precision : Option UInt32
  scale : Option UInt32
deriving DecidableEq

structure StoredAttribute where
  id : Str
  name : Str
  description : Str
  dataType : StoredDataType
  nullable : Bool
  primaryKey : Bool
  unique : Bool
  foreignKey : Option ForeignKeyRef
  defaultValue : Option Str
deriving DecidableEq

structure StoredEntity where
  id : Str
  name : Str
  description : Str
  attributes : List StoredAttribute
  position : Position
deriving DecidableEq

structure StoredRelationship where
  id : Str
  name : Str
  description : Str
  fromEntityId : Str
  fromAttributeId : Str
  toEntityId : Str
  toAttributeId : Str
  cardinality : Str
deriving DecidableEq

def StoredDataType.ofDataType (dataType : DataType) : StoredDataType where
  kind := dataType.kind.asStr
  length := dataType.length
  precision := dataType.precision
  scale := dataType.scale

def StoredAttribute.ofAttribute (attr : Attribute) : StoredAttribute where
  id := attr.id
  name := attr.name
  description := attr.description
  dataType := .ofDataType attr.dataType
  nullable := attr.nullable
  primaryKey := attr.primaryKey
  unique := attr.unique
  foreignKey := attr.foreignKey.map fun reference => ⟨reference.entityId, reference.attributeId⟩
  defaultValue := attr.defaultValue

def StoredEntity.ofEntity (entity : Entity) : StoredEntity where
  id := entity.id
  name := entity.name
  description := entity.description
  attributes := entity.attributes.map .ofAttribute
  position := ⟨entity.position.x, entity.position.y⟩

def StoredRelationship.ofRelationship (link : Relationship) : StoredRelationship where
  id := link.id
  name := link.name
  description := link.description
  fromEntityId := link.fromEntityId
  fromAttributeId := link.fromAttributeId
  toEntityId := link.toEntityId
  toAttributeId := link.toAttributeId
  cardinality := link.cardinality.asStr

def drawing (draft : SchemaDraft) : List StoredEntity × List StoredRelationship :=
  (draft.entities.map .ofEntity, draft.relationships.map .ofRelationship)

def StoredDataType.tryInto (stored : StoredDataType) : Except DomainError DataType :=
  match DataTypeKind.fromStr stored.kind with
  | none => .error (.storage ("`" ++ stored.kind ++ "` is not a known data type"))
  | some kind => .ok ⟨kind, stored.length, stored.precision, stored.scale⟩

def StoredAttribute.tryInto (stored : StoredAttribute) : Except DomainError Attribute := do
  let dataType ← stored.dataType.tryInto
  return {
    id := stored.id
    name := stored.name
    description := stored.description
    dataType := dataType
    nullable := stored.nullable
    primaryKey := stored.primaryKey
    unique := stored.unique
    foreignKey := stored.foreignKey.map fun reference => ⟨reference.entityId, reference.attributeId⟩
    defaultValue := stored.defaultValue }

def StoredEntity.tryInto (stored : StoredEntity) : Except DomainError Entity := do
  let attributes ← stored.attributes.mapM StoredAttribute.tryInto
  return {
    id := stored.id
    name := stored.name
    description := stored.description
    attributes := attributes
    position := ⟨stored.position.x, stored.position.y⟩ }

def StoredRelationship.tryInto (stored : StoredRelationship) : Except DomainError Relationship :=
  match Cardinality.fromStr stored.cardinality with
  | none => .error (.storage ("`" ++ stored.cardinality ++ "` is not a known cardinality"))
  | some cardinality => .ok {
      id := stored.id
      name := stored.name
      description := stored.description
      fromEntityId := stored.fromEntityId
      fromAttributeId := stored.fromAttributeId
      toEntityId := stored.toEntityId
      toAttributeId := stored.toAttributeId
      cardinality := cardinality }

/-- The drawn parts of a row of `schemas`, as `map_schema` reads them. -/
def draftOfRow (name description : Str) (entities : List StoredEntity)
    (relationships : List StoredRelationship) : Except DomainError SchemaDraft := do
  let entities ← entities.mapM StoredEntity.tryInto
  let relationships ← relationships.mapM StoredRelationship.tryInto
  return ⟨name, description, entities, relationships⟩

theorem mapM_map_eq_ok {α β ε : Type} {write : α → β} {read : β → Except ε α}
    (back : ∀ item, read (write item) = .ok item) (items : List α) :
    (items.map write).mapM read = .ok items := by
  induction items with
  | nil => rfl
  | cons item items ih =>
      rw [List.map_cons, List.mapM_cons, back, ih]
      rfl

theorem tryInto_ofDataType (dataType : DataType) :
    (StoredDataType.ofDataType dataType).tryInto = .ok dataType := by
  rw [StoredDataType.tryInto, StoredDataType.ofDataType, DataTypeKind.fromStr_asStr]

theorem tryInto_ofAttribute (attr : Attribute) :
    (StoredAttribute.ofAttribute attr).tryInto = .ok attr := by
  have reference : (attr.foreignKey.map fun reference =>
      (⟨reference.entityId, reference.attributeId⟩ : ForeignKeyRef)) = attr.foreignKey := by
    cases attr.foreignKey <;> rfl
  simp only [StoredAttribute.tryInto, StoredAttribute.ofAttribute, tryInto_ofDataType, reference]
  rfl

theorem tryInto_ofEntity (entity : Entity) :
    (StoredEntity.ofEntity entity).tryInto = .ok entity := by
  simp only [StoredEntity.tryInto, StoredEntity.ofEntity, mapM_map_eq_ok tryInto_ofAttribute]
  rfl

theorem tryInto_ofRelationship (link : Relationship) :
    (StoredRelationship.ofRelationship link).tryInto = .ok link := by
  rw [StoredRelationship.tryInto, StoredRelationship.ofRelationship, Cardinality.fromStr_asStr]

/-- What the store writes of a draft is read back as the draft. -/
theorem draftOfRow_drawing (draft : SchemaDraft) :
    draftOfRow draft.name draft.description (drawing draft).1 (drawing draft).2 = .ok draft := by
  simp only [draftOfRow, drawing, mapM_map_eq_ok tryInto_ofEntity,
    mapM_map_eq_ok tryInto_ofRelationship]
  rfl

end Repository

end SchemaForge
