import SchemaForge.Domain.Report

/-!
# The HTTP mapper

Translation of a decoded JSON payload into the canonical model. The mapping
accumulates violations under dotted paths instead of stopping at the first one;
each function returns what it maps and the violations it adds, in order. A
payload is accepted when nothing was added.
-/

namespace SchemaForge.Adapter

/-- The violations that a mapping adds: field paths with their messages. -/
abbrev Violations := List (Str × Str)

structure DataTypePayload where
  kind : Str
  length : Option UInt32
  precision : Option UInt32
  scale : Option UInt32
deriving DecidableEq

structure AttributePayload where
  id : Str
  name : Str
  description : Str
  dataType : Option DataTypePayload
  nullable : Bool
  primaryKey : Bool
  unique : Bool
  foreignKey : Option ForeignKeyRef
  defaultValue : Option Str
deriving DecidableEq

structure EntityPayload where
  id : Str
  name : Str
  description : Str
  attributes : List AttributePayload
  position : Option Position
deriving DecidableEq

structure RelationshipPayload where
  id : Str
  name : Str
  description : Str
  fromEntityId : Str
  fromAttributeId : Str
  toEntityId : Str
  toAttributeId : Str
  cardinality : Str
deriving DecidableEq

/-- What a caller sends. -/
structure SchemaPayload where
  id : Str
  name : Str
  description : Str
  entities : List EntityPayload
  relationships : List RelationshipPayload
deriving DecidableEq

/-- The check of a text that has to be there. -/
def checkText (value path : Str) : Violations :=
  if (Str.trim value).isEmpty then [(path, "field is required and cannot be empty")] else []

/-- An absent position is the origin rather than an error. -/
def positionFrom (payload : Option Position) : Position := payload.getD .origin

def dataTypeFrom (payload : Option DataTypePayload) (path : Str) : Option DataType × Violations :=
  match payload with
  | none => (none, [(path, "field is required")])
  | some payload =>
      match DataTypeKind.fromStr payload.kind with
      | none => (none, [(path, "field must name a known data type")])
      | some kind =>
          -- Parameters that do not apply to the kind are dropped rather than carried.
          (some {
            kind := kind
            length := if kind.takesLength then payload.length else none
            precision := if kind.takesPrecision then payload.precision else none
            scale := if kind.takesPrecision then payload.scale else none }, [])

def cardinalityFrom (value path : Str) : Option Cardinality × Violations :=
  match Cardinality.fromStr value with
  | some cardinality => (some cardinality, [])
  | none => (none, [(path, "field is required and must name a known cardinality")])

def foreignKeyFrom (payload : Option ForeignKeyRef) (path : Str) :
    Option ForeignKeyRef × Violations :=
  match payload with
  | none => (none, [])
  | some reference =>
      if (Str.trim reference.entityId).isEmpty || (Str.trim reference.attributeId).isEmpty then
        (none, [(path, "a reference must name both an entity and an attribute")])
      else (some reference, [])

def attributeFrom (payload : AttributePayload) (path : Str) : Option Attribute × Violations :=
  let named := checkText payload.id (path ++ ".id") ++ checkText payload.name (path ++ ".name")
  match dataTypeFrom payload.dataType (path ++ ".data_type") with
  -- Without a type there is no column, and its reference is not looked at.
  | (none, typed) => (none, named ++ typed)
  | (some dataType, typed) =>
      let (foreignKey, referenced) := foreignKeyFrom payload.foreignKey (path ++ ".foreign_key")
      (some {
        id := payload.id
        name := payload.name
        description := payload.description
        dataType := dataType
        -- A primary key is never nullable, whatever the request claimed.
        nullable := payload.nullable && !payload.primaryKey
        primaryKey := payload.primaryKey
        unique := payload.unique
        foreignKey := foreignKey
        defaultValue := payload.defaultValue }, named ++ typed ++ referenced)

/-- The path of an element of a list. -/
def item (path : Str) (index : Nat) : Str := path ++ "[" ++ Str.ofNat index ++ "]"

def entityFrom (payload : EntityPayload) (path : Str) : Entity × Violations :=
  let named := checkText payload.id (path ++ ".id") ++ checkText payload.name (path ++ ".name")
  let attributes := payload.attributes.mapIdx fun index attr =>
    attributeFrom attr (item (path ++ ".attributes") index)
  ({
    id := payload.id
    name := payload.name
    description := payload.description
    attributes := attributes.filterMap Prod.fst
    position := positionFrom payload.position }, named ++ attributes.flatMap Prod.snd)

def relationshipFrom (payload : RelationshipPayload) (path : Str) :
    Option Relationship × Violations :=
  let named := checkText payload.id (path ++ ".id") ++
    checkText payload.fromEntityId (path ++ ".from_entity_id") ++
    checkText payload.fromAttributeId (path ++ ".from_attribute_id") ++
    checkText payload.toEntityId (path ++ ".to_entity_id") ++
    checkText payload.toAttributeId (path ++ ".to_attribute_id")
  match cardinalityFrom payload.cardinality (path ++ ".cardinality") with
  | (none, drawn) => (none, named ++ drawn)
  | (some cardinality, drawn) =>
      (some {
        id := payload.id
        name := payload.name
        description := payload.description
        fromEntityId := payload.fromEntityId
        fromAttributeId := payload.fromAttributeId
        toEntityId := payload.toEntityId
        toAttributeId := payload.toAttributeId
        cardinality := cardinality }, named ++ drawn)

def draftWith (payload : SchemaPayload) : SchemaDraft × Violations :=
  let entities := payload.entities.mapIdx fun index entity =>
    entityFrom entity (item "entities" index)
  let relationships := payload.relationships.mapIdx fun index link =>
    relationshipFrom link (item "relationships" index)
  ({
    name := payload.name
    description := payload.description
    entities := entities.map Prod.fst
    relationships := relationships.filterMap Prod.fst },
    entities.flatMap Prod.snd ++ relationships.flatMap Prod.snd)

/-- `Violations::into_result`. -/
def intoResult (violations : Violations) : Except Error Unit :=
  match violations with
  | [] => .ok ()
  | violations => .error (violations.foldl (fun error (field, message) =>
      error.pushViolation field message) (.validation "failed payload validation" []))

def draftFrom (payload : SchemaPayload) : Except Error SchemaDraft := do
  let (draft, violations) := draftWith payload
  intoResult violations
  return draft

/-- An unsaved diagram the canvas is holding. -/
def draftSchemaFrom (payload : SchemaPayload) : Except Error Schema := do
  return .new payload.id (← draftFrom payload)

def dataTypePayload (dataType : DataType) : DataTypePayload where
  kind := dataType.kind.asStr
  length := dataType.length
  precision := dataType.precision
  scale := dataType.scale

def attributePayload (attr : Attribute) : AttributePayload where
  id := attr.id
  name := attr.name
  description := attr.description
  dataType := some (dataTypePayload attr.dataType)
  nullable := attr.nullable
  primaryKey := attr.primaryKey
  unique := attr.unique
  foreignKey := attr.foreignKey.map fun reference => ⟨reference.entityId, reference.attributeId⟩
  defaultValue := attr.defaultValue

def entityPayload (entity : Entity) : EntityPayload where
  id := entity.id
  name := entity.name
  description := entity.description
  attributes := entity.attributes.map attributePayload
  position := some ⟨entity.position.x, entity.position.y⟩

def relationshipPayload (link : Relationship) : RelationshipPayload where
  id := link.id
  name := link.name
  description := link.description
  fromEntityId := link.fromEntityId
  fromAttributeId := link.fromAttributeId
  toEntityId := link.toEntityId
  toAttributeId := link.toAttributeId
  cardinality := link.cardinality.asStr

/-- The form in which a schema is sent, which is also one that a caller may send back. -/
def schemaPayload (schema : Schema) : SchemaPayload where
  id := schema.id
  name := schema.name
  description := schema.description
  entities := schema.entities.map entityPayload
  relationships := schema.relationships.map relationshipPayload

theorem intoResult_cons (violation : Str × Str) (violations : Violations) :
    ∃ error, intoResult (violation :: violations) = .error error :=
  ⟨_, rfl⟩

theorem draftFrom_eq_ok_iff {payload : SchemaPayload} {draft : SchemaDraft} :
    draftFrom payload = .ok draft ↔ (draftWith payload).1 = draft ∧ (draftWith payload).2 = [] := by
  rcases mapped : draftWith payload with ⟨drawn, violations⟩
  cases violations with
  | nil =>
      have accepted : draftFrom payload = .ok drawn := by rw [draftFrom, mapped]; rfl
      rw [accepted, Except.ok.injEq]
      simp
  | cons violation rest =>
      obtain ⟨error, refused⟩ := intoResult_cons violation rest
      have rejected : draftFrom payload = .error error := by
        rw [draftFrom, mapped]
        simp only [refused]
        rfl
      rw [rejected]
      simp

theorem checkText_eq_nil_iff {value path : Str} :
    checkText value path = [] ↔ Str.trim value ≠ [] := by
  unfold checkText
  split
  · rename_i blank
    simpa using blank
  · rename_i solid
    simpa using solid

/-- No id of an accepted table is blank. -/
theorem trim_entityId_ne_nil {payload : SchemaPayload} {schema : Schema}
    (accepted : draftSchemaFrom payload = .ok schema) {entity : Entity}
    (mem : entity ∈ schema.entities) : Str.trim entity.id ≠ [] := by
  unfold draftSchemaFrom at accepted
  cases drawn : draftFrom payload with
  | error error =>
      rw [drawn] at accepted
      contradiction
  | ok draft =>
      rw [drawn] at accepted
      obtain ⟨mapped, silent⟩ := draftFrom_eq_ok_iff.mp drawn
      have same : Schema.new payload.id draft = schema := by simpa using accepted
      subst same
      subst mapped
      simp only [Schema.new, draftWith, List.mem_map, List.mem_mapIdx] at mem
      obtain ⟨_, ⟨index, bound, rfl⟩, rfl⟩ := mem
      simp only [draftWith, List.append_eq_nil_iff, List.flatMap_eq_nil_iff,
        List.mem_mapIdx] at silent
      have quiet := silent.1 _ ⟨index, bound, rfl⟩
      simp only [entityFrom, List.append_eq_nil_iff] at quiet
      exact checkText_eq_nil_iff.mp quiet.1.1

end SchemaForge.Adapter
