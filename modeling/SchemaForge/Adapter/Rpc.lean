import SchemaForge.Adapter.Mapper

/-!
# The gRPC mapper

Translation between the messages of the wire contract and the canonical model.
The contract numbers its enumerations, and a number arrives as it was sent: an
unset one is zero, and a client may send one that the contract does not have.
Like the HTTP mapper, the mapping inward accumulates violations.
-/

namespace SchemaForge.Adapter.Rpc

namespace V1

/-- `enum DataTypeKind` of the contract. -/
inductive DataTypeKind where
  | unspecified | text | varchar | char | smallInt | integer | bigInt | numeric | real
  | doublePrecision | boolean | date | time | timestamp | timestamptz | uuid | json | jsonb | bytea
deriving DecidableEq, Repr

namespace DataTypeKind

def number : DataTypeKind → Int32
  | unspecified => 0
  | text => 1
  | varchar => 2
  | char => 3
  | smallInt => 4
  | integer => 5
  | bigInt => 6
  | numeric => 7
  | real => 8
  | doublePrecision => 9
  | boolean => 10
  | date => 11
  | time => 12
  | timestamp => 13
  | timestamptz => 14
  | uuid => 15
  | json => 16
  | jsonb => 17
  | bytea => 18

def variants : List DataTypeKind :=
  [unspecified, text, varchar, char, smallInt, integer, bigInt, numeric, real, doublePrecision,
    boolean, date, time, timestamp, timestamptz, uuid, json, jsonb, bytea]

/-- `TryFrom<i32>`, which knows the numbers of the contract. -/
def tryFrom (value : Int32) : Option DataTypeKind := variants.find? fun kind => kind.number == value

end DataTypeKind

/-- `enum Cardinality` of the contract. -/
inductive Cardinality where
  | unspecified | oneToOne | oneToMany | manyToMany
deriving DecidableEq, Repr

namespace Cardinality

def number : Cardinality → Int32
  | unspecified => 0
  | oneToOne => 1
  | oneToMany => 2
  | manyToMany => 3

def variants : List Cardinality := [unspecified, oneToOne, oneToMany, manyToMany]

def tryFrom (value : Int32) : Option Cardinality := variants.find? fun one => one.number == value

end Cardinality

structure DataType where
  kind : Int32
  length : Option UInt32
  precision : Option UInt32
  scale : Option UInt32
deriving DecidableEq

structure Attribute where
  id : Str
  name : Str
  description : Str
  dataType : Option DataType
  nullable : Bool
  primaryKey : Bool
  unique : Bool
  foreignKey : Option ForeignKeyRef
  defaultValue : Option Str
deriving DecidableEq

structure Entity where
  id : Str
  name : Str
  description : Str
  attributes : List Attribute
  position : Option Position
deriving DecidableEq

structure Relationship where
  id : Str
  name : Str
  description : Str
  fromEntityId : Str
  fromAttributeId : Str
  toEntityId : Str
  toAttributeId : Str
  cardinality : Int32
deriving DecidableEq

structure Schema where
  id : Str
  name : Str
  description : Str
  entities : List Entity
  relationships : List Relationship
deriving DecidableEq

end V1

def positionFrom (proto : Option Position) : Position := proto.elim .origin fun p => ⟨p.x, p.y⟩

def dataTypeKindFrom (kind : Int32) : Option DataTypeKind :=
  (V1.DataTypeKind.tryFrom kind).bind fun
    | .unspecified => none
    | .text => some .text
    | .varchar => some .varchar
    | .char => some .char
    | .smallInt => some .smallInt
    | .integer => some .integer
    | .bigInt => some .bigInt
    | .numeric => some .numeric
    | .real => some .real
    | .doublePrecision => some .doublePrecision
    | .boolean => some .boolean
    | .date => some .date
    | .time => some .time
    | .timestamp => some .timestamp
    | .timestamptz => some .timestampTz
    | .uuid => some .uuid
    | .json => some .json
    | .jsonb => some .jsonb
    | .bytea => some .bytea

def dataTypeFrom (proto : Option V1.DataType) (path : Str) : Option DataType × Violations :=
  match proto with
  | none => (none, [(path, "field is required")])
  | some proto =>
      match dataTypeKindFrom proto.kind with
      | none => (none, [(path, "field must name a known data type")])
      | some kind =>
          -- Parameters that do not apply to the kind are dropped rather than carried.
          (some {
            kind := kind
            length := if kind.takesLength then proto.length else none
            precision := if kind.takesPrecision then proto.precision else none
            scale := if kind.takesPrecision then proto.scale else none }, [])

def cardinalityFrom (value : Int32) (path : Str) : Option Cardinality × Violations :=
  match V1.Cardinality.tryFrom value with
  | some .oneToOne => (some .oneToOne, [])
  | some .oneToMany => (some .oneToMany, [])
  | some .manyToMany => (some .manyToMany, [])
  | some .unspecified | none =>
      (none, [(path, "field is required and must name a known cardinality")])

def attributeFrom (proto : V1.Attribute) (path : Str) : Option Attribute × Violations :=
  let named := checkText proto.id (path ++ ".id") ++ checkText proto.name (path ++ ".name")
  match dataTypeFrom proto.dataType (path ++ ".data_type") with
  | (none, typed) => (none, named ++ typed)
  | (some dataType, typed) =>
      let blank := proto.foreignKey.any fun reference =>
        (Str.trim reference.entityId).isEmpty || (Str.trim reference.attributeId).isEmpty
      let referenced : Violations := if blank then
          [(path ++ ".foreign_key", "a reference must name both an entity and an attribute")]
        else []
      (some {
        id := proto.id
        name := proto.name
        description := proto.description
        dataType := dataType
        -- A primary key is never nullable, whatever the request claimed.
        nullable := proto.nullable && !proto.primaryKey
        primaryKey := proto.primaryKey
        unique := proto.unique
        foreignKey := if blank then none else proto.foreignKey
        defaultValue := proto.defaultValue }, named ++ typed ++ referenced)

def entityFrom (proto : V1.Entity) (path : Str) : Option Entity × Violations :=
  let named := checkText proto.id (path ++ ".id") ++ checkText proto.name (path ++ ".name")
  let attributes := proto.attributes.mapIdx fun index attr =>
    attributeFrom attr (path ++ ".attributes[" ++ Str.ofNat index ++ "]")
  (some {
    id := proto.id
    name := proto.name
    description := proto.description
    attributes := attributes.filterMap Prod.fst
    position := positionFrom proto.position }, named ++ attributes.flatMap Prod.snd)

def relationshipFrom (proto : V1.Relationship) (path : Str) : Option Relationship × Violations :=
  let named := checkText proto.id (path ++ ".id") ++
    [(("from_entity_id" : String), proto.fromEntityId),
      ("from_attribute_id", proto.fromAttributeId), ("to_entity_id", proto.toEntityId),
      ("to_attribute_id", proto.toAttributeId)].flatMap
        fun (field, value) => checkText value (path ++ "." ++ field)
  match cardinalityFrom proto.cardinality (path ++ ".cardinality") with
  | (none, drawn) => (none, named ++ drawn)
  | (some cardinality, drawn) =>
      (some {
        id := proto.id
        name := proto.name
        description := proto.description
        fromEntityId := proto.fromEntityId
        fromAttributeId := proto.fromAttributeId
        toEntityId := proto.toEntityId
        toAttributeId := proto.toAttributeId
        cardinality := cardinality }, named ++ drawn)

def draftFrom (name description : Str) (entities : List V1.Entity)
    (relationships : List V1.Relationship) : Except Error SchemaDraft := do
  let entities := entities.mapIdx fun index entity =>
    entityFrom entity ("entities[" ++ Str.ofNat index ++ "]")
  let relationships := relationships.mapIdx fun index link =>
    relationshipFrom link ("relationships[" ++ Str.ofNat index ++ "]")
  intoResult (entities.flatMap Prod.snd ++ relationships.flatMap Prod.snd)
  return {
    name := name
    description := description
    entities := entities.filterMap Prod.fst
    relationships := relationships.filterMap Prod.fst }

/-- An unsaved diagram the canvas is holding. -/
def draftSchemaFrom (proto : V1.Schema) : Except Error Schema := do
  let draft ← draftFrom proto.name proto.description proto.entities proto.relationships
  return .new proto.id draft

def positionTo (position : Position) : Position := ⟨position.x, position.y⟩

def dataTypeKindTo : DataTypeKind → V1.DataTypeKind
  | .text => .text
  | .varchar => .varchar
  | .char => .char
  | .smallInt => .smallInt
  | .integer => .integer
  | .bigInt => .bigInt
  | .numeric => .numeric
  | .real => .real
  | .doublePrecision => .doublePrecision
  | .boolean => .boolean
  | .date => .date
  | .time => .time
  | .timestamp => .timestamp
  | .timestampTz => .timestamptz
  | .uuid => .uuid
  | .json => .json
  | .jsonb => .jsonb
  | .bytea => .bytea

def dataTypeTo (dataType : DataType) : V1.DataType where
  kind := (dataTypeKindTo dataType.kind).number
  length := dataType.length
  precision := dataType.precision
  scale := dataType.scale

def cardinalityTo : Cardinality → V1.Cardinality
  | .oneToOne => .oneToOne
  | .oneToMany => .oneToMany
  | .manyToMany => .manyToMany

def attributeTo (attr : Attribute) : V1.Attribute where
  id := attr.id
  name := attr.name
  description := attr.description
  dataType := some (dataTypeTo attr.dataType)
  nullable := attr.nullable
  primaryKey := attr.primaryKey
  unique := attr.unique
  foreignKey := attr.foreignKey.map fun reference => ⟨reference.entityId, reference.attributeId⟩
  defaultValue := attr.defaultValue

def entityTo (entity : Entity) : V1.Entity where
  id := entity.id
  name := entity.name
  description := entity.description
  attributes := entity.attributes.map attributeTo
  position := some (positionTo entity.position)

def relationshipTo (link : Relationship) : V1.Relationship where
  id := link.id
  name := link.name
  description := link.description
  fromEntityId := link.fromEntityId
  fromAttributeId := link.fromAttributeId
  toEntityId := link.toEntityId
  toAttributeId := link.toAttributeId
  cardinality := (cardinalityTo link.cardinality).number

def schemaTo (schema : Schema) : V1.Schema where
  id := schema.id
  name := schema.name
  description := schema.description
  entities := schema.entities.map entityTo
  relationships := schema.relationships.map relationshipTo

end SchemaForge.Adapter.Rpc
