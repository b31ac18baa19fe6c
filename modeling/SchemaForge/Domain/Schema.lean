import SchemaForge.Foundation.Binary64

/-!
# The canonical schema model

The data model that verification, generation and exchange share: typed columns
grouped into tables, references between columns by id, and the relationships
drawn between them. Ids are references, names are what a script spells.

Timestamps are left out. The store assigns them, and nothing in this
development reads them.
-/

namespace SchemaForge

/-- A dialect-independent column type. -/
inductive DataTypeKind where
  | text | varchar | char | smallInt | integer | bigInt | numeric | real | doublePrecision
  | boolean | date | time | timestamp | timestampTz | uuid | json | jsonb | bytea
deriving DecidableEq, Repr

/-- Kinds that a foreign key may span. -/
inductive TypeFamily where
  | textual | integral | decimal | boolean | temporal | uuid | document | binary
deriving DecidableEq, Repr

namespace DataTypeKind

def asStr : DataTypeKind → Str
  | text => "text"
  | varchar => "varchar"
  | char => "char"
  | smallInt => "smallint"
  | integer => "integer"
  | bigInt => "bigint"
  | numeric => "numeric"
  | real => "real"
  | doublePrecision => "double precision"
  | boolean => "boolean"
  | date => "date"
  | time => "time"
  | timestamp => "timestamp"
  | timestampTz => "timestamptz"
  | uuid => "uuid"
  | json => "json"
  | jsonb => "jsonb"
  | bytea => "bytea"

def variants : List DataTypeKind :=
  [text, varchar, char, smallInt, integer, bigInt, numeric, real, doublePrecision, boolean, date,
    time, timestamp, timestampTz, uuid, json, jsonb, bytea]

/-- Parameterised by a length, as `varchar(n)` is. -/
def takesLength : DataTypeKind → Bool
  | varchar | char => true
  | _ => false

/-- Parameterised by precision and scale, as `numeric(p, s)` is. -/
def takesPrecision : DataTypeKind → Bool
  | numeric => true
  | _ => false

def family : DataTypeKind → TypeFamily
  | text | varchar | char => .textual
  | smallInt | integer | bigInt => .integral
  | numeric | real | doublePrecision => .decimal
  | boolean => .boolean
  | date | time | timestamp | timestampTz => .temporal
  | uuid => .uuid
  | json | jsonb => .document
  | bytea => .binary

/-- `FromStr` for `DataTypeKind`. -/
def fromStr (value : Str) : Option DataTypeKind :=
  variants.find? fun kind => kind.asStr == Str.toAsciiLowercase (Str.trim value)

theorem fromStr_asStr (kind : DataTypeKind) : fromStr kind.asStr = some kind := by
  cases kind <;> rfl

end DataTypeKind

/-- A kind together with whatever parameters it carries. -/
structure DataType where
  kind : DataTypeKind
  length : Option UInt32
  precision : Option UInt32
  scale : Option UInt32
deriving DecidableEq, Repr

namespace DataType

/-- The parameters present are ones the kind takes. -/
def carriesOwnParameters (dataType : DataType) : Bool :=
  (dataType.kind.takesLength || dataType.length.isNone) &&
    (dataType.kind.takesPrecision || (dataType.precision.isNone && dataType.scale.isNone))

def isCompatibleWith (left right : DataType) : Bool := left.kind.family == right.kind.family

/-- `Display` for `DataType`. -/
def display (dataType : DataType) : Str :=
  let kind := dataType.kind.asStr
  let number (n : UInt32) : Str := Str.ofNat n.toNat
  if dataType.kind.takesLength then
    match dataType.length with
    | some length => kind ++ "(" ++ number length ++ ")"
    | none => kind
  else if dataType.kind.takesPrecision then
    match dataType.precision, dataType.scale with
    | some precision, some scale => kind ++ "(" ++ number precision ++ ", " ++ number scale ++ ")"
    | some precision, none => kind ++ "(" ++ number precision ++ ")"
    | _, _ => kind
  else kind

end DataType

/-- A reference to the attribute a foreign key points at. -/
structure ForeignKeyRef where
  entityId : Str
  attributeId : Str
deriving DecidableEq, Repr

structure Attribute where
  id : Str
  name : Str
  description : Str
  dataType : DataType
  nullable : Bool
  primaryKey : Bool
  unique : Bool
  foreignKey : Option ForeignKeyRef
  defaultValue : Option Str
deriving DecidableEq

namespace Attribute

def new (id name : Str) (dataType : DataType) : Attribute where
  id := id
  name := name
  description := []
  dataType := dataType
  nullable := true
  primaryKey := false
  unique := false
  foreignKey := none
  defaultValue := none

def isDocumented (attr : Attribute) : Bool := !(Str.trim attr.description).isEmpty

end Attribute

/-- Canvas placement. -/
structure Position where
  x : F64
  y : F64
deriving DecidableEq

namespace Position

/-- The derived `PartialEq`, which compares coordinates as `f64` does. -/
def eq (left right : Position) : Bool := left.x.eq right.x && left.y.eq right.y

/-- `Position::default`. -/
def origin : Position := ⟨.ofInt 0, .ofInt 0⟩

end Position

structure Entity where
  id : Str
  name : Str
  description : Str
  attributes : List Attribute
  position : Position
deriving DecidableEq

namespace Entity

def new (id name : Str) : Entity where
  id := id
  name := name
  description := []
  attributes := []
  position := .origin

def attributeById (entity : Entity) (attributeId : Str) : Option Attribute :=
  entity.attributes.find? fun attr => attr.id == attributeId

def attributeByName (entity : Entity) (name : Str) : Option Attribute :=
  entity.attributes.find? fun attr => Str.eqIgnoreAsciiCase attr.name name

/-- Every attribute flagged as part of the primary key, in declaration order. -/
def primaryKey (entity : Entity) : List Attribute := entity.attributes.filter Attribute.primaryKey

def hasPrimaryKey (entity : Entity) : Bool := entity.attributes.any Attribute.primaryKey

def isDocumented (entity : Entity) : Bool := !(Str.trim entity.description).isEmpty

end Entity

inductive Cardinality where
  | oneToOne | oneToMany | manyToMany
deriving DecidableEq, Repr

namespace Cardinality

def asStr : Cardinality → Str
  | oneToOne => "1:1"
  | oneToMany => "1:N"
  | manyToMany => "N:M"

/-- A many-to-many line needs a join table that no entity on the canvas represents. -/
def requiresJoinTable : Cardinality → Bool
  | manyToMany => true
  | _ => false

/-- `FromStr` for `Cardinality`. -/
def fromStr (value : Str) : Option Cardinality :=
  let name := Str.toAsciiUppercase (Str.trim value)
  if name = "1:1".toList ∨ name = "ONE_TO_ONE".toList then some oneToOne
  else if name = "1:N".toList ∨ name = "ONE_TO_MANY".toList then some oneToMany
  else if name = "N:M".toList ∨ name = "MANY_TO_MANY".toList then some manyToMany
  else none

theorem fromStr_asStr (cardinality : Cardinality) :
    fromStr cardinality.asStr = some cardinality := by
  cases cardinality <;> rfl

end Cardinality

/-- A line between two attributes on two entities. -/
structure Relationship where
  id : Str
  name : Str
  description : Str
  fromEntityId : Str
  fromAttributeId : Str
  toEntityId : Str
  toAttributeId : Str
  cardinality : Cardinality
deriving DecidableEq, Repr

namespace Relationship

def new (id : Str) (start stop : Str × Str) (cardinality : Cardinality) : Relationship where
  id := id
  name := []
  description := []
  fromEntityId := start.1
  fromAttributeId := start.2
  toEntityId := stop.1
  toAttributeId := stop.2
  cardinality := cardinality

def isDocumented (relationship : Relationship) : Bool :=
  !(Str.trim relationship.description).isEmpty

end Relationship

/-- The parts of a schema a caller supplies. -/
structure SchemaDraft where
  name : Str
  description : Str
  entities : List Entity
  relationships : List Relationship
deriving DecidableEq

structure Schema where
  id : Str
  name : Str
  description : Str
  entities : List Entity
  relationships : List Relationship
deriving DecidableEq

namespace Schema

def new (id : Str) (draft : SchemaDraft) : Schema where
  id := id
  name := draft.name
  description := draft.description
  entities := draft.entities
  relationships := draft.relationships

/-- The drawn parts on their own. -/
def draft (schema : Schema) : SchemaDraft where
  name := schema.name
  description := schema.description
  entities := schema.entities
  relationships := schema.relationships

def entity (schema : Schema) (entityId : Str) : Option Entity :=
  schema.entities.find? fun entity => entity.id == entityId

/-- An attribute together with the entity that owns it. -/
def resolve (schema : Schema) (entityId attributeId : Str) : Option (Entity × Attribute) :=
  (schema.entity entityId).bind fun entity =>
    (entity.attributeById attributeId).map fun attr => (entity, attr)

theorem resolve_eq_some_iff {schema : Schema} {entityId attributeId : Str} {entity : Entity}
    {attr : Attribute} : schema.resolve entityId attributeId = some (entity, attr) ↔
      schema.entity entityId = some entity ∧ entity.attributeById attributeId = some attr := by
  simp only [resolve, Option.bind_eq_some_iff, Option.map_eq_some_iff, Prod.mk.injEq]
  constructor
  · rintro ⟨_, found, _, column, rfl, rfl⟩
    exact ⟨found, column⟩
  · rintro ⟨found, column⟩
    exact ⟨entity, found, attr, column, rfl, rfl⟩

/-- What a pair of ids resolves to is drawn in the schema, under these ids. -/
theorem mem_of_resolve {schema : Schema} {entityId attributeId : Str} {entity : Entity}
    {attr : Attribute} (found : schema.resolve entityId attributeId = some (entity, attr)) :
    entity ∈ schema.entities ∧ attr ∈ entity.attributes ∧ entity.id = entityId ∧
      attr.id = attributeId := by
  obtain ⟨entityFound, attrFound⟩ := resolve_eq_some_iff.mp found
  exact ⟨List.mem_of_find?_eq_some entityFound, List.mem_of_find?_eq_some attrFound,
    by simpa using List.find?_some entityFound, by simpa using List.find?_some attrFound⟩

end Schema

end SchemaForge
