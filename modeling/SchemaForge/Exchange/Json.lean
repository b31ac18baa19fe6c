import SchemaForge.Exchange.Names
import SchemaForge.Foundation.Json

/-!
# The JSON file

The file is the JSON mapping of the canonical model, with the contract's own
spellings of the enumerations. Writer and reader are separate code: the writer
copies what the model holds, the reader defaults, trims, drops and refuses. Both
are modelled on JSON values; the text of a file is represented by the value that
it parses to.
-/

namespace SchemaForge.Exchange.Json

open SchemaForge.Json

/-- A member that is left out when there is nothing to write. -/
def optionalField (key : Str) (value : Option Value) : Fields :=
  match value with
  | some value => [(key, value)]
  | none => []

def positionFields (position : Position) : Fields :=
  [("x", .ofF64 position.x), ("y", .ofF64 position.y)]

def positionDoc (position : Position) : Value := .object (positionFields position)

def dataTypeFields (dataType : DataType) : Fields :=
  [("kind".toList, .string (kindName dataType.kind))] ++
    optionalField "length" (dataType.length.map .ofU32) ++
    optionalField "precision" (dataType.precision.map .ofU32) ++
    optionalField "scale" (dataType.scale.map .ofU32)

def dataTypeDoc (dataType : DataType) : Value := .object (dataTypeFields dataType)

def foreignKeyFields (reference : ForeignKeyRef) : Fields :=
  [("entityId", .string reference.entityId), ("attributeId", .string reference.attributeId)]

def foreignKeyDoc (reference : ForeignKeyRef) : Value := .object (foreignKeyFields reference)

def attributeFields (attr : Attribute) : Fields :=
  [("id".toList, .string attr.id), ("name".toList, .string attr.name),
      ("description".toList, .string attr.description),
      ("dataType".toList, dataTypeDoc attr.dataType), ("nullable".toList, .bool attr.nullable),
      ("primaryKey".toList, .bool attr.primaryKey), ("unique".toList, .bool attr.unique)] ++
    optionalField "foreignKey" (attr.foreignKey.map foreignKeyDoc) ++
    optionalField "defaultValue" (attr.defaultValue.map .string)

def attributeDoc (attr : Attribute) : Value := .object (attributeFields attr)

def entityFields (entity : Entity) (includePositions : Bool) : Fields :=
  [("id".toList, .string entity.id), ("name".toList, .string entity.name),
      ("description".toList, .string entity.description),
      ("attributes".toList, .array (entity.attributes.map attributeDoc))] ++
    optionalField "position" (if includePositions then some (positionDoc entity.position) else none)

def entityDoc (entity : Entity) (includePositions : Bool) : Value :=
  .object (entityFields entity includePositions)

def relationshipFields (link : Relationship) : Fields :=
  [("id", .string link.id), ("name", .string link.name),
    ("description", .string link.description), ("fromEntityId", .string link.fromEntityId),
    ("fromAttributeId", .string link.fromAttributeId), ("toEntityId", .string link.toEntityId),
    ("toAttributeId", .string link.toAttributeId),
    ("cardinality", .string (cardinalityName link.cardinality))]

def relationshipDoc (link : Relationship) : Value := .object (relationshipFields link)

/-- Bumped when a reader would get the file wrong without knowing its shape. -/
def version : UInt32 := 1

def documentFields (schema : Schema) (includePositions : Bool) : Fields :=
  [("schemaforge", .ofU32 version), ("name", .string schema.name),
    ("description", .string schema.description),
    ("entities", .array (schema.entities.map fun entity => entityDoc entity includePositions)),
    ("relationships", .array (schema.relationships.map relationshipDoc))]

def write (schema : Schema) (includePositions : Bool) : Value :=
  .object (documentFields schema includePositions)

/-- Every refusal names the path it was looking at. -/
def refuse (path message : Str) : Error :=
  .validation ("the file could not be read at `" ++ path ++ "`") [(path, [message])]

def object (value : Value) (path : Str) : Except Error Fields :=
  match value.asObject with
  | some fields => .ok fields
  | none => .error (refuse path "expected an object")

def array (value : Value) (path : Str) : Except Error (List Value) :=
  match value.asArray with
  | some values => .ok values
  | none => .error (refuse path "expected an array")

def required (parent : Fields) (key path : Str) : Except Error Value :=
  match (parent.get key).filter fun value => !value.isNull with
  | some value => .ok value
  | none => .error (refuse path "field is required")

def text (value : Value) (path : Str) : Except Error Str :=
  match value.asStr with
  | some value => .ok value
  | none => .error (refuse path "expected a string")

def requiredText (parent : Fields) (key path : Str) : Except Error Str := do
  text (← required parent key path) path

def optionalText (parent : Fields) (key path : Str) : Except Error (Option Str) :=
  match parent.get key with
  | none | some .null => .ok none
  | some value => do return some (← text value path)

def flag (parent : Fields) (key path : Str) (default : Bool) : Except Error Bool :=
  match parent.get key with
  | none | some .null => .ok default
  | some value =>
      match value.asBool with
      | some value => .ok value
      | none => .error (refuse path "expected true or false")

def count (parent : Fields) (key path : Str) : Except Error (Option UInt32) :=
  match parent.get key with
  | none | some .null => .ok none
  | some value =>
      match value.asU64 with
      | some number =>
          if number.toNat < 2 ^ 32 then .ok (some number.toUInt32)
          else .error (refuse path "expected a whole number that is not negative")
      | none => .error (refuse path "expected a whole number that is not negative")

def coordinate (parent : Fields) (key path : Str) : Except Error F64 :=
  match parent.get key with
  | none | some .null => .ok (.ofInt 0)
  | some value =>
      match value.asF64 with
      | some number => .ok number
      | none => .error (refuse path "expected a number")

/-- The id a file gives, or a fresh one. -/
def identity (source : Fields) (key fresh : Str) : Str :=
  match ((source.get key).bind Value.asStr).map Str.trim with
  | some (c :: rest) => c :: rest
  | _ => fresh

/-- The elements of an array, read in order up to the first that is refused. -/
def readEach {α : Type} (read : Nat → Value → Except Error α) :
    Nat → List Value → Except Error (List α)
  | _, [] => .ok []
  | index, value :: values => do
      let first ← read index value
      let rest ← readEach read (index + 1) values
      return first :: rest

/-- The path of an element of an array. -/
def item (path : Str) (index : Nat) : Str := path ++ "[" ++ Str.ofNat index ++ "]"

section Read

variable (uuid : Element → Str)

/-- Parameters that do not apply to the kind are dropped rather than carried. -/
def dataTypeFrom (source : Fields) (path : Str) : Except Error DataType := do
  let typePath := path ++ ".dataType"
  let dataType ← object (← required source "dataType" typePath) typePath
  let kindPath := typePath ++ ".kind"
  let name ← requiredText dataType "kind" kindPath
  match kindFromName name with
  | none => .error (refuse kindPath "field must name a known data type")
  | some kind =>
      -- Each parameter is read even when the kind does not take it.
      let length ← count dataType "length" (typePath ++ ".length")
      let precision ← count dataType "precision" (typePath ++ ".precision")
      let scale ← count dataType "scale" (typePath ++ ".scale")
      return {
        kind := kind
        length := if kind.takesLength then length else none
        precision := if kind.takesPrecision then precision else none
        scale := if kind.takesPrecision then scale else none }

def foreignKeyFrom (source : Fields) (path : Str) : Except Error (Option ForeignKeyRef) :=
  match (source.get "foreignKey").filter fun value => !value.isNull with
  | none => .ok none
  | some value => do
      let referencePath := path ++ ".foreignKey"
      let reference ← object value referencePath
      let entityId ← requiredText reference "entityId" (referencePath ++ ".entityId")
      let attributeId ← requiredText reference "attributeId" (referencePath ++ ".attributeId")
      return some ⟨entityId, attributeId⟩

def attributeFrom (element : Element) (value : Value) (path : Str) : Except Error Attribute := do
  let source ← object value path
  let name ← requiredText source "name" (path ++ ".name")
  let dataType ← dataTypeFrom source path
  let description ← optionalText source "description" (path ++ ".description")
  let nullable ← flag source "nullable" (path ++ ".nullable") true
  let primaryKey ← flag source "primaryKey" (path ++ ".primaryKey") false
  let unique ← flag source "unique" (path ++ ".unique") false
  let defaultValue ← optionalText source "defaultValue" (path ++ ".defaultValue")
  let foreignKey ← foreignKeyFrom source path
  return {
    id := identity source "id" (freshId uuid element)
    name := name
    description := description.getD []
    dataType := dataType
    -- A primary key is never nullable, whatever was written down.
    nullable := nullable && !primaryKey
    primaryKey := primaryKey
    unique := unique
    foreignKey := foreignKey
    defaultValue := defaultValue }

def positionFrom (source : Fields) (index : Nat) (includePositions : Bool) (path : Str) :
    Except Error Position :=
  if !includePositions then .ok (gridSlot index)
  else
    match (source.get "position").filter fun value => !value.isNull with
    | none => .ok (gridSlot index)
    | some value => do
        let positionPath := path ++ ".position"
        let position ← object value positionPath
        let x ← coordinate position "x" (positionPath ++ ".x")
        let y ← coordinate position "y" (positionPath ++ ".y")
        return ⟨x, y⟩

def attributesFrom (source : Fields) (index : Nat) (path : Str) : Except Error (List Attribute) :=
  match (source.get "attributes").filter fun value => !value.isNull with
  | none => .ok []
  | some values => do
      let attributesPath := path ++ ".attributes"
      readEach (fun offset value =>
        attributeFrom uuid (.attr index offset) value (item attributesPath offset)) 0
          (← array values attributesPath)

def entityFrom (includePositions : Bool) (index : Nat) (value : Value) : Except Error Entity := do
  let path := item "$.entities" index
  let source ← object value path
  let name ← requiredText source "name" (path ++ ".name")
  let description ← optionalText source "description" (path ++ ".description")
  let position ← positionFrom source index includePositions path
  let attributes ← attributesFrom uuid source index path
  return {
    id := identity source "id" (freshId uuid (.entity index))
    name := name
    description := description.getD []
    attributes := attributes
    position := position }

/-- A line between tables that are not in the file is refused where the path can be named. -/
def checkEnd (entities : List Entity) (path key id : Str) : Except Error Unit :=
  if entities.any fun entity => entity.id == id then .ok ()
  else .error (refuse (path ++ "." ++ key) "field names an entity that is not in the file")

def relationshipFrom (entities : List Entity) (index : Nat) (value : Value) :
    Except Error Relationship := do
  let path := item "$.relationships" index
  let source ← object value path
  let cardinality ← match ← optionalText source "cardinality" (path ++ ".cardinality") with
    | none => .ok Cardinality.oneToMany
    | some name =>
        match cardinalityFromName name with
        | some cardinality => .ok cardinality
        | none => .error (refuse (path ++ ".cardinality") "field must name a known cardinality")
  let fromEntityId ← requiredText source "fromEntityId" (path ++ ".fromEntityId")
  let fromAttributeId ← requiredText source "fromAttributeId" (path ++ ".fromAttributeId")
  let toEntityId ← requiredText source "toEntityId" (path ++ ".toEntityId")
  let toAttributeId ← requiredText source "toAttributeId" (path ++ ".toAttributeId")
  let name ← optionalText source "name" (path ++ ".name")
  let description ← optionalText source "description" (path ++ ".description")
  checkEnd entities path "fromEntityId" fromEntityId
  checkEnd entities path "toEntityId" toEntityId
  return {
    id := identity source "id" (freshId uuid (.relationship index))
    name := name.getD []
    description := description.getD []
    fromEntityId := fromEntityId
    fromAttributeId := fromAttributeId
    toEntityId := toEntityId
    toAttributeId := toAttributeId
    cardinality := cardinality }

def relationshipsFrom (root : Fields) (entities : List Entity) :
    Except Error (List Relationship) :=
  match (root.get "relationships").filter fun value => !value.isNull with
  | none => .ok []
  | some values => do readEach (relationshipFrom uuid entities) 0 (← array values "$.relationships")

/-- Reads back what `write` produced, and a bare schema that never carried the marker. -/
def read (document : Value) (includePositions : Bool) : Except Error SchemaDraft := do
  let root ← object document "$"
  let name ← requiredText root "name" "$.name"
  let description ← optionalText root "description" "$.description"
  let entities ← readEach (entityFrom uuid includePositions) 0
    (← array (← required root "entities" "$.entities") "$.entities")
  let relationships ← relationshipsFrom uuid root entities
  return {
    name := name
    description := description.getD []
    entities := entities
    relationships := relationships }

end Read

end SchemaForge.Exchange.Json
