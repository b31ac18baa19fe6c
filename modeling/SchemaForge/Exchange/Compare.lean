import SchemaForge.Domain.Comparison
import SchemaForge.Foundation.Matching

/-!
# Comparing two drawings

How much of `expected` came back in `actual`. Ids are minted anew by a round
trip, so everything is matched by name, without regard to ASCII case. Each
function returns what it adds to the comparison.
-/

namespace SchemaForge.Exchange

open Comparison

abbrev same (left right : Str) : Bool := Str.eqIgnoreAsciiCase left right

def tablePath (name : Str) : Str := "entities[" ++ name ++ "]"

def columnPath (table name : Str) : Str := table ++ ".attributes[" ++ name ++ "]"

/-- A field of an element that was found on both sides. -/
def field {α : Type} [DecidableEq α] (spell : α → Str) (path name : Str) (expected actual : α) :
    Option Difference :=
  if expected = actual then none
  else some (.changed (path ++ "." ++ name) (spell expected) (spell actual))

def spellBool (value : Bool) : Str := if value then "true" else "false"

def optional (value : Option Str) : Str := value.getD []

/-- Only descriptions somebody wrote are counted. -/
def description (path expected actual : Str) : Comparison :=
  let path := path ++ ".description"
  let expected := Str.trim expected
  let actual := Str.trim actual
  if expected.isEmpty then
    if actual.isEmpty then empty else record .descriptions (.extra path actual)
  else if actual.isEmpty then record .descriptions (.missing path expected)
  else if expected = actual then matched .descriptions
  else record .descriptions (.changed path expected actual)

def spellPosition (position : Position) : Str := position.x.display ++ ", " ++ position.y.display

def position (path : Str) (expected actual : Entity) : Comparison :=
  if expected.position.eq actual.position then matched .positions
  else
    record .positions (.changed (path ++ ".position") (spellPosition expected.position)
      (spellPosition actual.position))

def spellKey (attr : Attribute) : Str :=
  match attr.primaryKey, attr.unique with
  | true, true => "primary key, unique"
  | true, false => "primary key"
  | false, true => "unique"
  | false, false => ""

/-- A key column is counted only when one of the two schemas says it is one. -/
def keys (path : Str) (expected actual : Attribute) : Comparison :=
  match expected.primaryKey || expected.unique, actual.primaryKey || actual.unique with
  | false, false => empty
  | true, false => record .keys (.missing path (spellKey expected))
  | false, true => record .keys (.extra path (spellKey actual))
  | true, true => settle .keys
      [field spellBool path "primaryKey" expected.primaryKey actual.primaryKey,
        field spellBool path "unique" expected.unique actual.unique]

/-- `attribute` of the program. -/
def column (table : Str) (expected actual : Attribute) : Comparison :=
  let path := columnPath table expected.name
  settle .columns
      [field DataType.display path "dataType" expected.dataType actual.dataType,
        field spellBool path "nullable" expected.nullable actual.nullable,
        field id path "default" (optional expected.defaultValue) (optional actual.defaultValue)] ++
    keys path expected actual ++ description path expected.description actual.description

def columnMatching (expected actual : Entity) :
    List (Attribute × Option Attribute) × List Attribute :=
  matchUp (fun left right => same right.name left.name) expected.attributes actual.attributes

def entity (expected actual : Entity) (includePositions : Bool) : Comparison :=
  let path := tablePath expected.name
  let (found, extra) := columnMatching expected actual
  description path expected.description actual.description ++
    (if includePositions then position path expected actual else empty) ++
    concat (found.map fun (left, right) =>
      match right with
      | some right => column path left right
      | none => record .columns (.missing (columnPath path left.name) left.name)) ++
    concat (extra.map fun right =>
      record .columns (.extra (columnPath path right.name) right.name))

def entityMatching (expected actual : SchemaDraft) : List (Entity × Option Entity) × List Entity :=
  matchUp (fun left right => same right.name left.name) expected.entities actual.entities

/-- The pairs of tables that go on to be compared, and what their matching adds. -/
def entities (expected actual : SchemaDraft) : List (Entity × Entity) × Comparison :=
  let (found, extra) := entityMatching expected actual
  (found.filterMap fun (left, right) => right.map fun right => (left, right),
    concat (found.map fun (left, right) =>
      match right with
      | some _ => matched .tables
      | none => record .tables (.missing (tablePath left.name) left.name)) ++
    concat (extra.map fun right =>
      record .tables (.extra (tablePath right.name) right.name)))

def spellColumn (entity : Entity) (attr : Attribute) : Str := entity.name ++ "." ++ attr.name

/-- An end written as `table.column`; ids that nothing resolves are written through. -/
def pointAt (draft : SchemaDraft) (entityId attributeId : Str) : Str :=
  match draft.entities.find? fun entity => entity.id == entityId with
  | none => entityId ++ "." ++ attributeId
  | some entity =>
      match entity.attributeById attributeId with
      | some attr => spellColumn entity attr
      | none => entity.name ++ "." ++ attributeId

/-- Every foreign key as `table.column` pointing at `table.column`. -/
def references (draft : SchemaDraft) : List (Str × Str) :=
  draft.entities.flatMap fun entity =>
    entity.attributes.filterMap fun attr =>
      attr.foreignKey.map fun reference =>
        (spellColumn entity attr, pointAt draft reference.entityId reference.attributeId)

def foreignKeys (expected actual : SchemaDraft) : Comparison :=
  let left := references expected
  let right := references actual
  concat (left.map fun (holder, target) =>
      let path := holder ++ ".foreignKey"
      match right.find? fun other => same other.1 holder with
      | none => record .foreignKeys (.missing path target)
      | some (_, found) =>
          if same found target then matched .foreignKeys
          else record .foreignKeys (.changed path target found)) ++
    concat ((right.filter fun (holder, _) => !left.any fun other => same other.1 holder).map
      fun (holder, target) =>
        record .foreignKeys (.extra (holder ++ ".foreignKey") target))

/-- Both ends of a relationship as `table.column -> table.column`. -/
def ends (draft : SchemaDraft) (link : Relationship) : Str :=
  pointAt draft link.fromEntityId link.fromAttributeId ++ " -> " ++
    pointAt draft link.toEntityId link.toAttributeId

/-- The relationships, each with its ends written out. -/
def links (draft : SchemaDraft) : List (Relationship × Str) :=
  draft.relationships.map fun link => (link, ends draft link)

def linkMatching (expected actual : SchemaDraft) :
    List ((Relationship × Str) × Option (Relationship × Str)) × List (Relationship × Str) :=
  matchUp (fun left right => same right.2 left.2) (links expected) (links actual)

def relationships (expected actual : SchemaDraft) : Comparison :=
  let (found, extra) := linkMatching expected actual
  concat (found.map fun ((link, ends), right) =>
      let path := "relationships[" ++ ends ++ "]"
      match right with
      | none => record .relationships (.missing path link.cardinality.asStr)
      | some (other, _) =>
          (if other.cardinality = link.cardinality then matched .relationships
            else record .relationships
              (.changed path link.cardinality.asStr other.cardinality.asStr)) ++
            description path link.description other.description) ++
    concat (extra.map fun (link, ends) =>
      record .relationships (.extra ("relationships[" ++ ends ++ "]") link.cardinality.asStr))

def compare (expected actual : SchemaDraft) (includePositions : Bool) : Comparison :=
  let (pairs, tables) := entities expected actual
  tables ++ concat (pairs.map fun (left, right) => entity left right includePositions) ++
    foreignKeys expected actual ++ relationships expected actual

end SchemaForge.Exchange
