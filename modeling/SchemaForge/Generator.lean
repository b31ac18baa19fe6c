import SchemaForge.Domain.Schema

/-!
# The PostgreSQL generator

A schema is written as a script: one `CREATE TABLE` for each entity, one
`ALTER TABLE` for each foreign key that resolves, and one `COMMENT` for each
description. Every name and every description goes through `quote` or
`literal`; a default value goes through as it was typed.
-/

namespace SchemaForge

structure GenerateOptions where
  includeComments : Bool
  includePositions : Bool
deriving DecidableEq

namespace GenerateOptions

/-- A caller who says nothing gets both. -/
def standard : GenerateOptions := ⟨true, true⟩

end GenerateOptions

namespace Generator

/-- An identifier between double quotes, with the quotes in it doubled. -/
def quote (name : Str) : Str := "\"" ++ Str.double '"' (Str.trim name) ++ "\""

/-- A description between single quotes, with the quotes in it doubled. -/
def literal (value : Str) : Str := "'" ++ Str.double '\'' (Str.trim value) ++ "'"

def column (attr : Attribute) : Str :=
  let required : Str := if attr.nullable then "" else " NOT NULL"
  let default : Str := match attr.defaultValue with
    | some value => " DEFAULT " ++ value
    | none => ""
  -- A column that is only unique by virtue of being the key does not say so twice.
  let unique : Str := if attr.unique && !attr.primaryKey then " UNIQUE" else ""
  quote attr.name ++ " " ++ Str.toAsciiUppercase attr.dataType.display ++ required ++ default ++
    unique

def primaryKey (entity : Entity) : Option Str :=
  if entity.primaryKey.isEmpty then none
  else
    some ("PRIMARY KEY (" ++ Str.join ", " (entity.primaryKey.map fun attr => quote attr.name) ++
      ")")

def createTable (entity : Entity) : Str :=
  let lines := entity.attributes.map column ++ (primaryKey entity).toList
  if lines.isEmpty then "CREATE TABLE " ++ quote entity.name ++ " ();"
  else
    "CREATE TABLE " ++ quote entity.name ++ " (\n    " ++ Str.join ",\n    " lines ++ "\n);"

/-- Where a table sits on the canvas, as a comment the database throws away. -/
def position (entity : Entity) : Str :=
  "-- @table " ++ quote entity.name ++ " " ++ Str.ofInt entity.position.x.round.toI64 ++ " " ++
    Str.ofInt entity.position.y.round.toI64

def maxIdentifierBytes : Nat := 63

/-- The longest leading part of a string whose UTF-8 form has at most `bytes` bytes. -/
def truncate (bytes : Nat) : Str → Str
  | [] => []
  | c :: rest => if c.utf8Size ≤ bytes then c :: truncate (bytes - c.utf8Size) rest else []

def constraintName (table column : Str) : Str :=
  let name := "fk_" ++ Str.trim table ++ "_" ++ Str.trim column
  if maxIdentifierBytes < Str.utf8Length name then truncate maxIdentifierBytes name else name

/-- A foreign key that resolves: its holder and the column it points at, each with its table. -/
structure ResolvedKey where
  entity : Entity
  attr : Attribute
  target : Entity
  key : Attribute

/-- The foreign keys that resolve, in the order their columns are drawn. -/
def resolvedKeys (schema : Schema) : List ResolvedKey :=
  schema.entities.flatMap fun entity =>
    entity.attributes.flatMap fun attr =>
      match attr.foreignKey with
      | none => []
      | some reference =>
          match schema.resolve reference.entityId reference.attributeId with
          | none => []
          | some (target, key) => [⟨entity, attr, target, key⟩]

theorem mem_resolvedKeys {schema : Schema} {resolved : ResolvedKey} :
    resolved ∈ resolvedKeys schema ↔ resolved.entity ∈ schema.entities ∧
      resolved.attr ∈ resolved.entity.attributes ∧ ∃ reference,
        resolved.attr.foreignKey = some reference ∧
          schema.resolve reference.entityId reference.attributeId =
            some (resolved.target, resolved.key) := by
  simp only [resolvedKeys, List.mem_flatMap]
  constructor
  · rintro ⟨entity, mem, attr, attrMem, found⟩
    split at found
    · simp at found
    · split at found
      · simp at found
      · rename_i reference key _ target column resolves
        rw [List.mem_singleton] at found
        subst found
        exact ⟨mem, attrMem, reference, key, resolves⟩
  · rintro ⟨mem, attrMem, reference, key, resolves⟩
    exact ⟨resolved.entity, mem, resolved.attr, attrMem, by simp [key, resolves]⟩

def alterTable (resolved : ResolvedKey) : Str :=
  "ALTER TABLE " ++ quote resolved.entity.name ++ "\n    ADD CONSTRAINT " ++
    quote (constraintName resolved.entity.name resolved.attr.name) ++ " FOREIGN KEY (" ++
    quote resolved.attr.name ++ ") REFERENCES " ++ quote resolved.target.name ++ " (" ++
    quote resolved.key.name ++ ");"

def foreignKeys (schema : Schema) : List Str := (resolvedKeys schema).map alterTable

def commentOnTable (entity : Entity) : Str :=
  "COMMENT ON TABLE " ++ quote entity.name ++ " IS " ++ literal entity.description ++ ";"

def commentOnColumn (entity : Entity) (attr : Attribute) : Str :=
  "COMMENT ON COLUMN " ++ quote entity.name ++ "." ++ quote attr.name ++ " IS " ++
    literal attr.description ++ ";"

def comments (schema : Schema) : List Str :=
  schema.entities.flatMap fun entity =>
    (if entity.isDocumented then [commentOnTable entity] else []) ++
      (entity.attributes.filter Attribute.isDocumented).map (commentOnColumn entity)

def generate (schema : Schema) (options : GenerateOptions) : Str :=
  let tables := schema.entities.map fun entity =>
    if options.includePositions then position entity ++ "\n" ++ createTable entity
    else createTable entity
  let documentation := comments schema
  let blocks := tables ++ foreignKeys schema ++
    if options.includeComments && !documentation.isEmpty then [Str.join "\n" documentation] else []
  Str.join "\n\n" blocks

end Generator

end SchemaForge
