import SchemaForge.Domain.Report

/-!
# The verifier's checks

Every check reads the whole schema and returns the diagnostics it pushes, in
order. Syntax runs before structure and references, so the first thing a report
says about a half-drawn diagram is what is missing from the drawing. The cycle
check is developed in `SchemaForge.Verifier.Cycles`.
-/

namespace SchemaForge.Verifier

def table (entity : Entity) : Str :=
  match Str.trim entity.name with
  | [] => "an unnamed table"
  | name => "`" ++ name ++ "`"

def column (entity : Entity) (attr : Attribute) : Str :=
  "`" ++ Str.trim entity.name ++ "." ++ Str.trim attr.name ++ "`"

def relationship (schema : Schema) (link : Relationship) : Str :=
  if !(Str.trim link.name).isEmpty then "relationship `" ++ Str.trim link.name ++ "`"
  else
    match schema.entity link.fromEntityId, schema.entity link.toEntityId with
    | some start, some stop => "the relationship between " ++ table start ++ " and " ++ table stop
    | _, _ => "a relationship"

/--
PostgreSQL only lets a foreign key point at columns with a unique constraint. One column of a
composite primary key is not unique on its own, so it only counts when it is the whole key.
-/
def isUniqueKey (entity : Entity) (attr : Attribute) : Bool :=
  attr.unique || (attr.primaryKey && entity.primaryKey.length == 1)

def checkNotEmpty (schema : Schema) : List Diagnostic :=
  if schema.entities.isEmpty then [.warning .emptySchema "the schema has no tables yet"] else []

def checkNames (schema : Schema) : List Diagnostic :=
  schema.entities.flatMap fun entity =>
    (if (Str.trim entity.name).isEmpty then
      [((Diagnostic.error .emptyName "a table has no name").about entity.id).place entity.position]
    else []) ++
    entity.attributes.flatMap fun attr =>
      if (Str.trim attr.name).isEmpty then
        [(((Diagnostic.error .emptyName ("a column in " ++ table entity ++ " has no name")).about
          entity.id).about attr.id).place entity.position]
      else []

def maxLength : UInt32 := 10485760

def maxPrecision : UInt32 := 1000

def parameterProblem (dataType : DataType) : Option Str :=
  if dataType.kind.takesLength then
    match dataType.length with
    | some length =>
        if length = 0 then some "a length has to be at least 1"
        else if maxLength < length then
          some ("PostgreSQL allows a length of at most " ++ Str.ofNat maxLength.toNat)
        else none
    | none => none
  else if dataType.kind.takesPrecision then
    match dataType.precision, dataType.scale with
    | none, some _ => some "a scale needs a precision"
    | none, none => none
    | some precision, scale =>
        if precision = 0 then some "a precision has to be at least 1"
        else if maxPrecision < precision then
          some ("PostgreSQL allows a precision of at most " ++ Str.ofNat maxPrecision.toNat)
        else
          match scale with
          | some scale =>
              if maxPrecision < scale then
                some ("PostgreSQL allows a scale of at most " ++ Str.ofNat maxPrecision.toNat)
              else none
          | none => none
  else none

def checkTypeParameters (schema : Schema) : List Diagnostic :=
  schema.entities.flatMap fun entity =>
    entity.attributes.flatMap fun attr =>
      match parameterProblem attr.dataType with
      | none => []
      | some problem =>
          [(((Diagnostic.error .invalidTypeParameter
            (column entity attr ++ " is " ++ attr.dataType.display ++ ", but " ++ problem)).about
              entity.id).about attr.id).place entity.position]

def checkRelationshipEnds (schema : Schema) : List Diagnostic :=
  schema.relationships.flatMap fun link =>
    if (schema.resolve link.fromEntityId link.fromAttributeId).isSome &&
        (schema.resolve link.toEntityId link.toAttributeId).isSome then []
    else
      let diagnostic := (Diagnostic.error .danglingRelationship
        (relationship schema link ++ " points at a table or column that does not exist")).about
          link.id
      match (schema.entity link.fromEntityId).or (schema.entity link.toEntityId) with
      | some entity => [diagnostic.place entity.position]
      | none => [diagnostic]

section Structure

variable [Unicode]

/-- Adds an item to the group of its key, or opens a group for it. -/
def addToGroup {α : Type} (key : Str) (item : α) : List (Str × List α) → List (Str × List α)
  | [] => [(key, [item])]
  | (existing, members) :: groups =>
      if existing = key then (existing, members ++ [item]) :: groups
      else (existing, members) :: addToGroup key item groups

/-- The groups after the loop over `items`, each under its lower-case name. -/
def nameGroups {α : Type} (items : List α) (name : α → Str) : List (Str × List α) :=
  items.foldl (fun groups item =>
    let key := Str.toLowercase (Str.trim (name item))
    if key.isEmpty then groups else addToGroup key item groups) []

/-- Items whose trimmed names agree in lower case, in groups of at least two. -/
def sameNameGroups {α : Type} (items : List α) (name : α → Str) : List (List α) :=
  ((nameGroups items name).map Prod.snd).filter fun members => 1 < members.length

def checkDuplicateNames (schema : Schema) : List Diagnostic :=
  ((sameNameGroups schema.entities Entity.name).flatMap fun group =>
    match group with
    | [] => []
    | first :: _ =>
        let diagnostic := (Diagnostic.error .duplicateEntityName
          (Str.ofNat group.length ++ " tables are named `" ++ Str.trim first.name ++ "`")).place
            first.position
        [group.foldl (fun diagnostic entity => diagnostic.about entity.id) diagnostic]) ++
  schema.entities.flatMap fun entity =>
    (sameNameGroups entity.attributes Attribute.name).flatMap fun group =>
      match group with
      | [] => []
      | first :: _ =>
          let diagnostic := ((Diagnostic.error .duplicateAttributeName
            (table entity ++ " has " ++ Str.ofNat group.length ++ " columns named `" ++
              Str.trim first.name ++ "`")).about entity.id).place entity.position
          [group.foldl (fun diagnostic attr => diagnostic.about attr.id) diagnostic]

end Structure

def checkPrimaryKeys (schema : Schema) : List Diagnostic :=
  schema.entities.flatMap fun entity =>
    if entity.hasPrimaryKey then []
    else
      [((Diagnostic.error .missingPrimaryKey (table entity ++ " has no primary key")).about
        entity.id).place entity.position]

def width : DataTypeKind → Nat
  | .smallInt => 2
  | .integer => 4
  | _ => 8

def bound (dataType : DataType) : Option UInt32 :=
  match dataType.kind with
  | .text => none
  | _ => dataType.length

def isNarrower (column key : DataType) : Bool :=
  match column.kind.family with
  | .integral => width column.kind < width key.kind
  | .textual =>
      match bound column, bound key with
      | some column, some key => column < key
      | some _, none => true
      | _, _ => false
  | _ => false

def checkForeignKeys (schema : Schema) : List Diagnostic :=
  schema.entities.flatMap fun entity =>
    entity.attributes.flatMap fun attr =>
      match attr.foreignKey with
      | none => []
      | some reference =>
          match schema.resolve reference.entityId reference.attributeId with
          | none =>
              [(((Diagnostic.error .invalidForeignKey
                (column entity attr ++ " references a column that does not exist")).about
                  entity.id).about attr.id).place entity.position]
          | some (target, key) =>
              let blame (diagnostic : Diagnostic) : Diagnostic :=
                ((((diagnostic.about entity.id).about attr.id).about target.id).about
                  key.id).place entity.position
              (if isUniqueKey target key then []
              else
                [blame (.error .foreignKeyNotAKey
                  (column entity attr ++ " references " ++ column target key ++
                    ", which is neither the primary key nor unique"))]) ++
              if !attr.dataType.isCompatibleWith key.dataType then
                [blame (.error .typeMismatch
                  (column entity attr ++ " is " ++ attr.dataType.display ++ " but references " ++
                    column target key ++ ", which is " ++ key.dataType.display))]
              else if isNarrower attr.dataType key.dataType then
                [blame (.warning .typeMismatch
                  (column entity attr ++ " is " ++ attr.dataType.display ++ " but references " ++
                    column target key ++ ", which is " ++ key.dataType.display ++
                    ", so some keys will not fit"))]
              else []

def pointsAt (attr : Attribute) (entity : Entity) (key : Attribute) : Bool :=
  match attr.foreignKey with
  | some reference => reference.entityId == entity.id && reference.attributeId == key.id
  | none => false

/-- The warning about a line whose cardinality its foreign key column does not bear out. -/
def cardinalityWarning (schema : Schema) (link : Relationship) (entity : Entity)
    (attr : Attribute) : List Diagnostic :=
  let warn (message : Str) : List Diagnostic :=
    [((((Diagnostic.warning .cardinalityMismatch message).about link.id).about entity.id).about
      attr.id).place entity.position]
  match link.cardinality, isUniqueKey entity attr with
  | .oneToOne, false =>
      warn (relationship schema link ++ " is one-to-one, but " ++ column entity attr ++
        " is not unique, so many rows can point at the same row")
  | .oneToMany, true =>
      warn (relationship schema link ++ " is one-to-many, but " ++ column entity attr ++
        " is unique, so each row can only be pointed at once")
  | _, _ => []

/-- The column that holds the foreign key is looked for at both ends of a line. -/
def checkRelationships (schema : Schema) : List Diagnostic :=
  schema.relationships.flatMap fun link =>
    if link.cardinality.requiresJoinTable then []
    else
      match schema.resolve link.fromEntityId link.fromAttributeId,
          schema.resolve link.toEntityId link.toAttributeId with
      | some (fromEntity, start), some (toEntity, stop) =>
          if pointsAt start toEntity stop then cardinalityWarning schema link fromEntity start
          else if pointsAt stop fromEntity start then cardinalityWarning schema link toEntity stop
          else
            [((Diagnostic.error .relationshipWithoutForeignKey
              (relationship schema link ++ " joins " ++ column fromEntity start ++ " and " ++
                column toEntity stop ++
                ", but neither column is a foreign key to the other")).about link.id).place
                  fromEntity.position]
      | _, _ => []

/-- One warning for a table, naming its undocumented columns, and one for each line. -/
def checkDocumentation (schema : Schema) : List Diagnostic :=
  (schema.entities.flatMap fun entity =>
    let undocumented := entity.attributes.filter fun attr => !attr.isDocumented
    let columns := Str.join ", " (undocumented.map fun attr => "`" ++ Str.trim attr.name ++ "`")
    let warn (message : Str) : List Diagnostic :=
      [undocumented.foldl (fun diagnostic attr => diagnostic.about attr.id)
        (((Diagnostic.warning .missingDescription message).about entity.id).place entity.position)]
    match entity.isDocumented, undocumented.isEmpty with
    | true, true => []
    | false, true => warn (table entity ++ " has no description")
    | false, false =>
        warn (table entity ++ " has no description, and neither do these columns: " ++ columns)
    | true, false => warn (table entity ++ " has columns with no description: " ++ columns)) ++
  schema.relationships.flatMap fun link =>
    if link.isDocumented then []
    else
      [(Diagnostic.warning .missingDescription
        (relationship schema link ++ " has no description")).about link.id]

end SchemaForge.Verifier
