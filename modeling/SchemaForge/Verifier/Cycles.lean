import SchemaForge.Verifier.Checks
import SchemaForge.Verifier.Tarjan

/-!
# The cycle check

Tables that reference one another are diagnosed as a group. When every foreign
key around a cycle is `NOT NULL`, no table in it can take the first row, so that
is an error; otherwise the rows can go in with a `NULL` and be filled in later.
-/

namespace SchemaForge.Verifier

/-- The position of a table by its id. The map of the source keeps the last of two equal ids. -/
def positionOf (schema : Schema) (entityId : Str) : Option (Fin schema.entities.length) :=
  (List.finRange schema.entities.length).reverse.find? fun position =>
    (schema.entities.get position).id == entityId

/-- The foreign keys between different tables that `keep` selects, as edges. -/
def keyEdges (schema : Schema) (keep : Attribute → Bool) :
    List (Fin schema.entities.length × Fin schema.entities.length) :=
  (List.finRange schema.entities.length).flatMap fun start =>
    (schema.entities.get start).attributes.filterMap fun attr => do
      let reference ← attr.foreignKey
      let stop ← positionOf schema reference.entityId
      if stop = start then none
      else if keep attr then some (start, stop)
      else none

def allEdges (schema : Schema) : List (Fin schema.entities.length × Fin schema.entities.length) :=
  keyEdges schema fun _ => true

def requiredEdges (schema : Schema) :
    List (Fin schema.entities.length × Fin schema.entities.length) :=
  keyEdges schema fun attr => !attr.nullable

/-- Some of the groups that no first row can enter meets the component. -/
def isBlocked {n : Nat} (blocked : List (List (Fin n))) (component : List (Fin n)) : Bool :=
  blocked.any fun cycle => cycle.any component.contains

def cycleDiagnostic (schema : Schema) (blocked : List (List (Fin schema.entities.length)))
    (component : List (Fin schema.entities.length)) : Diagnostic :=
  let names := Str.join ", " (component.map fun position => table (schema.entities.get position))
  let diagnostic :=
    if isBlocked blocked component then
      Diagnostic.error .circularDependency (names ++
        " depend on each other through foreign keys that are all NOT NULL, so no row can be inserted first")
    else
      Diagnostic.warning .circularDependency (names ++
        " depend on each other through foreign keys, so some rows have to be inserted with a NULL and updated later")
  let diagnostic := match component with
    | first :: _ => diagnostic.place (schema.entities.get first).position
    -- No component is empty.
    | [] => diagnostic
  component.foldl (fun diagnostic position => diagnostic.about (schema.entities.get position).id)
    diagnostic

def checkCycles (schema : Schema) : List Diagnostic :=
  let blocked := stronglyConnected schema.entities.length (requiredEdges schema)
  (stronglyConnected schema.entities.length (allEdges schema)).map (cycleDiagnostic schema blocked)

end SchemaForge.Verifier
