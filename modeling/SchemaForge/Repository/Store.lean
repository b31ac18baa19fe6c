import SchemaForge.Repository.Transactions

/-!
# The schema store, one call at a time

Every method of the repository takes the owner and answers about the owner's
rows alone. A call that fails leaves the tables as they are.
-/

namespace SchemaForge.Repository

/--
A page of a listing, with `sort_by`, `order` and the filters left out: nothing reads them here.
-/
structure ListRequest where
  page : Int64
  perPage : Int64

/-- Overflow wraps, as it does in a release build. -/
def ListRequest.offset (request : ListRequest) : Int64 := (request.page - 1) * request.perPage

structure SchemaSummary where
  id : Str
  name : Str
  description : Str
  entityCount : Nat
  relationshipCount : Nat
  createdAt : Time
  updatedAt : Time
deriving DecidableEq

/-- A schema with the times that the store keeps of it. -/
structure StoredSchema where
  schema : Schema
  createdAt : Time
  updatedAt : Time
deriving DecidableEq

section Calls

variable [Postgres]

def mapSchema (row : SchemaRow) : Except DomainError StoredSchema := do
  let draft ← draftOfRow row.name row.description row.entities row.relationships
  return {
    schema := .new (Postgres.uuidText row.id) draft
    createdAt := row.createdAt
    updatedAt := row.updatedAt }

def mapSummary (row : SchemaRow) : SchemaSummary where
  id := Postgres.uuidText row.id
  name := row.name
  description := row.description
  entityCount := row.entities.length
  relationshipCount := row.relationships.length
  createdAt := row.createdAt
  updatedAt := row.updatedAt

/-- A refusal of the database, as `storage` carries it on. -/
def refusal : Option Str → Except DomainError Unit
  | none => .ok ()
  | some cause => .error (.storage cause)

/-- The order of a listing. -/
def before (first second : LinkRow × SchemaRow) : Bool :=
  first.1.createdAt < second.1.createdAt ||
    (first.1.createdAt == second.1.createdAt && decide (first.1.schemaId ≤ second.1.schemaId))

namespace Tables

def index (tables : Tables) (owner : Uuid) (request : ListRequest) :
    Except DomainError (List SchemaSummary × Int64) :=
  let total := Int64.ofNat (tables.linksOf owner).length
  if request.perPage < 0 then .error (.storage "LIMIT must not be negative")
  else if request.offset < 0 then .error (.storage "OFFSET must not be negative")
  else
    let rows := (tables.joined owner).mergeSort before
    let page := (rows.drop request.offset.toNatClampNeg).take request.perPage.toNatClampNeg
    .ok (page.map fun row => mapSummary row.2, total)

def reserveName (tables : Tables) (owner : Uuid) (name : Str) (except : Option Uuid) :
    Except DomainError Unit := do
  refusal (Postgres.refusesText name)
  if tables.nameTaken owner name except then .error (.duplicateSchemaName name) else .ok ()

/-- `drawn` is the id that the database draws and `now` the time of the transaction. -/
def create (tables : Tables) (owner : Uuid) (draft : SchemaDraft) (drawn : Uuid) (now : Time) :
    Except DomainError (Tables × StoredSchema) := do
  tables.reserveName owner draft.name none
  refusal (refusesRow draft)
  let schema ← mapSchema (newRow draft drawn now)
  match tables.insertBoth (newRow draft drawn now) ⟨owner, drawn, now⟩ with
  | none => .error (.storage "duplicate key value violates unique constraint")
  | some tables' => .ok (tables', schema)

def findById (tables : Tables) (owner : Uuid) (id : Str) :
    Except DomainError (Option StoredSchema) :=
  match Postgres.parseUuid id with
  | none => .ok none
  | some uuid =>
      match tables.select owner uuid with
      | none => .ok none
      | some row => (mapSchema row).map some

def replace (tables : Tables) (owner : Uuid) (id : Str) (draft : SchemaDraft) (now : Time) :
    Except DomainError (Tables × StoredSchema) :=
  match Postgres.parseUuid id with
  | none => .error .schemaNotFound
  | some uuid => do
      tables.reserveName owner draft.name (some uuid)
      refusal (refusesRow draft)
      match tables.select owner uuid with
      | none => .error .schemaNotFound
      | some row => do
          let schema ← mapSchema (replaceRow draft now row)
          return (tables.updateSchema owner uuid draft now, schema)

def delete (tables : Tables) (owner : Uuid) (id : Str) : Except DomainError (Tables × Unit) :=
  match Postgres.parseUuid id with
  | none => .error .schemaNotFound
  | some uuid =>
      if tables.owns owner uuid then .ok (tables.deleteSchema owner uuid, ())
      else .error .schemaNotFound

/-- Both calls fail alike, or succeed alike and leave the same rows of the user. -/
inductive Alike {ε α : Type} (owner : Uuid) :
    Except ε (Tables × α) → Except ε (Tables × α) → Prop
  | error (failure : ε) : Alike owner (.error failure) (.error failure)
  | ok {left right : Tables} (same : SameFor owner left right) (answer : α) :
      Alike owner (.ok (left, answer)) (.ok (right, answer))

namespace SameFor

variable {owner : Uuid} {left right : Tables}

theorem index (same : SameFor owner left right) (request : ListRequest) :
    left.index owner request = right.index owner request := by
  rw [Tables.index, Tables.index, joined_eq, joined_eq, same.links, same.owned]

theorem reserveName (same : SameFor owner left right) (name : Str) (except : Option Uuid) :
    left.reserveName owner name except = right.reserveName owner name except := by
  rw [Tables.reserveName, Tables.reserveName, nameTaken, nameTaken, same.owned]

theorem findById (same : SameFor owner left right) (id : Str) :
    left.findById owner id = right.findById owner id := by
  unfold Tables.findById
  split
  · rfl
  · rw [same.select]

theorem create (same : SameFor owner left right) (draft : SchemaDraft) {drawn : Uuid} (now : Time)
    (freshLeft : drawn ∉ left.schemas.map SchemaRow.id)
    (freshRight : drawn ∉ right.schemas.map SchemaRow.id) :
    Alike owner (left.create owner draft drawn now) (right.create owner draft drawn now) := by
  have inserted {tables : Tables} (fresh : drawn ∉ tables.schemas.map SchemaRow.id) :
      ∃ tables', tables.insertBoth (newRow draft drawn now) ⟨owner, drawn, now⟩ = some tables' :=
    insertBoth_of_fresh fresh rfl
  rcases inserted freshLeft with ⟨left', insertedLeft⟩
  rcases inserted freshRight with ⟨right', insertedRight⟩
  rw [Tables.create, Tables.create, same.reserveName, insertedLeft, insertedRight]
  cases right.reserveName owner draft.name none with
  | error failure => exact .error failure
  | ok _ =>
      cases refusal (refusesRow draft) with
      | error failure => exact .error failure
      | ok _ =>
          cases mapSchema (newRow draft drawn now) with
          | error failure => exact .error failure
          | ok schema => exact .ok (same.insertBoth rfl insertedLeft insertedRight) schema

theorem replace (same : SameFor owner left right) (id : Str) (draft : SchemaDraft) (now : Time) :
    Alike owner (left.replace owner id draft now) (right.replace owner id draft now) := by
  unfold Tables.replace
  cases Postgres.parseUuid id with
  | none => exact .error _
  | some uuid =>
      simp only [same.reserveName, same.select]
      cases right.reserveName owner draft.name (some uuid) with
      | error failure => exact .error failure
      | ok _ =>
          cases refusal (refusesRow draft) with
          | error failure => exact .error failure
          | ok _ =>
              cases right.select owner uuid with
              | none => exact .error _
              | some row =>
                  cases mapped : mapSchema (replaceRow draft now row) with
                  | error failure => simpa only [mapped] using .error failure
                  | ok schema =>
                      simpa only [mapped] using .ok (same.updateSchema owner uuid draft now) schema

theorem delete (same : SameFor owner left right) (id : Str) :
    Alike owner (left.delete owner id) (right.delete owner id) := by
  unfold Tables.delete
  cases Postgres.parseUuid id with
  | none => exact .error _
  | some uuid =>
      simp only [same.owns]
      cases right.owns owner uuid with
      | false => exact .error _
      | true => exact .ok (same.deleteSchema owner uuid) ()

end SameFor

end Tables

end Calls

end SchemaForge.Repository
