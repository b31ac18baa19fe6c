import SchemaForge.Exchange
import SchemaForge.Exchange.Compare
import SchemaForge.Foundation.Machine
import SchemaForge.Generator
import SchemaForge.Repository.Store
import SchemaForge.Verifier

/-!
# The schema service

The operations of the service over the schema store, as one machine: an
operation of a caller moves the tables and is answered.
-/

namespace SchemaForge.Service

open Repository

structure MetaData where
  totalCount : Int64
  totalPages : Int64
  currentPage : Int64
  perPage : Int64
  nextPage : Option Int64
  previousPage : Option Int64
deriving DecidableEq

structure Data (α : Type) where
  data : List α
  metaData : MetaData
deriving DecidableEq

def Data.new {α : Type} (data : List α) (totalCount currentPage perPage : Int64) : Data α :=
  let perPage := if perPage < 1 then 1 else perPage
  let totalPages := totalCount / perPage + if totalCount % perPage ≠ 0 then 1 else 0
  { data
    metaData := {
      totalCount, totalPages, currentPage, perPage
      nextPage := (some (currentPage + 1)).filter fun page => page ≤ totalPages
      previousPage := (some (currentPage - 1)).filter fun page => 1 ≤ page && page ≤ totalPages } }

inductive Dialect where
  | postgres | mySql
deriving DecidableEq

def Dialect.asStr : Dialect → Str
  | postgres => "postgres"
  | mySql => "mysql"

/-- A stored schema, or an unsaved draft the canvas is holding. -/
inductive ValidationTarget where
  | stored (id : Str)
  | draft (schema : Schema)

structure Generated where
  ddl : Str
  report : Report
deriving DecidableEq

inductive Operation where
  | index (request : ListRequest)
  | create (draft : SchemaDraft)
  | findById (id : Str)
  | replace (id : Str) (draft : SchemaDraft)
  | delete (id : Str)
  | validate (target : ValidationTarget)
  | generateDdl (target : ValidationTarget) (dialect : Dialect) (options : GenerateOptions)
  | exportSchema (target : ValidationTarget) (format : Exchange.ExchangeFormat)
      (includePositions : Bool)
  | compare (expected actual : ValidationTarget) (includePositions : Bool)

inductive Answer where
  | page (data : Data SchemaSummary)
  | schema (schema : StoredSchema)
  | deleted
  | report (report : Report)
  | generated (generated : Generated)
  | exported (exported : Exchange.Exported)
  | comparison (comparison : Comparison)

/-- An operation of a caller, with the id that the database draws if it stores a
new schema and the time of its transaction. -/
structure Call where
  caller : Uuid
  operation : Operation
  drawn : Uuid
  now : Time

def maxNameLength : Nat := 120

def toError : DomainError → Error
  | .schemaNotFound => .app 1001 "schema does not exist"
  | .duplicateSchemaName name => .app 1004 ("a schema named `" ++ name ++ "` already exists")
  | .storage _ => .app 2000 "internal server error"

def checkDraft (draft : SchemaDraft) : Except Error Unit :=
  let error : Error := .validation "failed payload validation" []
  let error :=
    if (Str.trim draft.name).isEmpty then
      error.pushViolation "name" "field is required and cannot be empty"
    else error
  let error :=
    if draft.name.length > maxNameLength then
      error.pushViolation "name" ("field must be at most " ++ Str.ofNat maxNameLength ++
        " characters")
    else error
  match error with
  | .validation _ [] => .ok ()
  | error => .error error

/-- Of the dialects, only PostgreSQL has a generator. -/
def generatorFor : Dialect → Except Error (Schema → GenerateOptions → Str)
  | .postgres => .ok Generator.generate
  | dialect => .error (.unimplemented ("no generator targets " ++ dialect.asStr ++ " yet"))

section Operations

variable [Unicode] [Postgres]

def index (tables : Tables) (caller : Uuid) (request : ListRequest) :
    Except Error (Data SchemaSummary) := do
  let (summaries, total) ← (tables.index caller request).mapError toError
  return .new summaries total request.page request.perPage

def create (tables : Tables) (caller : Uuid) (draft : SchemaDraft) (drawn : Uuid) (now : Time) :
    Except Error (Tables × StoredSchema) := do
  checkDraft draft
  (tables.create caller draft drawn now).mapError toError

def findById (tables : Tables) (caller : Uuid) (id : Str) : Except Error StoredSchema := do
  match ← (tables.findById caller id).mapError toError with
  | none => .error (.app 1001 "schema does not exist")
  | some schema => .ok schema

def replace (tables : Tables) (caller : Uuid) (id : Str) (draft : SchemaDraft) (now : Time) :
    Except Error (Tables × StoredSchema) := do
  checkDraft draft
  (tables.replace caller id draft now).mapError toError

def delete (tables : Tables) (caller : Uuid) (id : Str) : Except Error (Tables × Unit) :=
  (tables.delete caller id).mapError toError

def resolve (tables : Tables) (caller : Uuid) : ValidationTarget → Except Error Schema
  | .stored id => do return (← findById tables caller id).schema
  | .draft schema => .ok schema

def validate (tables : Tables) (caller : Uuid) (target : ValidationTarget) :
    Except Error Report := do
  return Verifier.verify (← resolve tables caller target)

def generateDdl (tables : Tables) (caller : Uuid) (target : ValidationTarget) (dialect : Dialect)
    (options : GenerateOptions) : Except Error Generated := do
  let generator ← generatorFor dialect
  let schema ← resolve tables caller target
  let report := Verifier.verify schema
  if report.isValid then return ⟨generator schema options, report⟩ else return ⟨[], report⟩

def exportSchema (tables : Tables) (caller : Uuid) (target : ValidationTarget)
    (format : Exchange.ExchangeFormat) (includePositions : Bool) :
    Except Error Exchange.Exported := do
  Exchange.exportSchema (← resolve tables caller target) format includePositions

def compare (tables : Tables) (caller : Uuid) (expected actual : ValidationTarget)
    (includePositions : Bool) : Except Error Comparison := do
  let expected ← resolve tables caller expected
  let actual ← resolve tables caller actual
  return Exchange.compare expected.draft actual.draft includePositions

/-- An operation that only reads. -/
def reading {α : Type} (tables : Tables) (answer : α → Answer) (read : Except Error α) :
    Except Error (Tables × Answer) :=
  read.map fun value => (tables, answer value)

/-- An operation that writes. -/
def writing {α : Type} (answer : α → Answer) (written : Except Error (Tables × α)) :
    Except Error (Tables × Answer) :=
  written.map fun (tables, value) => (tables, answer value)

def perform (tables : Tables) (call : Call) : Except Error (Tables × Answer) :=
  match call.operation with
  | .index request => reading tables .page (index tables call.caller request)
  | .create draft => writing .schema (create tables call.caller draft call.drawn call.now)
  | .findById id => reading tables .schema (findById tables call.caller id)
  | .replace id draft => writing .schema (replace tables call.caller id draft call.now)
  | .delete id => writing (fun _ => .deleted) (delete tables call.caller id)
  | .validate target => reading tables .report (validate tables call.caller target)
  | .generateDdl target dialect options =>
      reading tables .generated (generateDdl tables call.caller target dialect options)
  | .exportSchema target format includePositions =>
      reading tables .exported (exportSchema tables call.caller target format includePositions)
  | .compare expected actual includePositions =>
      reading tables .comparison (compare tables call.caller expected actual includePositions)

/-- The tables after a call, and what the call answers. -/
def conclude (tables : Tables) : Except Error (Tables × Answer) → Tables × Except Error Answer
  | .ok (tables', answer) => (tables', .ok answer)
  | .error error => (tables, .error error)

def service : Machine Tables Call (Except Error Answer) where
  step tables call := conclude tables (perform tables call)

end Operations

end SchemaForge.Service
