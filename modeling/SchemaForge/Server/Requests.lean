import SchemaForge.Adapter.Agreement
import SchemaForge.Pagination
import SchemaForge.Server.Guard

/-!
# Requests

What the two ports read out of a request: the caller, and what the caller wants of
the schema service. A port names a target, a dialect and a format in its own way,
and refuses a request that names none in its own words.
-/

namespace SchemaForge

namespace Service.Dialect

def fromStr (value : Str) : Option Dialect :=
  let name := Str.toAsciiLowercase (Str.trim value)
  if name = "postgres" ∨ name = "postgresql" then some postgres
  else if name = "mysql" then some mySql
  else none

end Service.Dialect

namespace Exchange.ExchangeFormat

def asStr : ExchangeFormat → Str
  | json => "json"
  | sql => "sql"

def fromStr (value : Str) : Option ExchangeFormat :=
  let name := Str.toAsciiLowercase (Str.trim value)
  if name = "json" then some json
  else if name = "sql" ∨ name = "postgres" ∨ name = "postgresql" then some sql
  else none

end Exchange.ExchangeFormat

namespace Adapter

open Service Exchange

/-- An unset dialect means PostgreSQL. -/
def dialectFrom (value : Option Str) (path : Str) : Option Dialect × Violations :=
  match value with
  | none => (some .postgres, [])
  | some value =>
      match Dialect.fromStr value with
      | some dialect => (some dialect, [])
      | none => (none, [(path, "field must name a known dialect")])

/-- An unset format means JSON. -/
def exchangeFormatFrom (value : Option Str) (path : Str) : Option ExchangeFormat × Violations :=
  match value with
  | none => (some .json, [])
  | some value =>
      match ExchangeFormat.fromStr value with
      | some format => (some format, [])
      | none => (none, [(path, "field must name a known format")])

namespace Rpc

/-- The numbers of the contract; any other number means PostgreSQL. -/
def dialectFrom (value : Int32) : Dialect := if value = 2 then .mySql else .postgres

def exchangeFormatFrom (value : Int32) : ExchangeFormat := if value = 2 then .sql else .json

def importFormatFrom (value : Int32) : ExchangeFormat := if value = 2 then .sql else .json

end Rpc

end Adapter

namespace Server

open Repository Service Adapter Exchange Iam Rbac

/-- What a handler has the schema service do. -/
inductive Task where
  | call (operation : Operation)
  | importFile (content : Content) (includePositions : Bool)
  /-- A schema of the caller is measured against a script. -/
  | compareSql (id script : Str) (includePositions : Bool)

/-- What is read out of a text by other crates. -/
structure Readers where
  /-- The token that a text signs. -/
  tokenOf : Str → Token
  /-- `serde_json::from_str`. -/
  parseJson : Str → Except Str SchemaForge.Json.Value
  /-- `serde_urlencoded::from_str`. -/
  urlencoded : Str → Option (List (Str × Str))

/-- The text of a file, read as what it is said to hold. -/
def contentOf (readers : Readers) (format : ExchangeFormat) (content : Str) : Content :=
  match format with
  | .json => .json (readers.parseJson content)
  | .sql => .sql content

def failedPayload : Error := .validation "failed payload validation" []

structure ValidateRequest where
  schemaId : Option Str
  schema : Option SchemaPayload

structure GenerateDdlRequest where
  schemaId : Option Str
  schema : Option SchemaPayload
  dialect : Option Str
  includeComments : Bool
  includePositions : Option Bool

structure ExportSchemaRequest where
  schemaId : Option Str
  schema : Option SchemaPayload
  format : Option Str
  includePositions : Option Bool

structure ImportSchemaRequest where
  content : Str
  format : Option Str
  includePositions : Option Bool

structure CompareSchemasRequest where
  expectedSchemaId : Option Str
  expectedSchema : Option SchemaPayload
  actualSchemaId : Option Str
  actualSchema : Option SchemaPayload
  includePositions : Option Bool

structure CompareSqlRequest where
  schemaId : Str
  content : Str
  includePositions : Option Bool

/-- A request of the schema API, by its route. -/
inductive HttpRequest where
  | index (query : Str)
  | create (payload : SchemaPayload)
  | get (schemaId : Str)
  | replace (schemaId : Str) (payload : SchemaPayload)
  | delete (schemaId : Str)
  | validate (request : ValidateRequest)
  | generateDdl (request : GenerateDdlRequest)
  | exportSchema (request : ExportSchemaRequest)
  | compare (request : CompareSchemasRequest)
  | compareSql (request : CompareSqlRequest)
  | importSchema (request : ImportSchemaRequest)

/-- A request names one target. -/
def targetFrom : Option Str → Option SchemaPayload → Except Error ValidationTarget
  | some id, none => .ok (.stored id)
  | none, some payload => do return .draft (← draftSchemaFrom payload)
  | some _, some _ => .error (failedPayload.pushViolation "schema_id"
      "field cannot be given alongside `schema`: name one target")
  | none, none => .error (failedPayload.pushViolation "schema_id"
      "field is required: name either a stored id or a schema to check")

/-- The fields of a request that are blank, each with its violation. -/
def checkFilled (fields : List (Str × Str)) : Except Error Unit :=
  intoResult (fields.flatMap fun (field, value) =>
    if (Str.trim value).isEmpty then [(field, "field is required and cannot be empty")] else [])

/-- The handlers of the routes, up to the call of the service. -/
def HttpRequest.task (readers : Readers) : HttpRequest → Except Error Task
  | .index query =>
      .ok (.call (.index (Pagination.ListRequest.fromQuery readers.urlencoded query).toListRequest))
  | .create payload => do return .call (.create (← draftFrom payload))
  | .get schemaId => .ok (.call (.findById schemaId))
  | .replace schemaId payload => do return .call (.replace schemaId (← draftFrom payload))
  | .delete schemaId => .ok (.call (.delete schemaId))
  | .validate request => do return .call (.validate (← targetFrom request.schemaId request.schema))
  | .generateDdl request => do
      let (dialect, violations) := dialectFrom request.dialect "dialect"
      intoResult violations
      let target ← targetFrom request.schemaId request.schema
      return .call (.generateDdl target (dialect.getD .postgres)
        { includeComments := request.includeComments,
          includePositions := request.includePositions.getD true })
  | .exportSchema request => do
      let (format, violations) := exchangeFormatFrom request.format "format"
      intoResult violations
      let target ← targetFrom request.schemaId request.schema
      return .call (.exportSchema target (format.getD .json) (request.includePositions.getD true))
  | .compare request => do
      let expected ← targetFrom request.expectedSchemaId request.expectedSchema
      let actual ← targetFrom request.actualSchemaId request.actualSchema
      return .call (.compare expected actual (request.includePositions.getD true))
  | .compareSql request => do
      checkFilled [("schema_id", request.schemaId), ("content", request.content)]
      return .compareSql request.schemaId request.content (request.includePositions.getD true)
  | .importSchema request => do
      checkFilled [("content", request.content)]
      let (format, violations) := exchangeFormatFrom request.format "format"
      intoResult violations
      return .importFile (contentOf readers (format.getD .json) request.content)
        (request.includePositions.getD true)

namespace V1

/-- What a message says of a stored schema or of a drawn one. -/
inductive Target where
  | id (id : Str)
  | draft (draft : Rpc.V1.Schema)

end V1

/-- A message of the schema service, by its method. -/
inductive RpcRequest where
  | createSchema (name description : Str) (entities : List Rpc.V1.Entity)
      (relationships : List Rpc.V1.Relationship)
  | getSchema (id : Str)
  | listSchemas (page perPage : UInt32)
  | updateSchema (id name description : Str) (entities : List Rpc.V1.Entity)
      (relationships : List Rpc.V1.Relationship)
  | deleteSchema (id : Str)
  | validateSchema (target : Option V1.Target)
  | generateDdl (target : Option V1.Target) (dialect : Int32) (includeComments : Bool)
      (includePositions : Option Bool)
  | compareSchemas (expected actual : Option V1.Target) (includePositions : Option Bool)
  | exportSchema (target : Option V1.Target) (format : Int32) (includePositions : Option Bool)
  | importSchema (content : Str) (format : Int32) (includePositions : Option Bool)

/-- The id is looked at first, though a message holds only one of the two. -/
def targetOf : Option Str → Option Rpc.V1.Schema → Except Error ValidationTarget
  | some id, _ => .ok (.stored id)
  | none, some draft => do return .draft (← Rpc.draftSchemaFrom draft)
  | none, none => .error (failedPayload.pushViolation "target"
      "field is required: name either an id or a draft")

/-- The four unpackings of a target. -/
def V1.targetFrom : Option V1.Target → Except Error ValidationTarget
  | some (.id id) => targetOf (some id) none
  | some (.draft draft) => targetOf none (some draft)
  | none => targetOf none none

namespace RpcRequest

/-- The name of the method in its path. -/
def method : RpcRequest → Str
  | createSchema _ _ _ _ => "CreateSchema"
  | getSchema _ => "GetSchema"
  | listSchemas _ _ => "ListSchemas"
  | updateSchema _ _ _ _ _ => "UpdateSchema"
  | deleteSchema _ => "DeleteSchema"
  | validateSchema _ => "ValidateSchema"
  | generateDdl _ _ _ _ => "GenerateDdl"
  | compareSchemas _ _ _ => "CompareSchemas"
  | exportSchema _ _ _ => "ExportSchema"
  | importSchema _ _ _ => "ImportSchema"

def path (request : RpcRequest) : Str := schemaService ++ request.method

/-- The methods, up to the call of the service. -/
def task (readers : Readers) : RpcRequest → Except Error Task
  | createSchema name description entities relationships => do
      return .call (.create (← Rpc.draftFrom name description entities relationships))
  | getSchema id => .ok (.call (.findById id))
  | listSchemas page perPage =>
      let request := Pagination.ListRequest.paged (.ofNat page.toNat) (.ofNat perPage.toNat)
      .ok (.call (.index request.toListRequest))
  | updateSchema id name description entities relationships => do
      return .call (.replace id (← Rpc.draftFrom name description entities relationships))
  | deleteSchema id => .ok (.call (.delete id))
  | validateSchema target => do return .call (.validate (← V1.targetFrom target))
  | generateDdl target dialect includeComments includePositions => do
      let target ← V1.targetFrom target
      return .call (.generateDdl target (Rpc.dialectFrom dialect)
        { includeComments, includePositions := includePositions.getD true })
  | compareSchemas expected actual includePositions => do
      let expected ← V1.targetFrom expected
      let actual ← V1.targetFrom actual
      return .call (.compare expected actual (includePositions.getD true))
  | exportSchema target format includePositions => do
      let target ← V1.targetFrom target
      return .call
        (.exportSchema target (Rpc.exchangeFormatFrom format) (includePositions.getD true))
  | importSchema content format includePositions =>
      .ok (.importFile (contentOf readers (Rpc.importFormatFrom format) content)
        (includePositions.getD true))

end RpcRequest

/-- A request that is let through: whose it is, and what it is for. -/
structure Admitted where
  caller : Uuid
  task : Task

variable [Postgres]

def HttpRequest.accept (readers : Readers) (state : AuthState) (clock : Timestamp)
    (authorization : Option Str) (request : HttpRequest) : Except Error Admitted := do
  let user ← authenticate readers.tokenOf state clock authorization
  return ⟨user.id, ← request.task readers⟩

/-- The guard has put the caller there. -/
def callerOf : Option Identity → Except Error Uuid
  | some user => .ok user.id
  | none => .error missingToken

-- An import does not ask for its caller, whom the guard has put there as for the others.
def RpcRequest.accept (readers : Readers) (engine : RbacEngine) (state : AuthState)
    (clock : Timestamp) (authorization : Option Str) (request : RpcRequest) :
    Except Error Admitted := do
  let user ← authGuard readers.tokenOf engine state clock request.path authorization
  return ⟨← callerOf user, ← request.task readers⟩

end Server

end SchemaForge
