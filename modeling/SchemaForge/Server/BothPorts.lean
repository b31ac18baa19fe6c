import SchemaForge.Exchange.JsonRefusals
import SchemaForge.Server.Ports

/-!
# Both ports

What can be asked on one port can be asked on the other. A client of the gRPC port
and a client of the HTTP port who ask the same are told the same, through whole runs
and as long as the callers hold the permissions that only the gRPC port asks for, and
leave out neither the schema they ask about nor the text they import: each port has
its own words for these.
-/

namespace SchemaForge

namespace Str

theorem parseInt_of_digits {least greatest : Int} {s : Str} (nonempty : s ≠ [])
    (digits : s.all Char.isDigit = true) :
    parseInt least greatest s =
      if least ≤ (digitsValue s : Int) ∧ (digitsValue s : Int) ≤
        greatest then some (digitsValue s : Int) else none := by
  cases s with
  | nil => exact absurd rfl nonempty
  | cons c rest =>
      have digit : c.isDigit = true := by
        rw [List.all_cons, Bool.and_eq_true] at digits
        exact digits.1
      unfold parseInt
      split
      rename_i negative number shape
      split at shape
      · rename_i same
        cases same
        exact absurd digit (by decide)
      · rename_i same
        cases same
        exact absurd digit (by decide)
      · cases shape
        rw [digits, List.isEmpty_cons, Bool.not_true, Bool.or_false, if_neg Bool.false_ne_true]
        rfl

theorem parseI64_ofNat (n : UInt32) : parseI64 (ofNat n.toNat) = some (.ofNat n.toNat) := by
  have digits : (ofNat n.toNat).all Char.isDigit = true := by
    simpa using fun c mem => isDigit_of_mem_ofNat (c := c) mem
  have small := n.toNat_lt
  rw [parseI64, parseInt_of_digits (ofNat_ne_nil _) digits, digitsValue_ofNat, if_pos (by omega),
    Option.map_some]
  rfl

end Str

namespace Server

open Repository Service Adapter Exchange Iam Rbac

/-- Both ports are asked about one stored schema, about one drawn one, or about none. -/
inductive SameTarget : Option Str → Option SchemaPayload → Option V1.Target → Prop where
  | stored (id : Str) : SameTarget (some id) none (some (.id id))
  | draft {proto : Rpc.V1.Schema} {payload : SchemaPayload} (named : proto.id = payload.id)
      (same : SameSchema proto payload) : SameTarget none (some payload) (some (.draft proto))
  | missing : SameTarget none none none

/-- A request of each port that asks the same: the routes of HTTP but one have a method of gRPC. -/
inductive SameRequest (readers : Readers) : HttpRequest → RpcRequest → Prop where
  | index {query : Str} {page perPage : UInt32}
      (asked : readers.urlencoded query =
        some [("page".toList, Str.ofNat page.toNat),
          ("per_page".toList, Str.ofNat perPage.toNat)]) :
      SameRequest readers (.index query) (.listSchemas page perPage)
  | create {proto : Rpc.V1.Schema} {payload : SchemaPayload} (same : SameSchema proto payload) :
      SameRequest readers (.create payload)
        (.createSchema proto.name proto.description proto.entities proto.relationships)
  | get (id : Str) : SameRequest readers (.get id) (.getSchema id)
  | replace (id : Str) {proto : Rpc.V1.Schema} {payload : SchemaPayload}
      (same : SameSchema proto payload) :
      SameRequest readers (.replace id payload)
        (.updateSchema id proto.name proto.description proto.entities proto.relationships)
  | delete (id : Str) : SameRequest readers (.delete id) (.deleteSchema id)
  | validate {schemaId : Option Str} {schema : Option SchemaPayload} {target : Option V1.Target}
      (same : SameTarget schemaId schema target) :
      SameRequest readers (.validate ⟨schemaId, schema⟩) (.validateSchema target)
  | generateDdl {schemaId : Option Str} {schema : Option SchemaPayload} {target : Option V1.Target}
      {name : Option Str} {number : Int32} (same : SameTarget schemaId schema target)
      (spelled : dialectFrom name "dialect" = (some (Rpc.dialectFrom number), []))
      (includeComments : Bool) (includePositions : Option Bool) :
      SameRequest readers (.generateDdl ⟨schemaId, schema, name, includeComments, includePositions⟩)
        (.generateDdl target number includeComments includePositions)
  | exportSchema {schemaId : Option Str} {schema : Option SchemaPayload} {target : Option V1.Target}
      {name : Option Str} {number : Int32} (same : SameTarget schemaId schema target)
      (spelled : exchangeFormatFrom name "format" = (some (Rpc.exchangeFormatFrom number), []))
      (includePositions : Option Bool) :
      SameRequest readers (.exportSchema ⟨schemaId, schema, name, includePositions⟩)
        (.exportSchema target number includePositions)
  | compare {expectedId actualId : Option Str} {expectedSchema actualSchema : Option SchemaPayload}
      {expected actual : Option V1.Target}
      (sameExpected : SameTarget expectedId expectedSchema expected)
      (sameActual : SameTarget actualId actualSchema actual) (includePositions : Option Bool) :
      SameRequest readers
        (.compare ⟨expectedId, expectedSchema, actualId, actualSchema, includePositions⟩)
        (.compareSchemas expected actual includePositions)
  | importSchema {content : Str} {name : Option Str} {number : Int32}
      (spelled : exchangeFormatFrom name "format" = (some (Rpc.importFormatFrom number), []))
      (includePositions : Option Bool) :
      SameRequest readers (.importSchema ⟨content, name, includePositions⟩)
        (.importSchema content number includePositions)

/-- The request leaves out the schema that it is about, or what it imports. -/
def RpcRequest.IsIncomplete : RpcRequest → Prop
  | importSchema content _ _ => Str.trim content = []
  | validateSchema target | generateDdl target _ _ _ | exportSchema target _ _ => target = none
  -- A drawn schema that is refused is refused before the other one is looked at.
  | compareSchemas expected actual _ =>
      expected = none ∨ (V1.targetFrom expected).isOk = true ∧ actual = none
  | _ => False

variable {readers : Readers}

theorem targetFrom_eq {schemaId : Option Str} {schema : Option SchemaPayload}
    {target : Option V1.Target} (same : SameTarget schemaId schema target) (given : target ≠ none) :
    targetFrom schemaId schema = V1.targetFrom target := by
  cases same with
  | stored id => rfl
  | missing => exact absurd rfl given
  | @draft proto payload named same =>
      rw [targetFrom, V1.targetFrom, targetOf, draftSchemaFrom, Rpc.draftSchemaFrom,
        draftFrom_eq same, named]

theorem fromQuery_eq_paged {query : Str} {page perPage : UInt32} (asked : readers.urlencoded query =
    some [("page".toList, Str.ofNat page.toNat), ("per_page".toList, Str.ofNat perPage.toNat)]) :
    Pagination.ListRequest.fromQuery readers.urlencoded query =
      .paged (.ofNat page.toNat) (.ofNat perPage.toNat) := by
  have first : Pagination.ListRequest.default.accept ("page", Str.ofNat page.toNat) =
      { Pagination.ListRequest.default with page := .ofNat page.toNat } := by
    unfold Pagination.ListRequest.accept
    dsimp only
    rw [if_pos rfl, Str.parseI64_ofNat, Option.getD_some]
  have second (request : Pagination.ListRequest) :
      request.accept ("per_page", Str.ofNat perPage.toNat) =
      { request with perPage := .ofNat perPage.toNat } := by
    unfold Pagination.ListRequest.accept
    dsimp only
    rw [if_neg (by decide), if_pos rfl, Str.parseI64_ofNat, Option.getD_some]
  rw [Pagination.ListRequest.fromQuery, asked, Option.getD_some, List.foldl_cons, List.foldl_cons,
    List.foldl_nil, first, second]
  rfl

theorem checkFilled_content {content : Str} (filled : Str.trim content ≠ []) :
    checkFilled [("content", content)] = .ok () := by
  have blank : (Str.trim content).isEmpty = false := by
    rwa [Bool.eq_false_iff, ne_eq, List.isEmpty_iff]
  simp only [checkFilled, List.flatMap_cons, List.flatMap_nil, blank, Bool.false_eq_true, if_false,
    List.append_nil]
  rfl

/-- The handlers of both ports have the service do the same, or refuse the request alike. -/
theorem task_eq {request : HttpRequest} {request' : RpcRequest}
    (same : SameRequest readers request request') (complete : ¬request'.IsIncomplete) :
    request.task readers = request'.task readers := by
  cases same with
  | index asked => rw [HttpRequest.task, RpcRequest.task, fromQuery_eq_paged asked]
  | create same | replace _ same => rw [HttpRequest.task, RpcRequest.task, draftFrom_eq same]
  | get _ | delete _ => rfl
  | validate same => rw [HttpRequest.task, RpcRequest.task, targetFrom_eq same complete]
  | generateDdl same spelled includeComments includePositions =>
      rw [HttpRequest.task, RpcRequest.task]
      simp only [spelled, targetFrom_eq same complete]
      rfl
  | exportSchema same spelled includePositions =>
      rw [HttpRequest.task, RpcRequest.task]
      simp only [spelled, targetFrom_eq same complete]
      rfl
  | compare sameExpected sameActual includePositions =>
      rcases not_or.mp complete with ⟨expectedNamed, actualNamed⟩
      rw [HttpRequest.task, RpcRequest.task, targetFrom_eq sameExpected expectedNamed]
      cases expected : V1.targetFrom _ with
      | error failure => rfl
      | ok target =>
          rw [expected] at actualNamed
          rw [targetFrom_eq sameActual fun missing => actualNamed ⟨rfl, missing⟩]
  | importSchema spelled includePositions =>
      rw [HttpRequest.task, RpcRequest.task]
      simp only [spelled, checkFilled_content complete]
      rfl

/-- The permission that a method asks for. -/
def RpcRequest.action : RpcRequest → Str
  | createSchema _ _ _ _ | importSchema _ _ _ => "Schemas.Create"
  | updateSchema _ _ _ _ _ => "Schemas.Update"
  | deleteSchema _ => "Schemas.Delete"
  | _ => "Schemas.View All"

theorem accessFor_path (request : RpcRequest) :
    accessFor request.path = .requires request.action := by
  cases request with
  | createSchema _ _ _ _ | importSchema _ _ _ | updateSchema _ _ _ _ _ | deleteSchema _
  | getSchema _ | listSchemas _ _
  | validateSchema _ | generateDdl _ _ _ _ | compareSchemas _ _ _ | exportSchema _ _ _ => rfl

section Callers

theorem ok_bind {ε α β : Type} (value : α) (next : α → Except ε β) :
    (Except.ok value >>= next) = next value := rfl

variable [Postgres] {engine : RbacEngine} {state : AuthState} {clock : Timestamp}
    {authorization : Option Str}
  {request : HttpRequest} {request' : RpcRequest}

theorem accept_of_identified {user : Identity}
    (identified : identify readers.tokenOf state clock authorization = .ok user) :
    request.accept readers state clock authorization = (request.task readers).map
      (Admitted.mk user.id) := by
  rw [HttpRequest.accept, authenticate, identified]
  cases request.task readers with
  | error failure => rfl
  | ok task => rfl

/-- Who is not identified is refused alike on both ports. -/
theorem accept_of_not_identified {failure : Error}
    (unidentified : identify readers.tokenOf state clock authorization = .error failure) :
    request'.accept readers engine state clock authorization =
      request.accept readers state clock authorization := by
  rw [RpcRequest.accept, authGuard, accessFor_path, HttpRequest.accept, authenticate, unidentified]
  rfl

theorem accept_of_permitted {user : Identity}
    (identified : identify readers.tokenOf state clock authorization = .ok user)
    (permitted : engine.can user.id request'.action = true) :
    request'.accept readers engine state clock authorization = (request'.task readers).map
      (Admitted.mk user.id) := by
  rw [RpcRequest.accept, authGuard, accessFor_path, identified]
  simp only [ok_bind, permitted, if_true]
  cases request'.task readers with
  | error failure => rfl
  | ok task => rfl

theorem accept_of_not_permitted {user : Identity}
    (identified : identify readers.tokenOf state clock authorization = .ok user)
    (denied : engine.can user.id request'.action ≠ true) :
    request'.accept readers engine state clock authorization = .error unauthorizedAction := by
  rw [RpcRequest.accept, authGuard, accessFor_path, identified]
  simp only [ok_bind, if_neg denied]
  rfl

end Callers

def Allows {α : Type} (result : Except Error α) : Prop := result ≠ .error unauthorizedAction

section Allowed

variable {α β : Type}

theorem allows_ok (value : α) : Allows (.ok value : Except Error α) := nofun

theorem allows_validation (message : Str) (violations : List (Str × List Str)) :
    Allows (.error (.validation message violations) : Except Error α) := nofun

theorem allows_app {code : Nat} (other : code ≠ 1002) (message : Str) :
    Allows (.error (.app code message) : Except Error α) := by
  intro same
  exact other (Error.app.inj (Except.error.inj same)).1

theorem allows_bind {first : Except Error α} {next : α → Except Error β} (allows : Allows first)
    (rest : ∀ value, Allows (next value)) : Allows (first >>= next) := by
  cases first with
  | error failure =>
      intro same
      cases same
      exact allows rfl
  | ok value => exact rest value

theorem allows_map {result : Except Error α} {f : α → β} (allows : Allows result) :
    Allows (result.map f) := by
  cases result with
  | error failure =>
      intro same
      cases same
      exact allows rfl
  | ok value => exact allows_ok _

theorem allows_toError {result : Except DomainError α} : Allows (result.mapError toError) := by
  cases result with
  | ok value => exact allows_ok _
  | error failure =>
      cases failure with
      | schemaNotFound | duplicateSchemaName _ | storage _ => exact allows_app (by decide) _

end Allowed

section Answers

variable [Crates] [Postgres] {tables : Tables} {caller : Uuid}

omit [Crates] [Postgres] in
theorem exists_pushViolation {error : Error} (field message : Str)
    (validates : ∃ text fields, error = .validation text fields) :
    ∃ text fields, error.pushViolation field message = .validation text fields := by
  rcases validates with ⟨text, fields, rfl⟩
  exact ⟨text, _, rfl⟩

omit [Crates] [Postgres] in
theorem allows_checkDraft (draft : SchemaDraft) : Allows (checkDraft draft) := by
  unfold checkDraft
  extract_lets first second third
  have validates : ∃ text fields, third = .validation text fields := by
    have before : ∃ text fields, second = .validation text fields := by
      unfold second
      split
      · exact exists_pushViolation _ _ ⟨_, _, rfl⟩
      · exact ⟨_, _, rfl⟩
    unfold third
    split
    · exact exists_pushViolation _ _ before
    · exact before
  rcases validates with ⟨text, fields, same⟩
  rw [same]
  split
  · exact allows_ok _
  · exact allows_validation _ _

omit [Crates] in
theorem allows_findById (id : Str) : Allows (findById tables caller id) := by
  refine allows_bind allows_toError fun found => ?_
  cases found with
  | none => exact allows_app (by decide) _
  | some schema => exact allows_ok _

omit [Crates] in
theorem allows_resolve (target : ValidationTarget) :
    Allows (Service.resolve tables caller target) := by
  cases target with
  | stored id => exact allows_bind (allows_findById id) fun _ => allows_ok _
  | draft schema => exact allows_ok _

omit [Crates] in
theorem allows_compare (expected actual : ValidationTarget) (includePositions : Bool) :
    Allows (Service.compare tables caller expected actual includePositions) :=
  allows_bind (allows_resolve _) fun _ => allows_bind (allows_resolve _) fun _ => allows_ok _

theorem allows_perform (call : Service.Call) : Allows (Service.perform tables call) := by
  rcases call with ⟨caller, operation, drawn, now⟩
  cases operation with
  | index request => exact allows_map (allows_bind allows_toError fun _ => allows_ok _)
  | create draft => exact allows_map (allows_bind (allows_checkDraft draft) fun _ => allows_toError)
  | findById id => exact allows_map (allows_findById id)
  | replace id draft =>
      exact allows_map (allows_bind (allows_checkDraft draft) fun _ => allows_toError)
  | delete id => exact allows_map allows_toError
  | validate target => exact allows_map (allows_bind (allows_resolve target) fun _ => allows_ok _)
  | generateDdl target dialect options =>
      refine allows_map (allows_bind ?_ fun _ => allows_bind (allows_resolve target) fun _ => ?_)
      · cases dialect with
        | postgres => exact allows_ok _
        | mySql => exact allows_app (by decide) _
      · simp only
        split
        · exact allows_ok _
        · exact allows_ok _
  | exportSchema target format includePositions =>
      refine allows_map (allows_bind (allows_resolve target) fun _ => ?_)
      cases format with
      | json => exact allows_ok _
      | sql => exact allows_app (by decide) _
  | compare expected actual includePositions =>
      exact allows_map (allows_compare expected actual includePositions)

omit [Postgres] in
theorem allows_importDraft (uuid : Element → Str) (content : Content) (includePositions : Bool) :
    Allows (importDraft uuid content includePositions) := by
  cases content with
  | json parsed =>
      cases parsed with
      | error message => exact allows_validation _ _
      | ok document =>
          refine allows_bind ?_ fun _ => allows_ok _
          intro same
          rcases Json.isHonest_read uuid document includePositions _ same with ⟨_, _, _, refusal, -⟩
          cases refusal
  | sql script =>
      change Allows (Sql.read uuid script includePositions)
      unfold Sql.read
      simp only
      split
      · exact allows_validation _ _
      · exact allows_ok _

theorem allows_task (moment : Moment) (task : Task) :
    Allows (task.perform tables caller moment).2 := by
  cases task with
  | call operation =>
      refine allows_map ?_
      change Allows
        (conclude tables (Service.perform tables ⟨caller, operation, moment.drawn, moment.now⟩)).2
      have allows : Allows (Service.perform tables ⟨caller, operation, moment.drawn, moment.now⟩) :=
        allows_perform _
      cases outcome : Service.perform tables ⟨caller, operation, moment.drawn, moment.now⟩ with
      | error failure =>
          intro same
          cases same
          exact allows outcome
      | ok result => exact allows_ok _
  | importFile content includePositions =>
      exact allows_bind (allows_importDraft _ _ _) fun _ => allows_ok _
  | compareSql id script includePositions =>
      exact allows_bind (allows_importDraft _ _ _) fun _ =>
        allows_bind (allows_compare _ _ _) fun _ => allows_ok _

omit [Crates] [Postgres] in
theorem allows_intoResult (violations : Violations) : Allows (intoResult violations) := by
  intro same
  rcases intoResult_eq_error same with ⟨_, _, validation⟩
  cases validation

omit [Crates] [Postgres] in
theorem allows_draftFrom (payload : SchemaPayload) : Allows (draftFrom payload) :=
  allows_bind (allows_intoResult _) fun _ => allows_ok _

omit [Crates] [Postgres] in
theorem allows_targetFrom (schemaId : Option Str) (schema : Option SchemaPayload) :
    Allows (targetFrom schemaId schema) := by
  cases schemaId with
  | none =>
      cases schema with
      | none => exact allows_validation _ _
      | some payload =>
          exact allows_bind (allows_bind (allows_draftFrom payload) fun _ => allows_ok _) fun _ =>
            allows_ok _
  | some id =>
      cases schema with
      | none => exact allows_ok _
      | some payload => exact allows_validation _ _

omit [Crates] [Postgres] in
theorem allows_httpTask (request : HttpRequest) : Allows (request.task readers) := by
  cases request with
  | index _ | get _ | delete _ => exact allows_ok _
  | create payload | replace _ payload =>
      exact allows_bind (allows_draftFrom payload) fun _ => allows_ok _
  | validate request => exact allows_bind (allows_targetFrom _ _) fun _ => allows_ok _
  | generateDdl request | exportSchema request =>
      exact allows_bind (allows_intoResult _) fun _ =>
        allows_bind (allows_targetFrom _ _) fun _ => allows_ok _
  | compare request =>
      exact allows_bind (allows_targetFrom _ _) fun _ =>
        allows_bind (allows_targetFrom _ _) fun _ => allows_ok _
  | compareSql request => exact allows_bind (allows_intoResult _) fun _ => allows_ok _
  | importSchema request =>
      exact allows_bind (allows_intoResult _) fun _ =>
        allows_bind (allows_intoResult _) fun _ => allows_ok _

end Answers

section Incomplete

/-- Without a target the ports miss different fields. -/
theorem exists_targetFrom_missing : ∃ failure failure', targetFrom none none = .error failure ∧
    V1.targetFrom none = .error failure' ∧ failure' ≠ failure := by
  refine ⟨_, _, rfl, rfl, ?_⟩
  intro same
  have fields := (Error.validation.inj same).2
  cases (List.cons.inj (Prod.mk.inj (List.cons.inj fields).1).1).1

/-- A request that leaves out a schema is told so on each port in the words of the port. -/
theorem tasks_of_isIncomplete {request : HttpRequest} {request' : RpcRequest}
    (same : SameRequest readers request request') (incomplete : request'.IsIncomplete) :
    (∃ failure failure', request.task readers = .error failure ∧ request'.task readers =
      .error failure' ∧
      failure' ≠ failure) ∨ ∃ violations content includePositions,
        request.task readers = .error (.validation "failed payload validation" violations) ∧
          request'.task readers = .ok (.importFile content includePositions) := by
  rcases exists_targetFrom_missing with ⟨failure, failure', http, rpc, differ⟩
  cases same with
  | index _ | create _ | get _ | replace _ _ | delete _ => exact absurd incomplete id
  | validate same =>
      cases incomplete
      cases same
      refine Or.inl ⟨failure, failure', ?_, ?_, differ⟩
      · rw [HttpRequest.task, http]
        rfl
      · rw [RpcRequest.task, rpc]
        rfl
  | generateDdl same spelled includeComments includePositions =>
      cases incomplete
      cases same
      refine Or.inl ⟨failure, failure', ?_, ?_, differ⟩
      · rw [HttpRequest.task]
        simp only [spelled, http]
        rfl
      · rw [RpcRequest.task, rpc]
        rfl
  | exportSchema same spelled includePositions =>
      cases incomplete
      cases same
      refine Or.inl ⟨failure, failure', ?_, ?_, differ⟩
      · rw [HttpRequest.task]
        simp only [spelled, http]
        rfl
      · rw [RpcRequest.task, rpc]
        rfl
  | @compare _ _ _ _ expected _ sameExpected sameActual includePositions =>
      refine Or.inl ⟨failure, failure', ?_⟩
      rcases incomplete with missing | ⟨drawn, missing⟩
      · cases missing
        cases sameExpected
        refine ⟨?_, ?_, differ⟩
        · rw [HttpRequest.task, http]
          rfl
        · rw [RpcRequest.task, rpc]
          rfl
      · cases missing
        cases sameActual
        cases expected with
        | none => cases drawn
        | some target =>
            rw [HttpRequest.task, RpcRequest.task,
              targetFrom_eq sameExpected (Option.some_ne_none target)]
            cases outcome : V1.targetFrom (some target) with
            | error refusal =>
                rw [outcome] at drawn
                cases drawn
            | ok found =>
                rw [http, rpc]
                exact ⟨rfl, rfl, differ⟩
  | @importSchema content name number spelled includePositions =>
      have blank : checkFilled [("content", content)] =
          .error (.validation "failed payload validation"
            [("content", ["field is required and cannot be empty"])]) := by
        have empty : (Str.trim content).isEmpty = true := List.isEmpty_iff.mpr incomplete
        simp only [checkFilled, List.flatMap_cons, List.flatMap_nil, empty, if_true,
          List.append_nil]
        rfl
      have refused : HttpRequest.task readers (.importSchema ⟨content, name, includePositions⟩) =
          .error (.validation "failed payload validation"
            [("content", ["field is required and cannot be empty"])]) := by
        rw [HttpRequest.task, blank]
        rfl
      exact Or.inr ⟨_, _, _, refused, rfl⟩

/-- A file is never refused in the words that the HTTP port has for a payload. -/
theorem importDraft_ne_failedPayload [Crates] (uuid : Element → Str) (content : Content)
    (includePositions : Bool) (violations : List (Str × List Str)) :
    importDraft uuid content includePositions ≠ .error
      (.validation "failed payload validation" violations) := by
  have other (path message : Str) :
      Json.refuse path message ≠ .validation "failed payload validation" violations := by
    intro same
    have texts := (Error.validation.inj same).1
    cases (List.cons.inj texts).1
  cases content with
  | json parsed =>
      cases parsed with
      | error message => exact fun same => other _ _ (Except.error.inj same)
      | ok document =>
          intro same
          cases outcome : Json.read uuid document includePositions with
          | ok draft =>
              rw [importDraft, outcome] at same
              cases same
          | error failure =>
              rw [importDraft, outcome] at same
              rcases Json.isHonest_read uuid document includePositions _ outcome with
                ⟨path, message, _, refusal, -⟩
              exact other path message (refusal.symm.trans (Except.error.inj same))
  | sql script =>
      change Sql.read uuid script includePositions ≠ _
      unfold Sql.read
      simp only
      split
      · intro same
        have texts := (Error.validation.inj (Except.error.inj same)).1
        cases (List.cons.inj texts).1
      · intro impossible
        cases impossible

end Incomplete

section Runs

variable [Crates] [Postgres] {lives : TokenLives}

/--
The callers of the gRPC port hold the permissions that it asks for, and their requests are complete.
-/
def Permitted (readers : Readers) (state : ServerState) : Event → Prop
  | .rpc authorization request moment =>
      ∀ user, identify readers.tokenOf state.auth moment.clock authorization = .ok user →
        moment.engine.can user.id request.action = true ∧ ¬request.IsIncomplete
  | _ => True

/-- The same event, with the requests of HTTP moved to gRPC. -/
inductive Moved (readers : Readers) : Event → Event → Prop where
  | request {request : HttpRequest} {request' : RpcRequest}
      (same : SameRequest readers request request') (authorization : Option Str) (moment : Moment) :
      Moved readers (.http authorization request moment) (.rpc authorization request' moment)
  | auth (call : AuthCall) (fails : SignUpStep → Bool) (moment : Moment) :
      Moved readers (.auth call fails moment) (.auth call fails moment)

theorem step_of_permitted {event event' : Event} (moved : Moved readers event event')
    {state : ServerState} (permitted : Permitted readers state event') :
    (server readers lives).step state event' = (server readers lives).step state event := by
  cases moved with
  | request same authorization moment =>
      refine congrArg (serve state moment) ?_
      cases identified : identify readers.tokenOf state.auth moment.clock authorization with
      | error failure => exact accept_of_not_identified identified
      | ok user =>
          rcases permitted user identified with ⟨held, complete⟩
          rw [accept_of_permitted identified held, accept_of_identified identified,
            task_eq same complete]
  | auth call fails moment => rfl

theorem answer_ne_of_isIncomplete {request : HttpRequest} {request' : RpcRequest}
    (same : SameRequest readers request request') (incomplete : request'.IsIncomplete)
    (state : ServerState) (moment : Moment) (caller : Uuid) :
    (serve state moment ((request'.task readers).map (Admitted.mk caller))).2 ≠
      (serve state moment ((request.task readers).map (Admitted.mk caller))).2 := by
  rcases tasks_of_isIncomplete same incomplete with
    ⟨failure, failure', http, rpc, differ⟩ | ⟨violations, content, includePositions, http, rpc⟩
  · rw [http, rpc]
    exact fun alike => differ (Except.error.inj alike)
  · rw [http, rpc]
    intro alike
    refine importDraft_ne_failedPayload moment.uuid content includePositions violations ?_
    change Except.map Response.schemas
      (importDraft moment.uuid content includePositions >>= fun result =>
      .ok (.imported (.new [] result.1) result.2)) =
        .error (.validation "failed payload validation" violations) at alike
    cases outcome : importDraft moment.uuid content includePositions with
    | error refusal =>
        rw [outcome] at alike
        cases alike
        rfl
    | ok result =>
        rw [outcome] at alike
        cases alike

/-- A caller without the permission is refused on one port and not on the other. -/
theorem answer_ne_of_not_permitted {event event' : Event} (moved : Moved readers event event')
    {state : ServerState} (denied : ¬ Permitted readers state event') :
    ((server readers lives).step state event').2 ≠ ((server readers lives).step state event).2 := by
  cases moved with
  | auth call fails moment => exact absurd trivial denied
  | @request request request' same authorization moment =>
      rcases not_forall.mp denied with ⟨user, left⟩
      rcases Classical.not_imp.mp left with ⟨identified, missing⟩
      change (serve state moment
        (request'.accept readers moment.engine state.auth moment.clock authorization)).2 ≠
        (serve state moment (request.accept readers state.auth moment.clock authorization)).2
      rw [accept_of_identified identified]
      by_cases held : moment.engine.can user.id request'.action = true
      · rw [accept_of_permitted identified held]
        exact answer_ne_of_isIncomplete same (not_not.mp fun complete =>
          missing ⟨held, complete⟩) _ _ _
      · rw [accept_of_not_permitted identified held]
        have answered :
            Allows (serve state moment ((request.task readers).map (Admitted.mk user.id))).2 := by
          cases outcome : request.task readers with
          | error failure =>
              intro same
              cases same
              exact allows_httpTask request outcome
          | ok task => exact allows_map (allows_task moment task)
        exact fun alike => answered alike.symm

/--
Whatever runs on the HTTP port and is moved to the gRPC port is answered the same, request for
request, exactly if the identified callers hold the permissions and name what their requests are
about; then it leaves the same state.
-/
theorem answers_moved_iff (readers : Readers) (lives : TokenLives) (state : ServerState)
    (events events' : List Event) (moved : List.Forall₂ (Moved readers) events events') :
    ((server readers lives).answers state events' = (server readers lives).answers state events ↔
      (server readers lives).Along (Permitted readers) state events') ∧
    ((server readers lives).Along (Permitted readers) state events' →
      (server readers lives).final state events' = (server readers lives).final state events) := by
  induction moved generalizing state with
  | nil => exact ⟨iff_of_true rfl trivial, fun _ => rfl⟩
  | @cons event event' rest rest' here later ih =>
      by_cases permitted : Permitted readers state event'
      · have same : (server readers lives).step state event' =
            (server readers lives).step state event :=
          step_of_permitted here permitted
        rw [Machine.answers, Machine.answers, Machine.Along, Machine.final, Machine.final, same,
          List.cons_eq_cons]
        rcases ih ((server readers lives).step state event).1 with ⟨answers, final⟩
        refine ⟨?_, fun along => final along.2⟩
        rw [answers]
        exact and_congr_left' (iff_of_true rfl permitted)
      · refine ⟨iff_of_false ?_ fun along => permitted along.1, fun along =>
          absurd along.1 permitted⟩
        rw [Machine.answers, Machine.answers, List.cons_eq_cons]
        exact fun both => answer_ne_of_not_permitted here permitted both.1

end Runs

/-- The intrusion on the other port. -/
def rpcIntrusion : List Event := [
  .auth ⟨.register ⟨"Bo Ray", "bo@example.com", "correct horse"⟩ 9 [] (.ok ()), 10⟩
    (fun _ => false) quietMoment,
  .rpc (some "Bearer forged".toList) (.deleteSchema (hyphenated firstSchema)) quietMoment]

theorem answers_moved_iff_intrusion : letI := asciiCrates
    letI := asciiDatabase
    (server forgery hourAndDay).answers annAway rpcIntrusion =
    (server forgery hourAndDay).answers annAway intrusion ↔
      (server forgery hourAndDay).Along (Permitted forgery) annAway rpcIntrusion := by
  let _ := asciiCrates
  let _ := asciiDatabase
  exact (answers_moved_iff forgery hourAndDay annAway intrusion rpcIntrusion
    (.cons (.auth _ _ _) (.cons (.request (.delete _) _ _) .nil))).1

end Server

end SchemaForge
