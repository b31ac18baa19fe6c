import SchemaForge.Iam.SignUp
import SchemaForge.Server.Requests
import SchemaForge.Service.Owners
import SchemaForge.Service.Sample

/-!
# The server

Both ports over one state, as a machine: accounts and tokens on one side, schemas on
the other. Requests for schemas pass the guard of their port and reach the schema
service, and calls of the authentication service reach it only to store the sample
of a new account.
-/

namespace SchemaForge.Server

open Repository Service Adapter Exchange Iam Rbac AuthService

inductive Reply where
  | answer (answer : Answer)
  | imported (draft : Schema) (report : Report)
  | compared (comparison : Comparison) (report : Report)

inductive Response where
  | schemas (reply : Reply)
  | auth (answer : AuthAnswer)

/-- What the handling of an event finds outside the state: what the permission tables hold, the
clocks, and what is drawn. -/
structure Moment where
  engine : RbacEngine
  clock : Timestamp
  now : Time
  drawn : Uuid
  uuid : Element → Str

/-- A request on one of the ports, with the header it carries, or a call of the authentication
service, in which any step may fail. -/
inductive Event where
  | http (authorization : Option Str) (request : HttpRequest) (moment : Moment)
  | rpc (authorization : Option Str) (request : RpcRequest) (moment : Moment)
  | auth (call : AuthCall) (fails : SignUpStep → Bool) (moment : Moment)

/-- The accounts and the tokens, and the tables of the schemas. -/
abbrev ServerState := SignUpState Tables

section Server

variable [Crates] [Postgres]

/-- The rest of a handler, behind what it has read out of its request. -/
def Task.perform (tables : Tables) (caller : Uuid) (moment : Moment) :
    Task → Tables × Except Error Reply
  | .call operation =>
      let (tables, answer) := service.step tables ⟨caller, operation, moment.drawn, moment.now⟩
      (tables, answer.map .answer)
  | .importFile content includePositions => (tables, do
      let (draft, report) ← importDraft moment.uuid content includePositions
      return .imported (.new [] draft) report)
  | .compareSql id script includePositions => (tables, do
      let (draft, report) ← importDraft moment.uuid (.sql script) includePositions
      let comparison ← Service.compare tables caller (.stored id)
        (.draft (.new [] draft)) includePositions
      return .compared comparison report)

/-- `SchemaService::create`, on the sample. -/
def createSample (moment : Moment) (tables : Tables) (user : Uuid) : Tables × Except Error Unit :=
  let (tables, answer) :=
  service.step tables ⟨user, .create Sample.sampleSchema, moment.drawn, moment.now⟩
  (tables, answer.map fun _ => ())

def outside (fails : SignUpStep → Bool) (moment : Moment) (drawn : Uuid) (salt : Str) :
    Outside Tables where
  fails := fails
  drawn := drawn
  salt := salt
  createSample := createSample moment

/-- A call of the authentication service. What it is told of the sample is what the schema service
answers. -/
def authenticated (lives : TokenLives) (state : ServerState) (call : AuthCall)
    (fails : SignUpStep → Bool) (moment : Moment) : ServerState × Except Error AuthAnswer :=
  match call.operation with
  | .register registration drawn salt _ =>
      let (state, tokens) :=
        SignUp.register lives (outside fails moment drawn salt) state call.now registration
      (state, tokens.map .tokens)
  | .loginWithGoogle account drawn _ =>
      let (state, tokens) :=
        SignUp.loginWithGoogle lives (outside fails moment drawn []) state call.now account
      (state, tokens.map .tokens)
  | _ =>
      let (auth, answer) := (Iam.authService lives).step state.auth call
      ({ state with auth }, answer)

/-- A refused request never reaches a handler. -/
def serve (state : ServerState) (moment : Moment) :
    Except Error Admitted → ServerState × Except Error Response
  | .error error => (state, .error error)
  | .ok admitted =>
      let (tables, reply) := admitted.task.perform state.schemas admitted.caller moment
      ({ state with schemas := tables }, reply.map .schemas)

def server (readers : Readers) (lives : TokenLives) :
    Machine ServerState Event (Except Error Response) where
  step state event :=
    match event with
    | .http authorization request moment =>
        serve state moment (request.accept readers state.auth moment.clock authorization)
    | .rpc authorization request moment =>
        serve state moment
          (request.accept readers moment.engine state.auth moment.clock authorization)
    | .auth call fails moment =>
        let (state, answer) := authenticated lives state call fails moment
        (state, answer.map .auth)

/--
The event signs somebody in as the owner, or lets in somebody who presents what the owner is
admitted by.
-/
def SignsInAs (owner : Uuid) (state : ServerState) : Event → Prop
  | .auth call _ _ => Presents state.auth owner call
  | _ => False

/-- The event is a request that is let through as the owner's. -/
def ActsAs (readers : Readers) (owner : Uuid) (state : ServerState) : Event → Prop
  | .http authorization request moment =>
      ∃ admitted, request.accept readers state.auth moment.clock authorization = .ok admitted ∧
        admitted.caller = owner
  | .rpc authorization request moment =>
      ∃ admitted, request.accept readers moment.engine state.auth moment.clock authorization =
        .ok admitted ∧
        admitted.caller = owner
  | .auth _ _ _ => False

variable {readers : Readers} {lives : TokenLives} {owner : Uuid}

omit [Crates] in
theorem HttpRequest.carries_of_accept {request : HttpRequest} {state : AuthState}
    {clock : Timestamp} {authorization : Option Str} {admitted : Admitted}
    (ok : request.accept readers state clock authorization = .ok admitted) :
    Carries readers.tokenOf state clock authorization admitted.caller := by
  rcases exists_of_bind_eq_ok ok with ⟨user, identified, ok⟩
  rcases exists_of_bind_eq_ok ok with ⟨task, -, ok⟩
  cases ok
  exact Carries.of_identify identified

omit [Crates] in
theorem identify_of_authGuard {engine : RbacEngine} {state : AuthState}
    {clock : Timestamp} {path : Str} {authorization : Option Str} {user : Identity}
    (ok : authGuard readers.tokenOf engine state clock path authorization = .ok (some user)) :
    identify readers.tokenOf state clock authorization = .ok user := by
  unfold authGuard at ok
  split at ok
  · cases ok
  · cases ok
  · rcases exists_of_bind_eq_ok ok with ⟨_, identified, same⟩
    cases same
    exact identified
  · rcases exists_of_bind_eq_ok ok with ⟨_, identified, same⟩
    split at same
    · cases same
      exact identified
    · cases same

omit [Crates] in
theorem RpcRequest.carries_of_accept {request : RpcRequest} {engine : RbacEngine}
    {state : AuthState} {clock : Timestamp} {authorization : Option Str} {admitted : Admitted}
    (ok : request.accept readers engine state clock authorization = .ok admitted) :
    Carries readers.tokenOf state clock authorization admitted.caller := by
  rcases exists_of_bind_eq_ok ok with ⟨user, guarded, ok⟩
  rcases exists_of_bind_eq_ok ok with ⟨caller, called, ok⟩
  rcases exists_of_bind_eq_ok ok with ⟨task, -, ok⟩
  cases ok
  cases user with
  | none => cases called
  | some user =>
      cases called
      exact Carries.of_identify (identify_of_authGuard guarded)

/-- What is the owner's is left alone: the account, the rows, and the tokens that name the owner. -/
structure Spares (owner : Uuid) (before after : ServerState) : Prop where
  account : (∃ row ∈ before.auth.accounts.users, row.id = owner) →
    ∃ row ∈ after.auth.accounts.users, row.id = owner
  issued : ∀ token ∈ after.auth.issued, userIdOf token.claims = some owner →
    token ∈ before.auth.issued
  rows : Tables.SameFor owner after.schemas before.schemas

namespace Spares

omit [Crates] in
theorem refl (state : ServerState) : Spares owner state state :=
  ⟨id, fun _ mem _ => mem, ⟨rfl, rfl⟩⟩

omit [Crates] in
theorem trans {first second third : ServerState} (left : Spares owner first second)
    (right : Spares owner second third) : Spares owner first third :=
  ⟨right.account ∘ left.account, fun token mem named =>
    left.issued token (right.issued token mem named) named,
    ⟨right.rows.1.trans left.rows.1, right.rows.2.trans left.rows.2⟩⟩

omit [Crates] in
theorem of_schemas {state : ServerState} {tables : Tables}
    (rows : Tables.SameFor owner tables state.schemas) :
    Spares owner state { state with schemas := tables } :=
  ⟨id, fun _ mem _ => mem, rows⟩

omit [Crates] in
theorem of_accounts {state : ServerState} {accounts : Accounts}
    (account : (∃ row ∈ state.auth.accounts.users, row.id = owner) → ∃ row ∈ accounts.users,
      row.id = owner) :
    Spares owner state { state with auth := { state.auth with accounts } } :=
  ⟨account, fun _ mem _ => mem, ⟨rfl, rfl⟩⟩

end Spares

omit [Crates] [Postgres] in
theorem account_cons {accounts accounts' : Accounts} {row : UserRow}
    (users : accounts'.users = row :: accounts.users)
    (account : ∃ row ∈ accounts.users, row.id = owner) :
    ∃ row ∈ accounts'.users, row.id = owner := by
  rcases account with ⟨row', mem, same⟩
  refine ⟨row', ?_, same⟩
  rw [users]
  exact List.mem_cons_of_mem _ mem

omit [Crates] [Postgres] in
theorem account_setUser {accounts accounts' : Accounts} {id : Uuid} {columns : Columns}
    (users : accounts'.users = accounts.setUser id columns)
    (account : ∃ row ∈ accounts.users, row.id = owner) :
    ∃ row ∈ accounts'.users, row.id = owner := by
  rcases account with ⟨row, mem, rfl⟩
  refine ⟨if row.id = id then columns.set row else row, ?_, ?_⟩
  · rw [users]
    exact List.mem_map_of_mem mem
  · split
    · exact Columns.set_id columns row
    · rfl

theorem account_step {state : AuthState} {call : AuthCall}
    (account : ∃ row ∈ state.accounts.users, row.id = owner) :
    ∃ row ∈ ((Iam.authService lives).step state call).1.accounts.users, row.id = owner := by
  have leaves := leavesRows_step lives state call
  rcases call with ⟨operation, now⟩
  generalize rows : ((Iam.authService lives).step state ⟨operation, now⟩).1.accounts.users =
    users at leaves
  rw [← rows]
  cases leaves with
  | unchanged _ => rwa [rows]
  | registered _ _ _ _ _ | joined _ _ _ _ _ | created _ => exact account_cons rows account
  | profiled _ _ _ _ | reset _ _ | deleted _ | updated _ _ _ => exact account_setUser rows account

theorem sameFor_createSample {moment : Moment} {tables : Tables} {user : Uuid}
    (other : user ≠ owner) :
    Tables.SameFor owner (createSample moment tables user).1 tables :=
  (written_step tables _).sameFor other

theorem sameFor_perform {tables : Tables} {caller : Uuid} {moment : Moment} {task : Task}
    (other : caller ≠ owner) :
    Tables.SameFor owner (task.perform tables caller moment).1 tables := by
  cases task with
  | call operation => exact (written_step tables _).sameFor other
  | importFile content includePositions => exact ⟨rfl, rfl⟩
  | compareSql id script includePositions => exact ⟨rfl, rfl⟩

theorem spares_serve {state : ServerState} {moment : Moment} {admission : Except Error Admitted}
    (others : ∀ admitted, admission = .ok admitted → admitted.caller ≠ owner) :
    Spares owner state (serve state moment admission).1 := by
  cases admission with
  | error failure => exact .refl state
  | ok admitted => exact .of_schemas (sameFor_perform (others admitted rfl))

variable [UuidText] {out : Outside Tables} {state : ServerState} {now : Timestamp}

omit [Crates] in
theorem spares_generateTokens {user : Identity} (other : user.id ≠ owner) :
    Spares owner state (SignUp.generateTokens lives out state now user).1 := by
  unfold SignUp.generateTokens orUnknown
  split
  · exact .refl state
  · refine ⟨id, fun token mem named => ?_, ⟨rfl, rfl⟩⟩
    rcases List.mem_cons.mp mem with rfl | mem
    · exact absurd (Option.some.inj ((userIdOf_accessClaims user).symm.trans named)) other
    · rcases List.mem_cons.mp mem with rfl | mem
      · exact absurd (Option.some.inj ((userIdOf_refreshClaims user).symm.trans named)) other
      · exact mem

omit [Crates] in
theorem spares_signIn {result : ServerState × Except Error Identity}
    (spares : Spares owner state result.1)
    (others : ∀ user, result.2 = .ok user → user.id ≠ owner) :
    Spares owner state (SignUp.signIn lives out now result).1 := by
  rcases result with ⟨state', failure | user⟩
  · exact spares
  · exact spares.trans (spares_generateTokens (others user rfl))

/-- An account that is stored and given its sample is another one than the owner's. -/
theorem spares_seeded {moment : Moment} {fails : SignUpStep → Bool} {drawn : Uuid} {salt : Str}
    {accounts : Accounts} {row : UserRow}
    (account : ∃ row ∈ state.auth.accounts.users, row.id = owner)
    (named : row.id = drawn) (users : accounts.users = row :: state.auth.accounts.users) :
    Spares owner state (SignUp.signIn lives (outside fails moment drawn salt) now
      (SignUp.seedAndReload (outside fails moment drawn salt)
        { state with auth := { state.auth with accounts } })).1 := by
  have other : drawn ≠ owner := by
    rintro rfl
    rcases account with ⟨row', mem, same⟩
    have distinct := accounts.userKey
    rw [users, List.map_cons, List.nodup_cons, named] at distinct
    exact distinct.1 (List.mem_map.mpr ⟨row', mem, same⟩)
  have stored : Spares owner state { state with auth := { state.auth with accounts } } :=
    .of_accounts (account_cons users)
  have sample : Tables.SameFor owner (createSample moment state.schemas drawn).1 state.schemas :=
    sameFor_createSample other
  have seeded := stored.trans (.of_schemas sample)
  apply spares_signIn
  · unfold SignUp.seedAndReload orUnknown
    simp only
    split
    · exact seeded
    · split
      · exact seeded
      · exact seeded
  · intro found ok
    unfold SignUp.seedAndReload orUnknown at ok
    simp only at ok
    split at ok
    · cases ok
    · split at ok
      · cases ok
      · rcases requireUserById_eq_ok.mp ok with ⟨row, -, same, rfl⟩
        exact fun mine => other (same.symm.trans mine)

theorem spares_register {moment : Moment} {fails : SignUpStep → Bool} {drawn : Uuid} {salt : Str}
    {registration : Registration} (account : ∃ row ∈ state.auth.accounts.users, row.id = owner) :
    Spares owner state
      (SignUp.register lives (outside fails moment drawn salt) state now registration).1 := by
  by_cases stores :
    SignUp.StoresAccount (outside fails moment drawn salt) state.auth.accounts registration
  · rcases SignUp.register_of_stored stores with ⟨accounts', row, -, named, users, signed⟩
    rw [signed]
    exact spares_seeded account named users
  · rw [SignUp.register_of_not_stored stores]
    exact .refl state

omit [Crates] [UuidText] in
/-- A profile that is followed fits the row, and every account keeps its row. -/
theorem followGoogleProfile_spares {row : UserRow} {account : GoogleAccount} {state' : ServerState}
    {result : Except Error Unit}
    (followed : SignUp.followGoogleProfile out state (state.auth.accounts.enrich row) account =
      (state', result)) :
    Spares owner state state' ∧
      (result = .ok () → ProfileFits state.auth.accounts row account) := by
  unfold SignUp.followGoogleProfile at followed
  simp only at followed
  split at followed
  · rename_i same
    cases followed
    exact ⟨.refl state, fun _ => .inl same⟩
  · unfold orUnknown at followed
    split at followed
    · cases followed
      exact ⟨.refl state, nofun⟩
    · split at followed
      · cases followed
        exact ⟨.refl state, nofun⟩
      · rename_i written
        cases followed
        rcases Accounts.updateUser_eq_ok written with ⟨accepted, users, -⟩
        exact ⟨.of_accounts (account_setUser users), fun _ => .inr accepted⟩

omit [Crates] [Postgres] [UuidText] in
theorem createGoogleUser_of_refused {email : Str} {account : GoogleAccount}
    (missing : state.auth.accounts.identityByEmail email = none)
    (refused : out.fails .insert = true ∨ ¬ AcceptsUser state.auth.accounts
      (googleUser email account) out.drawn) :
    ∃ failure, SignUp.createGoogleUser out state email account = (state, .error failure) := by
  unfold SignUp.createGoogleUser orUnknown
  split
  · exact ⟨_, rfl⟩
  · rename_i insert
    split
    · rename_i created
      exact absurd (accepts_of_createUser created) (refused.resolve_left insert)
    · rw [missing]
      split
      · exact ⟨_, rfl⟩
      · exact ⟨_, rfl⟩
    · exact ⟨_, rfl⟩

theorem spares_loginWithGoogle {moment : Moment} {fails : SignUpStep → Bool} {drawn : Uuid}
    {seeded : Except Error Unit} {account : Except Error GoogleAccount}
    (known : ∃ row ∈ state.auth.accounts.users, row.id = owner)
    (stranger : ¬ Presents state.auth owner ⟨.loginWithGoogle account drawn seeded, now⟩) :
    Spares owner state
      (SignUp.loginWithGoogle lives (outside fails moment drawn []) state now account).1 := by
  cases account with
  | error failure => exact .refl state
  | ok account =>
      by_cases stores :
        SignUp.StoresGoogleAccount (outside fails moment drawn []) state.auth.accounts account
      · rcases SignUp.loginWithGoogle_of_stored stores with
          ⟨accounts', row, -, named, users, signed⟩
        rw [signed]
        exact spares_seeded known named users
      · unfold SignUp.loginWithGoogle orUnknown
        simp only
        split
        · exact .refl state
        · rename_i verified
          rw [Bool.not_eq_true, Bool.not_eq_false'] at verified
          split
          · exact .refl state
          · rename_i lookup
            rw [Bool.not_eq_true] at lookup
            cases found : state.auth.accounts.identityByEmail (cleanEmail account.email) with
            | none =>
                have refused : (outside fails moment drawn []).fails .insert = true ∨
                    ¬ AcceptsUser state.auth.accounts
                      (googleUser (cleanEmail account.email) account) drawn := by
                  by_contra both
                  rw [not_or, not_not, Bool.not_eq_true] at both
                  exact stores ⟨verified, lookup, both.1, both.2⟩
                rcases createGoogleUser_of_refused found refused with ⟨failure, refusal⟩
                simp only [refusal, SignUp.signIn]
                exact .refl state
            | some user =>
                rcases Option.map_eq_some_iff.mp found with ⟨row, rowFound, rfl⟩
                rcases Accounts.findUserByEmail_eq_some.mp rowFound with ⟨mem, same⟩
                rcases outcome : SignUp.followGoogleProfile (outside fails moment drawn []) state
                  (state.auth.accounts.enrich row) account with ⟨state', failure | _⟩
                · simp only [outcome]
                  exact (followGoogleProfile_spares outcome).1
                · simp only [outcome]
                  have spares : Spares owner state state' := (followGoogleProfile_spares outcome).1
                  have fits := (@followGoogleProfile_spares _ owner _ _ _ _ _ _ outcome).2
                  refine spares.trans (spares_generateTokens fun mine => stranger ?_)
                  exact ⟨row, mem, mine, verified, same, fits rfl⟩

/-- A call that does not present what the owner is admitted by leaves the owner alone. -/
theorem spares_authenticated {call : AuthCall} {fails : SignUpStep → Bool} {moment : Moment}
    (known : ∃ row ∈ state.auth.accounts.users, row.id = owner)
    (stranger : ¬ Presents state.auth owner call) :
    Spares owner state (authenticated lives state call fails moment).1 := by
  have served (answered : AuthState × Except Error AuthAnswer)
      (same : (Iam.authService lives).step state.auth call = answered) :
      Spares owner state { state with auth := answered.1 } := by
    rw [← same]
    refine ⟨account_step, fun token issued named => ?_, ⟨rfl, rfl⟩⟩
    exact (admits_of_issued lives state.auth call issued named).resolve_right
      fun admitted => stranger ((admits_step_iff known).mp admitted)
  rcases call with ⟨operation, now⟩
  cases operation with
  | register registration drawn salt seeded => exact spares_register known
  | loginWithGoogle account drawn seeded => exact spares_loginWithGoogle known stranger
  | generateToken _ _ | refreshToken _ | getIdentity _ | passwordRecovery _ _ _
  | resetPassword _ _ _ | createUser _ _ _
  | findUserById _ | partialUpdate _ _ _ | deleteUser _ => exact served _ rfl

/-- The owner has an account, and no token that names the owner is about. -/
structure SignedOut (owner : Uuid) (state : ServerState) : Prop where
  known : ∃ row ∈ state.auth.accounts.users, row.id = owner
  unnamed : ∀ token ∈ state.auth.issued, userIdOf token.claims ≠ some owner

omit [Crates] [UuidText] in
theorem SignedOut.caller_ne {clock : Timestamp} {authorization : Option Str} {caller : Uuid}
    (signedOut : SignedOut owner state)
    (carries : Carries readers.tokenOf state.auth clock authorization caller) : caller ≠ owner := by
  rcases carries with ⟨text, -, issued, -, named⟩
  rintro rfl
  exact signedOut.unnamed _ issued named

omit [Crates] [UuidText] in
theorem SignedOut.of_spares {state' : ServerState} (signedOut : SignedOut owner state)
    (spares : Spares owner state state') : SignedOut owner state' :=
  ⟨spares.account signedOut.known, fun token issued named =>
    signedOut.unnamed token (spares.issued token issued named) named⟩

omit [Crates] [UuidText] in
theorem SignedOut.not_actsAs {event : Event} (signedOut : SignedOut owner state) :
    ¬ ActsAs readers owner state event := by
  cases event with
  | http authorization request moment =>
      rintro ⟨admitted, ok, mine⟩
      exact signedOut.caller_ne (HttpRequest.carries_of_accept ok) mine
  | rpc authorization request moment =>
      rintro ⟨admitted, ok, mine⟩
      exact signedOut.caller_ne (RpcRequest.carries_of_accept ok) mine
  | auth call fails moment => exact id

theorem spares_step {event : Event} (signedOut : SignedOut owner state)
    (stranger : ¬ SignsInAs owner state event) :
    Spares owner state ((server readers lives).step state event).1 := by
  cases event with
  | http authorization request moment =>
      exact spares_serve fun admitted ok => signedOut.caller_ne (HttpRequest.carries_of_accept ok)
  | rpc authorization request moment =>
      exact spares_serve fun admitted ok => signedOut.caller_ne (RpcRequest.carries_of_accept ok)
  | auth call fails moment => exact spares_authenticated signedOut.known stranger

/-- While nobody signs in as the owner, whatever headers are sent and whatever else happens, no
request is let through as the owner's, and what the owner has stored stays as it is. -/
theorem untouched_run (readers : Readers) (lives : TokenLives) (owner : Uuid) (state : ServerState)
    (events : List Event) (signedOut : SignedOut owner state)
    (strangers : (server readers lives).Along (fun state event => ¬ SignsInAs owner state event)
      state events) :
    (server readers lives).Along (fun state event => ¬ ActsAs readers owner state event)
      state events ∧
      Tables.SameFor owner ((server readers lives).final state events).schemas state.schemas := by
  have keeps (before : ServerState) (event : Event) (spared : SignedOut owner before ∧
      Spares owner state before)
      (stranger : ¬ SignsInAs owner before event) :
      SignedOut owner ((server readers lives).step before event).1 ∧
        Spares owner state ((server readers lives).step before event).1 := by
    have spares : Spares owner before ((server readers lives).step before event).1 :=
      spares_step spared.1 stranger
    exact ⟨spared.1.of_spares spares, spared.2.trans spares⟩
  have start : SignedOut owner state ∧ Spares owner state state := ⟨signedOut, .refl state⟩
  constructor
  · exact strangers.strengthen _ keeps (fun _ _ spared _ => spared.1.not_actsAs) start
  · exact (strangers.final _ keeps start).2.rows

end Server

/-- Every text is the access token of the account of `staffOnly`, and no text is JSON. -/
def forgery : Readers where
  tokenOf _ := ⟨@accessClaims asciiDatabase (staffOnly.enrich staffMember), 3600⟩
  parseJson _ := .error []
  urlencoded _ := none

def quietMoment : Moment where
  engine := ⟨"Admin", ⟨fun _ => none, fun _ => none, fun _ _ _ => none⟩⟩
  clock := 20
  now := 8
  drawn := 1
  uuid _ := []

/-- The account has a schema, and has not signed in. -/
def annAway : ServerState where
  auth := ⟨staffOnly, []⟩
  schemas := {
    schemas := [newRow (named "Orders") firstSchema 5]
    links := [⟨7, firstSchema, 5⟩]
    schemaKey := oneSchema.schemaKey
    linkKey := List.nodup_singleton _
    references := by simp [newRow] }

/--
Somebody signs up, and somebody deletes the schema of another account with a token that was not
issued.
-/
def intrusion : List Event := [
  .auth ⟨.register ⟨"Bo Ray", "bo@example.com", "correct horse"⟩ 9 [] (.ok ()), 10⟩
    (fun _ => false) quietMoment,
  .http (some "Bearer forged".toList) (.delete (hyphenated firstSchema)) quietMoment]

theorem untouched_run_intrusion : letI := asciiCrates
    letI := asciiDatabase
    Tables.SameFor 7 ((server forgery hourAndDay).final annAway intrusion).schemas
      annAway.schemas := by
  let _ := asciiCrates
  let _ := asciiDatabase
  have uuidText := asciiUuidText
  refine (untouched_run forgery hourAndDay 7 annAway intrusion ?_ ⟨?_, id, trivial⟩).2
  · exact ⟨⟨staffMember, List.mem_singleton_self _, rfl⟩, nofun⟩
  · rintro ⟨_, _, _, impossible⟩
    exact impossible

end SchemaForge.Server
