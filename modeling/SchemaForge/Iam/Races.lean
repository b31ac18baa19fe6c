import SchemaForge.Foundation.Interleaving
import SchemaForge.Iam.Passwords
import SchemaForge.Iam.SignUp

/-!
# Google sign ins that race

Any number of sign ins with one address overlap, from accounts that do not have it.
One of them inserts the account and stores its sample; the others come to the same
row, be it by their first lookup or after their insert has lost.
-/

namespace SchemaForge.Iam

open Repository AuthService

/-- A sign in, with what Google answers to its code, the id that its insert draws, and what the
schema service answers to its sample. -/
structure GoogleCall where
  account : Except Error GoogleAccount
  drawn : Uuid
  seeded : Except Error Unit

/-- Where a sign in stands. -/
inductive GooglePlace where
  | called
  /-- The address has no account. -/
  | missing
  /-- The account is committed, under the id. -/
  | inserted (id : Uuid)
  /-- The sample is stored. -/
  | sampled (id : Uuid)
  /-- The insert has lost to another one. -/
  | lost
  | found (user : Identity)
  | finished (answer : Except Error AuthenticationTokens)

/-- The accounts and tokens, with the owners of the sample schemas that were stored. -/
abbrev RaceState := SignUpState (List Uuid)

namespace SignUpState

variable {Schemas : Type}

def withAccounts (state : SignUpState Schemas) (accounts : Accounts) : SignUpState Schemas :=
  { state with auth := { state.auth with accounts } }

end SignUpState

section

variable [Crates] [Postgres]

/-- The last step of a sign in, which signs the tokens. -/
inductive GoogleStatement (lives : TokenLives) :
    GoogleCall → GooglePlace → RaceState → GooglePlace → RaceState → Prop
  | refuse {error : Error} {drawn : Uuid} {seeded : Except Error Unit} {state : RaceState} :
      GoogleStatement lives ⟨.error error, drawn, seeded⟩ .called state
        (.finished (.error error)) state
  | unverified {account : GoogleAccount} {drawn : Uuid} {seeded : Except Error Unit}
      {state : RaceState} (unverified : account.emailVerified = false) :
      GoogleStatement lives ⟨.ok account, drawn, seeded⟩ .called state
        (.finished (.error (.app 1002 "the google account has no verified email address"))) state
  | find {account : GoogleAccount} {drawn : Uuid} {seeded : Except Error Unit} {state : RaceState}
      {user : Identity} (verified : account.emailVerified = true)
      (found : state.auth.accounts.identityByEmail (cleanEmail account.email) = some user) :
      GoogleStatement lives ⟨.ok account, drawn, seeded⟩ .called state (.found user) state
  | miss {account : GoogleAccount} {drawn : Uuid} {seeded : Except Error Unit} {state : RaceState}
      (verified : account.emailVerified = true)
      (missing : state.auth.accounts.identityByEmail (cleanEmail account.email) = none) :
      GoogleStatement lives ⟨.ok account, drawn, seeded⟩ .called state .missing state
  | insert {account : GoogleAccount} {drawn : Uuid} {seeded : Except Error Unit} {state : RaceState}
      {accounts : Accounts}
      (ok : state.auth.accounts.createUser (googleUser (cleanEmail account.email) account) drawn =
        .ok accounts) :
      GoogleStatement lives ⟨.ok account, drawn, seeded⟩ .missing state (.inserted drawn)
        (state.withAccounts accounts)
  | lose {account : GoogleAccount} {drawn : Uuid} {seeded : Except Error Unit} {state : RaceState}
      (lost : state.auth.accounts.createUser (googleUser (cleanEmail account.email) account) drawn =
        .error .unique) :
      GoogleStatement lives ⟨.ok account, drawn, seeded⟩ .missing state .lost state
  | fail {account : GoogleAccount} {drawn : Uuid} {seeded : Except Error Unit} {state : RaceState}
      {refusal : Refusal} (other : refusal ≠ .unique)
      (failed : state.auth.accounts.createUser
        (googleUser (cleanEmail account.email) account) drawn =
        .error refusal) :
      GoogleStatement lives ⟨.ok account, drawn, seeded⟩ .missing state
        (.finished (.error unknown)) state
  | seed {account : Except Error GoogleAccount} {drawn id : Uuid} {state : RaceState} :
      GoogleStatement lives ⟨account, drawn, .ok ()⟩ (.inserted id) state (.sampled id)
        { state with schemas := state.schemas ++ [id] }
  | failSeed {account : Except Error GoogleAccount} {drawn id : Uuid} {error : Error}
      {state : RaceState} :
      GoogleStatement lives ⟨account, drawn, .error error⟩ (.inserted id) state
        (.finished (.error error)) state
  | reload {call : GoogleCall} {id : Uuid} {state : RaceState} {user : Identity} (now : Timestamp)
      (loaded : requireUserById state.auth id = .ok user) :
      GoogleStatement lives call (.sampled id) state
        (.finished (generateTokens lives state.auth now user).2)
        { state with auth := (generateTokens lives state.auth now user).1 }
  | failReload {call : GoogleCall} {id : Uuid} {state : RaceState} {error : Error}
      (failed : requireUserById state.auth id = .error error) :
      GoogleStatement lives call (.sampled id) state (.finished (.error error)) state
  | findAgain {account : GoogleAccount} {drawn : Uuid} {seeded : Except Error Unit}
      {state : RaceState} {user : Identity}
      (found : state.auth.accounts.identityByEmail (cleanEmail account.email) = some user) :
      GoogleStatement lives ⟨.ok account, drawn, seeded⟩ .lost state (.found user) state
  | missAgain {account : GoogleAccount} {drawn : Uuid} {seeded : Except Error Unit}
      {state : RaceState}
      (missing : state.auth.accounts.identityByEmail (cleanEmail account.email) = none) :
      GoogleStatement lives ⟨.ok account, drawn, seeded⟩ .lost state
        (.finished (.error unknown)) state
  | follow {account : GoogleAccount} {drawn : Uuid} {seeded : Except Error Unit} {state : RaceState}
      {user : Identity} {followed : AuthState} (now : Timestamp)
      (ok : followGoogleProfile state.auth user account = .ok followed) :
      GoogleStatement lives ⟨.ok account, drawn, seeded⟩ (.found user) state
        (.finished (generateTokens lives followed now user).2)
        { state with auth := (generateTokens lives followed now user).1 }
  | failFollow {account : GoogleAccount} {drawn : Uuid} {seeded : Except Error Unit}
      {state : RaceState} {user : Identity} {error : Error}
      (failed : followGoogleProfile state.auth user account = .error error) :
      GoogleStatement lives ⟨.ok account, drawn, seeded⟩ (.found user) state
        (.finished (.error error)) state

/-- The steps of one sign in that nothing overlaps. -/
def SignsInAlone (lives : TokenLives) (call : GoogleCall) :
    GooglePlace × RaceState → GooglePlace × RaceState → Prop :=
  Relation.ReflTransGen fun stand stand' =>
    GoogleStatement lives call stand.1 stand.2 stand'.1 stand'.2

/-- The rest of a sign in whose address has no account. -/
theorem signsInAlone_createGoogleUser (lives : TokenLives) (state : RaceState) (now : Timestamp)
    (account : GoogleAccount) (drawn : Uuid) (seeded : Except Error Unit)
    (missing : state.auth.accounts.identityByEmail (cleanEmail account.email) = none) :
    (∃ error schemas,
      (createGoogleUser state.auth (cleanEmail account.email) account drawn seeded).2 =
          .error error ∧
        SignsInAlone lives ⟨.ok account, drawn, seeded⟩ (.missing, state) (.finished (.error error),
          ⟨(createGoogleUser state.auth (cleanEmail account.email) account drawn seeded).1,
            schemas⟩)) ∨
      ∃ user schemas,
        (createGoogleUser state.auth (cleanEmail account.email) account drawn seeded).2 = .ok user ∧
        SignsInAlone lives ⟨.ok account, drawn, seeded⟩ (.missing, state)
          (.finished (generateTokens lives
            (createGoogleUser state.auth (cleanEmail account.email) account drawn seeded).1 now
              user).2,
            ⟨(generateTokens lives
              (createGoogleUser state.auth (cleanEmail account.email) account drawn seeded).1 now
                user).1,
              schemas⟩) := by
  unfold createGoogleUser
  split
  · rename_i accounts created
    have first : SignsInAlone lives ⟨.ok account, drawn, seeded⟩ (.missing, state)
        (.inserted drawn, state.withAccounts accounts) := .single (.insert created)
    cases seeded with
    | error error => exact .inl ⟨error, state.schemas, rfl, first.tail .failSeed⟩
    | ok done =>
        have sampled := first.tail (c := (.sampled drawn,
          { state.withAccounts accounts with schemas := state.schemas ++ [drawn] })) .seed
        cases loaded : requireUserById { state.auth with accounts } drawn with
        | error error =>
            refine .inl ⟨error, state.schemas ++ [drawn], ?_, sampled.tail (.failReload loaded)⟩
            exact loaded
        | ok user =>
            refine .inr ⟨user, state.schemas ++ [drawn], ?_, sampled.tail (.reload now loaded)⟩
            exact loaded
  · rename_i lost
    have first : SignsInAlone lives ⟨.ok account, drawn, seeded⟩ (.missing, state) (.lost, state) :=
      .single (.lose lost)
    rw [missing]
    exact .inl ⟨unknown, state.schemas, rfl, first.tail (.missAgain missing)⟩
  · rename_i refusal other failed
    exact .inl ⟨unknown, state.schemas, rfl, .single (.fail other failed)⟩

/--
A sign in that runs alone answers what the service answers, and leaves the accounts it leaves.
-/
theorem signsInAlone_loginWithGoogle (lives : TokenLives) (state : RaceState) (now : Timestamp)
    (call : GoogleCall) :
    ∃ schemas, SignsInAlone lives call (.called, state)
      (.finished (loginWithGoogle lives state.auth now call.account call.drawn call.seeded).2,
        ⟨(loginWithGoogle lives state.auth now call.account call.drawn call.seeded).1, schemas⟩) :=
          by
  rcases call with ⟨account, drawn, seeded⟩
  cases account with
  | error error => exact ⟨state.schemas, .single .refuse⟩
  | ok account =>
      unfold loginWithGoogle
      simp only
      split
      · rename_i unverified
        rw [Bool.not_eq_true'] at unverified
        exact ⟨state.schemas, .single (.unverified unverified)⟩
      · rename_i verified
        rw [Bool.not_eq_true', Bool.not_eq_false] at verified
        split
        · rename_i user found
          have first : SignsInAlone lives ⟨.ok account, drawn, seeded⟩ (.called, state)
              (.found user, state) :=
            .single (.find verified found)
          split
          · rename_i failed
            exact ⟨state.schemas, first.tail (.failFollow failed)⟩
          · rename_i ok
            exact ⟨state.schemas, first.tail (.follow now ok)⟩
        · rename_i missing
          have first : SignsInAlone lives ⟨.ok account, drawn, seeded⟩ (.called, state)
              (.missing, state) :=
            .single (.miss verified missing)
          rcases signsInAlone_createGoogleUser lives state now account drawn seeded missing with
            ⟨error, schemas, answer, alone⟩ | ⟨user, schemas, answer, alone⟩
          · split
            · rename_i outcome
              rw [outcome] at answer alone
              cases answer
              exact ⟨schemas, first.trans alone⟩
            · rename_i outcome
              rw [outcome] at answer
              cases answer
          · split
            · rename_i outcome
              rw [outcome] at answer
              cases answer
            · rename_i outcome
              rw [outcome] at answer alone
              cases answer
              exact ⟨schemas, first.trans alone⟩

omit [Crates] [Postgres] in
theorem departments_updateUser {accounts accounts' : Accounts} {id : Uuid} {columns : Columns}
    (ok : accounts.updateUser id columns = .ok accounts') :
    accounts'.departments = accounts.departments := by
  unfold Accounts.updateUser at ok
  split at ok
  · cases ok
  · cases ok
    rfl

omit [Crates] [Postgres] in
theorem departments_createUser {accounts accounts' : Accounts} {user : NewUser} {drawn : Uuid}
    (ok : accounts.createUser user drawn = .ok accounts') :
    accounts'.departments = accounts.departments := by
  unfold Accounts.createUser at ok
  split at ok
  · cases ok
  · rcases exists_of_bind_eq_ok ok with ⟨inserted, insertedOk, ok⟩
    rcases Accounts.addUserRoles_eq_ok_iff.mp ok with ⟨-, rfl⟩
    unfold Accounts.insertUser at insertedOk
    split at insertedOk
    · cases insertedOk
    · cases insertedOk
      rfl

omit [Crates] [Postgres] in
/-- A profile whose row fits is accepted as an update of any row. -/
theorem profile_accepted (accounts : Accounts) (id : Uuid) {drawn : Uuid} {email : Str}
    {account : GoogleAccount} {department : Int}
    (fits : (Accounts.signUpRow (googleUser email account) drawn department).overflows = false) :
    accounts.refusesUpdate id
      (Accounts.profile (splitName account.name).1 (splitName account.name).2
      account.picture) = none := by
  simp only [UserRow.overflows, Accounts.signUpRow, googleUser, List.any_cons, List.any_nil,
    Bool.or_eq_false_iff] at fits
  rcases fits with ⟨⟨⟨-, -, first, last, -⟩, -⟩, picture⟩
  refine Accounts.refusesUpdate_eq_none_iff.mpr ⟨?_, ?_, ?_, ?_⟩
  · rw [stored_profile]
    simpa [Columns.overflows, Accounts.profile, Columns.none, first, last] using picture
  · intro email given
    rw [stored_profile] at given
    cases given
  · intro department given
    cases given
  · intro status given
    cases given

/-- The accounts with one for the address, under the id. -/
structure Joined (before : Accounts) (email : Str) (id : Uuid) (accounts : Accounts) : Prop where
  row : ∃ row ∈ accounts.users, row.email = email ∧ row.id = id
  departments : accounts.departments = before.departments

namespace Joined

variable {before accounts accounts' : Accounts} {email : Str} {id : Uuid}

omit [Crates] [Postgres] in
theorem identityByEmail (joined : Joined before email id accounts) :
    ∃ user, accounts.identityByEmail email = some user ∧ user.id = id := by
  rcases joined.row with ⟨row, mem, address, same⟩
  refine ⟨accounts.enrich row, ?_, same⟩
  rw [Accounts.identityByEmail, Accounts.findUserByEmail_eq_some.mpr ⟨mem, address⟩]
  rfl

omit [Crates] [Postgres] in
theorem requireUserById {state : AuthState} (joined : Joined before email id state.accounts) :
    ∃ user, AuthService.requireUserById state id = .ok user ∧ user.id = id := by
  rcases joined.row with ⟨row, mem, -, same⟩
  exact ⟨state.accounts.enrich row, requireUserById_eq_ok.mpr ⟨row, mem, same, rfl⟩, same⟩

omit [Crates] [Postgres] in
/-- An insert of the address loses. -/
theorem createUser (joined : Joined before email id accounts) {user : NewUser} {drawn : Uuid}
    {department : Int} (first : before.departmentIds.min? = some department)
    (address : user.email = email)
    (fits : (Accounts.signUpRow user drawn department).overflows = false) :
    accounts.createUser user drawn = .error .unique := by
  rcases joined.row with ⟨row, mem, same, -⟩
  have taken : (Accounts.signUpRow user drawn department).email ∈ accounts.users.map
      UserRow.email :=
    List.mem_map.mpr ⟨row, mem, same.trans address.symm⟩
  have refused : accounts.refuses (Accounts.signUpRow user drawn department) = some .unique := by
    unfold Accounts.refuses
    rw [UserRow.stored_of_fits fits, fits, if_neg Bool.false_ne_true, if_pos (.inr (.inr taken))]
  unfold Accounts.createUser
  rw [Accounts.departmentIds, joined.departments, ← Accounts.departmentIds, first]
  have lost : accounts.insertUser (Accounts.signUpRow user drawn department) = .error .unique := by
    unfold Accounts.insertUser
    split
    · rename_i refusal same
      rw [refused] at same
      cases same
      rfl
    · rename_i accepted
      rw [refused] at accepted
      cases accepted
  simp only [lost]
  rfl

omit [Crates] [Postgres] in
/-- A profile keeps the address and the id of every row. -/
theorem followGoogleProfile {state : AuthState} (joined : Joined before email id state.accounts)
    {user : Identity} {account : GoogleAccount} {drawn : Uuid} {department : Int}
    (fits : (Accounts.signUpRow (googleUser email account) drawn department).overflows = false) :
    ∃ state', AuthService.followGoogleProfile state user account = .ok state' ∧
      Joined before email id state'.accounts := by
  unfold AuthService.followGoogleProfile
  simp only
  split
  · exact ⟨state, rfl, joined⟩
  · rcases Accounts.updateUser_of_accepted (profile_accepted state.accounts user.id fits)
      with ⟨accounts', ok⟩
    rw [ok]
    refine ⟨_, rfl, ?_, (departments_updateUser ok).trans joined.departments⟩
    rcases joined.row with ⟨row, mem, address, same⟩
    rw [(Accounts.updateUser_eq_ok ok).2.1]
    refine ⟨_, List.mem_map_of_mem mem, ?_, ?_⟩
    · split
      · exact address
      · exact address
    · split
      · exact same
      · exact same

end Joined

variable {Index : Type} [DecidableEq Index]

abbrev RaceWorld (Index : Type) := World Index RaceState GooglePlace

def googleStatements (lives : TokenLives) (calls : Index → GoogleCall) :
    World.Statements Index RaceState GooglePlace :=
  fun index => GoogleStatement lives (calls index)

/-- The calls are verified sign ins with the address, and nothing but another account with it stands
in the way of their statements. -/
structure Unhindered (calls : Index → GoogleCall) (email : Str) (accounts : Accounts) : Prop where
  verified : ∀ index, ∃ account, (calls index).account = .ok account ∧
    account.emailVerified = true ∧
    cleanEmail account.email = email
  seeded : ∀ index, (calls index).seeded = .ok ()
  fits : ∀ index account department, (calls index).account = .ok account →
    (Accounts.signUpRow (googleUser email account) (calls index).drawn department).overflows = false
  drawn : ∀ index, (calls index).drawn ∉ accounts.users.map UserRow.id
  department : accounts.departmentIds ≠ []
  status : activeUserStatus ∈ accounts.statusIds

/-- The sign in has ended in tokens of the account. -/
def SignedIn (id : Uuid) (place : GooglePlace) : Prop :=
  ∃ tokens, place = .finished (.ok tokens) ∧ userIdOf tokens.token.claims = some id ∧
    userIdOf tokens.refreshToken.claims = some id

/-- Where a sign in may stand that does not insert the account. -/
def ComesTo (id : Uuid) : GooglePlace → Prop
  | .called | .missing | .lost => True
  | .found user => user.id = id
  | .finished answer => SignedIn id (.finished answer)
  | .inserted _ | .sampled _ => False

/-- Where a sign in may stand before any has inserted the account. -/
def Undecided : GooglePlace → Prop
  | .called | .missing => True
  | _ => False

omit [Crates] in
theorem Undecided.comesTo {id : Uuid} {place : GooglePlace} (undecided : Undecided place) :
    ComesTo id place := by
  cases place with
  | called | missing => exact trivial
  | inserted | sampled | lost | found | finished => exact undecided.elim

/-- No sign in has inserted the account yet. -/
structure BeforeInsert (start : RaceState) (world : RaceWorld Index) : Prop where
  shared : world.shared = start
  places : ∀ index, Undecided (world.places index)

/-- The sign in that inserted the account has stored its sample too, or is about to. -/
inductive Samples (start : RaceState) (id : Uuid) (schemas : List Uuid) : GooglePlace → Prop
  | inserted (unchanged : schemas = start.schemas) : Samples start id schemas (.inserted id)
  | sampled (stored : schemas = start.schemas ++ [id]) : Samples start id schemas (.sampled id)
  | finished {answer : Except Error AuthenticationTokens} (stored : schemas = start.schemas ++ [id])
      (signedIn : SignedIn id (.finished answer)) : Samples start id schemas (.finished answer)

/-- One sign in has inserted the account, and the others come to it. -/
structure AfterInsert (calls : Index → GoogleCall) (email : Str) (start : RaceState)
    (winner : Index) (world : RaceWorld Index) : Prop where
  joined : Joined start.auth.accounts email (calls winner).drawn world.shared.auth.accounts
  samples : Samples start (calls winner).drawn world.shared.schemas (world.places winner)
  others : ∀ other, other ≠ winner → ComesTo (calls winner).drawn (world.places other)

section

variable {lives : TokenLives} {calls : Index → GoogleCall} {email : Str} {start : RaceState}
  {world world' : RaceWorld Index} {index winner : Index}

namespace Unhindered

variable {accounts : Accounts} {account : GoogleAccount} {drawn : Uuid} {seeded : Except Error Unit}

omit [Postgres] [DecidableEq Index] in
theorem presents (unhindered : Unhindered calls email accounts)
    (calledAs : calls index = ⟨.ok account, drawn, seeded⟩) :
    account.emailVerified = true ∧ cleanEmail account.email = email := by
  rcases unhindered.verified index with ⟨account', same, verified, clean⟩
  rw [calledAs] at same
  cases same
  exact ⟨verified, clean⟩

omit [Postgres] [DecidableEq Index] in
theorem row_fits (unhindered : Unhindered calls email accounts)
    (calledAs : calls index = ⟨.ok account, drawn, seeded⟩) (department : Int) :
    (Accounts.signUpRow (googleUser email account) drawn department).overflows = false := by
  have fits := unhindered.fits index account department
  rw [calledAs] at fits
  exact fits rfl

omit [Postgres] [DecidableEq Index] in
theorem exists_department (unhindered : Unhindered calls email accounts) :
    ∃ department, accounts.departmentIds.min? = some department ∧
      department ∈ accounts.departmentIds := by
  rcases Option.isSome_iff_exists.mp (List.isSome_min?_of_ne_nil unhindered.department) with
    ⟨department, first⟩
  exact ⟨department, first, List.min?_mem first⟩

omit [Postgres] [DecidableEq Index] in
/-- Without an account for the address the insert is taken. -/
theorem accepts (unhindered : Unhindered calls email accounts)
    (freeEmail : email ∉ accounts.users.map UserRow.email)
    (freeUserName : email ∉ accounts.users.map UserRow.userName)
    (calledAs : calls index = ⟨.ok account, drawn, seeded⟩) :
    AcceptsUser accounts (googleUser email account) drawn := by
  rcases unhindered.exists_department with ⟨department, first, mem⟩
  have freeId := unhindered.drawn index
  rw [calledAs] at freeId
  have fits := unhindered.row_fits calledAs department
  have stored := UserRow.stored_of_fits fits
  refine ⟨department, first, Accounts.refuses_eq_none_iff.mpr ?_⟩
  exact ⟨stored.symm ▸ fits, freeId, stored.symm ▸ freeUserName, stored.symm ▸ freeEmail, mem,
    unhindered.status⟩

end Unhindered

theorem BeforeInsert.move (before : BeforeInsert start world)
    (unhindered : Unhindered calls email start.auth.accounts)
    (freeEmail : email ∉ start.auth.accounts.users.map UserRow.email)
    (freeUserName : email ∉ start.auth.accounts.users.map UserRow.userName)
    (moves : World.Moves (googleStatements lives calls) world index world') :
    BeforeInsert start world' ∨ AfterInsert calls email start index world' := by
  rcases moves with ⟨statement⟩
  unfold googleStatements at statement
  have places := before.places index
  rw [before.shared] at statement
  generalize calledAs : calls index = call at statement
  generalize stands : world.places index = stand at statement places
  cases statement with
  | refuse =>
      rcases unhindered.verified index with ⟨account, same, -⟩
      rw [calledAs] at same
      cases same
  | unverified unverified =>
      rw [(unhindered.presents calledAs).1] at unverified
      cases unverified
  | find verified found =>
      rw [(unhindered.presents calledAs).2, identityByEmail_eq_none freeEmail] at found
      cases found
  | miss verified missing =>
      refine .inl ⟨rfl, fun other => ?_⟩
      change Undecided (Function.update world.places index .missing other)
      by_cases here : other = index
      · subst other
        rw [Function.update_self]
        exact trivial
      · rw [Function.update_of_ne here]
        exact before.places other
  | insert ok =>
      rename_i account drawn seeded accounts
      have address : cleanEmail account.email = email := (unhindered.presents calledAs).2
      rcases Accounts.createUser_eq_ok ok with ⟨department, -, -, users⟩
      have drawnAs : (calls index).drawn = drawn := congrArg GoogleCall.drawn calledAs
      refine .inr ⟨⟨?_, departments_createUser ok⟩, ?_, fun other differs => ?_⟩
      · change ∃ row ∈ accounts.users, _
        rw [users]
        have fits := unhindered.row_fits calledAs department
        rw [(unhindered.presents calledAs).2, UserRow.stored_of_fits fits]
        exact ⟨_, List.mem_cons_self, rfl, drawnAs.symm⟩
      · rw [drawnAs]
        change Samples start drawn start.schemas
          (Function.update world.places index (.inserted drawn) index)
        rw [Function.update_self]
        exact .inserted rfl
      · change ComesTo _ (Function.update world.places index _ other)
        rw [Function.update_of_ne differs]
        exact (before.places other).comesTo
  | lose lost =>
      rcases createUser_of_accepts (unhindered.accepts freeEmail freeUserName calledAs) rfl with
        ⟨accounts, _, ok, -⟩
      rw [(unhindered.presents calledAs).2, ok] at lost
      cases lost
  | fail other failed =>
      rcases createUser_of_accepts (unhindered.accepts freeEmail freeUserName calledAs) rfl with
        ⟨accounts, _, ok, -⟩
      rw [(unhindered.presents calledAs).2, ok] at failed
      cases failed
  | seed | failSeed | reload | failReload | findAgain | missAgain | follow | failFollow =>
      exact places.elim

omit [Crates] in
theorem signedIn_generateTokens [UuidText] {state : AuthState} {now : Timestamp} {id : Uuid}
    {user : Identity} (same : user.id = id) :
    SignedIn id (.finished (generateTokens lives state now user).2) := by
  subst id
  exact ⟨_, rfl, userIdOf_accessClaims user, userIdOf_refreshClaims user⟩

namespace AfterInsert

omit [Crates] in
/-- A statement of a sign in that comes to the account of another. -/
theorem other (after : AfterInsert calls email start winner world) (differs : index ≠ winner)
    {shared : RaceState} {place : GooglePlace}
    (joined : Joined start.auth.accounts email (calls winner).drawn shared.auth.accounts)
    (schemas : shared.schemas = world.shared.schemas) (comes : ComesTo (calls winner).drawn place) :
    AfterInsert calls email start winner ⟨shared, Function.update world.places index place⟩ := by
  refine ⟨joined, ?_, fun other otherDiffers => ?_⟩
  · change Samples _ _ _ (Function.update world.places index place winner)
    rw [Function.update_of_ne (Ne.symm differs), schemas]
    exact after.samples
  · change ComesTo _ (Function.update world.places index place other)
    by_cases here : other = index
    · subst other
      rw [Function.update_self]
      exact comes
    · rw [Function.update_of_ne here]
      exact after.others other otherDiffers

omit [Crates] in
/-- A statement of the sign in that inserted the account. -/
theorem own (after : AfterInsert calls email start winner world) {shared : RaceState}
    {place : GooglePlace}
    (joined : Joined start.auth.accounts email (calls winner).drawn shared.auth.accounts)
    (samples : Samples start (calls winner).drawn shared.schemas place) :
    AfterInsert calls email start winner ⟨shared, Function.update world.places winner place⟩ := by
  refine ⟨joined, ?_, fun other differs => ?_⟩
  · change Samples _ _ _ (Function.update world.places winner place winner)
    rw [Function.update_self]
    exact samples
  · change ComesTo _ (Function.update world.places winner place other)
    rw [Function.update_of_ne differs]
    exact after.others other differs

theorem move [UuidText] (after : AfterInsert calls email start winner world)
    (unhindered : Unhindered calls email start.auth.accounts)
    (moves : World.Moves (googleStatements lives calls) world index world') :
    AfterInsert calls email start winner world' := by
  rcases moves with ⟨statement⟩
  unfold googleStatements at statement
  have joined := after.joined
  have comes := after.others index
  have samples := after.samples
  generalize calledAs : calls index = call at statement
  generalize stands : world.places index = stand at statement comes
  have differs (elsewhere : ¬ Samples start (calls winner).drawn world.shared.schemas stand) :
      index ≠ winner := by
    rintro rfl
    exact elsewhere (stands ▸ samples)
  have here (elsewhere : ¬ ComesTo (calls winner).drawn stand) : index = winner := by
    by_contra differs
    exact elsewhere (comes differs)
  cases statement with
  | refuse =>
      rcases unhindered.verified index with ⟨account, same, -⟩
      rw [calledAs] at same
      cases same
  | unverified unverified =>
      rw [(unhindered.presents calledAs).1] at unverified
      cases unverified
  | find verified found =>
      rcases joined.identityByEmail with ⟨user, stored, same⟩
      rw [(unhindered.presents calledAs).2, stored] at found
      cases found
      exact after.other (differs nofun) joined rfl same
  | miss verified missing =>
      rcases joined.identityByEmail with ⟨user, stored, -⟩
      rw [(unhindered.presents calledAs).2, stored] at missing
      cases missing
  | insert ok =>
      rcases unhindered.exists_department with ⟨department, first, -⟩
      rw [joined.createUser first (unhindered.presents calledAs).2
        (by
          rw [(unhindered.presents calledAs).2]
          exact unhindered.row_fits calledAs department)] at ok
      cases ok
  | lose lost =>
      exact after.other (differs nofun) joined rfl trivial
  | fail other failed =>
      rcases unhindered.exists_department with ⟨department, first, -⟩
      rw [joined.createUser first (unhindered.presents calledAs).2
        (by
          rw [(unhindered.presents calledAs).2]
          exact unhindered.row_fits calledAs department)] at failed
      cases failed
      exact absurd rfl other
  | seed =>
      cases here id
      rw [stands] at samples
      cases samples with
      | inserted unchanged => exact after.own joined (.sampled (congrArg (· ++ [_]) unchanged))
  | failSeed =>
      have seeded := unhindered.seeded index
      rw [calledAs] at seeded
      cases seeded
  | reload now loaded =>
      cases here id
      rw [stands] at samples
      cases samples with
      | sampled stored =>
          rcases joined.requireUserById with ⟨user, found, same⟩
          rw [found] at loaded
          cases loaded
          exact after.own joined (.finished stored (signedIn_generateTokens same))
  | failReload failed =>
      cases here id
      rw [stands] at samples
      cases samples with
      | sampled stored =>
          rcases joined.requireUserById with ⟨user, found, same⟩
          rw [found] at failed
          cases failed
  | findAgain found =>
      rcases joined.identityByEmail with ⟨user, stored, same⟩
      rw [(unhindered.presents calledAs).2, stored] at found
      cases found
      exact after.other (differs nofun) joined rfl same
  | missAgain missing =>
      rcases joined.identityByEmail with ⟨user, stored, -⟩
      rw [(unhindered.presents calledAs).2, stored] at missing
      cases missing
  | follow now ok =>
      rcases joined.followGoogleProfile (unhindered.row_fits calledAs 0) with
        ⟨state', followed, joined'⟩
      rw [followed] at ok
      cases ok
      exact after.other (differs nofun) joined' rfl
        (signedIn_generateTokens (comes (differs nofun)))
  | failFollow failed =>
      rcases joined.followGoogleProfile (unhindered.row_fits calledAs 0) with ⟨state', followed, -⟩
      rw [followed] at failed
      cases failed

end AfterInsert

/-- Sign ins with one new address, overlapping in any way, all end in tokens of one account, which
has the address alone and owns the one sample that was stored. -/
theorem racing_signIns_make_one_account [UuidText] [Nonempty Index] (lives : TokenLives)
    (calls : Index → GoogleCall) (email : Str) (start : RaceState)
    (unhindered : Unhindered calls email start.auth.accounts)
    (freeEmail : email ∉ start.auth.accounts.users.map UserRow.email)
    (freeUserName : email ∉ start.auth.accounts.users.map UserRow.userName)
    (world : RaceWorld Index)
    (run : World.Runs (googleStatements lives calls)
      (fun _ _ _ => True) ⟨start, fun _ => .called⟩ world)
    (finished : ∀ index, ∃ answer, world.places index = .finished answer) :
    ∃ id, (∃ row ∈ world.shared.auth.accounts.users, row.email = email ∧ row.id = id ∧
        ∀ row' ∈ world.shared.auth.accounts.users, row'.email = email → row' = row) ∧
      world.shared.schemas = start.schemas ++ [id] ∧ ∀ index, SignedIn id (world.places index) := by
  have phase : BeforeInsert start world ∨ ∃ winner, AfterInsert calls email start winner world := by
    have atFirst : BeforeInsert start (⟨start, fun _ => .called⟩ : RaceWorld Index) :=
      ⟨rfl, fun _ => trivial⟩
    refine run.invariant
      (fun world => BeforeInsert start world ∨ ∃ winner, AfterInsert calls email start winner world)
        ?_
      (.inl atFirst)
    rintro world index world' (before | ⟨winner, after⟩) moves -
    · rcases before.move unhindered freeEmail freeUserName moves with before' | after'
      · exact .inl before'
      · exact .inr ⟨index, after'⟩
    · exact .inr ⟨winner, after.move unhindered moves⟩
  rcases phase with before | ⟨winner, after⟩
  · rcases ‹Nonempty Index› with ⟨index⟩
    rcases finished index with ⟨answer, stands⟩
    have undecided := before.places index
    rw [stands] at undecided
    exact undecided.elim
  · rcases after.joined.row with ⟨row, mem, address, same⟩
    rcases finished winner with ⟨answer, stands⟩
    have samples := after.samples
    rw [stands] at samples
    cases samples with
    | finished stored signedIn =>
        refine ⟨(calls winner).drawn, ⟨row, mem, address, same, ?_⟩, stored, fun index => ?_⟩
        · intro row' mem' address'
          exact List.inj_on_of_nodup_map world.shared.auth.accounts.emailKey mem' mem
            (address'.trans address.symm)
        · by_cases here : index = winner
          · subst index
            rw [stands]
            exact signedIn
          · have comes := after.others index here
            rcases finished index with ⟨answer', stands'⟩
            rw [stands'] at comes ⊢
            exact comes

end

end

def boSignsIn (drawn : Uuid) : GoogleCall :=
  ⟨.ok ⟨"Bo@example.com", true, "Bo Ray", none⟩, drawn, .ok ()⟩

theorem unhindered_bo :
    @Unhindered plainCrates _ (fun index : Fin 2 => boSignsIn (8 + index)) "bo@example.com"
      staffOnly := by
  let _ := plainCrates
  refine ⟨fun index => ⟨_, rfl, rfl, rfl⟩, fun index => rfl, ?_, ?_, List.cons_ne_nil _ _,
    List.mem_cons_self⟩
  · rintro index account department same
    cases same
    rfl
  · intro index
    match index with
    | 0 => decide
    | 1 => decide

/-- The second sign in loses its insert before the first one has stored the sample. -/
theorem bo_has_one_account :
    ∃ world : RaceWorld (Fin 2), ∃ id, world.shared.schemas = [id] ∧
      ∀ index, @SignedIn asciiDatabase id (world.places index) := by
  let _ := plainCrates
  let _ := asciiDatabase
  have uuidText := asciiUuidText
  have first : World.Runs (googleStatements hourAndDay fun index : Fin 2 => boSignsIn (8 + index))
      (fun _ _ _ => True) ⟨⟨⟨staffOnly, []⟩, []⟩, fun _ => .called⟩
      ⟨⟨⟨staffOnly, []⟩, []⟩, fun _ => .called⟩ := .refl
  have missing := (first.step 0 (.miss rfl rfl) trivial).step 1 (.miss rfl rfl) trivial
  have raced := (missing.step 0 (.insert rfl) trivial).step 1 (.lose rfl) trivial
  have seeded := (raced.step 0 .seed trivial).step 0 (.reload 20 rfl) trivial
  have followed := (seeded.step 1 (.findAgain rfl) trivial).step 1 (.follow 30 rfl) trivial
  rcases racing_signIns_make_one_account hourAndDay _ "bo@example.com" _ unhindered_bo
    (by decide) (by decide) _
    followed (fun index => match index with | 0 => ⟨_, rfl⟩ | 1 => ⟨_, rfl⟩) with
      ⟨id, -, schemas, signedIn⟩
  exact ⟨_, id, schemas, signedIn⟩

end SchemaForge.Iam
