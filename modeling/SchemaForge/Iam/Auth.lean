import SchemaForge.Foundation.Machine
import SchemaForge.Iam.Users

/-!
# The authentication service

Signing in, by a password or through Google, exchanging tokens, and telling who
a token belongs to. A token is what its claims and its expiry make of it, and the
service accepts the tokens it has issued until they expire.
-/

namespace SchemaForge.Iam

open Repository

/-- The shapes of a claim. -/
inductive ClaimValue where
  | text (value : Str)
  | texts (values : List Str)
deriving DecidableEq

/-- A map from names to values, ordered by name. -/
abbrev Claims := List (Str × ClaimValue)

def Claims.get (claims : Claims) (name : Str) : Option ClaimValue :=
  (claims.find? fun claim => claim.1 == name).map Prod.snd

def ClaimValue.asStr : ClaimValue → Option Str
  | text value => some value
  | texts _ => none

/-- A signed token. A text that is no token of the service reads as one that was never issued. -/
structure Token where
  claims : Claims
  expiresAt : Timestamp
deriving DecidableEq

structure AuthenticationTokens where
  token : Token
  refreshToken : Token
deriving DecidableEq

structure Identity where
  id : Uuid
  email : Str
  userName : Str
  firstName : Str
  lastName : Str
  avatarUrl : Option Str
  password : Str
  roles : List Str
deriving DecidableEq

structure Registration where
  name : Str
  email : Str
  password : Str

structure NewUser where
  email : Str
  userName : Str
  firstName : Str
  lastName : Str
  avatarUrl : Option Str
  password : Str
  roles : List Str

structure GoogleAccount where
  email : Str
  emailVerified : Bool
  name : Str
  picture : Option Str

/-- How long tokens live, in seconds. -/
structure TokenLives where
  tokenTtl : Int
  refreshTokenTtl : Int

/-- The accounts and the tokens that the service has issued. -/
structure AuthState where
  accounts : Accounts
  issued : List Token

def passwordResetTtlMinutes : Int := 15

def signUpRoles : List Str := ["Developer"]

def minPasswordLength : Nat := 8

/-- Everything after the first space is the last name. -/
def splitName (name : Str) : Str × Str :=
  match (Str.trim name).span (· != ' ') with
  | (_, []) => (Str.trim name, [])
  | (first, _ :: last) => (first, Str.trim last)

def unknown : Error := .app 2000 "internal server error"

def invalidCredentials : Error := .app 1002 "invalid username or password"

def invalidRefreshToken : Error := .app 1002 "invalid or malformed refresh token"

def emailTaken : Error := .app 1004 "an account with this email already exists"

namespace Accounts

/-- The identity behind a row, with the names of its roles. -/
def enrich (accounts : Accounts) (row : UserRow) : Identity where
  id := row.id
  email := row.email
  userName := row.userName
  firstName := row.firstName
  lastName := row.lastName
  avatarUrl := row.avatarUrl
  password := row.password
  roles := accounts.getUserRoles row.id

def identityById (accounts : Accounts) (id : Uuid) : Option Identity :=
  (accounts.findUserById id).map accounts.enrich

def identityByEmail (accounts : Accounts) (email : Str) : Option Identity :=
  (accounts.findUserByEmail email).map accounts.enrich

/-- What the `INSERT` of a sign up gives. -/
def signUpRow (user : NewUser) (drawn : Uuid) (department : Int) : UserRow where
  id := drawn
  userName := user.userName
  avatarId := []
  avatarUrl := user.avatarUrl
  email := user.email
  password := user.password
  firstName := user.firstName
  lastName := user.lastName
  statusId := activeUserStatus
  departmentId := department

/-- A row joins the first department; without one the column stays null, which it may not. -/
def createUser (accounts : Accounts) (user : NewUser) (drawn : Uuid) : Except Refusal Accounts :=
  match accounts.departmentIds.min? with
  | none => .error .other
  | some department => do
      let inserted ← accounts.insertUser (signUpRow user drawn department)
      inserted.addUserRoles drawn user.roles

/-- The columns that follow a Google profile. -/
def profile (firstName lastName : Str) (avatarUrl : Option Str) : Columns :=
  { Columns.none with
    firstName := some firstName
    lastName := some lastName
    avatarUrl := some avatarUrl }

def resetPassword (accounts : Accounts) (email newPassword : Str) : Except Refusal Accounts :=
  match accounts.findUserByEmail email with
  | none => .ok accounts
  | some row => accounts.updateUser row.id { Columns.none with password := some newPassword }

def deletePasswordReset (accounts : Accounts) (email : Str) : Accounts :=
  { accounts with
    passwordResets := accounts.passwordResets.filter fun reset => reset.email != email }

def createPasswordReset (accounts : Accounts) (email token : Str) (now : Timestamp) : Accounts :=
  { accounts with passwordResets := accounts.passwordResets ++ [⟨email, token, now⟩] }

theorem createUser_eq_ok {accounts accounts' : Accounts} {user : NewUser} {drawn : Uuid}
    (ok : accounts.createUser user drawn = .ok accounts') :
    ∃ department, accounts.departmentIds.min? = some department ∧
      accounts.refuses (signUpRow user drawn department) = none ∧
      accounts'.users = (signUpRow user drawn department).stored :: accounts.users := by
  unfold createUser at ok
  split at ok
  · cases ok
  · rename_i department joined
    rcases exists_of_bind_eq_ok ok with ⟨inserted, insertedOk, ok⟩
    rcases insertUser_eq_ok insertedOk with ⟨accepted, users, -⟩
    rcases addUserRoles_eq_ok_iff.mp ok with ⟨-, rfl⟩
    exact ⟨department, joined, accepted, users⟩

end Accounts

namespace AuthService

section

variable [Crates] [Postgres]

def cleanEmail (email : Str) : Str := Str.toLowercase (Str.trim email)

def accessClaims (user : Identity) : Claims :=
  [("roles", .texts user.roles), ("user_id", .text (Postgres.uuidText user.id))]

def refreshClaims (user : Identity) : Claims := [("user_id", .text (Postgres.uuidText user.id))]

/-- The pair for an identity, which the service remembers. -/
def generateTokens (lives : TokenLives) (state : AuthState) (now : Timestamp) (user : Identity) :
    AuthState × Except Error AuthenticationTokens :=
  let token : Token := ⟨accessClaims user, now + lives.tokenTtl⟩
  let refreshToken : Token := ⟨refreshClaims user, now + lives.refreshTokenTtl⟩
  ({ state with issued := token :: refreshToken :: state.issued }, .ok ⟨token, refreshToken⟩)

/-- `validate_token`: a token that was issued and has not expired gives its claims back. -/
def validateToken (state : AuthState) (now : Timestamp) (token : Token) : Option Claims :=
  if token ∈ state.issued ∧ now ≤ token.expiresAt then some token.claims else none

/-- The id that claims carry. -/
def userIdOf (claims : Claims) : Option Uuid :=
  (claims.get "user_id").bind fun value => value.asStr.bind Postgres.parseUuid

def userIdFrom (state : AuthState) (now : Timestamp) (token : Token) : Except Error Uuid :=
  match validateToken state now token with
  | none => .error invalidRefreshToken
  | some claims =>
      match userIdOf claims with
      | none => .error invalidRefreshToken
      | some id => .ok id

def requireUserById (state : AuthState) (id : Uuid) : Except Error Identity :=
  match state.accounts.identityById id with
  | none => .error invalidRefreshToken
  | some user => .ok user

/-- The row is written only if the profile differs from it. -/
def followGoogleProfile (state : AuthState) (user : Identity) (account : GoogleAccount) :
    Except Error AuthState :=
  let name := splitName account.name
  if user.firstName = name.1 ∧ user.lastName = name.2 ∧ user.avatarUrl =
    account.picture then .ok state
  else
    match state.accounts.updateUser user.id (Accounts.profile name.1 name.2 account.picture) with
    | .error _ => .error unknown
    | .ok accounts => .ok { state with accounts }

def checkRegistration (registration : Registration) : Except Error Unit :=
  if (Str.trim registration.name).isEmpty then
    .error ((Error.validation "name is required" []).pushViolation "name"
      "field is required and cannot be empty")
  else if !Crates.validateEmail registration.email then
    .error ((Error.validation "email is not a valid address" []).pushViolation "email"
      "field must be of email format")
  else if registration.password.length < minPasswordLength then
    .error ((Error.validation ("password must be at least " ++ Str.ofNat minPasswordLength ++
      " characters")
      []).pushViolation "password"
        ("field must be a minimum length of " ++ Str.ofNat minPasswordLength))
  else .ok ()

/-- A lookup that finds nothing, an account without a password and a wrong password read alike. -/
def generateToken (lives : TokenLives) (state : AuthState) (now : Timestamp)
    (email password : Str) :
    AuthState × Except Error AuthenticationTokens :=
  match state.accounts.identityByEmail email with
  | none => (state, .error invalidCredentials)
  | some user =>
      if user.password.isEmpty || !Crates.verifyPassword password user.password then
        (state, .error invalidCredentials)
      else generateTokens lives state now user

/-- The registration with its name and its address cleaned. -/
def cleaned (registration : Registration) : Registration :=
  ⟨Str.trim registration.name, cleanEmail registration.email, registration.password⟩

def registeredUser (registration : Registration) (salt : Str) : NewUser where
  userName := registration.email
  email := registration.email
  firstName := (splitName registration.name).1
  lastName := (splitName registration.name).2
  avatarUrl := none
  password := Crates.hashPassword salt registration.password
  roles := signUpRoles

def googleUser (email : Str) (account : GoogleAccount) : NewUser where
  userName := email
  email := email
  firstName := (splitName account.name).1
  lastName := (splitName account.name).2
  avatarUrl := account.picture
  password := []
  roles := signUpRoles

omit [Crates] [Postgres] in
/-- Neither part of a name ends in a blank. -/
theorem ends_splitName (name : Str) :
    (∀ last ∈ (splitName name).1.getLast?, last ≠ ' ') ∧ ∀ last ∈ (splitName name).2.getLast?,
    last ≠ ' ' := by
  have solid {s : Str} {c : Char} (ends : c ∈ (Str.trim s).getLast?) : c ≠ ' ' := by
    rintro rfl
    cases Str.isWhitespace_getLast?_trim ends
  unfold splitName
  rcases split : (Str.trim name).span (· != ' ') with ⟨first, _ | ⟨blank, last⟩⟩
  · exact ⟨fun _ => solid, nofun⟩
  · refine ⟨fun c ends => ?_, fun _ => solid⟩
    have whole : (Str.trim name).takeWhile (· != ' ') = first := by
      rw [List.span_eq_takeWhile_dropWhile] at split
      exact congrArg Prod.fst split
    have kept := List.mem_takeWhile_imp (whole ▸ List.mem_of_getLast? ends)
    exact bne_iff_ne.mp kept

omit [Crates] [Postgres] in
/-- No part of a profile is cut. -/
theorem stored_profile (name : Str) (avatarUrl : Option Str) :
    (Accounts.profile (splitName name).1 (splitName name).2 avatarUrl).stored =
      Accounts.profile (splitName name).1 (splitName name).2 avatarUrl := by
  rw [Columns.stored, Accounts.profile, Option.map_some, Option.map_some,
    Varchar.stored_of_getLast_ne (ends_splitName name).1, Varchar.stored_of_getLast_ne
      (ends_splitName name).2]
  rfl

/-- A new account gets the sample schema and is read back. `seeded` is what the schema service
answers to the sample. -/
def seedAndReload (state : AuthState) (drawn : Uuid) (seeded : Except Error Unit) :
    Except Error Identity := do
  seeded
  requireUserById state drawn

/-- The account is committed before the sample is stored, and stays if the sample is refused. -/
def register (lives : TokenLives) (state : AuthState) (now : Timestamp)
    (registration : Registration) (drawn : Uuid) (salt : Str) (seeded : Except Error Unit) :
    AuthState × Except Error AuthenticationTokens :=
  match checkRegistration (cleaned registration) with
  | .error error => (state, .error error)
  | .ok _ =>
      if (state.accounts.identityByEmail (cleaned registration).email).isSome then
        (state, .error emailTaken)
      else
        match state.accounts.createUser (registeredUser (cleaned registration) salt) drawn with
        | .error .unique => (state, .error emailTaken)
        | .error _ => (state, .error unknown)
        | .ok accounts =>
            match seedAndReload { state with accounts } drawn seeded with
            | .error error => ({ state with accounts }, .error error)
            | .ok user => generateTokens lives { state with accounts } now user

def refreshToken (lives : TokenLives) (state : AuthState) (now : Timestamp) (token : Token) :
    AuthState × Except Error AuthenticationTokens :=
  match (do requireUserById state (← userIdFrom state now token)) with
  | .error error => (state, .error error)
  | .ok user => generateTokens lives state now user

/-- The account of a new address, or the one that has just taken it. -/
def createGoogleUser (state : AuthState) (email : Str) (account : GoogleAccount) (drawn : Uuid)
    (seeded : Except Error Unit) : AuthState × Except Error Identity :=
  match state.accounts.createUser (googleUser email account) drawn with
  | .ok accounts => ({ state with accounts }, seedAndReload { state with accounts } drawn seeded)
  | .error .unique =>
      match state.accounts.identityByEmail email with
      | none => (state, .error unknown)
      | some user =>
          match followGoogleProfile state user account with
          | .error error => (state, .error error)
          | .ok state => (state, .ok user)
  | .error _ => (state, .error unknown)

/-- `account` is what Google answers to the code. -/
def loginWithGoogle (lives : TokenLives) (state : AuthState) (now : Timestamp)
    (account : Except Error GoogleAccount) (drawn : Uuid) (seeded : Except Error Unit) :
    AuthState × Except Error AuthenticationTokens :=
  match account with
  | .error error => (state, .error error)
  | .ok account =>
      if !account.emailVerified then
        (state, .error (.app 1002 "the google account has no verified email address"))
      else
        match state.accounts.identityByEmail (cleanEmail account.email) with
        | some user =>
            match followGoogleProfile state user account with
            | .error error => (state, .error error)
            | .ok state => generateTokens lives state now user
        | none =>
            match createGoogleUser state (cleanEmail account.email) account drawn seeded with
            | (state, .error error) => (state, .error error)
            | (state, .ok user) => generateTokens lives state now user

def getIdentity (state : AuthState) (now : Timestamp) (token : Token) : Except Error Identity := do
  requireUserById state (← userIdFrom state now token)

/-- Only one pending request for an address is kept, and only its digest. The request stays if
the mail cannot be sent. -/
def passwordRecovery (state : AuthState) (now : Timestamp) (email token : Str)
    (sent : Except Error Unit) :
    AuthState × Except Error Unit :=
  match state.accounts.identityByEmail email with
  | none => (state, .error (.app 1001 "invalid email address"))
  | some _ =>
      let accounts := (state.accounts.deletePasswordReset email).createPasswordReset email
        (Crates.hashToken token) now
      ({ state with accounts }, sent.mapError fun _ => unknown)

def resetPassword (state : AuthState) (now : Timestamp) (token newPassword salt : Str) :
    AuthState × Except Error Unit :=
  match state.accounts.passwordResets.find? fun reset => reset.token == Crates.hashToken token with
  | none => (state, .error (.app 1003 "invalid or expired token"))
  | some reset =>
      if reset.createdAt + 60 * passwordResetTtlMinutes < now then
        (state, .error (.app 1003 "invalid or expired token"))
      else
        match state.accounts.resetPassword reset.email (Crates.hashPassword salt newPassword) with
        | .error _ => (state, .error unknown)
        | .ok accounts =>
            ({ state with accounts := accounts.deletePasswordReset reset.email }, .ok ())

end

section

variable [Postgres] {state : AuthState} {now : Timestamp} {token : Token} {id : Uuid}
    {identity : Identity}

omit [Postgres] in
theorem requireUserById_eq_ok :
    requireUserById state id = .ok identity ↔
      ∃ row ∈ state.accounts.users, row.id = id ∧ identity = state.accounts.enrich row := by
  unfold requireUserById Accounts.identityById
  cases found : state.accounts.findUserById id with
  | none =>
      refine ⟨nofun, ?_⟩
      rintro ⟨row, mem, same, -⟩
      rw [Accounts.findUserById_eq_some.mpr ⟨mem, same⟩] at found
      cases found
  | some row =>
      rcases Accounts.findUserById_eq_some.mp found with ⟨mem, same⟩
      constructor
      · intro ok
        cases ok
        exact ⟨row, mem, same, rfl⟩
      · rintro ⟨row', mem', same', rfl⟩
        rw [Accounts.findUserById_eq_some.mpr ⟨mem', same'⟩] at found
        cases found
        rfl

theorem userIdFrom_eq_ok : userIdFrom state now token = .ok id ↔
    token ∈ state.issued ∧ now ≤ token.expiresAt ∧ userIdOf token.claims = some id := by
  unfold userIdFrom validateToken
  by_cases valid : token ∈ state.issued ∧ now ≤ token.expiresAt
  · rw [if_pos valid]
    cases owner : userIdOf token.claims with
    | none => simp [owner]
    | some other => simp [owner, valid]
  · rw [if_neg valid]
    refine ⟨nofun, ?_⟩
    rintro ⟨issued, unexpired, -⟩
    exact absurd ⟨issued, unexpired⟩ valid

omit [Postgres] in
theorem seedAndReload_eq_ok {drawn : Uuid} {seeded : Except Error Unit} :
    seedAndReload state drawn seeded = .ok identity ↔ seeded = .ok () ∧
      ∃ row ∈ state.accounts.users, row.id = drawn ∧ identity = state.accounts.enrich row := by
  cases seeded with
  | error failure => exact ⟨nofun, nofun⟩
  | ok _ => exact (requireUserById_eq_ok).trans ⟨fun found => ⟨rfl, found⟩, And.right⟩

/-- A token opens the account that its claims name, if that account has a row. -/
theorem opens_iff :
    (do requireUserById state (← userIdFrom state now token)) = .ok identity ↔
      ∃ row ∈ state.accounts.users, identity = state.accounts.enrich row ∧
        token ∈ state.issued ∧ now ≤ token.expiresAt ∧ userIdOf token.claims = some row.id := by
  constructor
  · intro ok
    rcases exists_of_bind_eq_ok ok with ⟨id, named, found⟩
    rcases requireUserById_eq_ok.mp found with ⟨row, mem, rfl, same⟩
    exact ⟨row, mem, same, userIdFrom_eq_ok.mp named⟩
  · rintro ⟨row, mem, rfl, named⟩
    rw [userIdFrom_eq_ok.mpr named]
    exact requireUserById_eq_ok.mpr ⟨row, mem, rfl, rfl⟩

end

end AuthService

/-- An operation of the authentication service or of the user service, with what the
services outside answer to it and what it draws. -/
inductive AuthOperation where
  | generateToken (email password : Str)
  | register (registration : Registration) (drawn : Uuid) (salt : Str) (seeded : Except Error Unit)
  | refreshToken (token : Token)
  | loginWithGoogle (account : Except Error GoogleAccount) (drawn : Uuid)
      (seeded : Except Error Unit)
  | getIdentity (token : Token)
  | passwordRecovery (email token : Str) (sent : Except Error Unit)
  | resetPassword (token newPassword salt : Str)
  | createUser (user : CreateUser) (drawn : Uuid) (salt : Str)
  | findUserById (id : Uuid)
  | partialUpdate (id : Uuid) (fields : UpdateUser) (salt : Str)
  | deleteUser (id : Uuid)

structure AuthCall where
  operation : AuthOperation
  now : Timestamp

inductive AuthAnswer where
  | tokens (tokens : AuthenticationTokens)
  | identity (identity : Identity)
  | user (user : User)
  | created (id : Uuid)
  | done

section

variable [Crates] [Postgres]

/-- An answer of the authentication service. -/
def answered {α : Type} (answer : α → AuthAnswer) (result : AuthState × Except Error α) :
    AuthState × Except Error AuthAnswer :=
  (result.1, result.2.map answer)

/-- An answer of the user service, which fails without a trace. -/
def written {α : Type} (state : AuthState) (answer : α → AuthAnswer) :
    Except Error (Accounts × α) → AuthState × Except Error AuthAnswer
  | .error error => (state, .error error)
  | .ok (accounts, value) => ({ state with accounts }, .ok (answer value))

def authService (lives : TokenLives) : Machine AuthState AuthCall (Except Error AuthAnswer) where
  step state call :=
    match call.operation with
    | .generateToken email password =>
        answered .tokens (AuthService.generateToken lives state call.now email password)
    | .register registration drawn salt seeded =>
        answered .tokens (AuthService.register lives state call.now registration drawn salt seeded)
    | .refreshToken token => answered .tokens (AuthService.refreshToken lives state call.now token)
    | .loginWithGoogle account drawn seeded =>
        answered .tokens (AuthService.loginWithGoogle lives state call.now account drawn seeded)
    | .getIdentity token => (state, (AuthService.getIdentity state call.now token).map .identity)
    | .passwordRecovery email token sent =>
        answered (fun _ => .done) (AuthService.passwordRecovery state call.now email token sent)
    | .resetPassword token newPassword salt =>
        answered (fun _ => .done) (AuthService.resetPassword state call.now token newPassword salt)
    | .createUser user drawn salt =>
        written state .created (UserService.create state.accounts user drawn salt)
    | .findUserById id => (state, (UserService.findById state.accounts id).map .user)
    | .partialUpdate id fields salt =>
        written state (fun _ => .done)
          ((UserService.partialUpdate state.accounts id fields salt).map fun accounts =>
            (accounts, ()))
    | .deleteUser id =>
        written state (fun _ => .done)
          ((UserService.delete state.accounts id).map fun accounts => (accounts, ()))

end

end SchemaForge.Iam
