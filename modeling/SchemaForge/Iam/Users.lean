import SchemaForge.Domain.Report
import SchemaForge.Iam.Accounts

/-!
# The user service

The operations on accounts, and the routes that reach them. Every route is
behind the authentication of the caller; one of them is behind a permission.
-/

namespace SchemaForge.Iam

open Repository

/-- What the services use of the crates they are built on, and of the tables of letters. -/
class Crates extends Unicode where
  /-- `bcrypt::hash`, with the salt that it draws. -/
  hashPassword (salt password : Str) : Str
  /-- `bcrypt::verify`. -/
  verifyPassword (password hashed : Str) : Bool
  /-- The hexadecimal SHA-256 of a token. -/
  hashToken (token : Str) : Str
  /-- `ValidateEmail::validate_email`. -/
  validateEmail (email : Str) : Bool
  isUppercase : Char → Bool
  isLowercase : Char → Bool

structure CreateUser where
  userName : Str
  avatarId : Str
  email : Str
  password : Str
  firstName : Str
  lastName : Str
  status : Int
  departmentId : Int
  roles : List Str

structure UpdateUser where
  avatarId : Option Str
  firstName : Option Str
  lastName : Option Str
  email : Option Str
  departmentId : Option Int
  status : Option Str
  password : Option Str
  addRoles : Option (List Str)
  removeRoles : Option (List Str)

namespace UpdateUser

def hasNoColumnChanges (fields : UpdateUser) : Bool :=
  fields.avatarId.isNone && fields.firstName.isNone && fields.lastName.isNone &&
    fields.email.isNone &&
    fields.departmentId.isNone && fields.status.isNone && fields.password.isNone

def restrictedToSelf (fields : UpdateUser) : UpdateUser where
  avatarId := fields.avatarId
  firstName := fields.firstName
  lastName := fields.lastName
  departmentId := fields.departmentId
  email := none
  status := none
  password := none
  addRoles := none
  removeRoles := none

end UpdateUser

/-- An account with its status, its department and its roles. -/
structure User where
  row : UserRow
  statusId : Int
  status : Str
  departmentId : Int
  departmentName : Str
  company : CompanyRow
  roles : List Role
deriving DecidableEq

inductive DomainError where
  | userNotFound
  | userDuplicateConstraint
  | statusNotFound
  | departmentNotFoundConstraint
  | database
deriving DecidableEq

def Refusal.toDomainError : Refusal → DomainError
  | unique => .userDuplicateConstraint
  | foreignKey => .departmentNotFoundConstraint
  | other => .database

namespace Accounts

/-- The roles that the user holds, with their ids. -/
def rolesOf (accounts : Accounts) (user : Uuid) : List Role :=
  accounts.roles.filter fun role => accounts.holds user role.id

/-- The user of a row, whose names may not be null. -/
def mapUser (accounts : Accounts) (row : JoinedRow) : Except DomainError User :=
  match row.status.status, row.department.name with
  | some status, some name => .ok {
      row := row.user
      statusId := row.status.id
      status
      departmentId := row.department.id
      departmentName := name
      company := row.company
      roles := accounts.rolesOf row.user.id }
  | _, _ => .error .database

def findById (accounts : Accounts) (id : Uuid) : Except DomainError (Option User) :=
  match accounts.joined.find? fun row => row.user.id == id with
  | none => .ok none
  | some row => (accounts.mapUser row).map some

/-- What the `INSERT` of a new account gives, under the id that the database draws. -/
def rowOf (user : CreateUser) (drawn : Uuid) : UserRow where
  id := drawn
  userName := user.userName
  avatarId := user.avatarId
  avatarUrl := none
  email := user.email
  password := user.password
  firstName := user.firstName
  lastName := user.lastName
  statusId := user.status
  departmentId := user.departmentId

def create (accounts : Accounts) (user : CreateUser) (drawn : Uuid) :
    Except DomainError (Accounts × Uuid) := do
  let inserted ← (accounts.insertUser (rowOf user drawn)).mapError Refusal.toDomainError
  let added ← (inserted.addUserRoles drawn user.roles).mapError Refusal.toDomainError
  return (added, drawn)

/-- The id of the status that an update names, if it names one. -/
def statusOf : Option Str → Except DomainError (Option Int)
  | none => .ok none
  | some status =>
      match statusIdOf status with
      | none => .error .statusNotFound
      | some id => .ok (some id)

/-- The columns that an update sets, with the id of the status it names. -/
def columnsOf (fields : UpdateUser) (statusId : Option Int) : Columns where
  avatarId := fields.avatarId
  avatarUrl := none
  firstName := fields.firstName
  lastName := fields.lastName
  email := fields.email
  departmentId := fields.departmentId
  statusId
  password := fields.password

def partialUpdate (accounts : Accounts) (id : Uuid) (fields : UpdateUser) :
    Except DomainError Accounts :=
  if fields.hasNoColumnChanges then .ok accounts
  else do
    let statusId ← statusOf fields.status
    (accounts.updateUser id (columnsOf fields statusId)).mapError Refusal.toDomainError

/-- Soft delete: the row is kept and flipped to the `Deleted` status. -/
def delete (accounts : Accounts) (id : Uuid) : Except DomainError Accounts :=
  (accounts.updateUser id { Columns.none with statusId := some deletedUserStatus }).mapError
    fun _ => .database

end Accounts

namespace UserService

section

variable [Crates]

def mapDomainError : DomainError → Error
  | .userNotFound => .app 1001 "user does not exists"
  | .userDuplicateConstraint => .app 1005 "username or email is already taken"
  | .statusNotFound =>
      (Error.validation "invalid payload fields" []).pushViolation "status"
        "field must be of valid type"
  | .departmentNotFoundConstraint =>
      (Error.validation "invalid payload fields" []).pushViolation "department_id"
        "invalid department id provided"
  | .database => .app 2000 "internal server error"

def requireUser (accounts : Accounts) (id : Uuid) : Except Error User :=
  match accounts.findById id with
  | .error failure => .error (mapDomainError failure)
  | .ok none => .error (.app 1001 "user does not exists")
  | .ok (some user) => .ok user

omit [Crates] in
/-- The service works on the accounts that can be shown. -/
theorem requireUser_isOk_iff {accounts : Accounts} {id : Uuid} :
    (∃ user, requireUser accounts id = .ok user) ↔
      ∃ row ∈ accounts.users, row.id = id ∧ accounts.IsComplete row := by
  cases found : accounts.joined.find? fun row => row.user.id == id with
  | none =>
      have missing : requireUser accounts id = .error (.app 1001 "user does not exists") := by
        rw [requireUser, Accounts.findById, found]
      rw [missing]
      refine ⟨by rintro ⟨_, ⟨⟩⟩, ?_⟩
      rintro ⟨row, mem, rfl, complete⟩
      rcases Accounts.exists_joined_of_isComplete mem complete with ⟨joined, joinedMem, rfl⟩
      exact absurd BEq.rfl (List.find?_eq_none.mp found joined joinedMem)
  | some joined =>
      have mem := List.mem_of_find?_eq_some found
      have same : joined.user.id = id := by
        have accepted := List.find?_some found
        exact beq_iff_eq.mp accepted
      have shown : (∃ user, requireUser accounts id = .ok user) ↔ joined.IsNamed := by
        rw [requireUser, Accounts.findById, found]
        simp only [Accounts.mapUser, JoinedRow.IsNamed]
        cases joined.status.status with
        | none => simp [Except.map]
        | some status =>
            cases joined.department.name with
            | none => simp [Except.map]
            | some name => simp [Except.map]
      rw [shown, ← Accounts.isComplete_iff_of_mem mem]
      constructor
      · exact fun complete => ⟨joined.user, (Accounts.mem_joined.mp mem).1, same, complete⟩
      · rintro ⟨row, rowMem, sameId, complete⟩
        have one := List.inj_on_of_nodup_map accounts.userKey rowMem (Accounts.mem_joined.mp mem).1
          (sameId.trans same.symm)
        exact one ▸ complete

/-- A character that is no letter, no digit and no space. -/
def isSpecial (c : Char) : Bool := !Str.isAlphanumeric c && !Str.isWhitespace c

/-- `validation::password_checker`. -/
def passwordChecker (password : Str) : Except Str Unit :=
  if password.length < 8 then
    .error "password is too short. It should be at least 8 characters long"
  else if !password.any Crates.isUppercase then
    .error "password should contain at least one uppercase letter"
  else if !password.any Crates.isLowercase then
    .error "password should contain at least one lowercase letter"
  else if !password.any Char.isDigit then
    .error "password should contain at least one digit"
  else if !password.any isSpecial then
    .error "password should contain at least one special character"
  else .ok ()

/-- The account as it is stored: active, and with its password hashed. -/
def interim (user : CreateUser) (salt : Str) : CreateUser :=
  { user with password := Crates.hashPassword salt user.password, status := activeUserStatus }

def create (accounts : Accounts) (user : CreateUser) (drawn : Uuid) (salt : Str) :
    Except Error (Accounts × Uuid) :=
  (accounts.create (interim user salt) drawn).mapError mapDomainError

def findById (accounts : Accounts) (id : Uuid) : Except Error User := requireUser accounts id

/-- The new password of an update, checked and hashed. -/
def hashedPassword (salt : Str) : Option Str → Except Error (Option Str)
  | none => .ok none
  | some password => do
      (passwordChecker password).mapError fun message =>
        (Error.validation "invalid payload fields" []).pushViolation "password" message
      return some (Crates.hashPassword salt password)

/-- Roles are added first and removed afterwards, all in one transaction. -/
def partialUpdate (accounts : Accounts) (id : Uuid) (fields : UpdateUser) (salt : Str) :
    Except Error Accounts := do
  let _ ← requireUser accounts id
  let password ← hashedPassword salt fields.password
  let updated ← (accounts.partialUpdate id { fields with password }).mapError mapDomainError
  let added ← (updated.addUserRoles id (fields.addRoles.getD [])).mapError
    (mapDomainError ∘ Refusal.toDomainError)
  (added.removeUserRoles id (fields.removeRoles.getD [])).mapError
    (mapDomainError ∘ Refusal.toDomainError)

def delete (accounts : Accounts) (id : Uuid) : Except Error Accounts := do
  let _ ← requireUser accounts id
  (accounts.delete id).mapError mapDomainError

end

end UserService

structure CreateUserRequest where
  userName : Str
  avatarId : Str
  email : Str
  password : Str
  firstName : Str
  lastName : Str
  department : Int
  roles : List Str

section

variable [Crates]

def strongPassword (password : Str) : Bool :=
  8 ≤ password.length && password.any Crates.isUppercase && password.any Crates.isLowercase &&
    password.any Char.isDigit && password.any UserService.isSpecial

/-- A check of one field. -/
def check (passed : Bool) (field message : Str) : List (Str × Str) :=
  if passed then [] else [(field, message)]

def CreateUserRequest.validate (payload : CreateUserRequest) : Except Error Unit :=
  let violations :=
    check (!payload.userName.isEmpty) "user_name" "field must be a minimum length of 1" ++
      check (Crates.validateEmail payload.email) "email" "field must be of email format" ++
      check (strongPassword payload.password) "password"
        "field requires at least 8 characters with an uppercase letter, a symbol and a numeric value." ++
      check (!payload.firstName.isEmpty) "first_name" "field must be a minimum length of 1" ++
      check (!payload.lastName.isEmpty) "last_name" "field must be a minimum length of 1" ++
      check (1 ≤ payload.department) "department" "field is outside of the accepted range"
  match violations with
  | [] => .ok ()
  | violations => .error (violations.foldl (fun error violation =>
      error.pushViolation violation.1 violation.2) (.validation "failed payload validation" []))

end

/-- A request to one of the routes, with what the service draws for it. -/
inductive Request where
  | index
  | create (payload : CreateUserRequest) (drawn : Uuid) (salt : Str)
  | getMyUser
  | patchMyUser (payload : UpdateUser) (salt : Str)
  | get (id : Uuid)
  | patch (id : Uuid) (payload : UpdateUser) (salt : Str)
  | delete (id : Uuid)
  | permissions

/-- The listings of accounts and of permissions are not spelled out. -/
inductive Reply where
  | users
  | created (id : Uuid)
  | user (user : User)
  | updated
  | deleted (id : Uuid)
  | permissions

/-- `RbacEngine::can`, for an action that names a resource and a permission. -/
def can (superRole : Str) (accounts : Accounts) (user : Uuid) (resource permission : Str) : Bool :=
  (accounts.getUserRoles user).contains superRole || accounts.hasPermission user resource permission

section

variable [Crates]

/-- What `POST /v1/users` asks for. -/
def CreateUserRequest.user (payload : CreateUserRequest) : CreateUser where
  userName := payload.userName
  avatarId := payload.avatarId
  email := payload.email
  password := payload.password
  firstName := payload.firstName
  lastName := payload.lastName
  status := activeUserStatus
  departmentId := payload.department
  roles := payload.roles

/-- The handlers, once the caller is known. -/
def dispatch (superRole : Str) (accounts : Accounts) (caller : Uuid) :
    Request → Except Error (Accounts × Reply)
  | .index =>
      if can superRole accounts caller "Users" "View All" then .ok (accounts, .users)
      else .error (.app 1002 "unauthorized action")
  | .create payload drawn salt => do
      payload.validate
      let (accounts', id) ← UserService.create accounts payload.user drawn salt
      return (accounts', .created id)
  | .getMyUser => do return (accounts, .user (← UserService.findById accounts caller))
  | .patchMyUser payload salt => do
      return (← UserService.partialUpdate accounts caller payload.restrictedToSelf salt, .updated)
  | .get id => do return (accounts, .user (← UserService.findById accounts id))
  | .patch id payload salt => do
      return (← UserService.partialUpdate accounts id payload salt, .updated)
  | .delete id => do return (← UserService.delete accounts id, .deleted id)
  | .permissions => .ok (accounts, .permissions)

/-- `authenticate`, for a caller whose token is good. -/
def route (superRole : Str) (accounts : Accounts) (caller : Uuid) (request : Request) :
    Except Error (Accounts × Reply) :=
  match accounts.findUserById caller with
  | none => .error (.app 1002 "malformed or missing jwt token")
  | some _ => dispatch superRole accounts caller request

end

end SchemaForge.Iam
