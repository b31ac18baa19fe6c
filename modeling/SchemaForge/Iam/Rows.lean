import SchemaForge.Iam.Auth
import SchemaForge.Iam.Roles

/-!
# What a call does to the rows of accounts

Seven calls write `users`, each by one statement: three insert a row and four
update one. Whatever holds of the rows along every run is read off the
statements below.
-/

namespace SchemaForge.Iam

open Repository AuthService

section

variable [Crates] [Postgres]

/-- The rows that a call may leave, with what has been checked of the rows that it met. -/
inductive LeavesRows (accounts : Accounts) : AuthOperation → List UserRow → Prop where
  | unchanged (operation : AuthOperation) : LeavesRows accounts operation accounts.users
  | registered {registration : Registration} {drawn : Uuid} {salt : Str}
      (seeded : Except Error Unit) (department : Int)
      (valid : checkRegistration (cleaned registration) = .ok ())
      (first : accounts.departmentIds.min? = some department)
      (accepted : accounts.refuses
        (Accounts.signUpRow (registeredUser (cleaned registration) salt) drawn
        department) = none) :
      LeavesRows accounts (.register registration drawn salt seeded)
        ((Accounts.signUpRow (registeredUser (cleaned registration) salt) drawn
          department).stored ::
          accounts.users)
  | joined {account : GoogleAccount} {drawn : Uuid} (seeded : Except Error Unit) (department : Int)
      (verified : account.emailVerified = true)
      (first : accounts.departmentIds.min? = some department)
      (accepted : accounts.refuses
        (Accounts.signUpRow (googleUser (cleanEmail account.email) account) drawn
        department) = none) :
      LeavesRows accounts (.loginWithGoogle (.ok account) drawn seeded)
        ((Accounts.signUpRow (googleUser (cleanEmail account.email) account) drawn
          department).stored ::
          accounts.users)
  | profiled {account : GoogleAccount} (drawn : Uuid) (seeded : Except Error Unit) {row : UserRow}
      (mem : row ∈ accounts.users) (same : row.email = cleanEmail account.email) :
      LeavesRows accounts (.loginWithGoogle (.ok account) drawn seeded)
        (accounts.setUser row.id
          (Accounts.profile (splitName account.name).1 (splitName account.name).2
          account.picture).stored)
  | reset (token : Str) {newPassword salt : Str} (id : Uuid) :
      LeavesRows accounts (.resetPassword token newPassword salt)
        (accounts.setUser id
          { Columns.none with password := some (Crates.hashPassword salt newPassword) })
  | created {user : CreateUser} {drawn : Uuid} {salt : Str}
      (accepts : AcceptsCreate accounts user drawn salt) :
      LeavesRows accounts (.createUser user drawn salt)
        ((Accounts.rowOf (UserService.interim user salt) drawn).stored :: accounts.users)
  | updated {id : Uuid} {fields : UpdateUser} {salt : Str} {password : Option Str}
      {statusId : Option Int} (accepts : AcceptsPatch accounts id fields salt)
      (hashed : UserService.hashedPassword salt fields.password = .ok password)
      (known : Accounts.statusOf fields.status = .ok statusId)
      (accepted : accounts.refusesUpdate id
        (Accounts.columnsOf { fields with password } statusId) = none) :
      LeavesRows accounts (.partialUpdate id fields salt)
        (accounts.setUser id (Accounts.columnsOf { fields with password } statusId).stored)
  | deleted (id : Uuid) :
      LeavesRows accounts (.deleteUser id)
        (accounts.setUser id { Columns.none with statusId := some deletedUserStatus })

/-- The store takes the account of a sign up. -/
def AcceptsUser (accounts : Accounts) (user : NewUser) (drawn : Uuid) : Prop :=
  ∃ department, accounts.departmentIds.min? = some department ∧
    accounts.refuses (Accounts.signUpRow user drawn department) = none

section

variable {accounts accounts' : Accounts} {user : NewUser} {drawn : Uuid}

omit [Crates] [Postgres] in
theorem identityByEmail_eq_none {email : Str} (fresh : email ∉ accounts.users.map UserRow.email) :
    accounts.identityByEmail email = none := by
  rw [Accounts.identityByEmail, Option.map_eq_none_iff]
  cases found : accounts.findUserByEmail email with
  | none => rfl
  | some row =>
      rcases Accounts.findUserByEmail_eq_some.mp found with ⟨mem, same⟩
      exact absurd (List.mem_map.mpr ⟨row, mem, same⟩) fresh

omit [Crates] [Postgres] in
theorem refusesNames_signUpRoles : Accounts.refusesNames signUpRoles = false := by decide

omit [Crates] [Postgres] in
theorem createUser_of_accepts (accepts : AcceptsUser accounts user drawn)
    (roles : user.roles = signUpRoles) :
    ∃ accounts' department, accounts.createUser user drawn = .ok accounts' ∧
      accounts'.users = (Accounts.signUpRow user drawn department).stored :: accounts.users ∧
      (Accounts.signUpRow user drawn department).stored ∉ accounts.users ∧
      accounts.identityByEmail user.email = none := by
  rcases accepts with ⟨department, joined, accepted⟩
  rcases Accounts.insertUser_of_accepted accepted with ⟨inserted, ok⟩
  have takes := Accounts.refuses_eq_none_iff.mp accepted
  have added : inserted.addUserRoles drawn user.roles = .ok (inserted.withRoles drawn user.roles) :=
    Accounts.addUserRoles_eq_ok_iff.mpr ⟨roles ▸ refusesNames_signUpRoles, rfl⟩
  refine ⟨inserted.withRoles drawn user.roles, department, ?_,
    (Accounts.insertUser_eq_ok ok).2.1, ?_, identityByEmail_eq_none takes.fresh_email⟩
  · unfold Accounts.createUser
    rw [joined]
    simp only [ok]
    exact added
  · intro mem
    exact takes.id (List.mem_map.mpr ⟨_, mem, rfl⟩)

omit [Crates] [Postgres] in
theorem accepts_of_createUser (ok : accounts.createUser user drawn = .ok accounts') :
    AcceptsUser accounts user drawn := by
  rcases Accounts.createUser_eq_ok ok with ⟨department, first, accepted, -⟩
  exact ⟨department, first, accepted⟩

end

variable {lives : TokenLives} {state : AuthState} {now : Timestamp}

theorem users_generateToken {email password : Str} :
    (generateToken lives state now email password).1.accounts = state.accounts := by
  unfold generateToken
  split
  · rfl
  · split
    · rfl
    · rfl

omit [Crates] in
theorem users_refreshToken {token : Token} :
    (refreshToken lives state now token).1.accounts = state.accounts := by
  unfold refreshToken
  split
  · rfl
  · rfl

omit [Crates] [Postgres] in
theorem followGoogleProfile_users {user : Identity} {account : GoogleAccount} {state' : AuthState}
    (ok : followGoogleProfile state user account = .ok state') :
    state'.accounts.users = state.accounts.users ∨
      state'.accounts.users = state.accounts.setUser user.id
        (Accounts.profile (splitName account.name).1
          (splitName account.name).2 account.picture).stored := by
  unfold followGoogleProfile at ok
  simp only at ok
  split at ok
  · cases ok
    exact .inl rfl
  · split at ok
    · cases ok
    · rename_i updated
      cases ok
      exact .inr (Accounts.updateUser_eq_ok updated).2.1

theorem leavesRows_register {registration : Registration} {drawn : Uuid} {salt : Str}
    {seeded : Except Error Unit} :
    LeavesRows state.accounts (.register registration drawn salt seeded)
      (register lives state now registration drawn salt seeded).1.accounts.users := by
  unfold register
  split
  · exact .unchanged _
  · rename_i valid
    split
    · exact .unchanged _
    · split
      · exact .unchanged _
      · exact .unchanged _
      · rename_i accounts' created
        rcases Accounts.createUser_eq_ok created with ⟨department, first, accepted, users⟩
        have inserted : LeavesRows state.accounts (.register registration drawn salt seeded)
            accounts'.users := by
          rw [users]
          exact .registered seeded department valid first accepted
        split
        · exact inserted
        · exact inserted

omit [Postgres] in
theorem leavesRows_createGoogleUser {account : GoogleAccount} (drawn : Uuid)
    (seeded : Except Error Unit) (verified : account.emailVerified = true)
    (missing : state.accounts.identityByEmail (cleanEmail account.email) = none) :
    LeavesRows state.accounts (.loginWithGoogle (.ok account) drawn seeded)
      (createGoogleUser state (cleanEmail account.email) account drawn seeded).1.accounts.users :=
    by
  unfold createGoogleUser
  split
  · rename_i created
    rcases Accounts.createUser_eq_ok created with ⟨department, first, accepted, users⟩
    rw [users]
    exact .joined seeded department verified first accepted
  · rw [missing]
    exact .unchanged _
  · exact .unchanged _

theorem leavesRows_loginWithGoogle {account : Except Error GoogleAccount} {drawn : Uuid}
    {seeded : Except Error Unit} :
    LeavesRows state.accounts (.loginWithGoogle account drawn seeded)
      (loginWithGoogle lives state now account drawn seeded).1.accounts.users := by
  unfold loginWithGoogle
  split
  · exact .unchanged _
  · rename_i account
    split
    · exact .unchanged _
    · rename_i verified
      rw [Bool.not_eq_true', Bool.not_eq_false] at verified
      split
      · rename_i identity found
        rcases Option.map_eq_some_iff.mp found with ⟨row, rowFound, rfl⟩
        rcases Accounts.findUserByEmail_eq_some.mp rowFound with ⟨mem, same⟩
        split
        · exact .unchanged _
        · rename_i state' followed
          change LeavesRows _ _ state'.accounts.users
          rcases followGoogleProfile_users followed with kept | written
          · rw [kept]
            exact .unchanged _
          · rw [written]
            exact .profiled drawn seeded mem same
      · rename_i missing
        have created := leavesRows_createGoogleUser drawn seeded verified missing
        split
        · rename_i outcome
          rwa [outcome] at created
        · rename_i outcome
          rwa [outcome] at created

omit [Postgres] in
theorem leavesRows_resetPassword {token newPassword salt : Str} :
    LeavesRows state.accounts (.resetPassword token newPassword salt)
      (resetPassword state now token newPassword salt).1.accounts.users := by
  unfold resetPassword
  split
  · exact .unchanged _
  · rename_i reset _
    split
    · exact .unchanged _
    · split
      · exact .unchanged _
      · rename_i accounts' written
        change LeavesRows _ _ accounts'.users
        unfold Accounts.resetPassword at written
        split at written
        · cases written
          exact .unchanged _
        · rw [(Accounts.updateUser_eq_ok written).2.1]
          exact .reset token _

omit [Postgres] in
theorem users_passwordRecovery {email token : Str} {sent : Except Error Unit} :
    (passwordRecovery state now email token sent).1.accounts.users = state.accounts.users := by
  unfold passwordRecovery
  split
  · rfl
  · rfl

omit [Postgres] in
theorem leavesRows_createUser {accounts accounts' : Accounts} {user : CreateUser}
    {drawn created : Uuid} {salt : Str}
    (ok : UserService.create accounts user drawn salt = .ok (accounts', created)) :
    LeavesRows accounts (.createUser user drawn salt) accounts'.users := by
  rcases create_eq_ok ok with ⟨accepts, inserted, -, -, users, rfl⟩
  rw [Accounts.users_withRoles, users]
  exact .created accepts

omit [Postgres] in
theorem leavesRows_partialUpdate {accounts accounts' : Accounts} {id : Uuid} {fields : UpdateUser}
    {salt : Str} (ok : UserService.partialUpdate accounts id fields salt = .ok accounts') :
    LeavesRows accounts (.partialUpdate id fields salt) accounts'.users := by
  rcases partialUpdate_eq_ok ok with ⟨accepts, updated, password, hashed, written, rfl⟩
  rw [Accounts.users_withoutRoles, Accounts.users_withRoles]
  unfold Accounts.partialUpdate at written
  split at written
  · cases written
    exact .unchanged _
  · rcases exists_of_bind_eq_ok written with ⟨statusId, known, written⟩
    rcases Accounts.updateUser_eq_ok (eq_ok_of_mapError_eq_ok written) with ⟨accepted, users, -⟩
    rw [users]
    exact .updated accepts hashed known accepted

omit [Postgres] in
theorem leavesRows_deleteUser {accounts accounts' : Accounts} {id : Uuid}
    (ok : UserService.delete accounts id = .ok accounts') :
    LeavesRows accounts (.deleteUser id) accounts'.users := by
  rcases exists_of_bind_eq_ok ok with ⟨row, -, ok⟩
  have written := eq_ok_of_mapError_eq_ok (eq_ok_of_mapError_eq_ok ok)
  rw [(Accounts.updateUser_eq_ok written).2.1]
  exact .deleted id

/-- Every call leaves the rows by one of the statements. -/
theorem leavesRows_step (lives : TokenLives) (state : AuthState) (call : AuthCall) :
    LeavesRows state.accounts call.operation
      ((authService lives).step state call).1.accounts.users := by
  rcases call with ⟨operation, now⟩
  cases operation with
  | generateToken email password =>
      change LeavesRows _ _ (generateToken lives state now email password).1.accounts.users
      rw [users_generateToken]
      exact .unchanged _
  | register registration drawn salt seeded => exact leavesRows_register
  | refreshToken token =>
      change LeavesRows _ _ (refreshToken lives state now token).1.accounts.users
      rw [users_refreshToken]
      exact .unchanged _
  | loginWithGoogle account drawn seeded => exact leavesRows_loginWithGoogle
  | getIdentity token => exact .unchanged _
  | passwordRecovery email token sent =>
      change LeavesRows _ _ (passwordRecovery state now email token sent).1.accounts.users
      rw [users_passwordRecovery]
      exact .unchanged _
  | resetPassword token newPassword salt => exact leavesRows_resetPassword
  | createUser user drawn salt =>
      change LeavesRows _ _ (written state AuthAnswer.created
        (UserService.create state.accounts user drawn salt)).1.accounts.users
      cases outcome : UserService.create state.accounts user drawn salt with
      | error failure => exact .unchanged _
      | ok result => exact leavesRows_createUser outcome
  | findUserById id => exact .unchanged _
  | partialUpdate id fields salt =>
      change LeavesRows _ _ (written state (fun _ => AuthAnswer.done)
        ((UserService.partialUpdate state.accounts id fields salt).map fun accounts =>
          (accounts, ()))).1.accounts.users
      cases outcome : UserService.partialUpdate state.accounts id fields salt with
      | error failure => exact .unchanged _
      | ok accounts' => exact leavesRows_partialUpdate outcome
  | deleteUser id =>
      change LeavesRows _ _ (written state (fun _ => AuthAnswer.done)
        ((UserService.delete state.accounts id).map fun accounts =>
          (accounts, ()))).1.accounts.users
      cases outcome : UserService.delete state.accounts id with
      | error failure => exact .unchanged _
      | ok accounts' => exact leavesRows_deleteUser outcome

end

end SchemaForge.Iam
