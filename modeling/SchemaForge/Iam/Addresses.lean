import SchemaForge.Iam.Lockout

/-!
# One account for an address

A sign up cleans an address before it is looked up and stored; the user service
stores an address as it comes, less the blanks beyond its column. The index of the
table compares addresses as they stand, so two accounts of one cleaned address can
only come in where an address is stored that some other account has in another
spelling.
-/

namespace SchemaForge.Iam

open Repository AuthService

section

variable [Crates] [Postgres]

/-- No two accounts have one address, cleaned. -/
def OneAccountPerAddress (accounts : Accounts) : Prop :=
  ∀ row ∈ accounts.users, ∀ other ∈ accounts.users,
    cleanEmail row.email = cleanEmail other.email → row.id = other.id

/-- The call stores the address for the account. -/
def StoresAddress (accounts : Accounts) (operation : AuthOperation) (id : Uuid)
    (email : Str) : Prop :=
  match operation with
  | .register registration drawn salt _ =>
      checkRegistration (cleaned registration) = .ok () ∧
        AcceptsUser accounts (registeredUser (cleaned registration) salt) drawn ∧
        id = drawn ∧ email = Varchar.stored 100 (cleanEmail registration.email)
  | .loginWithGoogle (.ok account) drawn _ =>
      account.emailVerified = true ∧
        AcceptsUser accounts (googleUser (cleanEmail account.email) account) drawn ∧
        id = drawn ∧ email = Varchar.stored 100 (cleanEmail account.email)
  | .createUser user drawn salt =>
      AcceptsCreate accounts user drawn salt ∧ id = drawn ∧ email = Varchar.stored 100 user.email
  | .partialUpdate user fields salt =>
      AcceptsPatch accounts user fields salt ∧ id = user ∧
        fields.email.map (Varchar.stored 100) = some email
  | _ => False

/-- The call stores an address that another account has, in this spelling or another. -/
def StoresTwin (state : AuthState) (call : AuthCall) : Prop :=
  ∃ id email, StoresAddress state.accounts call.operation id email ∧
    ∃ row ∈ state.accounts.users, row.id ≠ id ∧ cleanEmail row.email = cleanEmail email

variable {lives : TokenLives} {state : AuthState} {call : AuthCall} {id : Uuid} {email : Str}

omit [Postgres] in
theorem storesAddress_unique {accounts : Accounts} {operation : AuthOperation} {other : Uuid}
    {otherEmail : Str} (first : StoresAddress accounts operation id email)
    (second : StoresAddress accounts operation other otherEmail) : id = other := by
  cases operation with
  | register _ _ _ _ =>
      rcases first with ⟨-, -, rfl, -⟩
      rcases second with ⟨-, -, rfl, -⟩
      rfl
  | createUser _ _ _ | partialUpdate _ _ _ =>
      rcases first with ⟨-, rfl, -⟩
      rcases second with ⟨-, rfl, -⟩
      rfl
  | loginWithGoogle google _ _ =>
      cases google with
      | error failure => exact first.elim
      | ok account =>
          rcases first with ⟨-, -, rfl, -⟩
          rcases second with ⟨-, -, rfl, -⟩
          rfl
  | generateToken _ _ | refreshToken _ | getIdentity _ | passwordRecovery _ _ _
  | resetPassword _ _ _
  | findUserById _ | deleteUser _ => exact first.elim

omit [Crates] [Postgres] in
theorem row_of_setUser {accounts : Accounts} {columns : Columns} {row : UserRow}
    (mem : row ∈ accounts.setUser id columns) : ∃ before ∈ accounts.users, before.id = row.id ∧
      (row.email = before.email ∨ (row.id = id ∧ columns.email = some row.email)) := by
  rcases List.mem_map.mp mem with ⟨before, beforeMem, same⟩
  refine ⟨before, beforeMem, ?_⟩
  split at same
  · rename_i here
    rw [← same]
    refine ⟨rfl, ?_⟩
    rw [Columns.set_email, Columns.set_id]
    cases columns.email with
    | none => exact .inl rfl
    | some email => exact .inr ⟨here, rfl⟩
  · rw [← same]
    exact ⟨rfl, .inl rfl⟩

/--
Every row after a call has the id and the address of one before, or an address that is stored.
-/
theorem row_of_step {row : UserRow}
    (mem : row ∈ ((authService lives).step state call).1.accounts.users) :
    (∃ before ∈ state.accounts.users, before.id = row.id ∧ before.email = row.email) ∨
      StoresAddress state.accounts call.operation row.id row.email := by
  rcases call with ⟨operation, now⟩
  have leaves := leavesRows_step lives state ⟨operation, now⟩
  generalize ((authService lives).step state ⟨operation, now⟩).1.accounts.users =
    users at leaves mem
  have inserted {new : UserRow} (mem : row ∈ new :: state.accounts.users)
      (stores : StoresAddress state.accounts operation new.id new.email) :
      (∃ before ∈ state.accounts.users, before.id = row.id ∧ before.email = row.email) ∨
        StoresAddress state.accounts operation row.id row.email := by
    rcases List.mem_cons.mp mem with rfl | mem
    · exact .inr stores
    · exact .inl ⟨row, mem, rfl, rfl⟩
  have kept {user : Uuid} {columns : Columns} (noEmail : columns.email = none)
      (mem : row ∈ state.accounts.setUser user columns) :
      (∃ before ∈ state.accounts.users, before.id = row.id ∧ before.email = row.email) ∨
        StoresAddress state.accounts operation row.id row.email := by
    rcases row_of_setUser mem with ⟨before, beforeMem, sameId, sameEmail | ⟨-, set⟩⟩
    · exact .inl ⟨before, beforeMem, sameId, sameEmail.symm⟩
    · rw [noEmail] at set
      cases set
  cases leaves with
  | unchanged _ => exact .inl ⟨row, mem, rfl, rfl⟩
  | registered seeded department valid first accepted =>
      exact inserted mem ⟨valid, ⟨department, first, accepted⟩, rfl, rfl⟩
  | joined seeded department verified first accepted =>
      exact inserted mem ⟨verified, ⟨department, first, accepted⟩, rfl, rfl⟩
  | created accepts => exact inserted mem ⟨accepts, rfl, rfl⟩
  | profiled _ _ _ _ | reset _ _ | deleted _ => exact kept rfl mem
  | updated accepts hashed known accepted =>
      rcases row_of_setUser mem with ⟨before, beforeMem, sameId, sameEmail | ⟨sameUser, set⟩⟩
      · exact .inl ⟨before, beforeMem, sameId, sameEmail.symm⟩
      · exact .inr ⟨accepts, sameUser, set⟩

/-- An accepted registration stores its row, whatever comes of the sample. -/
theorem users_register {registration : Registration} {drawn : Uuid} {salt : Str}
    {seeded : Except Error Unit} {now : Timestamp}
    (valid : checkRegistration (cleaned registration) = .ok ())
    (accepts : AcceptsUser state.accounts (registeredUser (cleaned registration) salt) drawn) :
    ∃ department, (register lives state now registration drawn salt seeded).1.accounts.users =
      (Accounts.signUpRow (registeredUser (cleaned registration) salt) drawn department).stored ::
        state.accounts.users := by
  rcases createUser_of_accepts accepts rfl with ⟨accounts', department, created, users, -, missing⟩
  have free : (state.accounts.identityByEmail (cleaned registration).email).isSome = false := by
    rw [show (cleaned registration).email = (registeredUser (cleaned registration) salt).email
      from rfl, missing]
    rfl
  refine ⟨department, ?_⟩
  unfold register
  simp only [valid, free, Bool.false_eq_true, if_false, created]
  split
  · exact users
  · exact users

/-- An accepted Google account stores its row, whatever comes of the sample. -/
theorem users_loginWithGoogle {account : GoogleAccount} {drawn : Uuid} {seeded : Except Error Unit}
    {now : Timestamp} (verified : account.emailVerified = true)
    (accepts : AcceptsUser state.accounts (googleUser (cleanEmail account.email) account) drawn) :
    ∃ department, (loginWithGoogle lives state now (.ok account) drawn seeded).1.accounts.users =
      (Accounts.signUpRow (googleUser (cleanEmail account.email) account) drawn
        department).stored ::
        state.accounts.users := by
  rcases createUser_of_accepts accepts rfl with ⟨accounts', department, created, users, -, missing⟩
  have free : state.accounts.identityByEmail (cleanEmail account.email) = none := missing
  refine ⟨department, ?_⟩
  unfold loginWithGoogle createGoogleUser
  simp only [verified, Bool.not_true, Bool.false_eq_true, if_false, free, created]
  split
  · rename_i outcome
    rcases Prod.mk.inj outcome with ⟨rfl, -⟩
    exact users
  · rename_i outcome
    rcases Prod.mk.inj outcome with ⟨rfl, -⟩
    exact users

omit [Postgres] in
/-- An accepted update writes the columns it names. -/
theorem users_partialUpdate {accounts : Accounts} {fields : UpdateUser} {salt : Str}
    (accepts : AcceptsPatch accounts id fields salt)
    (set : fields.email.map (Varchar.stored 100) = some email) :
    ∃ accounts' columns, UserService.partialUpdate accounts id fields salt = .ok accounts' ∧
      accounts'.users = accounts.setUser id columns ∧ columns.email = some email := by
  rcases partialUpdate_of_accepts accepts with ⟨accounts', ok⟩
  rcases partialUpdate_eq_ok ok with ⟨-, updated, password, hashed, written, rfl⟩
  have changes : ¬ UpdateUser.hasNoColumnChanges { fields with password } = true := by
    rcases Option.map_eq_some_iff.mp set with ⟨given, asked, -⟩
    simp [UpdateUser.hasNoColumnChanges, asked]
  rw [Accounts.partialUpdate, if_neg changes] at written
  rcases exists_of_bind_eq_ok written with ⟨statusId, known, written⟩
  have users := (Accounts.updateUser_eq_ok (eq_ok_of_mapError_eq_ok written)).2.1
  exact ⟨_, (Accounts.columnsOf { fields with password } statusId).stored, ok, users, set⟩

/-- What is stored is there after the call, and so are the rows of others. -/
theorem step_of_storesAddress (lives : TokenLives)
    (stores : StoresAddress state.accounts call.operation id email) :
    (∃ row ∈ ((authService lives).step state call).1.accounts.users, row.id = id ∧
      row.email = email) ∧
      ∀ row ∈ state.accounts.users, row.id ≠ id →
        row ∈ ((authService lives).step state call).1.accounts.users := by
  rcases call with ⟨operation, now⟩
  have inserted {new : UserRow}
      (rows : ((authService lives).step state ⟨operation, now⟩).1.accounts.users =
      new :: state.accounts.users) (sameId : new.id = id) (sameEmail : new.email = email) :
      (∃ row ∈ ((authService lives).step state ⟨operation, now⟩).1.accounts.users, row.id = id ∧
        row.email = email) ∧
        ∀ row ∈ state.accounts.users, row.id ≠ id →
          row ∈ ((authService lives).step state ⟨operation, now⟩).1.accounts.users := by
    rw [rows]
    exact ⟨⟨new, List.mem_cons_self, sameId, sameEmail⟩, fun row mem _ =>
      List.mem_cons_of_mem _ mem⟩
  cases operation with
  | register registration drawn salt seeded =>
      rcases stores with ⟨valid, accepts, rfl, rfl⟩
      rcases users_register valid accepts with ⟨department, rows⟩
      exact inserted rows rfl rfl
  | loginWithGoogle google drawn seeded =>
      cases google with
      | error failure => exact stores.elim
      | ok account =>
          rcases stores with ⟨verified, accepts, rfl, rfl⟩
          rcases users_loginWithGoogle verified accepts with ⟨department, rows⟩
          exact inserted rows rfl rfl
  | createUser user drawn salt =>
      rcases stores with ⟨accepts, rfl, rfl⟩
      rcases create_of_accepted accepts with ⟨accounts', ok⟩
      rcases create_eq_ok ok with ⟨-, stored, -, -, users, rfl⟩
      have rows : (written state AuthAnswer.created
          (UserService.create state.accounts user id salt)).1.accounts.users =
          (Accounts.rowOf (UserService.interim user salt) id).stored :: state.accounts.users := by
        rw [ok]
        exact users
      exact inserted rows rfl rfl
  | partialUpdate user fields salt =>
      rcases stores with ⟨accepts, rfl, set⟩
      rcases users_partialUpdate accepts set with ⟨accounts', columns, ok, rows, setEmail⟩
      change (∃ row ∈ (written state (fun _ => AuthAnswer.done)
        ((UserService.partialUpdate state.accounts id fields salt).map fun accounts =>
          (accounts, ()))).1.accounts.users, _) ∧ ∀ row ∈ state.accounts.users, row.id ≠ id →
          row ∈ (written state (fun _ => AuthAnswer.done)
            ((UserService.partialUpdate state.accounts id fields salt).map fun accounts =>
              (accounts, ()))).1.accounts.users
      rw [ok]
      change (∃ row ∈ accounts'.users, _) ∧ ∀ row ∈ state.accounts.users, row.id ≠ id →
        row ∈ accounts'.users
      rw [rows]
      rcases accepts.shown with ⟨row, mem, same, -⟩
      constructor
      · refine ⟨columns.set row, List.mem_map.mpr ⟨row, mem, if_pos same⟩, same, ?_⟩
        rw [Columns.set_email, setEmail, Option.getD_some]
      · exact fun other otherMem different => List.mem_map.mpr ⟨other, otherMem, if_neg different⟩
  | generateToken _ _ | refreshToken _ | getIdentity _ | passwordRecovery _ _ _
  | resetPassword _ _ _
  | findUserById _ | deleteUser _ => exact stores.elim

theorem oneAccountPerAddress_step_iff (distinct : OneAccountPerAddress state.accounts) :
    OneAccountPerAddress ((authService lives).step state call).1.accounts ↔
      ¬ StoresTwin state call := by
  constructor
  · rintro kept ⟨id, email, stores, row, mem, other, same⟩
    rcases step_of_storesAddress lives stores with ⟨⟨stored, storedMem, rfl, rfl⟩, rest⟩
    exact other (kept row (rest row mem other) stored storedMem same)
  · intro noTwin row mem other otherMem same
    by_contra different
    rcases row_of_step mem with ⟨before, beforeMem, sameId, sameEmail⟩ | stores
    · rcases row_of_step otherMem with
        ⟨otherBefore, otherBeforeMem, otherId, otherEmail⟩ | otherStores
      · rw [← sameEmail, ← otherEmail] at same
        have ids := distinct before beforeMem otherBefore otherBeforeMem same
        exact different (sameId.symm.trans (ids.trans otherId))
      · rw [← sameEmail] at same
        exact noTwin ⟨_, _, otherStores, before, beforeMem, fun ids =>
          different (sameId.symm.trans ids), same⟩
    · rcases row_of_step otherMem with
        ⟨otherBefore, otherBeforeMem, otherId, otherEmail⟩ | otherStores
      · rw [← otherEmail] at same
        exact noTwin ⟨_, _, stores, otherBefore, otherBeforeMem,
          fun ids => different (ids.symm.trans otherId), same.symm⟩
      · exact different (storesAddress_unique stores otherStores)

/-- Along a run from accounts of different addresses no two ever have one address, cleaned, exactly
if no call stores an address that another account has in some spelling. -/
theorem oneAccountPerAddress_run_iff (lives : TokenLives) (state : AuthState)
    (calls : List AuthCall) (start : OneAccountPerAddress state.accounts) :
    (authService lives).Along (fun state call =>
        OneAccountPerAddress ((authService lives).step state call).1.accounts) state calls ↔
      (authService lives).Along (fun state call => ¬ StoresTwin state call) state calls :=
  Machine.along_invariant_iff (fun state : AuthState => OneAccountPerAddress state.accounts)
    (fun _ _ distinct => oneAccountPerAddress_step_iff distinct) start

end

/-- An account for Ann that an administrator makes, under the address as they spell it. -/
def annAgain (email : Str) : AuthCall where
  operation :=
    .createUser ⟨"ann2", [], email, "Sup3r$ecret", "Ann", "Lee", activeUserStatus, 1, []⟩ 8 []
  now := 5

theorem oneAccountPerAddress_staffOnly : @OneAccountPerAddress asciiCrates staffOnly := by
  intro row mem other otherMem _
  rw [List.mem_singleton.mp mem, List.mem_singleton.mp otherMem]

theorem oneAccountPerAddress_run_ann :
    annService.Along
      (fun state call => @OneAccountPerAddress asciiCrates (annService.step state call).1.accounts)
        ⟨staffOnly, []⟩ [annAgain "ann.lee@example.com"] ↔
      annService.Along (fun state call => ¬ @StoresTwin asciiCrates state call) ⟨staffOnly, []⟩
        [annAgain "ann.lee@example.com"] := by
  let _ := asciiCrates
  let _ := asciiDatabase
  exact oneAccountPerAddress_run_iff hourAndDay ⟨staffOnly, []⟩ [annAgain "ann.lee@example.com"]
    oneAccountPerAddress_staffOnly

/-- The index does not see that both spellings are one address. -/
theorem not_oneAccountPerAddress_ann :
    @OneAccountPerAddress asciiCrates staffOnly ∧
      ¬ @OneAccountPerAddress asciiCrates
        (annService.step ⟨staffOnly, []⟩ (annAgain "Ann@Example.com")).1.accounts := by
  refine ⟨oneAccountPerAddress_staffOnly, ?_⟩
  intro distinct
  have same :=
    distinct _ List.mem_cons_self _ (List.mem_cons_of_mem _ List.mem_cons_self) (by decide)
  revert same
  decide

end SchemaForge.Iam
