import SchemaForge.Iam.Rows
import SchemaForge.Repository.UuidText

/-!
# What a deleted account may still do

Deleting an account flips its status and leaves the rest of its row. The lookups
of the authentication service do not read the status: as long as the status is
left alone, whoever presents what the account would be admitted by is admitted.
-/

namespace SchemaForge.Iam

open Repository AuthService

/-- The account has the status of a deleted one. -/
def IsDeleted (accounts : Accounts) (user : Uuid) : Prop :=
  ∃ row ∈ accounts.users, row.id = user ∧ row.statusId = deletedUserStatus

/-- The profile is the row's already, or the row can take it. -/
def ProfileFits (accounts : Accounts) (row : UserRow) (account : GoogleAccount) : Prop :=
  (row.firstName = (splitName account.name).1 ∧ row.lastName = (splitName account.name).2 ∧
    row.avatarUrl = account.picture) ∨
    accounts.refusesUpdate row.id
      (Accounts.profile (splitName account.name).1 (splitName account.name).2
      account.picture) = none

section Calls

variable [Crates] [Postgres]

/-- The answer carries tokens of the account, or its identity. -/
def Admits (user : Uuid) : Except Error AuthAnswer → Prop
  | .ok (.tokens tokens) =>
      userIdOf tokens.token.claims = some user ∨ userIdOf tokens.refreshToken.claims = some user
  | .ok (.identity identity) => identity.id = user
  | _ => False

/-- The call presents what the row of the account is admitted by: its address and its password, one
of its tokens, or a Google account with its address. -/
def Presents (state : AuthState) (user : Uuid) (call : AuthCall) : Prop :=
  ∃ row ∈ state.accounts.users, row.id = user ∧
    match call.operation with
    | .generateToken email password =>
        row.email = email ∧ row.password ≠ [] ∧ Crates.verifyPassword password row.password = true
    | .refreshToken token | .getIdentity token =>
        token ∈ state.issued ∧ call.now ≤ token.expiresAt ∧ userIdOf token.claims = some user
    | .loginWithGoogle (.ok account) _ _ =>
        account.emailVerified = true ∧ row.email = cleanEmail account.email ∧
          ProfileFits state.accounts row account
    | _ => False

/--
The call is an update of the account that leaves it another status than that of a deleted one.
-/
def Revives (lives : TokenLives) (user : Uuid) (state : AuthState) (call : AuthCall) : Prop :=
  (∃ fields salt, call.operation = .partialUpdate user fields salt) ∧
    ¬ IsDeleted ((authService lives).step state call).1.accounts user

section Answers

variable [UuidText] {lives : TokenLives} {state : AuthState} {now : Timestamp} {user : Uuid}

omit [Crates] in
theorem userIdOf_accessClaims (identity : Identity) :
    userIdOf (accessClaims identity) = some identity.id := by
  change Postgres.parseUuid (Postgres.uuidText identity.id) = _
  exact UuidText.parse_text identity.id

omit [Crates] in
theorem userIdOf_refreshClaims (identity : Identity) :
    userIdOf (refreshClaims identity) = some identity.id := by
  change Postgres.parseUuid (Postgres.uuidText identity.id) = _
  exact UuidText.parse_text identity.id

omit [Crates] in
theorem admits_generateTokens (identity : Identity) :
    Admits user (answered .tokens (generateTokens lives state now identity)).2 ↔
      identity.id = user := by
  change userIdOf (accessClaims identity) = some user ∨
    userIdOf (refreshClaims identity) = some user ↔ _
  rw [userIdOf_accessClaims, userIdOf_refreshClaims, or_self, Option.some.injEq]

theorem admits_generateToken_iff {email password : Str} :
    Admits user (answered .tokens (generateToken lives state now email password)).2 ↔
      Presents state user ⟨.generateToken email password, now⟩ := by
  unfold generateToken Accounts.identityByEmail
  cases found : state.accounts.findUserByEmail email with
  | none =>
      refine ⟨False.elim, ?_⟩
      rintro ⟨row, mem, -, same, -⟩
      rw [Accounts.findUserByEmail_eq_some.mpr ⟨mem, same⟩] at found
      cases found
  | some row =>
      rcases Accounts.findUserByEmail_eq_some.mp found with ⟨mem, same⟩
      by_cases wrong : (row.password.isEmpty || !Crates.verifyPassword password row.password) = true
      · have refused : (state.accounts.enrich row).password.isEmpty ||
            !Crates.verifyPassword password (state.accounts.enrich row).password := wrong
        simp only [Option.map_some, refused, if_true]
        refine ⟨False.elim, ?_⟩
        rintro ⟨row', mem', -, same', present, right⟩
        rw [Accounts.findUserByEmail_eq_some.mpr ⟨mem', same'⟩] at found
        cases found
        rw [right, Bool.not_true, Bool.or_false, List.isEmpty_iff] at wrong
        exact present wrong
      · have accepted : ¬ ((state.accounts.enrich row).password.isEmpty ||
            !Crates.verifyPassword password (state.accounts.enrich row).password) = true := wrong
        simp only [Option.map_some, accepted]
        rw [Bool.or_eq_true, not_or, List.isEmpty_iff, Bool.not_eq_true',
          Bool.not_eq_false] at wrong
        refine (admits_generateTokens _).trans ⟨?_, ?_⟩
        · rintro rfl
          exact ⟨row, mem, rfl, same, wrong⟩
        · rintro ⟨row', mem', rfl, same', -⟩
          rw [Accounts.findUserByEmail_eq_some.mpr ⟨mem', same'⟩] at found
          cases found
          rfl

theorem admits_refreshToken_iff {token : Token} :
    Admits user (answered .tokens (refreshToken lives state now token)).2 ↔
      Presents state user ⟨.refreshToken token, now⟩ := by
  unfold refreshToken
  cases outcome : (do requireUserById state (← userIdFrom state now token)) with
  | error failure =>
      refine ⟨False.elim, ?_⟩
      rintro ⟨row, mem, rfl, named⟩
      rw [opens_iff.mpr ⟨row, mem, rfl, named⟩] at outcome
      cases outcome
  | ok identity =>
      rcases opens_iff.mp outcome with ⟨row, mem, rfl, issued, unexpired, named⟩
      refine (admits_generateTokens _).trans ⟨?_, ?_⟩
      · rintro rfl
        exact ⟨row, mem, rfl, issued, unexpired, named⟩
      · rintro ⟨row', -, rfl, -, -, named'⟩
        exact Option.some.inj (named.symm.trans named')

omit [UuidText] in
theorem admits_getIdentity_iff {token : Token} :
    Admits user ((getIdentity state now token).map .identity) ↔
      Presents state user ⟨.getIdentity token, now⟩ := by
  unfold getIdentity
  cases outcome : (do requireUserById state (← userIdFrom state now token)) with
  | error failure =>
      refine ⟨False.elim, ?_⟩
      rintro ⟨row, mem, rfl, named⟩
      rw [opens_iff.mpr ⟨row, mem, rfl, named⟩] at outcome
      cases outcome
  | ok identity =>
      rcases opens_iff.mp outcome with ⟨row, mem, rfl, issued, unexpired, named⟩
      constructor
      · rintro rfl
        exact ⟨row, mem, rfl, issued, unexpired, named⟩
      · rintro ⟨row', -, rfl, -, -, named'⟩
        exact Option.some.inj (named.symm.trans named')

omit [Crates] [Postgres] [UuidText] in
theorem followGoogleProfile_ok_iff {row : UserRow} {account : GoogleAccount} :
    (∃ state', followGoogleProfile state (state.accounts.enrich row) account = .ok state') ↔
      ProfileFits state.accounts row account := by
  unfold followGoogleProfile ProfileFits
  by_cases same : row.firstName = (splitName account.name).1 ∧
      row.lastName = (splitName account.name).2 ∧ row.avatarUrl = account.picture
  · have kept : (state.accounts.enrich row).firstName = (splitName account.name).1 ∧
        (state.accounts.enrich row).lastName = (splitName account.name).2 ∧
        (state.accounts.enrich row).avatarUrl = account.picture := same
    simp only [kept, and_self, if_true]
    exact ⟨fun _ => .inl same, fun _ => ⟨state, rfl⟩⟩
  · have differs : ¬ ((state.accounts.enrich row).firstName = (splitName account.name).1 ∧
        (state.accounts.enrich row).lastName = (splitName account.name).2 ∧
        (state.accounts.enrich row).avatarUrl = account.picture) := same
    simp only [differs, if_false]
    cases outcome : state.accounts.updateUser (state.accounts.enrich row).id
        (Accounts.profile (splitName account.name).1
          (splitName account.name).2 account.picture) with
    | error refusal =>
        refine ⟨nofun, ?_⟩
        rintro (impossible | accepted)
        · exact absurd impossible same
        · rcases Accounts.updateUser_of_accepted accepted with ⟨accounts', ok⟩
          cases outcome.symm.trans ok
    | ok accounts' =>
        exact ⟨fun _ => .inr (Accounts.updateUser_eq_ok outcome).1, fun _ => ⟨_, rfl⟩⟩

omit [Crates] [Postgres] [UuidText] in
/-- The identity of a new account is not that of an account with a row. -/
theorem createGoogleUser_id {email : Str} {account : GoogleAccount} {drawn : Uuid}
    {seeded : Except Error Unit} {identity : Identity}
    (hasRow : ∃ row ∈ state.accounts.users, row.id = user)
    (missing : state.accounts.identityByEmail email = none)
    (ok : (createGoogleUser state email account drawn seeded).2 = .ok identity) :
    identity.id ≠ user := by
  rcases hasRow with ⟨row, mem, rfl⟩
  unfold createGoogleUser at ok
  cases created : state.accounts.createUser (googleUser email account) drawn with
  | ok accounts' =>
      rw [created] at ok
      rcases Accounts.createUser_eq_ok created with ⟨department, -, accepted, -⟩
      have fresh := (Accounts.refuses_eq_none_iff.mp accepted).id
      rcases (seedAndReload_eq_ok.mp ok).2 with ⟨row', -, same, rfl⟩
      intro clash
      exact fresh (List.mem_map.mpr ⟨row, mem, clash.symm.trans same⟩)
  | error refusal =>
      rw [created, missing] at ok
      cases refusal <;> cases ok

theorem admits_loginWithGoogle_iff {account : Except Error GoogleAccount} {drawn : Uuid}
    {seeded : Except Error Unit} (hasRow : ∃ row ∈ state.accounts.users, row.id = user) :
    Admits user (answered .tokens (loginWithGoogle lives state now account drawn seeded)).2 ↔
      Presents state user ⟨.loginWithGoogle account drawn seeded, now⟩ := by
  cases account with
  | error failure =>
      refine ⟨False.elim, ?_⟩
      rintro ⟨_, _, _, impossible⟩
      exact impossible
  | ok account =>
      unfold loginWithGoogle
      cases verified : account.emailVerified with
      | false =>
          simp only [verified, Bool.not_false, if_true]
          refine ⟨False.elim, ?_⟩
          rintro ⟨_, _, _, impossible, -⟩
          cases verified.symm.trans impossible
      | true =>
          simp only [verified, Bool.not_true, Bool.false_eq_true, if_false]
          cases found : state.accounts.findUserByEmail (cleanEmail account.email) with
          | none =>
              have missing : state.accounts.identityByEmail (cleanEmail account.email) = none := by
                rw [Accounts.identityByEmail, found, Option.map_none]
              simp only [missing]
              have notPresented :
                  ¬ Presents state user ⟨.loginWithGoogle (.ok account) drawn seeded, now⟩ := by
                rintro ⟨row, mem, -, -, same, -⟩
                rw [Accounts.findUserByEmail_eq_some.mpr ⟨mem, same⟩] at found
                cases found
              refine iff_of_false ?_ notPresented
              split
              · exact id
              · rename_i state' identity outcome
                intro admitted
                have ok : (createGoogleUser state (cleanEmail account.email) account
                    drawn seeded).2 =
                    .ok identity := by
                  rw [outcome]
                exact createGoogleUser_id hasRow missing ok
                  ((admits_generateTokens identity).mp admitted)
          | some row =>
              rcases Accounts.findUserByEmail_eq_some.mp found with ⟨mem, same⟩
              have here : state.accounts.identityByEmail (cleanEmail account.email) =
                  some (state.accounts.enrich row) := by
                rw [Accounts.identityByEmail, found, Option.map_some]
              simp only [here]
              -- the row with the address is the row that the call presents
              have only {row' : UserRow} (mem' : row' ∈ state.accounts.users)
                  (same' : row'.email = cleanEmail account.email) : row = row' := by
                rw [Accounts.findUserByEmail_eq_some.mpr ⟨mem', same'⟩] at found
                exact (Option.some.inj found).symm
              cases outcome : followGoogleProfile state (state.accounts.enrich row) account with
              | error failure =>
                  refine ⟨False.elim, ?_⟩
                  rintro ⟨row', mem', -, -, same', fits⟩
                  rw [← only mem' same'] at fits
                  rcases followGoogleProfile_ok_iff.mpr fits with ⟨_, ok⟩
                  cases outcome.symm.trans ok
              | ok state' =>
                  refine (admits_generateTokens _).trans ⟨?_, ?_⟩
                  · rintro rfl
                    exact ⟨row, mem, rfl, verified, same,
                      followGoogleProfile_ok_iff.mp ⟨_, outcome⟩⟩
                  · rintro ⟨row', mem', rfl, -, same', -⟩
                    rw [only mem' same']
                    rfl

/-- Nobody signs up as an account that has a row. -/
theorem not_admits_register {registration : Registration} {drawn : Uuid} {salt : Str}
    {seeded : Except Error Unit} (hasRow : ∃ row ∈ state.accounts.users, row.id = user) :
    ¬ Admits user
      (answered .tokens (register lives state now registration drawn salt seeded)).2 := by
  rcases hasRow with ⟨row, mem, rfl⟩
  intro admitted
  unfold register at admitted
  split at admitted
  · exact admitted
  · split at admitted
    · exact admitted
    · split at admitted
      · exact admitted
      · exact admitted
      · rename_i accounts' created
        rcases Accounts.createUser_eq_ok created with ⟨department, -, accepted, -⟩
        have fresh := (Accounts.refuses_eq_none_iff.mp accepted).id
        split at admitted
        · exact admitted
        · rename_i identity reloaded
          rcases (seedAndReload_eq_ok.mp reloaded).2 with ⟨row', -, same, rfl⟩
          have clash := (admits_generateTokens _).mp admitted
          exact fresh (List.mem_map.mpr ⟨row, mem, clash.symm.trans same⟩)

omit [Crates] [UuidText] in
theorem not_admits_done {α : Type} {result : Except Error α} :
    ¬ Admits user (result.map fun _ => AuthAnswer.done) := by
  cases result with
  | error failure => exact id
  | ok value => exact id

omit [Crates] [UuidText] in
theorem not_admits_written {α : Type} {answer : α → AuthAnswer}
    {result : Except Error (Accounts × α)} (silent : ∀ value, ¬ Admits user (.ok (answer value))) :
    ¬ Admits user (written state answer result).2 := by
  cases result with
  | error failure => exact id
  | ok value => exact silent value.2

/--
An account with a row is admitted exactly by a call that presents what the row is admitted by.
-/
theorem admits_step_iff {call : AuthCall} (hasRow : ∃ row ∈ state.accounts.users, row.id = user) :
    Admits user ((authService lives).step state call).2 ↔ Presents state user call := by
  rcases call with ⟨operation, now⟩
  cases operation with
  | generateToken email password => exact admits_generateToken_iff
  | refreshToken token => exact admits_refreshToken_iff
  | loginWithGoogle account drawn seeded => exact admits_loginWithGoogle_iff hasRow
  | getIdentity token => exact admits_getIdentity_iff
  | register registration drawn salt seeded =>
      refine iff_of_false (not_admits_register hasRow) ?_
      rintro ⟨_, _, _, impossible⟩
      exact impossible
  | passwordRecovery _ _ _ | resetPassword _ _ _ =>
      refine iff_of_false not_admits_done ?_
      rintro ⟨_, _, _, impossible⟩
      exact impossible
  | createUser _ _ _ | partialUpdate _ _ _ | deleteUser _ =>
      refine iff_of_false (not_admits_written fun _ => id) ?_
      rintro ⟨_, _, _, impossible⟩
      exact impossible
  | findUserById id =>
      refine iff_of_false ?_ ?_
      · change ¬ Admits user ((UserService.findById state.accounts id).map AuthAnswer.user)
        cases UserService.findById state.accounts id with
        | error failure => exact fun impossible => impossible
        | ok found => exact fun impossible => impossible
      · rintro ⟨_, _, _, impossible⟩
        exact impossible

end Answers

variable {lives : TokenLives} {state : AuthState} {user : Uuid} {call : AuthCall}

omit [Crates] [Postgres] in
theorem isDeleted_setUser {accounts accounts' : Accounts} {id : Uuid} {columns : Columns}
    (deleted : IsDeleted accounts user) (users : accounts'.users = accounts.setUser id columns)
    (kept : id = user → columns.statusId.getD deletedUserStatus = deletedUserStatus) :
    IsDeleted accounts' user := by
  rcases deleted with ⟨row, mem, rfl, status⟩
  refine ⟨if row.id = id then columns.set row else row, ?_, ?_, ?_⟩
  · rw [users]
    exact List.mem_map_of_mem mem
  · split
    · exact Columns.set_id columns row
    · rfl
  · split
    · rename_i same
      rw [Columns.set_statusId, status]
      exact kept same.symm
    · exact status

omit [Crates] [Postgres] in
theorem isDeleted_cons {accounts accounts' : Accounts} {row : UserRow}
    (deleted : IsDeleted accounts user) (users : accounts'.users = row :: accounts.users) :
    IsDeleted accounts' user := by
  rcases deleted with ⟨row', mem, same, status⟩
  refine ⟨row', ?_, same, status⟩
  rw [users]
  exact List.mem_cons_of_mem _ mem

/-- A deleted account stays deleted until an update revives it. -/
theorem isDeleted_step (deleted : IsDeleted state.accounts user)
    (left : ¬ Revives lives user state call) :
    IsDeleted ((authService lives).step state call).1.accounts user := by
  rcases call with ⟨operation, now⟩
  have leaves := leavesRows_step lives state ⟨operation, now⟩
  generalize rows : ((authService lives).step state ⟨operation, now⟩).1.accounts.users =
    users at leaves
  cases leaves with
  | unchanged _ => rwa [IsDeleted, rows]
  | registered _ _ _ _ _ | joined _ _ _ _ _ | created _ => exact isDeleted_cons deleted rows
  | profiled _ _ _ _ | reset _ _ | deleted _ => exact isDeleted_setUser deleted rows fun _ => rfl
  | @updated id fields salt password statusId _ _ _ _ =>
      by_contra revived
      by_cases same : id = user
      · cases same
        exact left ⟨⟨fields, salt, rfl⟩, revived⟩
      · exact revived (isDeleted_setUser deleted rows fun impossible => absurd impossible same)

theorem isDeleted_of_deleteUser {now : Timestamp}
    (ok : ((authService lives).step state ⟨.deleteUser user, now⟩).2 = .ok .done) :
    IsDeleted ((authService lives).step state ⟨.deleteUser user, now⟩).1.accounts user := by
  change IsDeleted (written state (fun _ => AuthAnswer.done)
    ((UserService.delete state.accounts user).map fun accounts => (accounts, ()))).1.accounts user
  change (written state (fun _ => AuthAnswer.done)
    ((UserService.delete state.accounts user).map fun accounts => (accounts, ()))).2 = _ at ok
  cases outcome : UserService.delete state.accounts user with
  | error failure =>
      rw [outcome] at ok
      cases ok
  | ok accounts' =>
      rcases exists_of_bind_eq_ok outcome with ⟨_, found, deleted⟩
      rcases UserService.requireUser_isOk_iff.mp ⟨_, found⟩ with ⟨row, mem, rfl, -⟩
      have updated := eq_ok_of_mapError_eq_ok (eq_ok_of_mapError_eq_ok deleted)
      refine ⟨Columns.set { Columns.none with statusId := some deletedUserStatus }
        row, ?_, rfl, rfl⟩
      change _ ∈ accounts'.users
      rw [(Accounts.updateUser_eq_ok updated).2.1]
      exact List.mem_map.mpr ⟨row, mem, if_pos rfl⟩

/-- From its deletion until it is revived, an account is answered to by no call of a run exactly if
no call presents what its row is admitted by; the row bears the status of a deleted account all
along. -/
theorem lockedOut_iff [UuidText] (lives : TokenLives) (state : AuthState) (user : Uuid)
    (now : Timestamp) (calls : List AuthCall)
    (deleted : ((authService lives).step state ⟨.deleteUser user, now⟩).2 = .ok .done)
    (left : (authService lives).Along (fun state call => ¬ Revives lives user state call)
      ((authService lives).step state ⟨.deleteUser user, now⟩).1 calls) :
    ((authService lives).Along
      (fun state call => ¬ Admits user ((authService lives).step state call).2)
        ((authService lives).step state ⟨.deleteUser user, now⟩).1 calls ↔
      (authService lives).Along (fun state call => ¬ Presents state user call)
        ((authService lives).step state ⟨.deleteUser user, now⟩).1 calls) ∧
    IsDeleted ((authService lives).final ((authService lives).step state ⟨.deleteUser user, now⟩).1
      calls).accounts user := by
  have start := isDeleted_of_deleteUser deleted
  have keeps (state : AuthState) (call : AuthCall) (isDeleted : IsDeleted state.accounts user)
      (left : ¬ Revives lives user state call) := isDeleted_step isDeleted left
  refine ⟨?_, left.final (fun state => IsDeleted state.accounts user) keeps start⟩
  refine Machine.along_congr_of_invariant (fun state => IsDeleted state.accounts user)
    keeps ?_ start left
  rintro state call ⟨row, mem, same, -⟩
  exact not_congr (admits_step_iff ⟨row, mem, same⟩)

end Calls

def hourAndDay : TokenLives := ⟨3600, 86400⟩

def annAtGoogle : GoogleAccount := ⟨"ann@example.com", true, "Ann Lee", none⟩

def annSignsIn : AuthCall := ⟨.loginWithGoogle (.ok annAtGoogle) 8 (.ok ()), 20⟩

/-- One account, and the token of an hour that it holds. -/
def signedIn : AuthState where
  accounts := staffOnly
  issued := [⟨@accessClaims asciiDatabase (staffOnly.enrich staffMember), 3600⟩]

abbrev annService : Machine AuthState AuthCall (Except Error AuthAnswer) :=
  @authService asciiCrates asciiDatabase hourAndDay

theorem lockedOut_iff_ann :
    annService.Along (fun state call => ¬ @Admits asciiDatabase 7 (annService.step state call).2)
        (annService.step signedIn ⟨.deleteUser 7, 10⟩).1 [annSignsIn] ↔
      annService.Along (fun state call => ¬ @Presents asciiCrates asciiDatabase state 7 call)
        (annService.step signedIn ⟨.deleteUser 7, 10⟩).1 [annSignsIn] := by
  let _ := asciiCrates
  let _ := asciiDatabase
  have uuidText := asciiUuidText
  have deleted : (annService.step signedIn ⟨.deleteUser 7, 10⟩).2 = .ok .done := rfl
  refine (lockedOut_iff hourAndDay signedIn 7 10 [annSignsIn] deleted ⟨?_, trivial⟩).1
  rintro ⟨⟨_, _, impossible⟩, -⟩
  cases impossible

/-- The deleted account signs in through Google, and the token from before still opens it. -/
theorem deleted_account_admitted :
    (annService.step signedIn ⟨.deleteUser 7, 10⟩).2 = .ok .done ∧
    ∀ call ∈ [annSignsIn,
      ⟨.getIdentity ⟨@accessClaims asciiDatabase (staffOnly.enrich staffMember), 3600⟩, 20⟩],
      @Admits asciiDatabase 7
        (annService.step (annService.step signedIn ⟨.deleteUser 7, 10⟩).1 call).2 := by
  let _ := asciiCrates
  let _ := asciiDatabase
  have uuidText := asciiUuidText
  refine ⟨rfl, ?_⟩
  intro call mem
  have row : ∃ row ∈ (annService.step signedIn ⟨.deleteUser 7, 10⟩).1.accounts.users, row.id = 7 :=
    ⟨_, List.mem_singleton_self _, rfl⟩
  refine (admits_step_iff row).mpr ⟨_, List.mem_singleton_self _, rfl, ?_⟩
  rcases List.mem_pair.mp mem with rfl | rfl
  · refine ⟨rfl, by decide, .inl ?_⟩
    decide
  · refine ⟨List.mem_singleton_self _, by decide, ?_⟩
    exact userIdOf_accessClaims _

end SchemaForge.Iam
