import SchemaForge.Iam.Rows
import SchemaForge.Repository.UuidText

/-!
# Signing up, with failures

A sign up commits the account and then takes further steps that can fail: the
sample schema is stored, the account is read back and the tokens are signed. Here
every step may fail from outside, and the schema service may answer anything.
-/

namespace SchemaForge.Iam

open Repository AuthService

/-- The steps of a sign up that can fail from outside. -/
inductive SignUpStep where
  | lookup | hash | insert | lookupAgain | reload | update | sign
deriving DecidableEq

/-- What a sign up meets outside: the steps that fail, what is drawn, and the schema service. -/
structure Outside (Schemas : Type) where
  fails : SignUpStep → Bool
  drawn : Uuid
  salt : Str
  /-- `SchemaService::create`, on the sample. -/
  createSample : Schemas → Uuid → Schemas × Except Error Unit

structure SignUpState (Schemas : Type) where
  auth : AuthState
  schemas : Schemas

/-- A step that fails ends the call with an unknown error; the state is what it was by then. -/
def orUnknown {Schemas α : Type} (failed : Bool) (state : SignUpState Schemas)
    (next : SignUpState Schemas × Except Error α) : SignUpState Schemas × Except Error α :=
  if failed then (state, .error unknown) else next

namespace SignUp

section

variable [Crates] [Postgres] {Schemas : Type}

def generateTokens (lives : TokenLives) (outside : Outside Schemas) (state : SignUpState Schemas)
    (now : Timestamp) (user : Identity) : SignUpState Schemas × Except Error AuthenticationTokens :=
  orUnknown (outside.fails .sign) state
    (let result := AuthService.generateTokens lives state.auth now user
     ({ state with auth := result.1 }, result.2))

/-- The tokens of whoever the steps before came to. -/
def signIn (lives : TokenLives) (outside : Outside Schemas) (now : Timestamp) :
    SignUpState Schemas × Except Error Identity →
      SignUpState Schemas × Except Error AuthenticationTokens
  | (state, .error error) => (state, .error error)
  | (state, .ok user) => generateTokens lives outside state now user

/-- `seed`, and then the account is read back. -/
def seedAndReload (outside : Outside Schemas) (state : SignUpState Schemas) :
    SignUpState Schemas × Except Error Identity :=
  let result := outside.createSample state.schemas outside.drawn
  let seeded := { state with schemas := result.1 }
  match result.2 with
  | .error error => (seeded, .error error)
  | .ok _ =>
      orUnknown (outside.fails .reload) seeded (seeded, requireUserById seeded.auth outside.drawn)

def followGoogleProfile (outside : Outside Schemas) (state : SignUpState Schemas) (user : Identity)
    (account : GoogleAccount) : SignUpState Schemas × Except Error Unit :=
  let name := splitName account.name
  if user.firstName = name.1 ∧ user.lastName = name.2 ∧ user.avatarUrl =
    account.picture then (state, .ok ())
  else
    orUnknown (outside.fails .update) state
      (match state.auth.accounts.updateUser user.id
        (Accounts.profile name.1 name.2 account.picture) with
      | .error _ => (state, .error unknown)
      | .ok accounts => ({ state with auth := { state.auth with accounts } }, .ok ()))

def register (lives : TokenLives) (outside : Outside Schemas) (state : SignUpState Schemas)
    (now : Timestamp) (registration : Registration) :
    SignUpState Schemas × Except Error AuthenticationTokens :=
  match checkRegistration (cleaned registration) with
  | .error error => (state, .error error)
  | .ok _ =>
      orUnknown (outside.fails .lookup) state
        (if (state.auth.accounts.identityByEmail (cleaned registration).email).isSome then
          (state, .error emailTaken)
        else
          orUnknown (outside.fails .hash || outside.fails .insert) state
            (match state.auth.accounts.createUser
              (registeredUser (cleaned registration) outside.salt)
                outside.drawn with
            | .error .unique => (state, .error emailTaken)
            | .error _ => (state, .error unknown)
            | .ok accounts =>
                signIn lives outside now
                  (seedAndReload outside { state with auth := { state.auth with accounts } })))

def createGoogleUser (outside : Outside Schemas) (state : SignUpState Schemas) (email : Str)
    (account : GoogleAccount) : SignUpState Schemas × Except Error Identity :=
  orUnknown (outside.fails .insert) state
    (match state.auth.accounts.createUser (googleUser email account) outside.drawn with
    | .ok accounts => seedAndReload outside { state with auth := { state.auth with accounts } }
    | .error .unique =>
        orUnknown (outside.fails .lookupAgain) state
          (match state.auth.accounts.identityByEmail email with
          | none => (state, .error unknown)
          | some user =>
              match followGoogleProfile outside state user account with
              | (state, .error error) => (state, .error error)
              | (state, .ok _) => (state, .ok user))
    | .error _ => (state, .error unknown))

def loginWithGoogle (lives : TokenLives) (outside : Outside Schemas) (state : SignUpState Schemas)
    (now : Timestamp) (account : Except Error GoogleAccount) :
    SignUpState Schemas × Except Error AuthenticationTokens :=
  match account with
  | .error error => (state, .error error)
  | .ok account =>
      if !account.emailVerified then
        (state, .error (.app 1002 "the google account has no verified email address"))
      else
        orUnknown (outside.fails .lookup) state
          (match state.auth.accounts.identityByEmail (cleanEmail account.email) with
          | some user =>
              match followGoogleProfile outside state user account with
              | (state, .error error) => (state, .error error)
              | (state, .ok _) => generateTokens lives outside state now user
          | none =>
              signIn lives outside now (createGoogleUser outside state (cleanEmail account.email) account))

/-- After a failure there are the accounts and the schemas of before. -/
def AllOrNothing {α : Type} (state : SignUpState Schemas)
    (result : SignUpState Schemas × Except Error α) : Prop :=
  (∃ error, result.2 = .error error) →
    (∀ row, row ∈ result.1.auth.accounts.users ↔ row ∈ state.auth.accounts.users) ∧
      result.1.schemas = state.schemas

/-- The sample is refused, or a step after it fails. -/
def FailsAfterInsert (outside : Outside Schemas) (schemas : Schemas) : Prop :=
  (∃ error, (outside.createSample schemas outside.drawn).2 = .error error) ∨
    outside.fails .reload = true ∨ outside.fails .sign = true

/-- The registration gets as far as an account. -/
def StoresAccount (outside : Outside Schemas) (accounts : Accounts) (registration : Registration) :
    Prop :=
  checkRegistration (cleaned registration) = .ok () ∧ outside.fails .lookup = false ∧
    outside.fails .hash = false ∧ outside.fails .insert = false ∧
    AcceptsUser accounts (registeredUser (cleaned registration) outside.salt) outside.drawn

/-- The Google account gets as far as a new account. -/
def StoresGoogleAccount (outside : Outside Schemas) (accounts : Accounts)
    (account : GoogleAccount) : Prop :=
  account.emailVerified = true ∧ outside.fails .lookup = false ∧ outside.fails .insert = false ∧
    AcceptsUser accounts (googleUser (cleanEmail account.email) account) outside.drawn

/-- The Google account has another profile than the row with its address, which takes it. -/
def WritesProfile (outside : Outside Schemas) (accounts : Accounts) (account : GoogleAccount) :
    Prop :=
  account.emailVerified = true ∧ outside.fails .lookup = false ∧ outside.fails .update = false ∧
    ∃ row ∈ accounts.users, row.email = cleanEmail account.email ∧
      ¬ (row.firstName = (splitName account.name).1 ∧ row.lastName = (splitName account.name).2 ∧
        row.avatarUrl = account.picture) ∧
      accounts.refusesUpdate row.id
        (Accounts.profile (splitName account.name).1 (splitName account.name).2
        account.picture) = none

end

section

variable [Crates] [Postgres] {Schemas : Type} {lives : TokenLives} {outside : Outside Schemas}
  {state : SignUpState Schemas} {now : Timestamp}

omit [Crates] in
theorem accounts_generateTokens {user : Identity} :
    (generateTokens lives outside state now user).1.auth.accounts = state.auth.accounts ∧
      (generateTokens lives outside state now user).1.schemas = state.schemas := by
  unfold generateTokens orUnknown
  split
  · exact ⟨rfl, rfl⟩
  · exact ⟨rfl, rfl⟩

omit [Crates] in
theorem generateTokens_fails_iff {user : Identity} :
    (∃ error, (generateTokens lives outside state now user).2 = .error error) ↔
      outside.fails .sign = true := by
  unfold generateTokens orUnknown
  split
  · rename_i fails
    exact iff_of_true ⟨_, rfl⟩ fails
  · rename_i fails
    exact iff_of_false nofun fails

omit [Crates] in
/-- The account stays, whatever fails after it is stored. -/
theorem accounts_seedAndReload :
    (signIn lives outside now (seedAndReload outside state)).1.auth.accounts =
      state.auth.accounts := by
  have signed (result : SignUpState Schemas × Except Error Identity)
      (kept : result.1.auth.accounts = state.auth.accounts) :
      (signIn lives outside now result).1.auth.accounts = state.auth.accounts := by
    rcases result with ⟨state', failure | user⟩
    · exact kept
    · exact accounts_generateTokens.1.trans kept
  apply signed
  unfold seedAndReload orUnknown
  simp only
  split
  · rfl
  · split
    · rfl
    · rfl

omit [Crates] in
theorem seedAndReload_fails_iff
    (stored : ∃ row ∈ state.auth.accounts.users, row.id = outside.drawn) :
    (∃ error, (signIn lives outside now (seedAndReload outside state)).2 = .error error) ↔
      FailsAfterInsert outside state.schemas := by
  rcases stored with ⟨row, mem, same⟩
  unfold FailsAfterInsert
  cases seeded : (outside.createSample state.schemas outside.drawn).2 with
  | error failure =>
      refine iff_of_true ⟨failure, ?_⟩ (.inl ⟨failure, rfl⟩)
      simp only [seedAndReload, seeded, signIn]
  | ok _ =>
      cases reloads : outside.fails .reload with
      | true =>
          refine iff_of_true ⟨unknown, ?_⟩ (.inr (.inl rfl))
          simp only [seedAndReload, seeded, reloads, orUnknown, if_true, signIn]
      | false =>
          have reloaded : requireUserById { state.auth with accounts := state.auth.accounts }
              outside.drawn =
              .ok (state.auth.accounts.enrich row) :=
                requireUserById_eq_ok.mpr ⟨row, mem, same, rfl⟩
          simp only [seedAndReload, seeded, reloads, orUnknown, Bool.false_eq_true, if_false,
            reloaded, signIn, generateTokens_fails_iff, reduceCtorEq, exists_false, false_or]

variable {registration : Registration}

/-- A registration that does not get as far as an account changes nothing. -/
theorem register_of_not_stored (rest : ¬ StoresAccount outside state.auth.accounts registration) :
    (register lives outside state now registration).1 = state := by
  unfold register
  split
  · rfl
  · rename_i valid
    cases lookup : outside.fails .lookup with
    | true => rfl
    | false =>
        simp only [orUnknown, Bool.false_eq_true, if_false]
        split
        · rfl
        · cases hash : outside.fails .hash with
          | true => rfl
          | false =>
              cases insert : outside.fails .insert with
              | true => rfl
              | false =>
                  simp only [Bool.or_self, Bool.false_eq_true, if_false]
                  split
                  · rfl
                  · rfl
                  · rename_i created
                    exact absurd ⟨valid, lookup, hash, insert, accepts_of_createUser created⟩ rest

theorem register_of_stored (stores : StoresAccount outside state.auth.accounts registration) :
    ∃ accounts' row, row ∉ state.auth.accounts.users ∧ row.id = outside.drawn ∧
      accounts'.users = row :: state.auth.accounts.users ∧
      register lives outside state now registration =
        signIn lives outside now
          (seedAndReload outside
            { state with auth := { state.auth with accounts := accounts' } }) := by
  rcases stores with ⟨valid, lookup, hash, insert, accepts⟩
  rcases createUser_of_accepts accepts rfl with
    ⟨accounts', department, created, users, fresh, missing⟩
  refine ⟨accounts', _, fresh, rfl, users, ?_⟩
  have free : (state.auth.accounts.identityByEmail (cleaned registration).email).isSome = false :=
    by
    rw [show (cleaned registration).email =
      (registeredUser (cleaned registration) outside.salt).email from rfl, missing]
    rfl
  unfold register
  simp only [valid, lookup, hash, insert, free, created, orUnknown, Bool.or_self,
    Bool.false_eq_true, if_false]

omit [Crates] in
/-- An account that is stored and then failed is one too many. -/
theorem allOrNothing_iff_of_stored {accounts' : Accounts} {row : UserRow}
    (fresh : row ∉ state.auth.accounts.users) (drawn : row.id = outside.drawn)
    (users : accounts'.users = row :: state.auth.accounts.users) :
    AllOrNothing state (signIn lives outside now
        (seedAndReload outside { state with auth := { state.auth with accounts := accounts' } })) ↔
      ¬ FailsAfterInsert outside state.schemas := by
  have stored : row ∈ accounts'.users := by
    rw [users]
    exact List.mem_cons_self
  have fails : (∃ error, (signIn lives outside now
      (seedAndReload outside { state with auth := { state.auth with accounts := accounts' } })).2 =
        .error error) ↔
      FailsAfterInsert outside state.schemas := seedAndReload_fails_iff ⟨row, stored, drawn⟩
  constructor
  · intro whole failed
    have same := (whole (fails.mpr failed)).1 row
    rw [accounts_seedAndReload] at same
    exact fresh (same.mp stored)
  · intro succeeds failed
    exact absurd (fails.mp failed) succeeds

theorem register_allOrNothing_iff :
    AllOrNothing state (register lives outside state now registration) ↔
      ¬ (StoresAccount outside state.auth.accounts registration ∧
        FailsAfterInsert outside state.schemas) := by
  by_cases stores : StoresAccount outside state.auth.accounts registration
  · rcases register_of_stored stores with ⟨accounts', row, fresh, drawn, users, same⟩
    rw [same, allOrNothing_iff_of_stored fresh drawn users, not_and]
    exact ⟨fun succeeds _ => succeeds, fun succeeds => succeeds stores⟩
  · refine iff_of_true ?_ fun both => stores both.1
    intro _
    rw [register_of_not_stored stores]
    exact ⟨fun _ => Iff.rfl, rfl⟩

variable {account : GoogleAccount}

omit [Crates] [Postgres] in
/-- The profile of a row is written if it is to change and the row takes it. -/
theorem followGoogleProfile_of_writes {row : UserRow} (mem : row ∈ state.auth.accounts.users)
    (differs : ¬ (row.firstName = (splitName account.name).1 ∧ row.lastName =
      (splitName account.name).2 ∧
      row.avatarUrl = account.picture)) (update : outside.fails .update = false)
    (accepted : state.auth.accounts.refusesUpdate row.id
      (Accounts.profile (splitName account.name).1
      (splitName account.name).2 account.picture) = none) :
    ∃ accounts' row', row' ∈ accounts'.users ∧ row' ∉ state.auth.accounts.users ∧
      followGoogleProfile outside state (state.auth.accounts.enrich row) account =
        ({ state with auth := { state.auth with accounts := accounts' } }, .ok ()) := by
  rcases Accounts.updateUser_of_accepted accepted with ⟨accounts', ok⟩
  have changed : ¬ ((state.auth.accounts.enrich row).firstName = (splitName account.name).1 ∧
      (state.auth.accounts.enrich row).lastName = (splitName account.name).2 ∧
      (state.auth.accounts.enrich row).avatarUrl = account.picture) := differs
  have written : state.auth.accounts.updateUser (state.auth.accounts.enrich row).id
      (Accounts.profile (splitName account.name).1 (splitName account.name).2 account.picture) =
        .ok accounts' := ok
  refine ⟨accounts',
    Columns.set (Accounts.profile (splitName account.name).1 (splitName account.name).2
    account.picture) row, ?_, ?_, ?_⟩
  · rw [(Accounts.updateUser_eq_ok ok).2.1, stored_profile]
    exact List.mem_map.mpr ⟨row, mem, if_pos rfl⟩
  · intro before
    have same := List.inj_on_of_nodup_map state.auth.accounts.userKey before mem rfl
    refine differs ⟨?_, ?_, ?_⟩
    · rw [← same]
      rfl
    · rw [← same]
      rfl
    · rw [← same]
      rfl
  · unfold followGoogleProfile
    simp only [changed, if_false, update, orUnknown, Bool.false_eq_true, written]

omit [Crates] [Postgres] in
theorem followGoogleProfile_of_not_writes {row : UserRow}
    (rest : (row.firstName = (splitName account.name).1 ∧ row.lastName =
      (splitName account.name).2 ∧
        row.avatarUrl = account.picture) ∨ outside.fails .update = true ∨
      state.auth.accounts.refusesUpdate row.id (Accounts.profile (splitName account.name).1
        (splitName account.name).2 account.picture) ≠ none) :
    (followGoogleProfile outside state (state.auth.accounts.enrich row) account).1 = state := by
  unfold followGoogleProfile
  simp only
  split
  · rfl
  · rename_i differs
    cases update : outside.fails .update with
    | true => rfl
    | false =>
        simp only [orUnknown, Bool.false_eq_true, if_false]
        split
        · rfl
        · rename_i written
          rcases rest with same | failed | refused
          · exact absurd same differs
          · rw [update] at failed
            cases failed
          · exact absurd (Accounts.updateUser_eq_ok written).1 refused

theorem loginWithGoogle_of_stored
    (stores : StoresGoogleAccount outside state.auth.accounts account) :
    ∃ accounts' row, row ∉ state.auth.accounts.users ∧ row.id = outside.drawn ∧
      accounts'.users = row :: state.auth.accounts.users ∧
      loginWithGoogle lives outside state now (.ok account) =
        signIn lives outside now
          (seedAndReload outside
            { state with auth := { state.auth with accounts := accounts' } }) := by
  rcases stores with ⟨verified, lookup, insert, accepts⟩
  rcases createUser_of_accepts accepts rfl with
    ⟨accounts', department, created, users, fresh, missing⟩
  refine ⟨accounts', _, fresh, rfl, users, ?_⟩
  have free : state.auth.accounts.identityByEmail (cleanEmail account.email) = none := missing
  unfold loginWithGoogle createGoogleUser
  simp only [verified, lookup, insert, free, created, orUnknown, Bool.not_true,
    Bool.false_eq_true, if_false]

theorem loginWithGoogle_of_writes (writes : WritesProfile outside state.auth.accounts account) :
    ∃ accounts' row' user, row' ∈ accounts'.users ∧ row' ∉ state.auth.accounts.users ∧
      loginWithGoogle lives outside state now (.ok account) =
        generateTokens lives outside
          { state with auth := { state.auth with accounts := accounts' } } now user := by
  rcases writes with ⟨verified, lookup, update, row, mem, same, differs, accepted⟩
  rcases followGoogleProfile_of_writes mem differs update accepted with
    ⟨accounts', row', mem', fresh, followed⟩
  refine ⟨accounts', row', state.auth.accounts.enrich row, mem', fresh, ?_⟩
  have found : state.auth.accounts.identityByEmail (cleanEmail account.email) =
      some (state.auth.accounts.enrich row) := by
    rw [Accounts.identityByEmail, Accounts.findUserByEmail_eq_some.mpr ⟨mem, same⟩, Option.map_some]
  unfold loginWithGoogle
  simp only [verified, lookup, found, followed, orUnknown, Bool.not_true,
    Bool.false_eq_true, if_false]

omit [Crates] in
theorem signIn_of_kept {result : SignUpState Schemas × Except Error Identity}
    (kept : result.1 = state) :
    (signIn lives outside now result).1.auth.accounts = state.auth.accounts ∧
      (signIn lives outside now result).1.schemas = state.schemas := by
  rcases result with ⟨state', failure | user⟩
  · cases kept
    exact ⟨rfl, rfl⟩
  · cases kept
    exact accounts_generateTokens

omit [Crates] [Postgres] in
theorem createGoogleUser_of_not_stored {email : Str}
    (missing : state.auth.accounts.identityByEmail email = none)
    (rest : outside.fails .insert = true ∨
      ¬ AcceptsUser state.auth.accounts (googleUser email account) outside.drawn) :
    (createGoogleUser outside state email account).1 = state := by
  unfold createGoogleUser orUnknown
  split
  · rfl
  · rename_i insert
    split
    · rename_i created
      exact absurd (accepts_of_createUser created) (rest.resolve_left insert)
    · rw [missing]
      split
      · rfl
      · rfl
    · rfl

/--
A sign in that neither makes an account nor writes a profile leaves accounts and schemas alone.
-/
theorem loginWithGoogle_of_neither
    (noAccount : ¬ StoresGoogleAccount outside state.auth.accounts account)
    (noProfile : ¬ WritesProfile outside state.auth.accounts account) :
    (loginWithGoogle lives outside state now (.ok account)).1.auth.accounts = state.auth.accounts ∧
      (loginWithGoogle lives outside state now (.ok account)).1.schemas = state.schemas := by
  unfold loginWithGoogle
  cases verified : account.emailVerified with
  | false =>
      simp only [verified, Bool.not_false, if_true, and_self]
  | true =>
      simp only [verified, Bool.not_true, Bool.false_eq_true, if_false]
      cases lookup : outside.fails .lookup with
      | true => exact ⟨rfl, rfl⟩
      | false =>
          simp only [orUnknown, Bool.false_eq_true, if_false]
          cases found : state.auth.accounts.identityByEmail (cleanEmail account.email) with
          | none =>
              apply signIn_of_kept
              apply createGoogleUser_of_not_stored found
              by_contra both
              rw [not_or, not_not, Bool.not_eq_true] at both
              exact noAccount ⟨verified, lookup, both.1, both.2⟩
          | some user =>
              rcases Option.map_eq_some_iff.mp found with ⟨row, rowFound, rfl⟩
              rcases Accounts.findUserByEmail_eq_some.mp rowFound with ⟨mem, same⟩
              have kept : (followGoogleProfile outside state (state.auth.accounts.enrich row)
                  account).1 = state := by
                apply followGoogleProfile_of_not_writes
                by_contra writes
                rw [not_or, not_or, Bool.not_eq_true, ne_eq, not_not] at writes
                exact noProfile ⟨verified, lookup, writes.2.1, row, mem, same, writes.1, writes.2.2⟩
              rcases outcome :
                followGoogleProfile outside state (state.auth.accounts.enrich row) account with
                ⟨state', failure | _⟩
              · have same : state' = state := (congrArg Prod.fst outcome).symm.trans kept
                simp only [outcome, same, and_self]
              · have same : state' = state := (congrArg Prod.fst outcome).symm.trans kept
                simp only [outcome, same]
                exact accounts_generateTokens

theorem loginWithGoogle_allOrNothing_iff {google : Except Error GoogleAccount} :
    AllOrNothing state (loginWithGoogle lives outside state now google) ↔
      ∀ account, google = .ok account →
        ¬ (StoresGoogleAccount outside state.auth.accounts account ∧
          FailsAfterInsert outside state.schemas) ∧
          ¬ (WritesProfile outside state.auth.accounts account ∧ outside.fails .sign = true) := by
  cases google with
  | error failure => exact iff_of_true (fun _ => ⟨fun _ => Iff.rfl, rfl⟩) nofun
  | ok account =>
      have only : (∀ account', (.ok account : Except Error GoogleAccount) = .ok account' →
          ¬ (StoresGoogleAccount outside state.auth.accounts account' ∧
            FailsAfterInsert outside state.schemas) ∧
            ¬ (WritesProfile outside state.auth.accounts account' ∧ outside.fails .sign = true)) ↔
          ¬ (StoresGoogleAccount outside state.auth.accounts account ∧
            FailsAfterInsert outside state.schemas) ∧
            ¬ (WritesProfile outside state.auth.accounts account ∧ outside.fails .sign = true) :=
        ⟨fun all => all account rfl, fun here account' same => by cases same; exact here⟩
      rw [only]
      by_cases stores : StoresGoogleAccount outside state.auth.accounts account
      · have noProfile : ¬ WritesProfile outside state.auth.accounts account := by
          rintro ⟨-, -, -, row, mem, same, -⟩
          rcases createUser_of_accepts stores.2.2.2 rfl with ⟨_, _, -, -, -, missing⟩
          change state.auth.accounts.identityByEmail (cleanEmail account.email) = none at missing
          rw [Accounts.identityByEmail, Accounts.findUserByEmail_eq_some.mpr ⟨mem, same⟩] at missing
          cases missing
        rcases loginWithGoogle_of_stored stores with ⟨accounts', row, fresh, drawn, users, same⟩
        rw [same, allOrNothing_iff_of_stored fresh drawn users]
        exact ⟨fun succeeds => ⟨fun both => succeeds both.2, fun both => noProfile both.1⟩,
          fun both failed => both.1 ⟨stores, failed⟩⟩
      · by_cases writes : WritesProfile outside state.auth.accounts account
        · rcases loginWithGoogle_of_writes writes with ⟨accounts', row', user, mem, fresh, same⟩
          rw [same]
          constructor
          · refine fun whole => ⟨fun both => stores both.1, fun both => ?_⟩
            have kept := (whole (generateTokens_fails_iff.mpr both.2)).1 row'
            rw [accounts_generateTokens.1] at kept
            exact fresh (kept.mp mem)
          · intro both failed
            exact absurd ⟨writes, generateTokens_fails_iff.mp failed⟩ both.2
        · refine iff_of_true ?_ ⟨fun both => stores both.1, fun both => writes both.1⟩
          intro _
          rcases loginWithGoogle_of_neither stores writes with ⟨accounts, schemas⟩
          rw [accounts]
          exact ⟨fun _ => Iff.rfl, schemas⟩

/-- Whatever the state, the failures and the schema service: a sign up that fails leaves nothing
behind exactly if no account was stored before the failure, and no profile written. -/
theorem signUp_allOrNothing_iff (lives : TokenLives) (outside : Outside Schemas)
    (state : SignUpState Schemas) (now : Timestamp) :
    (∀ registration, AllOrNothing state (register lives outside state now registration) ↔
      ¬ (StoresAccount outside state.auth.accounts registration ∧
        FailsAfterInsert outside state.schemas)) ∧
    ∀ google, AllOrNothing state (loginWithGoogle lives outside state now google) ↔
      ∀ account, google = .ok account →
        ¬ (StoresGoogleAccount outside state.auth.accounts account ∧
          FailsAfterInsert outside state.schemas) ∧
          ¬ (WritesProfile outside state.auth.accounts account ∧ outside.fails .sign = true) :=
  ⟨fun _ => register_allOrNothing_iff, fun _ => loginWithGoogle_allOrNothing_iff⟩

/-- What a call answers, and the accounts and tokens that it leaves. -/
def authResult {α : Type} (result : SignUpState Schemas × Except Error α) :
    AuthState × Except Error α :=
  (result.1.auth, result.2)

omit [Crates] [Postgres] in
theorem authResult_seedAndReload (calm : ∀ step, outside.fails step = false) :
    authResult (seedAndReload outside state) =
      (state.auth, AuthService.seedAndReload state.auth outside.drawn
        (outside.createSample state.schemas outside.drawn).2) := by
  unfold seedAndReload AuthService.seedAndReload
  cases seeded : (outside.createSample state.schemas outside.drawn).2 with
  | error failure =>
      simp only [seeded]
      rfl
  | ok _ =>
      simp only [seeded, orUnknown, calm, Bool.false_eq_true, if_false]
      rfl

omit [Crates] in
theorem authResult_generateTokens (calm : ∀ step, outside.fails step = false) {user : Identity} :
    authResult (generateTokens lives outside state now user) =
      AuthService.generateTokens lives state.auth now user := by
  simp only [generateTokens, orUnknown, calm, Bool.false_eq_true, if_false]
  rfl

omit [Crates] in
theorem authResult_signIn_error {result : SignUpState Schemas × Except Error Identity}
    {auth : AuthState} {failure : Error} (same : authResult result = (auth, .error failure)) :
    authResult (signIn lives outside now result) = (auth, .error failure) := by
  rcases result with ⟨state', answer⟩
  rcases Prod.mk.inj same with ⟨rfl, rfl⟩
  rfl

omit [Crates] in
theorem authResult_signIn_ok (calm : ∀ step, outside.fails step = false)
    {result : SignUpState Schemas × Except Error Identity} {auth : AuthState} {user : Identity}
    (same : authResult result = (auth, .ok user)) :
    authResult (signIn lives outside now result) =
      AuthService.generateTokens lives auth now user := by
  rcases result with ⟨state', answer⟩
  rcases Prod.mk.inj same with ⟨rfl, rfl⟩
  exact authResult_generateTokens calm

/-- Where nothing fails from outside, a registration is what the service makes of it. -/
theorem authResult_register (calm : ∀ step, outside.fails step = false) :
    authResult (register lives outside state now registration) =
      AuthService.register lives state.auth now registration outside.drawn outside.salt
        (outside.createSample state.schemas outside.drawn).2 := by
  unfold register AuthService.register
  simp only [calm, orUnknown, Bool.or_self, Bool.false_eq_true, if_false]
  cases checkRegistration (cleaned registration) with
  | error failure => rfl
  | ok _ =>
      cases (state.auth.accounts.identityByEmail (cleaned registration).email).isSome with
      | true => rfl
      | false =>
          simp only [Bool.false_eq_true, if_false]
          cases state.auth.accounts.createUser (registeredUser (cleaned registration) outside.salt)
              outside.drawn with
          | error refusal =>
              cases refusal with
              | unique | foreignKey | other => rfl
          | ok accounts' =>
              have reloaded : authResult (seedAndReload outside
                  { state with auth := { state.auth with accounts := accounts' } }) = _ :=
                    authResult_seedAndReload calm
              simp only
              cases outcome :
                AuthService.seedAndReload { state.auth with accounts := accounts' } outside.drawn
                  (outside.createSample state.schemas outside.drawn).2 with
              | error failure =>
                  rw [outcome] at reloaded
                  exact authResult_signIn_error reloaded
              | ok user =>
                  rw [outcome] at reloaded
                  exact authResult_signIn_ok calm reloaded

omit [Crates] [Postgres] in
theorem followGoogleProfile_eq (calm : ∀ step, outside.fails step = false)
    (state : SignUpState Schemas) (user : Identity) (account : GoogleAccount) :
    (∃ failure, AuthService.followGoogleProfile state.auth user account = .error failure ∧
        followGoogleProfile outside state user account = (state, .error failure)) ∨
      ∃ auth, AuthService.followGoogleProfile state.auth user account = .ok auth ∧
        followGoogleProfile outside state user account = ({ state with auth }, .ok ()) := by
  unfold followGoogleProfile AuthService.followGoogleProfile
  simp only [calm, orUnknown, Bool.false_eq_true, if_false]
  split
  · exact .inr ⟨state.auth, rfl, rfl⟩
  · cases state.auth.accounts.updateUser user.id
        (Accounts.profile (splitName account.name).1
          (splitName account.name).2 account.picture) with
    | error refusal => exact .inl ⟨unknown, rfl, rfl⟩
    | ok accounts' => exact .inr ⟨_, rfl, rfl⟩

omit [Crates] [Postgres] in
theorem authResult_createGoogleUser (calm : ∀ step, outside.fails step = false)
    (state : SignUpState Schemas) (email : Str) (account : GoogleAccount) :
    authResult (createGoogleUser outside state email account) =
      AuthService.createGoogleUser state.auth email account outside.drawn
        (outside.createSample state.schemas outside.drawn).2 := by
  unfold createGoogleUser AuthService.createGoogleUser
  simp only [calm, orUnknown, Bool.false_eq_true, if_false]
  cases state.auth.accounts.createUser (googleUser email account) outside.drawn with
  | ok accounts' => exact authResult_seedAndReload calm
  | error refusal =>
      cases refusal with
      | foreignKey | other => rfl
      | unique =>
          cases state.auth.accounts.identityByEmail email with
          | none => rfl
          | some user =>
              simp only
              rcases followGoogleProfile_eq calm state user account with
                ⟨failure, service, here⟩ | ⟨auth, service, here⟩
              · rw [service, here]
                rfl
              · rw [service, here]
                rfl

/-- Where nothing fails from outside, a Google sign in is what the service makes of it. -/
theorem authResult_loginWithGoogle (calm : ∀ step, outside.fails step = false)
    {google : Except Error GoogleAccount} :
    authResult (loginWithGoogle lives outside state now google) =
      AuthService.loginWithGoogle lives state.auth now google outside.drawn
        (outside.createSample state.schemas outside.drawn).2 := by
  unfold loginWithGoogle AuthService.loginWithGoogle
  cases google with
  | error failure => rfl
  | ok account =>
      simp only [calm, orUnknown, Bool.false_eq_true, if_false]
      cases account.emailVerified with
      | false => rfl
      | true =>
          simp only [Bool.not_true, Bool.false_eq_true, if_false]
          cases state.auth.accounts.identityByEmail (cleanEmail account.email) with
          | some user =>
              simp only
              rcases followGoogleProfile_eq calm state user account with
                ⟨failure, service, here⟩ | ⟨auth, service, here⟩
              · rw [service, here]
                rfl
              · rw [service, here]
                exact authResult_generateTokens calm
          | none =>
              have created :=
                authResult_createGoogleUser calm state (cleanEmail account.email) account
              simp only
              rcases outcome : AuthService.createGoogleUser state.auth (cleanEmail account.email)
                account outside.drawn
                (outside.createSample state.schemas outside.drawn).2 with ⟨auth, failure | user⟩
              · rw [outcome] at created
                exact authResult_signIn_error created
              · rw [outcome] at created
                exact authResult_signIn_ok calm created

end

def someone : Registration := ⟨"Bo Ray", "bo@example.com", "correct horse"⟩

/-- The schema service is down, and everything else is up. -/
def schemaServiceDown : Outside Unit where
  fails _ := false
  drawn := 8
  salt := []
  createSample schemas _ := (schemas, .error unknown)

/-- The registration fails and leaves an account, so that a second attempt meets a taken address. -/
theorem not_allOrNothing_someone :
    ¬ AllOrNothing ⟨⟨staffOnly, []⟩, ()⟩
        (@register asciiCrates asciiDatabase Unit ⟨3600, 86400⟩ schemaServiceDown
          ⟨⟨staffOnly, []⟩, ()⟩ 20 someone) ∧
      ∃ state, (@register asciiCrates asciiDatabase Unit ⟨3600, 86400⟩ schemaServiceDown
        ⟨⟨staffOnly, []⟩, ()⟩ 20
          someone).1 = state ∧
        (@register asciiCrates asciiDatabase Unit ⟨3600, 86400⟩ schemaServiceDown state
          30 someone).2 =
          .error emailTaken := by
  let _ := asciiCrates
  let _ := asciiDatabase
  refine ⟨?_, _, rfl, rfl⟩
  rw [register_allOrNothing_iff, not_not]
  exact ⟨⟨rfl, rfl, rfl, rfl, 1, rfl, rfl⟩, .inl ⟨unknown, rfl⟩⟩

end SignUp

end SchemaForge.Iam
