import SchemaForge.Iam.Addresses

/-!
# Signing in with what was registered

A registration stores the cleaned address; a sign in by password looks the address
up as it was typed. The account is found again exactly if cleaning changes nothing.
-/

namespace SchemaForge.Iam

open Repository AuthService

/-- A password verifies against its hash, which is never empty. -/
class LawfulCrates [Crates] : Prop where
  verify_hash : ∀ salt password,
    Crates.verifyPassword password (Crates.hashPassword salt password) = true
  hash_ne_nil : ∀ salt password, Crates.hashPassword salt password ≠ []

section

variable [Crates] [Postgres]

/-- The answer is a pair of tokens that both name the account. -/
def TokensFor (user : Uuid) (answer : Except Error AuthAnswer) : Prop :=
  ∃ tokens, answer = .ok (.tokens tokens) ∧ userIdOf tokens.token.claims = some user ∧
    userIdOf tokens.refreshToken.claims = some user

variable {lives : TokenLives} {state : AuthState} {now : Timestamp} {user : Uuid}

omit [Crates] in
theorem tokensFor_generateTokens [UuidText] (identity : Identity) :
    TokensFor user (answered .tokens (generateTokens lives state now identity)).2 ↔
      identity.id = user := by
  constructor
  · rintro ⟨tokens, same, access, -⟩
    cases same
    change userIdOf (accessClaims identity) = some user at access
    rw [userIdOf_accessClaims] at access
    exact Option.some.inj access
  · rintro rfl
    exact ⟨_, rfl, userIdOf_accessClaims identity, userIdOf_refreshClaims identity⟩

theorem tokensFor_generateToken_iff [UuidText] {email password : Str} :
    TokensFor user (answered .tokens (generateToken lives state now email password)).2 ↔
      Presents state user ⟨.generateToken email password, now⟩ := by
  have admits : Admits user (answered .tokens (generateToken lives state now email password)).2 ↔
      Presents state user ⟨.generateToken email password, now⟩ := admits_generateToken_iff
  rw [← admits]
  unfold generateToken
  split
  · exact iff_of_false nofun id
  · split
    · exact iff_of_false nofun id
    · rw [tokensFor_generateTokens, admits_generateTokens]

omit [Postgres] in
/-- The column cuts nothing off a cleaned address. -/
theorem stored_cleanEmail (email : Str) :
    Varchar.stored 100 (cleanEmail email) = cleanEmail email := by
  apply Varchar.stored_of_getLast_ne
  rintro last ends rfl
  have blank : ' ' ∈ (Str.trim email).getLast? := Str.blank_getLast?_of_toLowercaseAfter ends
  cases Str.isWhitespace_getLast?_trim blank

/-- A registration that is answered has stored its row. -/
theorem users_of_registered {registration : Registration} {drawn : Uuid} {salt : Str}
    {seeded : Except Error Unit} {tokens : AuthenticationTokens}
    (ok : (register lives state now registration drawn salt seeded).2 = .ok tokens) :
    ∃ department, (register lives state now registration drawn salt seeded).1.accounts.users =
      (Accounts.signUpRow (registeredUser (cleaned registration) salt) drawn department).stored ::
        state.accounts.users := by
  have stored : checkRegistration (cleaned registration) = .ok () ∧
      AcceptsUser state.accounts (registeredUser (cleaned registration) salt) drawn := by
    unfold register at ok
    split at ok
    · cases ok
    · rename_i valid
      split at ok
      · cases ok
      · split at ok
        · cases ok
        · cases ok
        · rename_i created
          exact ⟨valid, accepts_of_createUser created⟩
  exact users_register stored.1 stored.2

/-- As long as the row of a registration is left alone, the address and the password that were
registered sign in to it exactly if the address was clean. -/
theorem signsIn_iff_clean [UuidText] [LawfulCrates] (lives : TokenLives) (state : AuthState)
    (registration : Registration) (drawn : Uuid) (salt : Str) (seeded : Except Error Unit)
    (signedUp : Timestamp) (calls : List AuthCall) (now : Timestamp)
    (registered : ∃ tokens, ((authService lives).step state
      ⟨.register registration drawn salt seeded, signedUp⟩).2 = .ok (.tokens tokens))
    (kept : ∀ row ∈ ((authService lives).step state
      ⟨.register registration drawn salt seeded, signedUp⟩).1.accounts.users, row.id = drawn →
        row ∈ ((authService lives).final state
          (⟨.register registration drawn salt seeded, signedUp⟩ :: calls)).accounts.users) :
    TokensFor drawn ((authService lives).step
        ((authService lives).final state
          (⟨.register registration drawn salt seeded, signedUp⟩ :: calls))
        ⟨.generateToken registration.email registration.password, now⟩).2 ↔
      cleanEmail registration.email = registration.email := by
  rcases registered with ⟨tokens, ok⟩
  have signedIn : (register lives state signedUp registration drawn salt seeded).2 =
      .ok tokens := by
    change (register lives state signedUp registration drawn salt seeded).2.map
      AuthAnswer.tokens = _ at ok
    cases outcome : (register lives state signedUp registration drawn salt seeded).2 with
    | error failure =>
        rw [outcome] at ok
        cases ok
    | ok value =>
        rw [outcome] at ok
        cases ok
        rfl
  rcases users_of_registered signedIn with ⟨department, users⟩
  have stores := stored_cleanEmail registration.email
  have mem :=
    kept (Accounts.signUpRow (registeredUser (cleaned registration) salt) drawn department).stored
      (by
    change _ ∈ (register lives state signedUp registration drawn salt seeded).1.accounts.users
    rw [users]
    exact List.mem_cons_self) rfl
  generalize (authService lives).final state
    (⟨.register registration drawn salt seeded, signedUp⟩ :: calls) = reached
    at mem
  refine tokensFor_generateToken_iff.trans ⟨?_, ?_⟩
  · -- the id has one row only, and that is the one that was registered
    rintro ⟨row, rowMem, same, address, -⟩
    have one := List.inj_on_of_nodup_map reached.accounts.userKey rowMem mem same
    rw [one] at address
    exact stores.symm.trans address
  · intro clean
    exact ⟨_, mem, rfl, stores.trans clean, LawfulCrates.hash_ne_nil salt registration.password,
      LawfulCrates.verify_hash salt registration.password⟩

end

/-- ASCII letters, and a hash that shows the password. -/
abbrev plainCrates : Crates where
  toUnicode := Unicode.ascii
  hashPassword _ password := '$' :: password
  verifyPassword password hashed := hashed == '$' :: password
  hashToken token := token
  validateEmail _ := true
  isUppercase := Char.isUpper
  isLowercase := Char.isLower

abbrev plainLaws : @LawfulCrates plainCrates := by
  let _ := plainCrates
  exact ⟨fun salt password => beq_self_eq_true _, fun salt password => List.cons_ne_nil _ _⟩

abbrev plainService : Machine AuthState AuthCall (Except Error AuthAnswer) :=
  @authService plainCrates asciiDatabase hourAndDay

def boRegisters (email : Str) : AuthCall :=
  ⟨.register ⟨"Bo Ray", email, "correct horse"⟩ 8 [] (.ok ()), 20⟩

theorem signsIn_bo :
    @TokensFor asciiDatabase 8
      (plainService.step (plainService.final ⟨staffOnly, []⟩ [boRegisters "bo@example.com"])
      ⟨.generateToken "bo@example.com" "correct horse", 30⟩).2 := by
  let _ := plainCrates
  let _ := asciiDatabase
  have uuidText := asciiUuidText
  have laws := plainLaws
  refine (signsIn_iff_clean hourAndDay ⟨staffOnly, []⟩ ⟨"Bo Ray", "bo@example.com",
    "correct horse"⟩ 8 [] (.ok ())
    20 [] 30 ⟨_, rfl⟩ fun row mem _ => mem).mpr ?_
  decide

/-- The registration is answered, and the same address and password do not sign in. -/
theorem not_signsIn_bo :
    (∃ tokens, (plainService.step ⟨staffOnly, []⟩ (boRegisters "Bo@Example.com")).2 =
      .ok (.tokens tokens)) ∧
      (plainService.step (plainService.final ⟨staffOnly, []⟩ [boRegisters "Bo@Example.com"])
        ⟨.generateToken "Bo@Example.com" "correct horse", 30⟩).2 = .error invalidCredentials :=
  ⟨⟨_, rfl⟩, rfl⟩

end SchemaForge.Iam
