import SchemaForge.Iam.Lockout
import SchemaForge.Iam.Permissions
import SchemaForge.Iam.TokenKinds

/-!
# Who may call

Both ports read the token of a call from the same header and ask the same service
whom it belongs to. Behind that the ports differ: a route of the schema API is open
to everybody who is signed in, and a method of the schema service asks for a
permission besides.
-/

namespace SchemaForge.Server

open Repository Iam Rbac AuthService

def bearer : Str := "Bearer "

def missingToken : Error := .app 1002 "malformed or missing jwt token"

def unauthorizedAction : Error := .app 1002 "unauthorized action"

/-- The rest of a text behind a part that it starts with. -/
def stripStart (part text : Str) : Option Str :=
  if part.isPrefixOf text then some (text.drop part.length) else none

/-- `HeaderValue::to_str`, which takes visible characters and tabs. -/
def headerText (value : Str) : Option Str :=
  if value.all fun c => c == '\t' || (32 ≤ c.toNat && c.toNat < 127) then some value else none

/-- The text of the token in the header of a call. -/
def tokenText (authorization : Option Str) : Option Str := do
  let value ← authorization
  let text ← headerText value
  let token ← stripStart bearer text
  if token.isEmpty then none else some token

section Guards

variable [Postgres]

/-- Whom the token of a call belongs to. `tokenOf` is the token that a text signs. -/
def identify (tokenOf : Str → Token) (state : AuthState) (clock : Timestamp)
    (authorization : Option Str) :
    Except Error Identity :=
  match tokenText authorization with
  | none => .error missingToken
  | some text => (getIdentity state clock (tokenOf text)).mapError fun _ => missingToken

/-- The guard of the HTTP routes of the schema API. -/
def authenticate (tokenOf : Str → Token) (state : AuthState) (clock : Timestamp)
    (authorization : Option Str) :
    Except Error Identity :=
  identify tokenOf state clock authorization

/-- What a method asks of its caller. -/
inductive Access where
  | everybody
  | authenticated
  | requires (action : Str)
  | denied
deriving DecidableEq

def authService : Str := "/schemaforge.v1.AuthService/"

def schemaService : Str := "/schemaforge.v1.SchemaService/"

def accessFor (path : Str) : Access :=
  match stripStart authService path with
  | some method => if method = "GetCurrentUser".toList then .authenticated else .everybody
  | none =>
      match stripStart schemaService path with
      | none => .everybody
      | some method =>
          if method ∈ ["GetSchema".toList, "ListSchemas".toList, "ValidateSchema".toList,
            "CompareSchemas".toList, "GenerateDdl".toList, "ExportSchema".toList] then .requires
              "Schemas.View All"
          else if method ∈ ["CreateSchema".toList, "ImportSchema".toList] then .requires
            "Schemas.Create"
          else if method = "UpdateSchema".toList then .requires "Schemas.Update"
          else if method = "DeleteSchema".toList then .requires "Schemas.Delete"
          -- A method that is left off the list answers denied rather than open.
          else .denied

/-- The guard of the gRPC methods. It lets a call through, with its caller if it asked for one. -/
def authGuard (tokenOf : Str → Token) (engine : RbacEngine) (state : AuthState)
    (clock : Timestamp) (path : Str) (authorization : Option Str) :
    Except Error (Option Identity) :=
  match accessFor path with
  | .everybody => .ok none
  | .denied => .error unauthorizedAction
  | .authenticated => do return some (← identify tokenOf state clock authorization)
  | .requires action => do
      let user ← identify tokenOf state clock authorization
      if engine.can user.id action then return some user else .error unauthorizedAction

variable {tokenOf : Str → Token} {state : AuthState} {clock : Timestamp}
    {authorization : Option Str}

/-- The header carries a token that was issued to the user and has not expired. -/
def Carries (tokenOf : Str → Token) (state : AuthState) (clock : Timestamp)
    (authorization : Option Str) (user : Uuid) :
    Prop :=
  ∃ text, tokenText authorization = some text ∧ tokenOf text ∈ state.issued ∧
    clock ≤ (tokenOf text).expiresAt ∧
    userIdOf (tokenOf text).claims = some user

theorem identify_eq_ok {user : Identity} : identify tokenOf state clock authorization = .ok user ↔
    ∃ row ∈ state.accounts.users, user = state.accounts.enrich row ∧
      Carries tokenOf state clock authorization row.id := by
  unfold identify
  cases found : tokenText authorization with
  | none =>
      refine iff_of_false nofun ?_
      rintro ⟨_, -, -, _, given, -⟩
      rw [found] at given
      cases given
  | some text =>
      have told : ((getIdentity state clock (tokenOf text)).mapError fun _ =>
          missingToken) = .ok user ↔
          getIdentity state clock (tokenOf text) = .ok user := by
        cases getIdentity state clock (tokenOf text) with
        | error failure => exact iff_of_false nofun nofun
        | ok identity => rfl
      refine told.trans (opens_iff.trans ?_)
      refine exists_congr fun row => and_congr_right fun _ => and_congr_right fun _ => ?_
      constructor
      · exact fun opens => ⟨text, found, opens⟩
      · rintro ⟨_, given, opens⟩
        cases found.symm.trans given
        exact opens

theorem Carries.of_identify {user : Identity}
    (ok : identify tokenOf state clock authorization = .ok user) :
    Carries tokenOf state clock authorization user.id := by
  rcases identify_eq_ok.mp ok with ⟨row, -, rfl, carries⟩
  exact carries

section Issued

variable [Crates]

/-- Every token in the state was there before, or is among those that the answer hands out. -/
def HandsTokens (before : List Token) (result : AuthState × Except Error AuthenticationTokens) :
    Prop :=
  ∀ token ∈ result.1.issued, token ∈ before ∨
    ∃ tokens, result.2 = .ok tokens ∧ (token = tokens.token ∨ token = tokens.refreshToken)

omit [Postgres] [Crates] in
theorem handsTokens_error {before : List Token} {state : AuthState} {failure : Error}
    (kept : state.issued = before) :
    HandsTokens before (state, .error failure) :=
  fun _ mem => .inl (kept ▸ mem)

omit [Crates] in
theorem handsTokens_generateTokens {before : List Token} {lives : TokenLives} {user : Identity}
    (kept : state.issued = before) :
    HandsTokens before (generateTokens lives state clock user) := by
  intro token mem
  rcases List.mem_cons.mp mem with access | mem
  · exact .inr ⟨_, rfl, .inl access⟩
  · rcases List.mem_cons.mp mem with refresh | mem
    · exact .inr ⟨_, rfl, .inr refresh⟩
    · exact .inl (kept ▸ mem)

theorem handsTokens_generateToken {lives : TokenLives} {email password : Str} :
    HandsTokens state.issued (generateToken lives state clock email password) := by
  unfold generateToken
  split
  · exact handsTokens_error rfl
  · split
    · exact handsTokens_error rfl
    · exact handsTokens_generateTokens rfl

theorem handsTokens_register {lives : TokenLives} {registration : Registration}
    {drawn : Uuid} {salt : Str} {seeded : Except Error Unit} :
    HandsTokens state.issued (register lives state clock registration drawn salt seeded) := by
  unfold register
  split
  · exact handsTokens_error rfl
  · split
    · exact handsTokens_error rfl
    · split
      · exact handsTokens_error rfl
      · exact handsTokens_error rfl
      · split
        · exact handsTokens_error rfl
        · exact handsTokens_generateTokens rfl

omit [Crates] in
theorem handsTokens_refreshToken {lives : TokenLives} {token : Token} :
    HandsTokens state.issued (refreshToken lives state clock token) := by
  unfold refreshToken
  split
  · exact handsTokens_error rfl
  · exact handsTokens_generateTokens rfl

theorem handsTokens_loginWithGoogle {lives : TokenLives} {account : Except Error GoogleAccount}
    {drawn : Uuid} {seeded : Except Error Unit} :
    HandsTokens state.issued (loginWithGoogle lives state clock account drawn seeded) := by
  unfold loginWithGoogle
  split
  · exact handsTokens_error rfl
  · rename_i account
    split
    · exact handsTokens_error rfl
    · split
      · split
        · exact handsTokens_error rfl
        · rename_i followed
          exact handsTokens_generateTokens (issued_followGoogleProfile followed)
      · have kept := issued_createGoogleUser state (cleanEmail account.email) account drawn seeded
        split
        · rename_i outcome
          rw [outcome] at kept
          exact handsTokens_error kept
        · rename_i outcome
          rw [outcome] at kept
          exact handsTokens_generateTokens kept

omit [Postgres] [Crates] in
theorem issued_written {α : Type} {answer : α → AuthAnswer} {result : Except Error (Accounts × α)}
    {token : Token} (issued : token ∈ (written state answer result).1.issued) :
    token ∈ state.issued := by
  cases result with
  | error failure => exact issued
  | ok changed => exact issued

/--
A token that names a user was issued before a call, or the call is answered with tokens of the user.
-/
theorem admits_of_issued (lives : TokenLives) (state : AuthState) (call : AuthCall)
    {token : Token} {user : Uuid}
    (issued : token ∈ ((Iam.authService lives).step state call).1.issued)
    (named : userIdOf token.claims = some user) :
    token ∈ state.issued ∨ Admits user ((Iam.authService lives).step state call).2 := by
  rcases call with ⟨operation, now⟩
  have admits {result : AuthState × Except Error AuthenticationTokens}
      (out : HandsTokens state.issued result)
      (mem : token ∈ (answered AuthAnswer.tokens result).1.issued) :
      token ∈ state.issued ∨ Admits user (answered AuthAnswer.tokens result).2 := by
    rcases out token mem with before | ⟨tokens, handed, access | refresh⟩
    · exact .inl before
    · refine .inr ?_
      rw [answered, handed]
      exact .inl (access ▸ named)
    · refine .inr ?_
      rw [answered, handed]
      exact .inr (refresh ▸ named)
  cases operation with
  | generateToken email password => exact admits handsTokens_generateToken issued
  | register registration drawn salt seeded => exact admits handsTokens_register issued
  | refreshToken token => exact admits handsTokens_refreshToken issued
  | loginWithGoogle account drawn seeded => exact admits handsTokens_loginWithGoogle issued
  | getIdentity _ | findUserById _ => exact .inl issued
  | passwordRecovery email text sent =>
      change token ∈ (passwordRecovery state now email text sent).1.issued at issued
      unfold passwordRecovery at issued
      split at issued
      · exact .inl issued
      · exact .inl issued
  | resetPassword text newPassword salt =>
      change token ∈ (AuthService.resetPassword state now text newPassword salt).1.issued at issued
      unfold AuthService.resetPassword at issued
      split at issued
      · exact .inl issued
      · split at issued
        · exact .inl issued
        · split at issued
          · exact .inl issued
          · exact .inl issued
  | createUser _ _ _ | partialUpdate _ _ _ | deleteUser _ =>
      exact .inl (issued_written issued)

end Issued

end Guards

end SchemaForge.Server
