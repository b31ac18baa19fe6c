import SchemaForge.Iam.Lockout

/-!
# The two kinds of tokens

An access token carries the roles of its account and lives for an hour, a refresh
token carries the id alone and lives longer. Both are read by one reader, which
asks for the id only: wherever one kind is expected, the other opens as well.
-/

namespace SchemaForge.Iam

open Repository AuthService

section

variable [Crates] [Postgres]

def IssuedAsAccess (token : Token) : Prop := ∃ identity, token.claims = accessClaims identity

def IssuedAsRefresh (token : Token) : Prop := ∃ identity, token.claims = refreshClaims identity

/-- The token was issued, has not expired, and names an account with a row. -/
def Opens (state : AuthState) (now : Timestamp) (token : Token) : Prop :=
  token ∈ state.issued ∧ now ≤ token.expiresAt ∧
    ∃ row ∈ state.accounts.users, userIdOf token.claims = some row.id

/-- The call presents the kind of token that it does not ask for. -/
def PresentsOtherKind (call : AuthCall) (token : Token) : Prop :=
  (call.operation = .getIdentity token ∧ IssuedAsRefresh token) ∨
    (call.operation = .refreshToken token ∧ IssuedAsAccess token)

/-- The call presents the other kind of token and is answered. -/
def TakesOtherKind (lives : TokenLives) (state : AuthState) (call : AuthCall) : Prop :=
  ∃ token, PresentsOtherKind call token ∧ ∃ answer,
  ((authService lives).step state call).2 = .ok answer

/-- The call presents the other kind of token, which is good. -/
def Swapped (state : AuthState) (call : AuthCall) : Prop :=
  ∃ token, PresentsOtherKind call token ∧ Opens state call.now token

variable {lives : TokenLives} {state : AuthState} {call : AuthCall} {now : Timestamp}
    {token : Token}

omit [Crates] in
theorem exists_identity_iff :
    (∃ identity, (do requireUserById state (← userIdFrom state now token)) = .ok identity) ↔
      Opens state now token := by
  constructor
  · rintro ⟨identity, ok⟩
    rcases opens_iff.mp ok with ⟨row, mem, -, issued, unexpired, named⟩
    exact ⟨issued, unexpired, row, mem, named⟩
  · rintro ⟨issued, unexpired, row, mem, named⟩
    exact ⟨state.accounts.enrich row, opens_iff.mpr ⟨row, mem, rfl, issued, unexpired, named⟩⟩

theorem getIdentity_answers_iff :
    (∃ answer, ((authService lives).step state ⟨.getIdentity token, now⟩).2 = .ok answer) ↔
      Opens state now token := by
  refine Iff.trans ?_ exists_identity_iff
  change (∃ answer, (getIdentity state now token).map AuthAnswer.identity = .ok answer) ↔ _
  unfold getIdentity
  cases (do requireUserById state (← userIdFrom state now token)) with
  | error failure => exact iff_of_false nofun nofun
  | ok identity => exact iff_of_true ⟨_, rfl⟩ ⟨_, rfl⟩

theorem refreshToken_answers_iff :
    (∃ answer, ((authService lives).step state ⟨.refreshToken token, now⟩).2 = .ok answer) ↔
      Opens state now token := by
  refine Iff.trans ?_ exists_identity_iff
  change (∃ answer, (answered AuthAnswer.tokens (refreshToken lives state now token)).2 =
    .ok answer) ↔ _
  unfold refreshToken
  cases (do requireUserById state (← userIdFrom state now token)) with
  | error failure => exact iff_of_false nofun nofun
  | ok identity => exact iff_of_true ⟨_, rfl⟩ ⟨_, rfl⟩

theorem takesOtherKind_iff : TakesOtherKind lives state call ↔ Swapped state call := by
  rcases call with ⟨operation, now⟩
  apply exists_congr
  intro token
  apply and_congr_right
  rintro (⟨rfl, -⟩ | ⟨rfl, -⟩)
  · exact getIdentity_answers_iff
  · exact refreshToken_answers_iff

/-- A call issues a pair of tokens, or none. -/
inductive Issues (lives : TokenLives) (now : Timestamp) (before : List Token) :
    List Token → Prop where
  | none : Issues lives now before before
  | pair (identity : Identity) : Issues lives now before
      (⟨accessClaims identity, now + lives.tokenTtl⟩ ::
        ⟨refreshClaims identity, now + lives.refreshTokenTtl⟩ :: before)

theorem issues_generateToken {email password : Str} :
    Issues lives now state.issued (generateToken lives state now email password).1.issued := by
  unfold generateToken
  split
  · exact .none
  · split
    · exact .none
    · exact .pair _

theorem issues_register {registration : Registration} {drawn : Uuid} {salt : Str}
    {seeded : Except Error Unit} :
    Issues lives now state.issued
      (register lives state now registration drawn salt seeded).1.issued := by
  unfold register
  split
  · exact .none
  · split
    · exact .none
    · split
      · exact .none
      · exact .none
      · split
        · exact .none
        · exact .pair _

omit [Crates] in
theorem issues_refreshToken :
    Issues lives now state.issued (refreshToken lives state now token).1.issued := by
  unfold refreshToken
  split
  · exact .none
  · exact .pair _

omit [Crates] [Postgres] in
theorem issued_followGoogleProfile {user : Identity} {account : GoogleAccount} {state' : AuthState}
    (ok : followGoogleProfile state user account = .ok state') : state'.issued = state.issued := by
  unfold followGoogleProfile at ok
  simp only at ok
  split at ok
  · cases ok
    rfl
  · split at ok
    · cases ok
    · cases ok
      rfl

omit [Crates] [Postgres] in
theorem issued_createGoogleUser (state : AuthState) (email : Str) (account : GoogleAccount)
    (drawn : Uuid) (seeded : Except Error Unit) :
    (createGoogleUser state email account drawn seeded).1.issued = state.issued := by
  unfold createGoogleUser
  split
  · rfl
  · split
    · rfl
    · split
      · rfl
      · exact issued_followGoogleProfile (by assumption)
  · rfl

theorem issues_loginWithGoogle {account : Except Error GoogleAccount} {drawn : Uuid}
    {seeded : Except Error Unit} :
    Issues lives now state.issued
      (loginWithGoogle lives state now account drawn seeded).1.issued := by
  unfold loginWithGoogle
  split
  · exact .none
  · rename_i account
    split
    · exact .none
    · split
      · split
        · exact .none
        · rename_i state' followed
          rw [← issued_followGoogleProfile followed]
          exact .pair _
      · have kept := issued_createGoogleUser state (cleanEmail account.email) account drawn seeded
        split
        · rename_i outcome
          rw [outcome] at kept
          change Issues _ _ _ (AuthState.issued _)
          rw [kept]
          exact .none
        · rename_i outcome
          rw [outcome] at kept
          rw [← kept]
          exact .pair _

theorem issues_step (lives : TokenLives) (state : AuthState) (call : AuthCall) :
    Issues lives call.now state.issued ((authService lives).step state call).1.issued := by
  rcases call with ⟨operation, now⟩
  have written_issued {α : Type} {answer : α → AuthAnswer} {result : Except Error (Accounts × α)} :
      (written state answer result).1.issued = state.issued := by
    cases result with
    | error failure => rfl
    | ok value => rfl
  cases operation with
  | generateToken email password => exact issues_generateToken
  | register registration drawn salt seeded => exact issues_register
  | refreshToken token => exact issues_refreshToken
  | loginWithGoogle account drawn seeded => exact issues_loginWithGoogle
  | getIdentity _ | findUserById _ => exact .none
  | passwordRecovery email token sent =>
      change Issues _ _ _ (passwordRecovery state now email token sent).1.issued
      unfold passwordRecovery
      split
      · exact .none
      · exact .none
  | resetPassword token newPassword salt =>
      change Issues _ _ _ (resetPassword state now token newPassword salt).1.issued
      unfold resetPassword
      split
      · exact .none
      · split
        · exact .none
        · split
          · exact .none
          · exact .none
  | createUser _ _ _ | partialUpdate _ _ _ | deleteUser _ =>
      change Issues _ _ _ (written state _ _).1.issued
      rw [written_issued]
      exact .none

/-- Every token is a refresh token, or expires in time. -/
def ExpiresBy (limit : Timestamp) (issued : List Token) : Prop :=
  ∀ token ∈ issued, IssuedAsRefresh token ∨ token.expiresAt ≤ limit

theorem expiresBy_step {t : Timestamp} (expires : ExpiresBy (t + lives.tokenTtl) state.issued)
    (early : call.now ≤ t) :
    ExpiresBy (t + lives.tokenTtl) ((authService lives).step state call).1.issued := by
  have issues := issues_step lives state call
  generalize ((authService lives).step state call).1.issued = issued at issues
  cases issues with
  | none => exact expires
  | pair identity =>
      intro token mem
      rcases List.mem_cons.mp mem with rfl | mem
      · exact .inr (Int.add_le_add_right early _)
      · rcases List.mem_cons.mp mem with rfl | mem
        · exact .inl ⟨identity, rfl⟩
        · exact expires token mem

theorem expiresBy_final (lives : TokenLives) {t : Timestamp} {calls : List AuthCall}
    (none : state.issued = []) (early : ∀ call ∈ calls, call.now ≤ t) :
    ExpiresBy (t + lives.tokenTtl) ((authService lives).final state calls).issued := by
  refine (Machine.along_of_forall early).final (fun reached : AuthState =>
    ExpiresBy (t + lives.tokenTtl) reached.issued)
    (fun _ _ expires early => expiresBy_step expires early) ?_
  rw [none]
  exact nofun

/-- The call presents a token of the list after the limit, and is told an identity. -/
def Outlives (lives : TokenLives) (issued : List Token) (limit : Timestamp) (state : AuthState)
    (call : AuthCall) : Prop :=
  ∃ token ∈ issued, call.operation = .getIdentity token ∧ limit < call.now ∧
    ∃ identity, ((authService lives).step state call).2 = .ok (.identity identity)

/-- Along a run no call takes the other kind of token exactly if none is given a good token of the
other kind; and then no token that was issued by some moment tells an identity once the life of an
access token has passed from there. -/
theorem kindsApart_iff (lives : TokenLives) (state : AuthState) (calls : List AuthCall) :
    ((authService lives).Along (fun state call => ¬ TakesOtherKind lives state call) state calls ↔
      (authService lives).Along (fun state call => ¬ Swapped state call) state calls) ∧
    ∀ before after t, calls = before ++ after → state.issued = [] →
      (∀ call ∈ before, call.now ≤ t) →
      (authService lives).Along (fun state call => ¬ Swapped state call) state calls →
      (authService lives).Along (fun reached call =>
          ¬ Outlives lives ((authService lives).final state before).issued
            (t + lives.tokenTtl) reached call)
        ((authService lives).final state before) after := by
  refine ⟨Machine.along_congr fun state call => not_congr takesOtherKind_iff, ?_⟩
  rintro before after t rfl none early along
  have expires := expiresBy_final lives none early
  refine (Machine.along_append.mp along).2.imp ?_
  rintro reached ⟨operation, now⟩ apart ⟨token, mem, rfl, late, identity, ok⟩
  have opens := getIdentity_answers_iff.mp ⟨_, ok⟩
  rcases expires token mem with refresh | expired
  · exact apart ⟨token, .inl ⟨rfl, refresh⟩, opens⟩
  · exact absurd opens.2.1 (not_le.mpr (lt_of_le_of_lt expired late))

end

def annAccessToken : Token := ⟨@accessClaims asciiDatabase (staffOnly.enrich staffMember), 3620⟩

def annRefreshToken : Token := ⟨@refreshClaims asciiDatabase (staffOnly.enrich staffMember), 86420⟩

/-- One sign in, and an hour and more later the access token, which tells no identity any more. -/
theorem kindsApart_annAccessToken : letI := asciiCrates
    letI := asciiDatabase
    annService.Along (fun reached call =>
        ¬ Outlives hourAndDay (annService.final ⟨staffOnly, []⟩ [annSignsIn]).issued
          (20 + hourAndDay.tokenTtl)
          reached call)
      (annService.final ⟨staffOnly, []⟩ [annSignsIn]) [⟨.getIdentity annAccessToken, 5000⟩] := by
  let _ := asciiCrates
  let _ := asciiDatabase
  refine (kindsApart_iff hourAndDay ⟨staffOnly, []⟩
    [annSignsIn, ⟨.getIdentity annAccessToken, 5000⟩]).2
    [annSignsIn] [⟨.getIdentity annAccessToken, 5000⟩] 20 rfl rfl (by decide) ⟨?_, ?_, trivial⟩
  · rintro ⟨token, ⟨google, -⟩ | ⟨google, -⟩, -⟩ <;> cases google
  · rintro ⟨token, ⟨asked, user, claims⟩ | ⟨asked, -⟩, -⟩
    · cases asked
      cases claims
    · cases asked

/-- One sign in; an hour and more later the refresh token still tells the identity, and the access
token has been exchanged like a refresh token. -/
theorem annRefreshToken_tells_identity :
    (annService.step ⟨staffOnly, []⟩ annSignsIn).2 =
      .ok (.tokens ⟨annAccessToken, annRefreshToken⟩) ∧
      annSignsIn.now + hourAndDay.tokenTtl < 5000 ∧
      @TakesOtherKind asciiCrates asciiDatabase hourAndDay
        (annService.step ⟨staffOnly, []⟩ annSignsIn).1
        ⟨.getIdentity annRefreshToken, 5000⟩ ∧
      @TakesOtherKind asciiCrates asciiDatabase hourAndDay
        (annService.step ⟨staffOnly, []⟩ annSignsIn).1
        ⟨.refreshToken annAccessToken, 100⟩ := by
  let _ := asciiCrates
  let _ := asciiDatabase
  have uuidText := asciiUuidText
  refine ⟨rfl, by decide, takesOtherKind_iff.mpr ⟨annRefreshToken, .inl ⟨rfl, _, rfl⟩, ?_⟩,
    takesOtherKind_iff.mpr ⟨annAccessToken, .inr ⟨rfl, _, rfl⟩, ?_⟩⟩
  · exact ⟨List.mem_cons_of_mem _ List.mem_cons_self, by
      decide, staffMember, List.mem_singleton_self _, userIdOf_refreshClaims _⟩
  · exact ⟨List.mem_cons_self, by
      decide, staffMember, List.mem_singleton_self _, userIdOf_accessClaims _⟩

end SchemaForge.Iam
