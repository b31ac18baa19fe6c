import SchemaForge.Foundation.Interleaving
import SchemaForge.Iam.Passwords

/-!
# Password resets that overlap

A recovery deletes the pending request of its address and stores another; a reset
looks its row up, writes the password and deletes the row. Each of these is one
statement, outside any transaction, and calls overlap as they like.
-/

namespace SchemaForge.Iam

open Repository AuthService

inductive ResetCall where
  | recovery (email token : Str)
  | reset (token newPassword salt : Str)

/-- Where a recovery or a reset stands. -/
inductive ResetPlace where
  | called
  | refused
  /-- The address of the recovery has an account. -/
  | known
  /-- The pending requests for the address are deleted. -/
  | cleared
  | requested
  /-- The row of the token is found, and it is fresh. -/
  | found (email : Str)
  /-- The password is written. -/
  | changed (email : Str)
  /-- The row is deleted. -/
  | consumed
deriving DecidableEq

namespace ResetPlace

/-- A recovery here may store its row yet. -/
def BeforeRequest : ResetPlace → Prop
  | called | known | cleared => True
  | _ => False

/-- A reset here has found a row of the address, and has not deleted it yet. -/
def Holds (email : Str) : ResetPlace → Prop
  | found held | changed held => held = email
  | _ => False

/-- A reset here has found its row. -/
def HasFound : ResetPlace → Prop
  | found _ | changed _ | consumed => True
  | _ => False

/-- A reset here has written a password. -/
def HasChanged : ResetPlace → Prop
  | changed _ | consumed => True
  | _ => False

theorem Holds.hasFound {place : ResetPlace} {email : Str} (holds : place.Holds email) :
    place.HasFound := by
  cases place with
  | found | changed | consumed => exact trivial
  | called | refused | known | cleared | requested => exact holds.elim

theorem HasChanged.hasFound {place : ResetPlace} (changed : place.HasChanged) : place.HasFound := by
  cases place with
  | found | changed | consumed => exact trivial
  | called | refused | known | cleared | requested => exact changed.elim

theorem HasFound.holds_or_consumed {place : ResetPlace} (found : place.HasFound) :
    (∃ email, place.Holds email) ∨ place = .consumed := by
  cases place with
  | found email | changed email => exact .inl ⟨email, rfl⟩
  | consumed => exact .inr rfl
  | called | refused | known | cleared | requested => exact found.elim

end ResetPlace

theorem passwordResets_resetPassword {accounts accounts' : Accounts} {email newPassword : Str}
    (ok : accounts.resetPassword email newPassword = .ok accounts') :
    accounts'.passwordResets = accounts.passwordResets := by
  unfold Accounts.resetPassword at ok
  split at ok
  · cases ok
    rfl
  · unfold Accounts.updateUser at ok
    split at ok
    · cases ok
    · cases ok
      rfl

/-- A hash that fits its column is always written. -/
theorem resetPassword_of_fits (accounts : Accounts) (email : Str) {newPassword : Str}
    (fits : overflows 255 newPassword = false) :
    ∃ accounts', accounts.resetPassword email newPassword = .ok accounts' := by
  unfold Accounts.resetPassword
  split
  · exact ⟨_, rfl⟩
  · refine Accounts.updateUser_of_accepted ?_
    refine Accounts.refusesUpdate_eq_none_iff.mpr ⟨?_, nofun, nofun, nofun⟩
    simp [Columns.stored, Columns.none, Columns.overflows, fits]

theorem sublist_deletePasswordReset (accounts : Accounts) (email : Str) :
    (accounts.deletePasswordReset email).passwordResets.Sublist accounts.passwordResets :=
  List.filter_sublist

section

variable [Crates]

/-- The statements of the store that a recovery and a reset run. -/
inductive ResetStatement : ResetCall → ResetPlace → Accounts → ResetPlace → Accounts → Prop
  | unknown {email token : Str} {accounts : Accounts}
      (missing : accounts.identityByEmail email = none) :
      ResetStatement (.recovery email token) .called accounts .refused accounts
  | know {email token : Str} {accounts : Accounts} {user : Identity}
      (found : accounts.identityByEmail email = some user) :
      ResetStatement (.recovery email token) .called accounts .known accounts
  | clear {email token : Str} {accounts : Accounts} :
      ResetStatement (.recovery email token) .known accounts .cleared
        (accounts.deletePasswordReset email)
  | request {email token : Str} {accounts : Accounts} (now : Timestamp) :
      ResetStatement (.recovery email token) .cleared accounts .requested
        (accounts.createPasswordReset email (Crates.hashToken token) now)
  | missing {token newPassword salt : Str} {accounts : Accounts}
      (missing : Crates.hashToken token ∉ accounts.passwordResets.map PasswordReset.token) :
      ResetStatement (.reset token newPassword salt) .called accounts .refused accounts
  | expired {token newPassword salt : Str} {accounts : Accounts} (row : PasswordReset)
      (now : Timestamp) (mem : row ∈ accounts.passwordResets)
      (same : row.token = Crates.hashToken token)
      (late : row.createdAt + 60 * passwordResetTtlMinutes < now) :
      ResetStatement (.reset token newPassword salt) .called accounts .refused accounts
  | find {token newPassword salt : Str} {accounts : Accounts} (row : PasswordReset)
      (now : Timestamp) (mem : row ∈ accounts.passwordResets)
      (same : row.token = Crates.hashToken token)
      (fresh : ¬ row.createdAt + 60 * passwordResetTtlMinutes < now) :
      ResetStatement (.reset token newPassword salt) .called accounts (.found row.email) accounts
  | fail {token newPassword salt email : Str} {accounts : Accounts} {refusal : Refusal}
      (failed : accounts.resetPassword email (Crates.hashPassword salt newPassword) =
        .error refusal) :
      ResetStatement (.reset token newPassword salt) (.found email) accounts .refused accounts
  | change {token newPassword salt email : Str} {accounts accounts' : Accounts}
      (ok : accounts.resetPassword email (Crates.hashPassword salt newPassword) = .ok accounts') :
      ResetStatement (.reset token newPassword salt) (.found email) accounts
        (.changed email) accounts'
  | consume {token newPassword salt email : Str} {accounts : Accounts} :
      ResetStatement (.reset token newPassword salt) (.changed email) accounts .consumed
        (accounts.deletePasswordReset email)

/-- The steps of one call that nothing overlaps. -/
def RunsAlone (call : ResetCall) : ResetPlace × Accounts → ResetPlace × Accounts → Prop :=
  Relation.ReflTransGen fun stand stand' => ResetStatement call stand.1 stand.2 stand'.1 stand'.2

theorem runsAlone_passwordRecovery (state : AuthState) (now : Timestamp) (email token : Str) :
    ∃ place, (place = .refused ∨ place = .requested) ∧
      (place = .requested ↔ (passwordRecovery state now email token (.ok ())).2 = .ok ()) ∧
      RunsAlone (.recovery email token) (.called, state.accounts)
        (place, (passwordRecovery state now email token (.ok ())).1.accounts) := by
  unfold passwordRecovery
  split
  · rename_i missing
    exact ⟨.refused, .inl rfl, ⟨nofun, nofun⟩, .single (.unknown missing)⟩
  · rename_i user found
    exact ⟨.requested, .inr rfl, ⟨fun _ => rfl, fun _ => rfl⟩,
      ((Relation.ReflTransGen.single (b := (.known, state.accounts)) (.know found)).tail
        (c := (.cleared, state.accounts.deletePasswordReset email)) .clear).tail (.request now)⟩

theorem runsAlone_resetPassword (state : AuthState) (now : Timestamp)
    (token newPassword salt : Str) :
    ∃ place, (place = .refused ∨ place = .consumed) ∧
      (place = .consumed ↔ (resetPassword state now token newPassword salt).2 = .ok ()) ∧
      RunsAlone (.reset token newPassword salt) (.called, state.accounts)
        (place, (resetPassword state now token newPassword salt).1.accounts) := by
  unfold resetPassword
  split
  · rename_i missing
    refine ⟨.refused, .inl rfl, ⟨nofun, nofun⟩, .single (.missing ?_)⟩
    intro mem
    rcases List.mem_map.mp mem with ⟨row, rowMem, same⟩
    have other := List.find?_eq_none.mp missing row rowMem
    rw [same, beq_self_eq_true] at other
    exact other rfl
  · rename_i row found
    have mem := List.mem_of_find?_eq_some found
    have same : row.token = Crates.hashToken token := beq_iff_eq.mp (List.find?_some found :)
    split
    · rename_i late
      exact ⟨.refused, .inl rfl, ⟨nofun, nofun⟩, .single (.expired row now mem same late)⟩
    · rename_i fresh
      have first : RunsAlone (.reset token newPassword salt) (.called, state.accounts)
          (.found row.email, state.accounts) := .single (.find row now mem same fresh)
      split
      · rename_i failed
        exact ⟨.refused, .inl rfl, ⟨nofun, nofun⟩, first.tail (.fail failed)⟩
      · rename_i accounts' written
        refine ⟨.consumed, .inr rfl, ⟨fun _ => rfl, fun _ => rfl⟩, ?_⟩
        exact (first.tail (c := (.changed row.email, accounts')) (.change written)).tail .consume

variable {Index : Type} [DecidableEq Index]

abbrev ResetWorld (Index : Type) := World Index Accounts ResetPlace

def resetStatements (calls : Index → ResetCall) : World.Statements Index Accounts ResetPlace :=
  fun index => ResetStatement (calls index)

/-- Every call is yet to run its first statement. -/
def allCalled (accounts : Accounts) : ResetWorld Index := ⟨accounts, fun _ => .called⟩

/-- The call is a recovery that mails a token with the digest. -/
def Mails (calls : Index → ResetCall) (index : Index) (digest : Str) : Prop :=
  ∃ email token, calls index = .recovery email token ∧ digest = Crates.hashToken token

/-- The call is a reset that presents a token with the digest. -/
def PresentsToken (calls : Index → ResetCall) (index : Index) (digest : Str) : Prop :=
  ∃ token newPassword salt, calls index = .reset token newPassword salt ∧
    digest = Crates.hashToken token

def digests (accounts : Accounts) : List Str := accounts.passwordResets.map PasswordReset.token

/-- The digests that recoveries mail are apart from each other and from those in the table. -/
structure MailsApart (calls : Index → ResetCall) (accounts : Accounts) : Prop where
  stored : (digests accounts).Nodup
  unstored : ∀ index digest, Mails calls index digest → digest ∉ digests accounts
  apart : ∀ index other digest, Mails calls index digest → Mails calls other digest → index = other

/-- The move is a reset that finds its row while another one of the same token holds it. -/
def Overtakes (calls : Index → ResetCall) (world : ResetWorld Index) (index : Index)
    (world' : ResetWorld Index) : Prop :=
  world.places index = .called ∧ (∃ email, world'.places index = .found email) ∧
    ∃ digest other email, PresentsToken calls index digest ∧ PresentsToken calls other digest ∧
      (world.places other).Holds email

/-- At most one of the resets that present a token has written a password. -/
def UsedOnce (calls : Index → ResetCall) (world : ResetWorld Index) : Prop :=
  ∀ index other digest, PresentsToken calls index digest → PresentsToken calls other digest →
    (world.places index).HasChanged → (world.places other).HasChanged → index = other

/-- What overlapping calls keep as long as no reset overtakes another. -/
structure SingleUse (calls : Index → ResetCall) (world : ResetWorld Index) : Prop where
  stored : (digests world.shared).Nodup
  unstored : ∀ index digest, Mails calls index digest → (world.places index).BeforeRequest →
    digest ∉ digests world.shared
  unused : ∀ index digest, Mails calls index digest → (world.places index).BeforeRequest →
    ∀ other, PresentsToken calls other digest → ¬ (world.places other).HasFound
  /-- The row that a reset holds is the one with its digest. -/
  held : ∀ index digest email, PresentsToken calls index digest → (world.places index).Holds email →
    ∀ row ∈ world.shared.passwordResets, row.token = digest → row.email = email
  gone : ∀ index digest, PresentsToken calls index digest → world.places index = .consumed →
    digest ∉ digests world.shared
  alone : ∀ index other digest, PresentsToken calls index digest →
    PresentsToken calls other digest →
    (world.places index).HasFound → (world.places other).HasFound → index = other

namespace SingleUse

variable {calls : Index → ResetCall} {world : ResetWorld Index} {index : Index}
    {accounts : Accounts}
  {place : ResetPlace}

omit [DecidableEq Index] in
theorem usedOnce (single : SingleUse calls world) : UsedOnce calls world := by
  intro index other digest presents presents' changed changed'
  exact single.alone index other digest presents presents' changed.hasFound changed'.hasFound

omit [DecidableEq Index] in
theorem allCalled (apart : MailsApart calls accounts) : SingleUse calls (allCalled accounts) where
  stored := apart.stored
  unstored index digest issues _ := apart.unstored index digest issues
  unused index digest issues _ other presents := False.elim
  held index digest email presents := False.elim
  gone index digest presents consumed := by cases consumed
  alone index other digest presents presents' := False.elim

/-- A statement that adds no row, and takes no reset to a row. -/
theorem shrink (single : SingleUse calls world)
    (sublist : accounts.passwordResets.Sublist world.shared.passwordResets)
    (before : place.BeforeRequest → (world.places index).BeforeRequest)
    (holds : ∀ email, place.Holds email → (world.places index).Holds email)
    (found : place.HasFound → (world.places index).HasFound)
    (consumed : place = .consumed → ∀ digest, PresentsToken calls index digest →
      digest ∉ digests accounts) :
    SingleUse calls ⟨accounts, Function.update world.places index place⟩ where
  stored := single.stored.sublist (sublist.map _)
  unstored other digest issues pending mem :=
    single.unstored other digest issues
      (World.holds_of_update ResetPlace.BeforeRequest before pending)
      ((sublist.map _).subset mem)
  unused other digest issues pending reset presents hasFound :=
    single.unused other digest issues
      (World.holds_of_update ResetPlace.BeforeRequest before pending) reset presents
      (World.holds_of_update ResetPlace.HasFound found hasFound)
  held other digest email presents holds' row mem same := by
    have heldBefore : (Function.update world.places index place other).Holds email →
        (world.places other).Holds email :=
      World.holds_of_update (ResetPlace.Holds email) (holds email)
    exact single.held other digest email presents
      (heldBefore holds') row (sublist.subset mem) same
  gone other digest presents isConsumed := by
    change Function.update world.places index place other = .consumed at isConsumed
    by_cases same : other = index
    · subst other
      rw [Function.update_self] at isConsumed
      exact consumed isConsumed digest presents
    · rw [Function.update_of_ne same] at isConsumed
      intro mem
      exact single.gone other digest presents isConsumed ((sublist.map _).subset mem)
  alone other other' digest presents presents' hasFound hasFound' :=
    single.alone other other' digest presents presents'
      (World.holds_of_update ResetPlace.HasFound found hasFound)
      (World.holds_of_update ResetPlace.HasFound found hasFound')

/-- A recovery stores its row. -/
theorem request (single : SingleUse calls world)
    (apart : ∀ index other digest, Mails calls index digest → Mails calls other digest →
      index = other)
    {email digest : Str} {now : Timestamp} (issues : Mails calls index digest)
    (cleared : world.places index = .cleared) :
    SingleUse calls ⟨world.shared.createPasswordReset email digest now,
      Function.update world.places index .requested⟩ := by
  have pending : (world.places index).BeforeRequest := by
    rw [cleared]
    exact trivial
  have added : digests (world.shared.createPasswordReset email digest now) =
      digests world.shared ++ [digest] := List.map_append
  have foundBefore {other : Index}
      (found : (Function.update world.places index .requested other).HasFound) :
      (world.places other).HasFound := World.holds_of_update ResetPlace.HasFound False.elim found
  have otherPending {other : Index}
      (pending : (Function.update world.places index .requested other).BeforeRequest) :
      other ≠ index ∧ (world.places other).BeforeRequest := by
    by_cases same : other = index
    · subst other
      rw [Function.update_self] at pending
      exact pending.elim
    · rw [Function.update_of_ne same] at pending
      exact ⟨same, pending⟩
  constructor
  · rw [added]
    refine List.nodup_append.mpr ⟨single.stored, List.nodup_singleton _, ?_⟩
    rintro stored mem _ new rfl
    rw [List.mem_singleton.mp new] at mem
    exact single.unstored index digest issues pending mem
  · intro other digest' issues' pending' mem
    rw [added, List.mem_append, List.mem_singleton] at mem
    rcases otherPending pending' with ⟨differs, before⟩
    rcases mem with old | rfl
    · exact single.unstored other digest' issues' before old
    · exact differs (apart other index digest' issues' issues)
  · intro other digest' issues' pending' reset presents found
    exact single.unused other digest' issues' (otherPending pending').2 reset presents
      (foundBefore found)
  · intro other digest' email' presents holds row mem same
    rcases List.mem_append.mp mem with old | new
    · refine single.held other digest' email' presents ?_ row old same
      have heldBefore : (Function.update world.places index .requested other).Holds email' →
          (world.places other).Holds email' :=
        World.holds_of_update (ResetPlace.Holds email') False.elim
      exact heldBefore holds
    · -- nothing holds a row with the digest before it is stored
      rw [List.mem_singleton.mp new] at same
      cases same
      exact absurd (foundBefore holds.hasFound)
        (single.unused index digest issues pending other presents)
  · intro other digest' presents consumed mem
    have consumedBefore : world.places other = .consumed :=
      World.holds_of_update (· = ResetPlace.consumed) (fun same => by cases same) consumed
    rw [added, List.mem_append, List.mem_singleton] at mem
    rcases mem with old | rfl
    · exact single.gone other digest' presents consumedBefore old
    · refine single.unused index digest' issues pending other presents ?_
      rw [consumedBefore]
      exact trivial
  · intro other other' digest' presents presents' found found'
    exact single.alone other other' digest' presents presents' (foundBefore found)
      (foundBefore found')

/-- A reset finds its row, and no other reset of the token holds it. -/
theorem find (single : SingleUse calls world) {digest : Str} {row : PasswordReset}
    (presents : PresentsToken calls index digest) (mem : row ∈ world.shared.passwordResets)
    (same : row.token = digest)
    (first : ∀ other email, PresentsToken calls other digest → ¬ (world.places other).Holds email) :
    SingleUse calls ⟨world.shared, Function.update world.places index (.found row.email)⟩ := by
  have stored : digest ∈ digests world.shared := List.mem_map.mpr ⟨row, mem, same⟩
  have onlyDigest {digest' : Str} (presents' : PresentsToken calls index digest') :
      digest' = digest := by
    rcases presents with ⟨token, newPassword, salt, called, rfl⟩
    rcases presents' with ⟨token', newPassword', salt', called', rfl⟩
    cases called.symm.trans called'
    rfl
  have noneFound {other : Index} (presents' : PresentsToken calls other digest) :
      ¬ (world.places other).HasFound := by
    intro found
    rcases found.holds_or_consumed with ⟨email, holds⟩ | consumed
    · exact first other email presents' holds
    · exact single.gone other digest presents' consumed stored
  have pendingBefore {other : Index}
      (pending : (Function.update world.places index (.found row.email) other).BeforeRequest) :
      (world.places other).BeforeRequest :=
    World.holds_of_update ResetPlace.BeforeRequest False.elim pending
  constructor
  · exact single.stored
  · intro other digest' issues pending
    exact single.unstored other digest' issues (pendingBefore pending)
  · intro other digest' issues pending reset presents' found
    by_cases here : reset = index
    · subst reset
      cases onlyDigest presents'
      exact single.unstored other digest issues (pendingBefore pending) stored
    · change (Function.update world.places index _ reset).HasFound at found
      rw [Function.update_of_ne here] at found
      exact single.unused other digest' issues (pendingBefore pending) reset presents' found
  · intro other digest' email presents' holds row' mem' same'
    change (Function.update world.places index _ other).Holds email at holds
    by_cases here : other = index
    · subst other
      rw [Function.update_self] at holds
      cases onlyDigest presents'
      cases List.inj_on_of_nodup_map single.stored mem' mem (same'.trans same.symm)
      exact holds
    · rw [Function.update_of_ne here] at holds
      exact single.held other digest' email presents' holds row' mem' same'
  · intro other digest' presents' consumed
    exact single.gone other digest' presents'
      (World.holds_of_update (· = ResetPlace.consumed) (fun same => by cases same) consumed)
  · intro other other' digest' presents₁ presents₂ found₁ found₂
    change (Function.update world.places index _ other).HasFound at found₁
    change (Function.update world.places index _ other').HasFound at found₂
    by_cases here : other = index
    · by_cases here' : other' = index
      · exact here.trans here'.symm
      · subst other
        rw [Function.update_of_ne here'] at found₂
        cases onlyDigest presents₁
        exact absurd found₂ (noneFound presents₂)
    · rw [Function.update_of_ne here] at found₁
      by_cases here' : other' = index
      · subst other'
        cases onlyDigest presents₂
        exact absurd found₁ (noneFound presents₁)
      · rw [Function.update_of_ne here'] at found₂
        exact single.alone other other' digest' presents₁ presents₂ found₁ found₂

theorem move {world' : ResetWorld Index} (single : SingleUse calls world)
    (apart : ∀ index other digest, Mails calls index digest → Mails calls other digest →
      index = other)
    (moves : World.Moves (resetStatements calls) world index world')
    (behind : ¬ Overtakes calls world index world') : SingleUse calls world' := by
  rcases moves with ⟨statement⟩
  rename_i place shared
  unfold resetStatements at statement
  generalize calledAs : calls index = call at statement
  generalize stands : world.places index = before at statement
  cases statement with
  | unknown missing =>
      exact single.shrink (.refl _) False.elim (fun _ => False.elim) False.elim nofun
  | know found =>
      refine single.shrink (.refl _) (fun _ => ?_) (fun _ => False.elim) False.elim nofun
      rw [stands]
      exact trivial
  | clear =>
      refine single.shrink (sublist_deletePasswordReset _ _) (fun _ => ?_) (fun _ => False.elim)
        False.elim nofun
      rw [stands]
      exact trivial
  | request now => exact single.request apart ⟨_, _, calledAs, rfl⟩ stands
  | missing missing =>
      exact single.shrink (.refl _) False.elim (fun _ => False.elim) False.elim nofun
  | expired row now mem same late =>
      exact single.shrink (.refl _) False.elim (fun _ => False.elim) False.elim nofun
  | find row now mem same fresh =>
      refine single.find ⟨_, _, _, calledAs, rfl⟩ mem same fun other email presents holds => ?_
      exact behind ⟨stands, ⟨_, Function.update_self ..⟩, _, other, email,
        ⟨_, _, _, calledAs, rfl⟩, presents, holds⟩
  | fail failed => exact single.shrink (.refl _) False.elim (fun _ => False.elim) False.elim nofun
  | change ok =>
      refine single.shrink ?_ False.elim (fun email holds => ?_) (fun _ => ?_) nofun
      · rw [passwordResets_resetPassword ok]
      · rw [stands]
        exact holds
      · rw [stands]
        exact trivial
  | consume =>
      refine single.shrink (sublist_deletePasswordReset _ _) False.elim (fun _ => False.elim)
        (fun _ => ?_) ?_
      · rw [stands]
        exact trivial
      · intro _ digest presents mem
        rcases List.mem_map.mp mem with ⟨row, rowMem, same⟩
        rcases List.mem_filter.mp rowMem with ⟨stored, kept⟩
        refine bne_iff_ne.mp kept (single.held index digest _ presents ?_ row stored same)
        rw [stands]
        exact rfl

end SingleUse

/--
As long as no reset finds its row while another one of the token holds it, a token is used once.
-/
theorem usedOnce_of_none_overtakes (calls : Index → ResetCall) (accounts : Accounts)
    (apart : MailsApart calls accounts) (world : ResetWorld Index)
    (run : World.Runs (resetStatements calls)
      (fun world index world' => ¬ Overtakes calls world index world')
      (allCalled accounts) world) : UsedOnce calls world := by
  have single : SingleUse calls world :=
    run.invariant (SingleUse calls)
      (fun _ _ _ single moves behind => single.move apart.apart moves behind) (.allCalled apart)
  exact single.usedOnce

/-- A reset that holds its row can write the password next. -/
theorem exists_hasChanged {calls : Index → ResetCall} {world : ResetWorld Index} {index : Index}
    {digest email : Str}
    (fits : ∀ salt newPassword, overflows 255 (Crates.hashPassword salt newPassword) = false)
    (presents : PresentsToken calls index digest) (holds : (world.places index).Holds email) :
    ∃ world', World.Runs (resetStatements calls) (fun _ _ _ => True) world world' ∧
      (world'.places index).HasChanged ∧
      ∀ other, other ≠ index → world'.places other = world.places other := by
  cases stands : world.places index with
  | found held =>
      rcases presents with ⟨token, newPassword, salt, calledAs, -⟩
      rcases resetPassword_of_fits world.shared held (fits salt newPassword)
        with ⟨accounts, ok⟩
      have statement : resetStatements calls index (world.places index) world.shared
          (.changed held) accounts := by
        unfold resetStatements
        rw [calledAs, stands]
        exact .change ok
      refine ⟨_, World.Runs.step .refl index statement trivial, ?_, ?_⟩
      · change (Function.update world.places index (.changed held) index).HasChanged
        rw [Function.update_self]
        exact trivial
      · intro other differs
        exact Function.update_of_ne differs _ _
  | changed held =>
      refine ⟨world, .refl, ?_, fun _ _ => rfl⟩
      rw [stands]
      exact trivial
  | called | refused | known | cleared | requested | consumed =>
      rw [stands] at holds
      exact holds.elim

/-- What `Overtakes` rules out goes wrong: both resets go on to write their password. -/
theorem exists_not_usedOnce {calls : Index → ResetCall} {world world' : ResetWorld Index}
    {index : Index}
    (fits : ∀ salt newPassword, overflows 255 (Crates.hashPassword salt newPassword) = false)
    (moves : World.Moves (resetStatements calls) world index world')
    (overtakes : Overtakes calls world index world') :
    ∃ world'', World.Runs (resetStatements calls) (fun _ _ _ => True) world' world'' ∧
      ¬ UsedOnce calls world'' := by
  rcases overtakes with ⟨start, ⟨email, found⟩, digest, other, email', presents, presents', holds⟩
  have differs : other ≠ index := by
    rintro rfl
    rw [start] at holds
    exact holds
  have stands : world'.places other = world.places other := by
    rcases moves with ⟨statement⟩
    exact Function.update_of_ne differs _ _
  rw [← stands] at holds
  rcases exists_hasChanged fits presents' holds with ⟨world₁, run₁, changed₁, kept₁⟩
  have holds₁ : (world₁.places index).Holds email := by
    rw [kept₁ index (Ne.symm differs), found]
    exact rfl
  rcases exists_hasChanged fits presents holds₁ with ⟨world₂, run₂, changed₂, kept₂⟩
  refine ⟨world₂, run₁.trans run₂, fun once => ?_⟩
  rw [← kept₂ other differs] at changed₁
  exact differs (once other index digest presents' presents changed₁ changed₂)

def OnePending (accounts : Accounts) : Prop :=
  (accounts.passwordResets.map PasswordReset.email).Nodup

instance (accounts : Accounts) : Decidable (OnePending accounts) :=
  inferInstanceAs (Decidable (List.Nodup _))

/-- The call is a recovery that is about to store its row, and a row of its address has been stored
since it deleted them. -/
def StoresAnother (calls : Index → ResetCall) (world : ResetWorld Index) (index : Index) : Prop :=
  ∃ email token, calls index = .recovery email token ∧ world.places index = .cleared ∧
    email ∈ world.shared.passwordResets.map PasswordReset.email

variable {calls : Index → ResetCall} {world world' : ResetWorld Index} {index : Index}

omit [Crates] in
theorem onePending_deletePasswordReset {accounts : Accounts} {email : Str}
    (pending : OnePending accounts) :
    OnePending (accounts.deletePasswordReset email) :=
  List.Nodup.sublist ((sublist_deletePasswordReset accounts email).map _) pending

omit [Crates] in
theorem onePending_createPasswordReset {accounts : Accounts} {email token : Str} {now : Timestamp}
    (pending : OnePending accounts) :
    OnePending (accounts.createPasswordReset email token now) ↔
      email ∉ accounts.passwordResets.map PasswordReset.email := by
  change (List.map _ (_ ++ [_])).Nodup ↔ _
  rw [List.map_append, List.nodup_append]
  constructor
  · rintro ⟨-, -, apart⟩ mem
    exact apart email mem email (List.mem_singleton.mpr rfl) rfl
  · intro fresh
    refine ⟨pending, List.nodup_singleton _, ?_⟩
    rintro stored mem _ new rfl
    rw [List.mem_singleton.mp new] at mem
    exact fresh mem

theorem onePending_move (pending : OnePending world.shared)
    (moves : World.Moves (resetStatements calls) world index world') :
    OnePending world'.shared ↔ ¬ StoresAnother calls world index := by
  rcases moves with ⟨statement⟩
  rename_i place shared
  unfold resetStatements at statement
  generalize calledAs : calls index = call at statement
  generalize stands : world.places index = before at statement
  have stores (elsewhere : before ≠ .cleared) : ¬ StoresAnother calls world index := by
    rintro ⟨email, token, -, here, -⟩
    exact elsewhere (stands.symm.trans here)
  cases statement with
  | unknown | know | missing | expired | find | fail => exact iff_of_true pending (stores nofun)
  | clear | consume => exact iff_of_true (onePending_deletePasswordReset pending) (stores nofun)
  | change ok =>
      refine iff_of_true ?_ (stores nofun)
      rw [OnePending, passwordResets_resetPassword ok]
      exact pending
  | request now =>
      refine (onePending_createPasswordReset pending).trans (not_congr ?_)
      constructor
      · intro mem
        exact ⟨_, _, calledAs, stands, mem⟩
      · rintro ⟨email', token', calledAs', -, mem⟩
        cases calledAs.symm.trans calledAs'
        exact mem

/-- Every state of a run has one request for an address at most, exactly if no recovery stores a row
that another recovery has stored since it deleted the rows of the address. -/
theorem onePending_iff_none_storesAnother (calls : Index → ResetCall) (accounts : Accounts)
    (pending : OnePending accounts) (world : ResetWorld Index) :
    World.Runs (resetStatements calls) (fun _ _ world' => OnePending world'.shared)
      (allCalled accounts) world ↔
      World.Runs (resetStatements calls) (fun world index _ => ¬ StoresAnother calls world index)
        (allCalled accounts) world :=
  World.runs_invariant_iff (fun world => OnePending world.shared)
    (fun _ _ _ pending moves => onePending_move pending moves) pending

/-- The call is a recovery that is about to delete the rows of its address while another one stands
between deleting and storing. -/
def CutsIn (calls : Index → ResetCall) (world : ResetWorld Index) (index : Index) : Prop :=
  ∃ email token other token', calls index = .recovery email token ∧ world.places index = .known ∧
    calls other = .recovery email token' ∧ world.places other = .cleared

/--
Recoveries of one address that take turns: the one that has deleted finds no row to store over.
-/
structure InTurn (calls : Index → ResetCall) (world : ResetWorld Index) : Prop where
  empty : ∀ index email token, calls index = .recovery email token → world.places index = .cleared →
    email ∉ world.shared.passwordResets.map PasswordReset.email
  alone : ∀ index other email token token', calls index = .recovery email token →
    calls other = .recovery email token' → world.places index = .cleared →
      world.places other = .cleared →
    index = other

namespace InTurn

omit [Crates] in
/--
A statement that adds no row, and leaves its call elsewhere than between deleting and storing.
-/
theorem shrink {accounts : Accounts} {place : ResetPlace} (inTurn : InTurn calls world)
    (sublist : accounts.passwordResets.Sublist world.shared.passwordResets)
    (elsewhere : place ≠ .cleared) :
    InTurn calls ⟨accounts, Function.update world.places index place⟩ where
  empty other email token calledAs cleared mem :=
    inTurn.empty other email token calledAs
      (World.holds_of_update (· = ResetPlace.cleared) (fun here => absurd here elsewhere) cleared)
      ((sublist.map _).subset mem)
  alone other other' email token token' calledAs calledAs' cleared cleared' :=
    inTurn.alone other other' email token token' calledAs calledAs'
      (World.holds_of_update (· = ResetPlace.cleared) (fun here => absurd here elsewhere) cleared)
      (World.holds_of_update (· = ResetPlace.cleared) (fun here => absurd here elsewhere) cleared')

omit [Crates] in
theorem clear (inTurn : InTurn calls world) {email token : Str}
    (calledAs : calls index = .recovery email token) (stands : world.places index = .known)
    (behind : ¬ CutsIn calls world index) :
    InTurn calls ⟨world.shared.deletePasswordReset email,
      Function.update world.places index .cleared⟩ := by
  have others {other : Index} (differs : other ≠ index)
      (cleared : Function.update world.places index .cleared other = .cleared) :
      world.places other = .cleared := by
    rwa [Function.update_of_ne differs] at cleared
  have noOther {other : Index} {token' : Str} (differs : other ≠ index)
      (calledAs' : calls other = .recovery email token')
      (cleared : Function.update world.places index .cleared other = .cleared) : False :=
    behind ⟨email, token, other, token', calledAs, stands, calledAs', others differs cleared⟩
  constructor
  · intro other email' token' calledAs' cleared mem
    by_cases here : other = index
    · subst other
      cases calledAs.symm.trans calledAs'
      rcases List.mem_map.mp mem with ⟨row, kept, same⟩
      exact bne_iff_ne.mp (List.mem_filter.mp kept).2 same
    · exact inTurn.empty other email' token' calledAs' (others here cleared)
        (((sublist_deletePasswordReset world.shared email).map _).subset mem)
  · intro other other' email' token₁ token₂ calledAs₁ calledAs₂ cleared₁ cleared₂
    by_cases here : other = index
    · subst other
      cases calledAs.symm.trans calledAs₁
      by_cases here' : other' = index
      · exact here'.symm
      · exact (noOther here' calledAs₂ cleared₂).elim
    · by_cases here' : other' = index
      · subst other'
        cases calledAs.symm.trans calledAs₂
        exact (noOther here calledAs₁ cleared₁).elim
      · exact inTurn.alone other other' email' token₁ token₂ calledAs₁ calledAs₂
          (others here cleared₁) (others here' cleared₂)

omit [Crates] in
theorem request (inTurn : InTurn calls world) {email token digest : Str} {now : Timestamp}
    (calledAs : calls index = .recovery email token) (stands : world.places index = .cleared) :
    InTurn calls ⟨world.shared.createPasswordReset email digest now,
      Function.update world.places index .requested⟩ := by
  have others {other : Index}
      (cleared : Function.update world.places index .requested other = .cleared) :
      other ≠ index ∧ world.places other = .cleared := by
    by_cases here : other = index
    · subst other
      rw [Function.update_self] at cleared
      cases cleared
    · rw [Function.update_of_ne here] at cleared
      exact ⟨here, cleared⟩
  constructor
  · intro other email' token' calledAs' cleared mem
    rcases others cleared with ⟨differs, before⟩
    rcases List.mem_map.mp mem with ⟨row, stored, same⟩
    rcases List.mem_append.mp stored with old | new
    · exact inTurn.empty other email' token' calledAs' before (List.mem_map.mpr ⟨row, old, same⟩)
    · rw [List.mem_singleton.mp new] at same
      cases same
      exact differs (inTurn.alone other index email token' token calledAs' calledAs before stands)
  · intro other other' email' token₁ token₂ calledAs₁ calledAs₂ cleared₁ cleared₂
    exact inTurn.alone other other' email' token₁ token₂ calledAs₁ calledAs₂ (others cleared₁).2
      (others cleared₂).2

theorem move (inTurn : InTurn calls world)
    (moves : World.Moves (resetStatements calls) world index world')
    (behind : ¬ CutsIn calls world index) : InTurn calls world' := by
  rcases moves with ⟨statement⟩
  unfold resetStatements at statement
  generalize calledAs : calls index = call at statement
  generalize stands : world.places index = before at statement
  cases statement with
  | unknown | know | missing | expired | find | fail => exact inTurn.shrink (.refl _) nofun
  | clear => exact inTurn.clear calledAs stands behind
  | request now => exact inTurn.request calledAs stands
  | change ok =>
      refine inTurn.shrink ?_ nofun
      rw [passwordResets_resetPassword ok]
  | consume => exact inTurn.shrink (sublist_deletePasswordReset _ _) nofun

end InTurn

/-- Recoveries that take turns between deleting and storing keep one request for an address. -/
theorem onePending_of_none_cutsIn (calls : Index → ResetCall) (accounts : Accounts)
    (pending : OnePending accounts) (world : ResetWorld Index)
    (run : World.Runs (resetStatements calls) (fun world index _ => ¬ CutsIn calls world index)
      (allCalled accounts) world) : OnePending world.shared := by
  have kept : OnePending world.shared ∧ InTurn calls world := by
    refine run.invariant (fun world => OnePending world.shared ∧ InTurn calls world)
      ?_ ⟨pending, ?_⟩
    · intro world index world' holds moves behind
      refine ⟨(onePending_move holds.1 moves).mpr ?_, holds.2.move moves behind⟩
      rintro ⟨email, token, calledAs, stands, mem⟩
      exact holds.2.empty index email token calledAs stands mem
    · exact ⟨fun _ _ _ _ => nofun, fun _ _ _ _ _ _ _ => nofun⟩
  exact kept.1

end

/-- A recovery, and two resets that present its token. -/
def recoveryAndResets : Fin 3 → ResetCall
  | 0 => .recovery "ann@example.com" "tick"
  | 1 => .reset "tick" "first password" []
  | 2 => .reset "tick" "second password" []

/-- What the recovery stores. -/
def tickRow : PasswordReset := ⟨"ann@example.com", "tick", 0⟩

theorem mailsApart_recoveryAndResets : @MailsApart plainCrates _ recoveryAndResets staffOnly := by
  let _ := plainCrates
  have recovers {index : Fin 3} {digest : Str}
      (issues : @Mails plainCrates _ recoveryAndResets index digest) :
      index = 0 := by
    rcases issues with ⟨email, token, calledAs, -⟩
    match index with
    | 0 => rfl
    | 1 => cases calledAs
    | 2 => cases calledAs
  exact ⟨List.nodup_nil, fun _ _ _ => nofun,
    fun _ _ _ issues issues' => (recovers issues).trans (recovers issues').symm⟩

/-- Both resets find the row that the recovery has stored, and both write their password. -/
theorem tick_used_twice :
    @MailsApart plainCrates _ recoveryAndResets staffOnly ∧
      ∃ world, World.Runs (@resetStatements plainCrates _ recoveryAndResets) (fun _ _ _ => True)
        (allCalled staffOnly) world ∧ ¬ @UsedOnce plainCrates _ recoveryAndResets world := by
  let _ := plainCrates
  refine ⟨mailsApart_recoveryAndResets, ?_⟩
  have first : World.Runs (resetStatements recoveryAndResets) (fun _ _ _ => True)
      (allCalled staffOnly) (allCalled staffOnly) := .refl
  have stored :=
    ((first.step 0 (.know rfl) trivial).step 0 .clear trivial).step 0 (.request 0) trivial
  have found := (stored.step 1 (.find tickRow 60 List.mem_cons_self rfl (by decide)) trivial).step 2
    (.find tickRow 60 List.mem_cons_self rfl (by decide)) trivial
  rcases resetPassword_of_fits _ "ann@example.com"
    (show overflows 255 (Crates.hashPassword [] "first password") = false from rfl) with
      ⟨accounts₁, ok₁⟩
  rcases resetPassword_of_fits accounts₁ "ann@example.com"
    (show overflows 255 (Crates.hashPassword [] "second password") = false from rfl) with
      ⟨accounts₂, ok₂⟩
  have changed := (found.step 1 (.change ok₁) trivial).step 2 (.change ok₂) trivial
  refine ⟨_, changed, fun once => ?_⟩
  have same := once 1 2 "tick" ⟨_, _, _, rfl, rfl⟩ ⟨_, _, _, rfl, rfl⟩ trivial trivial
  cases same

/-- The first reset runs to its end before the second one is called. -/
theorem tick_used_once :
    ∃ world, @UsedOnce plainCrates _ recoveryAndResets world ∧ world.places 1 = .consumed ∧
      world.places 2 = .refused := by
  let _ := plainCrates
  have first : World.Runs (resetStatements recoveryAndResets)
      (fun world index world' => ¬ Overtakes recoveryAndResets world index world')
      (allCalled staffOnly) (allCalled staffOnly) := .refl
  have stored :=
    ((first.step 0 (.know rfl) (by rintro ⟨-, ⟨email, found⟩, -⟩; cases found)).step 0 .clear
    (by rintro ⟨start, -⟩; cases start)).step 0 (.request 0) (by rintro ⟨start, -⟩; cases start)
  have found := stored.step 1 (.find tickRow 60 List.mem_cons_self rfl (by decide)) (by
    rintro ⟨-, -, digest, other, email, -, -, holds⟩
    match other with
    | 0 => exact holds
    | 1 => exact holds
    | 2 => exact holds)
  rcases resetPassword_of_fits _ "ann@example.com"
    (show overflows 255 (Crates.hashPassword [] "first password") = false from rfl) with
      ⟨accounts, ok⟩
  have consumed := (found.step 1 (.change ok) (by rintro ⟨start, -⟩; cases start)).step 1 .consume
    (by rintro ⟨start, -⟩; cases start)
  have gone : Crates.hashToken "tick" ∉
      (accounts.deletePasswordReset "ann@example.com").passwordResets.map PasswordReset.token := by
    rw [Accounts.deletePasswordReset, passwordResets_resetPassword ok]
    exact List.not_mem_nil
  have refused := consumed.step 2 (.missing gone) (by rintro ⟨-, ⟨email, found⟩, -⟩; cases found)
  exact ⟨_, usedOnce_of_none_overtakes recoveryAndResets staffOnly
    mailsApart_recoveryAndResets _ refused, rfl, rfl⟩

/-- Two recoveries of one address. -/
def twoRecoveries : Fin 2 → ResetCall
  | 0 => .recovery "ann@example.com" "tick"
  | 1 => .recovery "ann@example.com" "tock"

/-- Both recoveries have deleted the rows of the address before either stores its own. -/
theorem ann_has_two_requests :
    OnePending staffOnly ∧
      ∃ world, World.Runs (@resetStatements plainCrates _ twoRecoveries) (fun _ _ _ => True)
        (allCalled staffOnly) world ∧ ¬ OnePending world.shared := by
  let _ := plainCrates
  refine ⟨List.nodup_nil, ?_⟩
  have first : World.Runs (resetStatements twoRecoveries) (fun _ _ _ => True) (allCalled staffOnly)
      (allCalled staffOnly) := .refl
  have known := (first.step 0 (.know rfl) trivial).step 1 (.know rfl) trivial
  have cleared := (known.step 0 .clear trivial).step 1 .clear trivial
  have stored := (cleared.step 0 (.request 0) trivial).step 1 (.request 0) trivial
  exact ⟨_, stored, by decide⟩

/-- The first recovery runs to its end before the second one deletes. -/
theorem ann_has_one_request :
    ∃ world : ResetWorld (Fin 2), World.Runs (@resetStatements plainCrates _ twoRecoveries)
        (fun _ _ world' => OnePending world'.shared) (allCalled staffOnly) world ∧
      world.places 0 = .requested ∧ world.places 1 = .requested := by
  let _ := plainCrates
  have first : World.Runs (resetStatements twoRecoveries)
      (fun world index _ => ¬ StoresAnother twoRecoveries world index) (allCalled staffOnly)
      (allCalled staffOnly) := .refl
  have elsewhere {world : ResetWorld (Fin 2)} {index : Fin 2}
      (apart : world.places index ≠ .cleared) :
      ¬ StoresAnother twoRecoveries world index := by
    rintro ⟨email, token, -, here, -⟩
    exact apart here
  have known := (first.step 0 (.know rfl) (elsewhere nofun)).step 1 (.know rfl) (elsewhere nofun)
  have requested := (known.step 0 .clear (elsewhere nofun)).step 0 (.request 0) (by
    rintro ⟨email, token, calledAs, -, mem⟩
    cases calledAs
    exact absurd mem (by decide))
  have again := (requested.step 1 .clear (elsewhere nofun)).step 1 (.request 0) (by
    rintro ⟨email, token, calledAs, -, mem⟩
    cases calledAs
    exact absurd mem (by decide))
  exact ⟨_, (onePending_iff_none_storesAnother twoRecoveries staffOnly List.nodup_nil _).mpr
    again, rfl, rfl⟩

end SchemaForge.Iam
