import SchemaForge.Foundation.Machine
import SchemaForge.Iam.Users

/-!
# Who hands out roles

The routes of the module as a machine. A user who updates their own account
cannot touch its roles, but two routes next to that one take roles from any
caller: the creation of an account and the update of an account by its id.
-/

namespace SchemaForge.Iam

open Repository

/-- A request and the account whose token it carries. -/
structure Call where
  caller : Uuid
  request : Request

/-- No account holds a role that it did not hold before. -/
def NoGrowth (before after : Accounts) : Prop :=
  ∀ user role, after.holds user role = true → before.holds user role = true

/-- The account holds the role that bypasses every permission check. -/
def HoldsSuperRole (superRole : Str) (accounts : Accounts) (user : Uuid) : Prop :=
  superRole ∈ accounts.getUserRoles user

instance (superRole : Str) (accounts : Accounts) (user : Uuid) :
    Decidable (HoldsSuperRole superRole accounts user) :=
  inferInstanceAs (Decidable (superRole ∈ accounts.getUserRoles user))

/-- A change of the roles of one account. -/
structure RoleChange where
  user : Uuid
  added : List Str
  removed : List Str

/-- The roles that a request asks to change. -/
def Request.roleChange : Request → Option RoleChange
  | create payload drawn _ => some ⟨drawn, payload.roles, []⟩
  | patch id payload _ => some ⟨id, payload.addRoles.getD [], payload.removeRoles.getD []⟩
  | _ => none

/-- An update of the columns of an account is in order. -/
def Accounts.AcceptsUpdate (accounts : Accounts) (id : Uuid) (fields : UpdateUser) : Prop :=
  fields.hasNoColumnChanges = true ∨
    ∃ statusId, statusOf fields.status = .ok statusId ∧
      accounts.refusesUpdate id (columnsOf fields statusId) = none

section Store

variable {accounts accounts' : Accounts} {id : Uuid}

theorem roleIds_congr {first second : Accounts} (same : first.roles = second.roles)
    (names : List Str) :
    first.roleIds names = second.roleIds names := by
  rw [Accounts.roleIds, Accounts.roleIds, same]

theorem partialUpdate_columns {fields : UpdateUser}
    (ok : accounts.partialUpdate id fields = .ok accounts') :
    accounts.AcceptsUpdate id fields ∧ accounts'.userRoles = accounts.userRoles ∧
      accounts'.roles = accounts.roles := by
  unfold Accounts.partialUpdate at ok
  split at ok
  · rename_i unchanged
    cases ok
    exact ⟨.inl unchanged, rfl, rfl⟩
  · rcases exists_of_bind_eq_ok ok with ⟨statusId, known, ok⟩
    rcases Accounts.updateUser_eq_ok (eq_ok_of_mapError_eq_ok ok) with ⟨accepted, -, roles, held⟩
    exact ⟨.inr ⟨statusId, known, accepted⟩, held, roles⟩

theorem partialUpdate_of_accepted {fields : UpdateUser}
    (accepted : accounts.AcceptsUpdate id fields) :
    ∃ accounts', accounts.partialUpdate id fields = .ok accounts' := by
  unfold Accounts.partialUpdate
  split
  · exact ⟨accounts, rfl⟩
  · rename_i changes
    rcases accepted with unchanged | ⟨statusId, known, accepted⟩
    · exact absurd unchanged changes
    · rcases Accounts.updateUser_of_accepted accepted with ⟨accounts', ok⟩
      rw [known]
      exact ⟨accounts', congrArg (Except.mapError Refusal.toDomainError) ok⟩

end Store

section Routes

variable [Crates]

/-- The service stores the account that it is asked for. -/
structure AcceptsCreate (accounts : Accounts) (user : CreateUser) (drawn : Uuid)
    (salt : Str) : Prop where
  row : accounts.refuses (Accounts.rowOf (UserService.interim user salt) drawn) = none
  roles : Accounts.refusesNames user.roles = false

/-- The service makes the update that it is asked for. -/
structure AcceptsPatch (accounts : Accounts) (id : Uuid) (fields : UpdateUser)
    (salt : Str) : Prop where
  shown : ∃ row ∈ accounts.users, row.id = id ∧ accounts.IsComplete row
  columns : ∃ password, UserService.hashedPassword salt fields.password = .ok password ∧
    accounts.AcceptsUpdate id { fields with password }
  added : Accounts.refusesNames (fields.addRoles.getD []) = false
  removed : Accounts.refusesNames (fields.removeRoles.getD []) = false

/-- Nothing in the request stands against the change of roles that it asks for. -/
def Accepted (accounts : Accounts) (call : Call) : Prop :=
  (accounts.findUserById call.caller).isSome ∧
    match call.request with
    | .create payload drawn salt =>
        payload.validate = .ok () ∧ AcceptsCreate accounts payload.user drawn salt
    | .patch id payload salt => AcceptsPatch accounts id payload salt
    | _ => True

/-- The request adds a role to an account that does not hold it, and leaves it there. -/
def HandsOut (accounts : Accounts) (call : Call) : Prop :=
  Accepted accounts call ∧ ∃ change ∈ call.request.roleChange,
    ∃ role ∈ accounts.roleIds change.added,
      accounts.holds change.user role = false ∧ role ∉ accounts.roleIds change.removed

/-- The tables after a request, and its answer. -/
def conclude (accounts : Accounts) : Except Error (Accounts × Reply) → Accounts × Except Error Reply
  | .ok (accounts', reply) => (accounts', .ok reply)
  | .error error => (accounts, .error error)

def routes (superRole : Str) : Machine Accounts Call (Except Error Reply) where
  step accounts call := conclude accounts (route superRole accounts call.caller call.request)

variable {accounts accounts' : Accounts} {id : Uuid} {salt : Str}

theorem create_eq_ok {user : CreateUser} {drawn created : Uuid}
    (ok : UserService.create accounts user drawn salt = .ok (accounts', created)) :
    AcceptsCreate accounts user drawn salt ∧
      ∃ inserted : Accounts, inserted.userRoles = accounts.userRoles ∧ inserted.roles =
        accounts.roles ∧
        inserted.users = (Accounts.rowOf (UserService.interim user salt) drawn).stored ::
          accounts.users ∧
        accounts' = inserted.withRoles drawn user.roles := by
  have stored := eq_ok_of_mapError_eq_ok ok
  rcases exists_of_bind_eq_ok stored with ⟨inserted, insertedOk, stored⟩
  rcases exists_of_bind_eq_ok stored with ⟨added, addedOk, stored⟩
  rcases Accounts.insertUser_eq_ok (eq_ok_of_mapError_eq_ok insertedOk) with
    ⟨accepted, users, roles, held⟩
  rcases Accounts.addUserRoles_eq_ok_iff.mp (eq_ok_of_mapError_eq_ok addedOk) with ⟨named, rfl⟩
  cases stored
  exact ⟨⟨accepted, named⟩, inserted, held, roles, users, rfl⟩

theorem create_of_accepted {user : CreateUser} {drawn : Uuid}
    (accepted : AcceptsCreate accounts user drawn salt) :
    ∃ accounts', UserService.create accounts user drawn salt = .ok (accounts', drawn) := by
  rcases Accounts.insertUser_of_accepted accepted.row with ⟨inserted, ok⟩
  have added : inserted.addUserRoles drawn (UserService.interim user salt).roles =
      .ok (inserted.withRoles drawn user.roles) :=
    Accounts.addUserRoles_eq_ok_iff.mpr ⟨accepted.roles, rfl⟩
  refine ⟨inserted.withRoles drawn user.roles, ?_⟩
  rw [UserService.create, Accounts.create, ok]
  simp only [Except.mapError, bind, Except.bind, added]
  rfl

theorem partialUpdate_eq_ok {fields : UpdateUser}
    (ok : UserService.partialUpdate accounts id fields salt = .ok accounts') :
    AcceptsPatch accounts id fields salt ∧
      ∃ updated password, UserService.hashedPassword salt fields.password = .ok password ∧
        accounts.partialUpdate id { fields with password } = .ok updated ∧
        accounts' = (updated.withRoles id (fields.addRoles.getD [])).withoutRoles id
          (fields.removeRoles.getD []) := by
  rcases exists_of_bind_eq_ok ok with ⟨user, found, ok⟩
  rcases exists_of_bind_eq_ok ok with ⟨password, hashed, ok⟩
  rcases exists_of_bind_eq_ok ok with ⟨updated, updatedOk, ok⟩
  rcases exists_of_bind_eq_ok ok with ⟨added, addedOk, ok⟩
  replace updatedOk := eq_ok_of_mapError_eq_ok updatedOk
  rcases Accounts.addUserRoles_eq_ok_iff.mp (eq_ok_of_mapError_eq_ok addedOk) with ⟨addable, rfl⟩
  rcases Accounts.removeUserRoles_eq_ok_iff.mp (eq_ok_of_mapError_eq_ok ok) with ⟨removable, rfl⟩
  have accepted := (partialUpdate_columns updatedOk).1
  have shown := UserService.requireUser_isOk_iff.mp ⟨user, found⟩
  exact ⟨⟨shown, ⟨password, hashed, accepted⟩, addable, removable⟩, updated, password, hashed,
    updatedOk, rfl⟩

theorem partialUpdate_of_accepts {fields : UpdateUser}
    (accepts : AcceptsPatch accounts id fields salt) :
    ∃ accounts', UserService.partialUpdate accounts id fields salt = .ok accounts' := by
  rcases UserService.requireUser_isOk_iff.mpr accepts.shown with ⟨user, found⟩
  rcases accepts.columns with ⟨password, hashed, accepted⟩
  rcases partialUpdate_of_accepted accepted with ⟨updated, updatedOk⟩
  have added :=
    Accounts.addUserRoles_eq_ok_iff.mpr ⟨accepts.added, (rfl : updated.withRoles id _ = _)⟩
  have removed := Accounts.removeUserRoles_eq_ok_iff.mpr ⟨accepts.removed,
    (rfl : (updated.withRoles id (fields.addRoles.getD [])).withoutRoles id _ = _)⟩
  refine ⟨(updated.withRoles id (fields.addRoles.getD [])).withoutRoles id
    (fields.removeRoles.getD []), ?_⟩
  rw [UserService.partialUpdate, found, hashed]
  simp only [bind, Except.bind, updatedOk, Except.mapError, added, removed]

variable {superRole : Str} {call : Call}

/-- A request that is accepted adds roles and then removes some, from one account. -/
theorem step_of_accepted (superRole : Str) {change : RoleChange} (accepted : Accepted accounts call)
    (asked : call.request.roleChange = some change) :
    ∃ changed : Accounts, changed.userRoles = accounts.userRoles ∧ changed.roles = accounts.roles ∧
      ((routes superRole).step accounts call).1 =
        (changed.withRoles change.user change.added).withoutRoles change.user change.removed := by
  rcases call with ⟨caller, request⟩
  rcases accepted with ⟨known, accepted⟩
  rcases Option.isSome_iff_exists.mp known with ⟨row, found⟩
  change ∃ changed : Accounts, _ ∧ _ ∧
    (conclude accounts (route superRole accounts caller request)).1 = _
  rw [route, found]
  cases request with
  | create payload drawn salt =>
      cases asked
      rcases create_of_accepted accepted.2 with ⟨accounts', ok⟩
      rcases create_eq_ok ok with ⟨-, inserted, held, roles, -, same⟩
      have dispatched : dispatch superRole accounts caller (.create payload drawn salt) =
          .ok (accounts', .created drawn) := by
        simp only [dispatch, accepted.1, ok]
        rfl
      refine ⟨inserted, held, roles, ?_⟩
      rw [Accounts.withoutRoles_nil]
      change (conclude accounts (dispatch _ _ _ _)).1 = _
      rw [dispatched]
      exact same
  | patch id payload salt =>
      cases asked
      rcases partialUpdate_of_accepts accepted with ⟨accounts', ok⟩
      rcases partialUpdate_eq_ok ok with ⟨-, updated, password, -, updatedOk, same⟩
      rcases partialUpdate_columns updatedOk with ⟨-, held, roles⟩
      have dispatched : dispatch superRole accounts caller (.patch id payload salt) =
          .ok (accounts', .updated) := by
        simp only [dispatch, ok]
        rfl
      refine ⟨updated, held, roles, ?_⟩
      change (conclude accounts (dispatch _ _ _ _)).1 = _
      rw [dispatched]
      exact same
  | index | getMyUser | patchMyUser _ _ | get _ | delete _ | permissions => cases asked

/-- Any other request leaves every role where it is. -/
theorem step_of_not_accepted (rest : ¬ (Accepted accounts call ∧ call.request.roleChange.isSome)) :
    ((routes superRole).step accounts call).1.userRoles = accounts.userRoles ∧
      ((routes superRole).step accounts call).1.roles = accounts.roles := by
  rcases call with ⟨caller, request⟩
  change (conclude accounts (route superRole accounts caller request)).1.userRoles = _ ∧
    (conclude accounts (route superRole accounts caller request)).1.roles = _
  cases outcome : route superRole accounts caller request with
  | error failure => exact ⟨rfl, rfl⟩
  | ok result =>
      rcases result with ⟨accounts', reply⟩
      change accounts'.userRoles = _ ∧ accounts'.roles = _
      unfold route at outcome
      cases found : accounts.findUserById caller with
      | none =>
          rw [found] at outcome
          cases outcome
      | some row =>
          rw [found] at outcome
          have known : (accounts.findUserById caller).isSome := by
            rw [found]
            rfl
          cases request with
          | index =>
              simp only [dispatch] at outcome
              split at outcome
              · cases outcome
                exact ⟨rfl, rfl⟩
              · cases outcome
          | permissions =>
              cases outcome
              exact ⟨rfl, rfl⟩
          | getMyUser | get _ =>
              rcases exists_of_bind_eq_ok outcome with ⟨_, -, outcome⟩
              cases outcome
              exact ⟨rfl, rfl⟩
          | delete id =>
              rcases exists_of_bind_eq_ok outcome with ⟨deleted, deletedOk, outcome⟩
              rcases exists_of_bind_eq_ok deletedOk with ⟨_, -, deletedOk⟩
              cases outcome
              have updated := eq_ok_of_mapError_eq_ok (eq_ok_of_mapError_eq_ok deletedOk)
              rcases Accounts.updateUser_eq_ok updated with ⟨-, -, roles, held⟩
              exact ⟨held, roles⟩
          | patchMyUser payload salt =>
              rcases exists_of_bind_eq_ok outcome with ⟨updated, updatedOk, outcome⟩
              cases outcome
              rcases partialUpdate_eq_ok updatedOk with ⟨-, middle, password, -, middleOk, same⟩
              rcases partialUpdate_columns middleOk with ⟨-, held, roles⟩
              -- what a user may change of their own account has no roles in it
              change accounts' = (middle.withRoles caller []).withoutRoles caller [] at same
              rw [Accounts.withRoles_nil, Accounts.withoutRoles_nil] at same
              rw [same]
              exact ⟨held, roles⟩
          | create payload drawn salt =>
              refine absurd ⟨⟨known, ?_⟩, rfl⟩ rest
              rcases exists_of_bind_eq_ok outcome with ⟨_, valid, outcome⟩
              rcases exists_of_bind_eq_ok outcome with ⟨created, createdOk, -⟩
              exact ⟨valid, (create_eq_ok createdOk).1⟩
          | patch id payload salt =>
              refine absurd ⟨⟨known, ?_⟩, rfl⟩ rest
              rcases exists_of_bind_eq_ok outcome with ⟨updated, updatedOk, -⟩
              exact (partialUpdate_eq_ok updatedOk).1

/-- Nothing writes the table of roles. -/
theorem roles_step : ((routes superRole).step accounts call).1.roles = accounts.roles := by
  by_cases changes : Accepted accounts call ∧ call.request.roleChange.isSome
  · rcases Option.isSome_iff_exists.mp changes.2 with ⟨change, asked⟩
    rcases step_of_accepted superRole changes.1 asked with ⟨changed, -, roles, same⟩
    rw [same]
    exact roles
  · exact (step_of_not_accepted changes).2

theorem holds_step (superRole : Str) {change : RoleChange} (accepted : Accepted accounts call)
    (asked : call.request.roleChange = some change) (user : Uuid) (role : Int) :
    ((routes superRole).step accounts call).1.holds user role = true ↔
      (accounts.holds user role = true ∨
        (user = change.user ∧ role ∈ accounts.roleIds change.added)) ∧
        ¬ (user = change.user ∧ role ∈ accounts.roleIds change.removed) := by
  rcases step_of_accepted superRole accepted asked with ⟨changed, held, roles, same⟩
  have added : (changed.withRoles change.user change.added).roles = accounts.roles := roles
  rw [same, Accounts.holds_withoutRoles, Accounts.holds_withRoles, roleIds_congr roles,
    roleIds_congr added, Accounts.holds, held, ← Accounts.holds]

/-- A request lets a role set grow exactly if it hands a role out. -/
theorem noGrowth_step_iff :
    NoGrowth accounts ((routes superRole).step accounts call).1 ↔ ¬ HandsOut accounts call := by
  constructor
  · rintro kept ⟨accepted, change, asked, role, added, lacking, removed⟩
    have after := (holds_step superRole accepted asked change.user role).mpr
      ⟨.inr ⟨rfl, added⟩, fun gone => removed gone.2⟩
    rw [kept change.user role after] at lacking
    cases lacking
  · intro kept user role after
    by_cases changes : Accepted accounts call ∧ call.request.roleChange.isSome
    · rcases Option.isSome_iff_exists.mp changes.2 with ⟨change, asked⟩
      rcases (holds_step superRole changes.1 asked user role).mp after with
        ⟨before | ⟨rfl, added⟩, stays⟩
      · exact before
      · cases held : accounts.holds change.user role with
        | true => rfl
        | false =>
            refine absurd ⟨changes.1, change, asked, role, added, held, ?_⟩ kept
            exact fun gone => stays ⟨rfl, gone⟩
    · rwa [Accounts.holds, (step_of_not_accepted changes).1, ← Accounts.holds] at after

omit [Crates] in
/-- Roles are held by id and named in a table: who holds no more roles holds no more names. -/
theorem superRole_of_noGrowth {before after : Accounts} (kept : NoGrowth before after)
    (roles : after.roles = before.roles) {user : Uuid}
    (held : HoldsSuperRole superRole after user) :
    HoldsSuperRole superRole before user := by
  rcases List.mem_map.mp held with ⟨role, mem, named⟩
  rcases List.mem_filter.mp mem with ⟨known, held⟩
  refine List.mem_map.mpr ⟨role, List.mem_filter.mpr ⟨roles ▸ known, ?_⟩, named⟩
  exact kept user role.id held

/-- What is left of the roles of a store in a state that a run reaches from it. -/
structure Kept (superRole : Str) (start reached : Accounts) : Prop where
  roles : reached.roles = start.roles
  growth : NoGrowth start reached

theorem kept_final {calls : List Call}
    (along : (routes superRole).Along (fun accounts call => ¬ HandsOut accounts call)
      accounts calls) :
    Kept superRole accounts ((routes superRole).final accounts calls) := by
  refine along.final (Kept superRole accounts) ?_ ⟨rfl, fun _ _ held => held⟩
  intro reached call kept harmless
  constructor
  · exact roles_step.trans kept.roles
  · intro user role held
    exact kept.growth user role (noGrowth_step_iff.mpr harmless user role held)

/-- Along a run no role set grows exactly if no request hands out a role; and then every
state that the run reaches has its roles, and its super role, where the first one had them. -/
theorem roles_kept (superRole : Str) (accounts : Accounts) (calls : List Call) :
    ((routes superRole).Along (fun accounts call =>
        NoGrowth accounts ((routes superRole).step accounts call).1) accounts calls ↔
      (routes superRole).Along (fun accounts call => ¬ HandsOut accounts call) accounts calls) ∧
    ((routes superRole).Along (fun accounts call => ¬ HandsOut accounts call) accounts calls →
      ∀ before after, calls = before ++ after →
        NoGrowth accounts ((routes superRole).final accounts before) ∧
        ∀ user, HoldsSuperRole superRole ((routes superRole).final accounts before) user →
          HoldsSuperRole superRole accounts user) := by
  constructor
  · exact Machine.along_congr fun accounts call => noGrowth_step_iff
  · rintro along before after rfl
    have kept := kept_final (Machine.along_append.mp along).1
    exact ⟨kept.growth, fun user => superRole_of_noGrowth kept.growth kept.roles⟩

end Routes

/-- ASCII letters, and no hash or address that the run below would need. -/
abbrev asciiCrates : Crates where
  toUnicode := Unicode.ascii
  hashPassword salt password := salt ++ password
  verifyPassword _ _ := false
  hashToken token := token
  validateEmail _ := true
  isUppercase := Char.isUpper
  isLowercase := Char.isLower

def staffMember : UserRow where
  id := 7
  userName := "ann"
  avatarId := []
  avatarUrl := none
  email := "ann@example.com"
  password := []
  firstName := "Ann"
  lastName := "Lee"
  statusId := activeUserStatus
  departmentId := 1

/-- The roles of the first migration, and one account, which holds `Staff`. -/
def staffOnly : Accounts where
  roles := [⟨1, "Admin"⟩, ⟨2, "Developer"⟩, ⟨3, "Staff"⟩]
  grants := [⟨1, "Users", "View All"⟩, ⟨2, "Users", "View All"⟩]
  statuses := [⟨activeUserStatus, some "Active"⟩, ⟨deletedUserStatus, some "Deleted"⟩]
  departments := [⟨1, some "Administration", some 1⟩]
  companies := [⟨1, "Example Company Ltd"⟩]
  users := [staffMember]
  userRoles := [(7, 3)]
  passwordResets := []
  statusKey := by decide
  departmentKey := List.nodup_singleton _
  companyKey := List.nodup_singleton _
  companyNameKey := List.nodup_singleton _
  userKey := List.nodup_singleton _
  userNameKey := List.nodup_singleton _
  emailKey := List.nodup_singleton _
  fits := List.forall_mem_singleton.mpr (by decide)
  statusExists := List.forall_mem_singleton.mpr (by decide)
  departmentExists := List.forall_mem_singleton.mpr (by decide)
  companyExists := by simp

/-- `PATCH /v1/users/{user-id}`, on their own id, with `add_roles` only. -/
def selfPromotion : Call where
  caller := 7
  request := .patch 7 ⟨none, none, none, none, none, none, none, some ["Admin"], none⟩ []

/-- The account holds no super role, asks for it, and has it. -/
theorem selfPromotion_hands_out :
    ¬ HoldsSuperRole "Admin" staffOnly selfPromotion.caller ∧
      HoldsSuperRole "Admin" ((@routes asciiCrates "Admin").final staffOnly [selfPromotion]) 7 := by
  constructor
  · decide
  · decide

end SchemaForge.Iam
