import SchemaForge.Iam.Accounts

/-!
# The two permission checks

A route asks for one action or for any of a list. The first question is an `EXISTS`
query, the second is answered from the listing of what the roles of a user grant. The
listing joins the modules, and a permission need not have one.
-/

namespace SchemaForge.Rbac

open Repository Iam

/-- A row of `modules`. -/
structure ModuleRow where
  id : Int
  name : Str
deriving DecidableEq

/-- A row of `permissions`, whose columns may all be null but for the key. -/
structure PermissionRow where
  id : Int
  name : Option Str
  resource : Option Str
  moduleId : Option Int
deriving DecidableEq

/-- The tables behind a permission check, with their keys and references. -/
structure PermissionTables where
  /-- The keys of `users`. -/
  users : List Uuid
  roles : List Role
  modules : List ModuleRow
  permissions : List PermissionRow
  /-- A role and a permission that it grants. -/
  rolePermissions : List (Int × Int)
  userRoles : List (Uuid × Int)
  userKey : users.Nodup
  roleKey : (roles.map Role.id).Nodup
  roleNameKey : (roles.map Role.name).Nodup
  moduleKey : (modules.map ModuleRow.id).Nodup
  permissionKey : (permissions.map PermissionRow.id).Nodup
  rolePermissionKey : rolePermissions.Nodup
  userRoleKey : userRoles.Nodup
  modulesExist : ∀ permission ∈ permissions, ∀ id ∈ permission.moduleId,
    id ∈ modules.map ModuleRow.id
  grantsExist : ∀ grant ∈ rolePermissions,
    grant.1 ∈ roles.map Role.id ∧ grant.2 ∈ permissions.map PermissionRow.id
  holdersExist : ∀ holder ∈ userRoles, holder.1 ∈ users ∧ holder.2 ∈ roles.map Role.id

namespace PermissionTables

/-- No permission is without a name or a resource. -/
def AllNamed (tables : PermissionTables) : Prop :=
  ∀ permission ∈ tables.permissions, permission.name.isSome = true ∧
    permission.resource.isSome = true

instance (tables : PermissionTables) : Decidable tables.AllNamed :=
  inferInstanceAs (Decidable (∀ permission ∈ tables.permissions, _))

def HoldsRole (tables : PermissionTables) (user : Uuid) (name : Str) : Prop :=
  ∃ role ∈ tables.roles, role.name = name ∧ (user, role.id) ∈ tables.userRoles

/-- The user holds a role that grants the permission. -/
def Grants (tables : PermissionTables) (user : Uuid) (permission : PermissionRow) : Prop :=
  ∃ role, (role, permission.id) ∈ tables.rolePermissions ∧ (user, role) ∈ tables.userRoles

end PermissionTables

structure Permission where
  moduleName : Str
  resource : Str
  name : Str
deriving DecidableEq

/-- What the engine asks of a store. A call may fail. -/
structure Store where
  getRoles : Uuid → Option (List Str)
  getPermissions : Uuid → Option (List Permission)
  hasPermission : Uuid → Str → Str → Option Bool

def splitAction (action : Str) : Option (Str × Str) := Str.splitOnce '.' action

structure RbacEngine where
  superRole : Str
  store : Store

namespace RbacEngine

def roleBypass (engine : RbacEngine) (user : Uuid) : Bool :=
  match engine.store.getRoles user with
  | some roles => roles.contains engine.superRole
  | none => false

def can (engine : RbacEngine) (user : Uuid) (action : Str) : Bool :=
  if engine.roleBypass user then true
  else
    match splitAction action with
    | none => false
    | some (resource, permission) =>
        match engine.store.hasPermission user resource permission with
        | some allowed => allowed
        | none => false

/-- One turn of the loop that groups permissions. -/
def grant (granted : Str → Option (List Str)) (permission : Permission) : Str → Option (List Str) :=
  Function.update granted permission.resource
    (some ((granted permission.resource).getD [] ++ [permission.name]))

/-- The names of the permissions, by their resource. -/
def granted (permissions : List Permission) :
    Str → Option (List Str) := permissions.foldl grant fun _ => none

def canAny (engine : RbacEngine) (user : Uuid) (actions : List Str) : Bool :=
  if engine.roleBypass user then true
  else
    match engine.store.getPermissions user with
    | none => false
    | some permissions =>
        actions.any fun action =>
          (splitAction action).any fun (resource, permission) =>
            (granted permissions resource).any fun names => names.contains permission

end RbacEngine

/-- A row of the listing, before its columns are read. -/
structure ListedRow where
  moduleName : Str
  resource : Option Str
  name : Option Str
deriving DecidableEq

/-- The tables, and the order in which the database lists rows. -/
structure PostgresRbacStore where
  tables : PermissionTables
  arrange : List ListedRow → List ListedRow
  arrange_perm : ∀ rows, (arrange rows).Perm rows

namespace PostgresRbacStore

def getRoles (store : PostgresRbacStore) (user : Uuid) : List Str :=
  (store.tables.roles.filter fun role =>
    store.tables.userRoles.any fun holder => holder.2 == role.id && holder.1 == user).map Role.name

/-- The roles through which the user is granted a permission, from the join of two tables. -/
def grantsOf (store : PostgresRbacStore) (user : Uuid) (permission : PermissionRow) : List Int :=
  (store.tables.rolePermissions.filter fun grant => grant.2 == permission.id).flatMap fun grant =>
    (store.tables.userRoles.filter fun holder =>
      holder.2 == grant.1 && holder.1 == user).map Prod.snd

/-- The rows of the join that the listing selects from. -/
def joined (store : PostgresRbacStore) (user : Uuid) : List ListedRow :=
  store.tables.permissions.flatMap fun permission =>
    (store.tables.modules.filter fun row => permission.moduleId == some row.id).flatMap fun row =>
      (store.grantsOf user permission).map fun _ => ⟨row.name, permission.resource, permission.name⟩

/-- Reads the columns of a row, neither of which may be null. -/
def readPermission (row : ListedRow) : Option Permission := do
  let resource ← row.resource
  let name ← row.name
  some ⟨row.moduleName, resource, name⟩

def getPermissions (store : PostgresRbacStore) (user : Uuid) : Option (List Permission) :=
  (store.arrange (store.joined user).dedup).mapM readPermission

def hasPermission (store : PostgresRbacStore) (user : Uuid) (resource name : Str) : Bool :=
  store.tables.permissions.any fun permission =>
    !(store.grantsOf user permission).isEmpty && permission.resource == some resource &&
      permission.name == some name

/-- The store whose statements succeed. -/
def toStore (store : PostgresRbacStore) : Store where
  getRoles user := some (store.getRoles user)
  getPermissions := store.getPermissions
  hasPermission user resource name := some (store.hasPermission user resource name)

variable {store : PostgresRbacStore} {user : Uuid}

theorem exists_mem_grantsOf {permission : PermissionRow} :
    (∃ role, role ∈ store.grantsOf user permission) ↔ store.tables.Grants user permission := by
  constructor
  · rintro ⟨role, mem⟩
    rcases List.mem_flatMap.mp mem with ⟨⟨role', granted⟩, grantMem, mem⟩
    rcases List.mem_map.mp mem with ⟨⟨holder, held⟩, holderMem, rfl⟩
    simp only [List.mem_filter, beq_iff_eq, Bool.and_eq_true] at grantMem holderMem
    rcases grantMem with ⟨grantMem, rfl⟩
    rcases holderMem with ⟨holderMem, rfl, rfl⟩
    exact ⟨held, grantMem, holderMem⟩
  · rintro ⟨role, grantMem, holderMem⟩
    refine ⟨role,
      List.mem_flatMap.mpr ⟨(role, permission.id), ?_, List.mem_map.mpr ⟨(user, role), ?_, rfl⟩⟩⟩
    · simp [grantMem]
    · simp [holderMem]

theorem mem_joined {row : ListedRow} :
    row ∈ store.joined user ↔ ∃ permission ∈ store.tables.permissions,
    store.tables.Grants user permission ∧
      ∃ moduleRow ∈ store.tables.modules, permission.moduleId = some moduleRow.id ∧
        row = ⟨moduleRow.name, permission.resource, permission.name⟩ := by
  simp only [joined, List.mem_flatMap, List.mem_map, List.mem_filter, beq_iff_eq,
    ← exists_mem_grantsOf]
  constructor
  · rintro ⟨permission, mem, row, ⟨rowMem, key⟩, role, held, rfl⟩
    exact ⟨permission, mem, ⟨role, held⟩, row, rowMem, key, rfl⟩
  · rintro ⟨permission, mem, ⟨role, held⟩, row, rowMem, key, rfl⟩
    exact ⟨permission, mem, row, ⟨rowMem, key⟩, role, held, rfl⟩

theorem mapM_eq_some_filterMap {α β : Type} {read : α → Option β} {rows : List α}
    (reads : ∀ row ∈ rows, (read row).isSome = true) :
    rows.mapM read = some (rows.filterMap read) := by
  induction rows with
  | nil => rfl
  | cons row rows ih =>
      rcases Option.isSome_iff_exists.mp (reads row List.mem_cons_self) with ⟨value, found⟩
      rw [List.mapM_cons, found, ih fun later mem => reads later (List.mem_cons_of_mem _ mem),
        List.filterMap_cons_some found]
      rfl

/-- The listing holds what the user is granted, where there is a module to list it under. -/
theorem getPermissions_of_allNamed (named : store.tables.AllNamed) (user : Uuid) :
    ∃ permissions, store.getPermissions user = some permissions ∧ ∀ resource name,
      (∃ permission ∈ permissions, permission.resource = resource ∧ permission.name = name) ↔
        ∃ permission ∈ store.tables.permissions, store.tables.Grants user permission ∧
          permission.resource = some resource ∧ permission.name = some name ∧
            permission.moduleId ≠ none := by
  have listed {row : ListedRow} :
      row ∈ store.arrange (store.joined user).dedup ↔ row ∈ store.joined user := by
    rw [(store.arrange_perm _).mem_iff, List.mem_dedup]
  have reads : ∀ row ∈ store.arrange (store.joined user).dedup,
      (readPermission row).isSome = true := by
    intro row mem
    rcases mem_joined.mp (listed.mp mem) with ⟨permission, permissionMem, -, moduleRow, -, -, rfl⟩
    rcases named permission permissionMem with ⟨name, resource⟩
    rcases Option.isSome_iff_exists.mp name with ⟨name, named⟩
    rcases Option.isSome_iff_exists.mp resource with ⟨resource, placed⟩
    simp [readPermission, named, placed]
  refine ⟨_, mapM_eq_some_filterMap reads, ?_⟩
  intro resource name
  simp only [List.mem_filterMap]
  constructor
  · rintro ⟨read, ⟨row, mem, found⟩, rfl, rfl⟩
    rcases mem_joined.mp (listed.mp mem) with
      ⟨permission, permissionMem, granted, moduleRow, -, key, rfl⟩
    simp only [readPermission, Option.bind_eq_bind, Option.bind_eq_some_iff] at found
    rcases found with ⟨resource, placed, name, named, same⟩
    cases same
    exact ⟨permission, permissionMem, granted, placed, named, key ▸ Option.some_ne_none _⟩
  · rintro ⟨permission, permissionMem, granted, placed, named, some⟩
    rcases Option.ne_none_iff_exists'.mp some with ⟨id, key⟩
    rcases List.mem_map.mp (store.tables.modulesExist permission permissionMem id key) with
      ⟨moduleRow, moduleMem, rfl⟩
    refine ⟨⟨moduleRow.name, resource, name⟩,
      ⟨⟨moduleRow.name, permission.resource, permission.name⟩, ?_, ?_⟩, rfl, rfl⟩
    · exact listed.mpr
        (mem_joined.mpr ⟨permission, permissionMem, granted, moduleRow, moduleMem, key, rfl⟩)
    · simp [readPermission, placed, named]

theorem hasPermission_iff {resource name : Str} : store.hasPermission user resource name = true ↔
    ∃ permission ∈ store.tables.permissions, store.tables.Grants user permission ∧
      permission.resource = some resource ∧ permission.name = some name := by
  rw [hasPermission, List.any_eq_true]
  simp only [Bool.and_eq_true, beq_iff_eq, Bool.not_eq_true', List.isEmpty_eq_false_iff_exists_mem,
    exists_mem_grantsOf, and_assoc]

end PostgresRbacStore

namespace RbacEngine

theorem grant_any_contains {granted : Str → Option (List Str)} {permission : Permission}
    {resource name : Str} :
    (grant granted permission resource).any (fun names => names.contains name) = true ↔
      (granted resource).any (fun names => names.contains name) = true ∨
        permission.resource = resource ∧ permission.name = name := by
  unfold grant
  by_cases same : resource = permission.resource
  · subst same
    rw [Function.update_self]
    rw [Option.any_some, List.contains_iff_mem, List.mem_append, List.mem_singleton]
    cases granted permission.resource with
    | none => simpa using eq_comm
    | some names => simpa using or_congr_right eq_comm
  · rw [Function.update_of_ne same]
    constructor
    · exact Or.inl
    · rintro (found | ⟨other, -⟩)
      · exact found
      · exact absurd other.symm same

theorem granted_any_contains {permissions : List Permission} {resource name : Str} :
    (granted permissions resource).any (fun names => names.contains name) = true ↔
      ∃ permission ∈ permissions, permission.resource = resource ∧ permission.name = name := by
  have folded (start : Str → Option (List Str)) :
      (permissions.foldl grant start resource).any (fun names => names.contains name) = true ↔
        (start resource).any (fun names => names.contains name) = true ∨
          ∃ permission ∈ permissions, permission.resource = resource ∧ permission.name = name := by
    induction permissions generalizing start with
    | nil => simp
    | cons permission permissions ih =>
        rw [List.foldl_cons, ih, grant_any_contains, List.exists_mem_cons_iff, or_assoc]
  have whole := folded fun _ => none
  rw [Option.any_none] at whole
  exact whole.trans ⟨fun found => found.resolve_left Bool.false_ne_true, Or.inr⟩

variable {superRole : Str} {store : PostgresRbacStore} {user : Uuid} {actions : List Str}

/-- A permission that the user is granted and that an action of the list names. -/
structure Asked (tables : PermissionTables) (user : Uuid) (actions : List Str)
    (permission : PermissionRow) :
    Prop where
  mem : permission ∈ tables.permissions
  granted : tables.Grants user permission
  named : ∃ action ∈ actions, ∃ resource name, splitAction action = some (resource, name) ∧
    permission.resource = some resource ∧ permission.name = some name

theorem roleBypass_iff : (RbacEngine.mk superRole store.toStore).roleBypass user = true ↔
    store.tables.HoldsRole user superRole := by
  change (store.getRoles user).contains superRole = true ↔ _
  rw [List.contains_iff_mem, PostgresRbacStore.getRoles, List.mem_map]
  simp only [List.mem_filter, List.any_eq_true, Bool.and_eq_true, beq_iff_eq]
  constructor
  · rintro ⟨role, ⟨mem, ⟨holder, held⟩, heldMem, rfl, rfl⟩, name⟩
    exact ⟨role, mem, name, heldMem⟩
  · rintro ⟨role, mem, name, held⟩
    exact ⟨role, ⟨mem, _, held, rfl, rfl⟩, name⟩

theorem any_can_iff (ordinary : ¬store.tables.HoldsRole user superRole) :
    actions.any ((RbacEngine.mk superRole store.toStore).can user) = true ↔
      ∃ permission, Asked store.tables user actions permission := by
  have one (action : Str) : (RbacEngine.mk superRole store.toStore).can user action = true ↔
      ∃ resource name, splitAction action = some (resource, name) ∧
        store.hasPermission user resource name = true := by
    rw [can, if_neg (roleBypass_iff.not.mpr ordinary)]
    cases splitAction action with
    | none => simp
    | some parts =>
        rcases parts with ⟨resource, name⟩
        simp [PostgresRbacStore.toStore]
  simp only [List.any_eq_true, one, PostgresRbacStore.hasPermission_iff]
  constructor
  · rintro ⟨action, mem, resource, name, split, permission, permissionMem, granted, placed, named⟩
    exact ⟨permission, permissionMem, granted, action, mem, resource, name, split, placed, named⟩
  · rintro ⟨permission, permissionMem, granted, action, mem, resource, name, split, placed, named⟩
    exact ⟨action, mem, resource, name, split, permission, permissionMem, granted, placed, named⟩

theorem canAny_iff (named : store.tables.AllNamed)
    (ordinary : ¬store.tables.HoldsRole user superRole) :
    (RbacEngine.mk superRole store.toStore).canAny user actions = true ↔
      ∃ permission, Asked store.tables user actions permission ∧ permission.moduleId ≠ none := by
  rcases store.getPermissions_of_allNamed named user with ⟨permissions, found, listed⟩
  rw [canAny, if_neg (roleBypass_iff.not.mpr ordinary)]
  change (match store.getPermissions user with | none => false | some permissions => _) = true ↔ _
  rw [found]
  have one (action : Str) : ((splitAction action).any fun (resource, permission) =>
      (granted permissions resource).any fun names => names.contains permission) = true ↔
        ∃ resource name, splitAction action = some (resource, name) ∧
          ∃ permission ∈ permissions, permission.resource = resource ∧ permission.name = name := by
    cases splitAction action with
    | none => simp
    | some parts =>
        rcases parts with ⟨resource, name⟩
        rw [Option.any_some, granted_any_contains]
        constructor
        · intro found
          exact ⟨resource, name, rfl, found⟩
        · rintro ⟨_, _, same, found⟩
          cases same
          exact found
  simp only [List.any_eq_true, one, listed]
  constructor
  · rintro ⟨action, mem, resource, name, split, permission, permissionMem, granted,
      placed, named, kept⟩
    exact ⟨permission, ⟨permissionMem, granted, action, mem, resource, name, split, placed, named⟩,
      kept⟩
  · rintro ⟨permission, ⟨permissionMem, granted, action, mem, resource, name, split, placed, named⟩,
      kept⟩
    exact ⟨action, mem, resource, name, split, permission, permissionMem, granted,
      placed, named, kept⟩

/--
One of the permissions asked for and granted has a module, unless there is none or all is allowed.
-/
def AskedIsListed (superRole : Str) (tables : PermissionTables) (user : Uuid) (actions : List Str) :
    Prop :=
  tables.HoldsRole user superRole ∨ ((∃ permission, Asked tables user actions permission) →
    ∃ permission, Asked tables user actions permission ∧ permission.moduleId ≠ none)

/-- The two checks agree where the listing shows what was asked for. -/
theorem canAny_eq_any_can_iff (named : store.tables.AllNamed) (nonempty : actions ≠ []) :
    (RbacEngine.mk superRole store.toStore).canAny user actions =
        actions.any ((RbacEngine.mk superRole store.toStore).can user) ↔
      AskedIsListed superRole store.tables user actions := by
  by_cases bypass : store.tables.HoldsRole user superRole
  · have every : ∀ action, (RbacEngine.mk superRole store.toStore).can user action = true := by
      intro action
      rw [can, if_pos (roleBypass_iff.mpr bypass)]
    rcases List.exists_mem_of_ne_nil actions nonempty with ⟨action, mem⟩
    rw [canAny, if_pos (roleBypass_iff.mpr bypass),
      List.any_eq_true.mpr ⟨action, mem, every action⟩]
    exact ⟨fun _ => Or.inl bypass, fun _ => rfl⟩
  · rw [Bool.eq_iff_iff, canAny_iff named bypass, any_can_iff bypass]
    constructor
    · intro same
      exact Or.inr same.mpr
    · rintro (holds | listed)
      · exact absurd holds bypass
      · constructor
        · rintro ⟨permission, asked, -⟩
          exact ⟨permission, asked⟩
        · exact listed

/-! Staff that may view every user, by a permission with or without a module. -/

def viewAllUsers (moduleId : Option Int) (known : ∀ id ∈ moduleId, id = 1) : PostgresRbacStore where
  tables :=
    { users := [7]
      roles := [⟨3, "Staff"⟩]
      modules := [⟨1, "IAM Module"⟩]
      permissions := [⟨1, some "View All", some "Users", moduleId⟩]
      rolePermissions := [(3, 1)]
      userRoles := [(7, 3)]
      userKey := by decide
      roleKey := by decide
      roleNameKey := by decide
      moduleKey := by decide
      permissionKey := List.nodup_singleton 1
      rolePermissionKey := by decide
      userRoleKey := by decide
      modulesExist := by simpa using known
      grantsExist := by simp
      holdersExist := by decide }
  arrange rows := rows
  arrange_perm rows := .refl rows

theorem canAny_eq_any_can_iff_viewAllUsers :
    (RbacEngine.mk "Admin" (viewAllUsers (some 1) (by simp)).toStore).canAny 7 ["Users.View All"] =
        (["Users.View All"] : List Str).any
        ((RbacEngine.mk "Admin" (viewAllUsers (some 1) (by simp)).toStore).can 7) ↔
      AskedIsListed "Admin" (viewAllUsers (some 1) (by simp)).tables 7 ["Users.View All"] :=
  canAny_eq_any_can_iff (by decide) (List.cons_ne_nil _ _)

theorem canAny_ne_any_can :
    (viewAllUsers none (by simp)).tables.AllNamed ∧
      (RbacEngine.mk "Admin" (viewAllUsers none (by simp)).toStore).canAny 7
      ["Users.View All"] = false ∧
      (["Users.View All"] : List Str).any
        ((RbacEngine.mk "Admin" (viewAllUsers none (by simp)).toStore).can 7) = true := by
  decide

end RbacEngine

end SchemaForge.Rbac
