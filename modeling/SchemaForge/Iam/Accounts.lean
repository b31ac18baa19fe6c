import SchemaForge.Foundation.Lists
import SchemaForge.Repository.Tables

/-!
# The tables of the `iam` schema

Accounts, the roles they hold and the password resets they asked for, with the
constraints that the database keeps on accounts and the statements of the two
stores that run on them. A deleted account is a row like any other, with
another status.
-/

namespace SchemaForge.Iam

open Repository

def activeUserStatus : Int := 1

def deletedUserStatus : Int := 2

/-- `UserStatus::id_of`. -/
def statusIdOf (status : Str) : Option Int :=
  if status = "Active" then some activeUserStatus
  else if status = "Deleted" then some deletedUserStatus
  else none

/-- A row of `users`. -/
structure UserRow where
  id : Uuid
  userName : Str
  avatarId : Str
  avatarUrl : Option Str
  email : Str
  /-- The hash of the password, or nothing for an account made by a Google sign in. -/
  password : Str
  firstName : Str
  lastName : Str
  statusId : Int
  departmentId : Int
deriving DecidableEq

/-- A row of `user_statuses`. -/
structure StatusRow where
  id : Int
  status : Option Str
deriving DecidableEq

/-- A row of `departments`. -/
structure DepartmentRow where
  id : Int
  name : Option Str
  companyId : Option Int
deriving DecidableEq

/-- A row of `companies`. -/
structure CompanyRow where
  id : Int
  name : Str
deriving DecidableEq

/-- A row of `roles`. -/
structure Role where
  id : Int
  name : Str
deriving DecidableEq

/-- A row of `permissions`, for one role that it is granted to. -/
structure Grant where
  roleId : Int
  resource : Str
  name : Str
deriving DecidableEq

/-- A moment, in seconds. -/
abbrev Timestamp := Int

structure PasswordReset where
  email : Str
  /-- The digest of the token. -/
  token : Str
  createdAt : Timestamp
deriving DecidableEq

/-- Why the database refuses a row of `users`. -/
inductive Refusal where
  | unique | foreignKey | other
deriving DecidableEq

/-- A text that no column of the width holds. -/
def overflows (width : Nat) (text : Str) : Bool := width < text.length || text.contains '\x00'

/-- A row with a text that its column does not hold. -/
def UserRow.overflows (row : UserRow) : Bool :=
  [row.userName, row.email, row.firstName, row.lastName].any (Iam.overflows 100) ||
    [row.avatarId, row.password].any (Iam.overflows 255) ||
    (row.avatarUrl.getD []).contains '\x00'

/-- The row without the blanks beyond the widths of its columns. A hash has none. -/
def UserRow.stored (row : UserRow) : UserRow :=
  { row with
    userName := Varchar.stored 100 row.userName
    avatarId := Varchar.stored 255 row.avatarId
    email := Varchar.stored 100 row.email
    firstName := Varchar.stored 100 row.firstName
    lastName := Varchar.stored 100 row.lastName }

theorem length_le_of_not_overflows {width : Nat} {text : Str}
    (fits : overflows width text = false) :
    text.length ≤ width := by
  rw [overflows, Bool.or_eq_false_iff, decide_eq_false_iff_not, Nat.not_lt] at fits
  exact fits.1

theorem UserRow.length_email_le {row : UserRow} (fits : row.overflows = false) :
    row.email.length ≤ 100 := by
  simp only [UserRow.overflows, List.any_cons, List.any_nil, Bool.or_false,
    Bool.or_eq_false_iff] at fits
  exact length_le_of_not_overflows fits.1.1.2.1

/-- The texts of a row that fits are stored as they are. -/
theorem UserRow.stored_of_fits {row : UserRow} (fits : row.overflows = false) :
    row.stored = row := by
  simp only [UserRow.overflows, List.any_cons, List.any_nil, Bool.or_false,
    Bool.or_eq_false_iff] at fits
  rcases fits with ⟨⟨⟨userName, email, firstName, lastName⟩, avatarId, -⟩, -⟩
  have kept {width : Nat} {text : Str} (fits : Iam.overflows width text = false) :
      Varchar.stored width text = text :=
    Varchar.stored_of_length_le (length_le_of_not_overflows fits)
  rw [UserRow.stored, kept userName, kept email, kept firstName, kept lastName, kept avatarId]

/-- The columns that an `UPDATE` sets. -/
structure Columns where
  avatarId : Option Str
  avatarUrl : Option (Option Str)
  firstName : Option Str
  lastName : Option Str
  email : Option Str
  departmentId : Option Int
  statusId : Option Int
  password : Option Str

namespace Columns

def none : Columns := ⟨.none, .none, .none, .none, .none, .none, .none, .none⟩

/-- The columns without the blanks beyond their widths. A hash has none. -/
def stored (columns : Columns) : Columns :=
  { columns with
    avatarId := columns.avatarId.map (Varchar.stored 255)
    firstName := columns.firstName.map (Varchar.stored 100)
    lastName := columns.lastName.map (Varchar.stored 100)
    email := columns.email.map (Varchar.stored 100) }

def overflows (columns : Columns) : Bool :=
  [columns.email, columns.firstName, columns.lastName].any (Option.any (Iam.overflows 100)) ||
    [columns.avatarId, columns.password].any (Option.any (Iam.overflows 255)) ||
    ((columns.avatarUrl.getD .none).getD []).contains '\x00'

def set (columns : Columns) (row : UserRow) : UserRow :=
  { row with
    avatarId := columns.avatarId.getD row.avatarId
    avatarUrl := columns.avatarUrl.getD row.avatarUrl
    firstName := columns.firstName.getD row.firstName
    lastName := columns.lastName.getD row.lastName
    email := columns.email.getD row.email
    departmentId := columns.departmentId.getD row.departmentId
    statusId := columns.statusId.getD row.statusId
    password := columns.password.getD row.password }

@[simp]
theorem set_id (columns : Columns) (row : UserRow) : (columns.set row).id = row.id := rfl

@[simp]
theorem set_userName (columns : Columns) (row : UserRow) :
    (columns.set row).userName = row.userName := rfl

@[simp]
theorem set_email (columns : Columns) (row : UserRow) :
    (columns.set row).email = columns.email.getD row.email := rfl

@[simp]
theorem set_statusId (columns : Columns) (row : UserRow) :
    (columns.set row).statusId = columns.statusId.getD row.statusId := rfl

/-- What is set and what was there have a property that a value of the column has. -/
theorem getD_of_forall {α : Type} {holds : α → Prop} {set : Option α} {before : α}
    (new : ∀ value ∈ set, holds value) (old : holds before) : holds (set.getD before) := by
  cases set with
  | none => exact old
  | some value => exact new value rfl

theorem overflows_set {columns : Columns} {row : UserRow} (new : columns.overflows = false)
    (old : row.overflows = false) : (columns.set row).overflows = false := by
  have kept {width : Nat} {set : Option Str} {before : Str}
      (new : set.any (Iam.overflows width) = false) (old : Iam.overflows width before = false) :
      Iam.overflows width (set.getD before) = false := by
    cases set with
    | none => exact old
    | some value => exact new
  simp only [overflows, UserRow.overflows, List.any_cons, List.any_nil, Bool.or_false,
    Bool.or_eq_false_iff]
    at new old ⊢
  rcases new with ⟨⟨⟨email, firstName, lastName⟩, avatarId, password⟩, avatarUrl⟩
  rcases old with ⟨⟨⟨userName, email', firstName', lastName'⟩, avatarId', password'⟩, avatarUrl'⟩
  refine ⟨⟨⟨userName, kept email email', kept firstName firstName', kept lastName lastName'⟩,
    kept avatarId avatarId', kept password password'⟩, ?_⟩
  change ((columns.avatarUrl.getD row.avatarUrl).getD []).contains '\x00' = false
  cases set : columns.avatarUrl with
  | none => exact avatarUrl'
  | some value =>
      rw [set] at avatarUrl
      exact avatarUrl

end Columns

/--
The tables, with their keys, the widths of the columns of `users`, and the references behind an
account.
-/
structure Accounts where
  roles : List Role
  grants : List Grant
  statuses : List StatusRow
  departments : List DepartmentRow
  companies : List CompanyRow
  users : List UserRow
  userRoles : List (Uuid × Int)
  passwordResets : List PasswordReset
  statusKey : (statuses.map StatusRow.id).Nodup
  departmentKey : (departments.map DepartmentRow.id).Nodup
  companyKey : (companies.map CompanyRow.id).Nodup
  companyNameKey : (companies.map CompanyRow.name).Nodup
  userKey : (users.map UserRow.id).Nodup
  userNameKey : (users.map UserRow.userName).Nodup
  emailKey : (users.map UserRow.email).Nodup
  fits : ∀ row ∈ users, row.overflows = false
  statusExists : ∀ row ∈ users, row.statusId ∈ statuses.map StatusRow.id
  departmentExists : ∀ row ∈ users, row.departmentId ∈ departments.map DepartmentRow.id
  companyExists : ∀ department ∈ departments, ∀ id ∈ department.companyId,
    id ∈ companies.map CompanyRow.id

/-- A row of the join that accounts are shown from. -/
structure JoinedRow where
  user : UserRow
  status : StatusRow
  department : DepartmentRow
  company : CompanyRow
deriving DecidableEq

/-- The names that an account is shown with are not null. -/
def JoinedRow.IsNamed (row : JoinedRow) : Prop :=
  row.status.status ≠ none ∧ row.department.name ≠ none

namespace Accounts

variable {accounts accounts' : Accounts} {id user : Uuid} {row row' : UserRow} {email : Str}

def findUserById (accounts : Accounts) (id : Uuid) : Option UserRow :=
  accounts.users.find? fun row => row.id == id

def findUserByEmail (accounts : Accounts) (email : Str) : Option UserRow :=
  accounts.users.find? fun row => row.email == email

def holds (accounts : Accounts) (user : Uuid) (role : Int) : Bool :=
  accounts.userRoles.contains (user, role)

/-- The names of the roles that the user holds. -/
def getUserRoles (accounts : Accounts) (user : Uuid) : List Str :=
  (accounts.roles.filter fun role => accounts.holds user role.id).map Role.name

/-- The accounts with their status, their department and its company. -/
def joined (accounts : Accounts) : List JoinedRow :=
  accounts.users.flatMap fun user =>
    (accounts.statuses.filter fun status => user.statusId == status.id).flatMap fun status =>
      (accounts.departments.filter fun department => user.departmentId == department.id).flatMap
        fun department =>
        (accounts.companies.filter fun company => department.companyId == some company.id).map
          fun company =>
          ⟨user, status, department, company⟩

def statusIds (accounts : Accounts) : List Int := accounts.statuses.map StatusRow.id

def departmentIds (accounts : Accounts) : List Int := accounts.departments.map DepartmentRow.id

def hasPermission (accounts : Accounts) (user : Uuid) (resource name : Str) : Bool :=
  accounts.grants.any fun grant =>
    accounts.holds user grant.roleId && grant.resource == resource && grant.name == name

theorem findUserById_eq_some :
    accounts.findUserById id = some row ↔ row ∈ accounts.users ∧ row.id = id :=
  List.find?_key_eq_some accounts.userKey

theorem findUserByEmail_eq_some :
    accounts.findUserByEmail email = some row ↔ row ∈ accounts.users ∧ row.email = email :=
  List.find?_key_eq_some accounts.emailKey

theorem mem_joined {joined : JoinedRow} : joined ∈ accounts.joined ↔ joined.user ∈ accounts.users ∧
    (joined.status ∈ accounts.statuses ∧ joined.user.statusId = joined.status.id) ∧
    (joined.department ∈ accounts.departments ∧ joined.user.departmentId = joined.department.id) ∧
    (joined.company ∈ accounts.companies ∧ joined.department.companyId = some joined.company.id) :=
  by
  simp only [Accounts.joined, List.mem_flatMap, List.mem_map, List.mem_filter, beq_iff_eq]
  constructor
  · rintro ⟨user, userMem, status, statusMem, department, departmentMem, company, companyMem, rfl⟩
    exact ⟨userMem, statusMem, departmentMem, companyMem⟩
  · rintro ⟨userMem, statusMem, departmentMem, companyMem⟩
    exact ⟨_, userMem, _, statusMem, _, departmentMem, _, companyMem, rfl⟩

/-- An account has one row at most. -/
theorem joined_unique {first second : JoinedRow} (mem : first ∈ accounts.joined)
    (mem' : second ∈ accounts.joined) (same : first.user.id = second.user.id) : first = second := by
  rcases mem_joined.mp mem with
    ⟨user, ⟨status, statusId⟩, ⟨department, departmentId⟩, company, companyId⟩
  rcases mem_joined.mp mem' with
    ⟨user', ⟨status', statusId'⟩, ⟨department', departmentId'⟩, company', companyId'⟩
  have users := List.inj_on_of_nodup_map accounts.userKey user user' same
  have statuses := List.inj_on_of_nodup_map accounts.statusKey status status'
    (statusId.symm.trans (users ▸ statusId'))
  have departments := List.inj_on_of_nodup_map accounts.departmentKey department department'
    (departmentId.symm.trans (users ▸ departmentId'))
  have companies := List.inj_on_of_nodup_map accounts.companyKey company company'
    (Option.some.inj (companyId.symm.trans (departments ▸ companyId')))
  cases first
  cases second
  rw [JoinedRow.mk.injEq]
  exact ⟨users, statuses, departments, companies⟩

/-- The account can be shown: it has a department of a company, and neither name is null. -/
structure IsComplete (accounts : Accounts) (user : UserRow) : Prop where
  status : ∃ status ∈ accounts.statuses, status.id = user.statusId ∧ status.status ≠ none
  department : ∃ department ∈ accounts.departments, department.id = user.departmentId ∧
    department.name ≠ none ∧
    department.companyId ≠ none

theorem exists_joined_of_isComplete {user : UserRow} (mem : user ∈ accounts.users)
    (complete : accounts.IsComplete user) : ∃ joined ∈ accounts.joined, joined.user = user := by
  rcases complete with
    ⟨⟨status, statusMem, statusId, -⟩, department, departmentMem, departmentId, -, linked⟩
  rcases Option.ne_none_iff_exists'.mp linked with ⟨id, companyId⟩
  rcases List.mem_map.mp (accounts.companyExists department departmentMem id companyId) with
    ⟨company, companyMem, rfl⟩
  exact ⟨⟨user, status, department, company⟩,
    mem_joined.mpr ⟨mem, ⟨statusMem, statusId.symm⟩, ⟨departmentMem, departmentId.symm⟩,
      companyMem, companyId⟩,
    rfl⟩

theorem isComplete_iff_of_mem {joined : JoinedRow} (mem : joined ∈ accounts.joined) :
    accounts.IsComplete joined.user ↔ joined.IsNamed := by
  rcases mem_joined.mp mem with
    ⟨user, ⟨status, statusId⟩, ⟨department, departmentId⟩, company, companyId⟩
  constructor
  · rintro ⟨⟨status', statusMem, same, named⟩, department', departmentMem, same', named', -⟩
    have statuses :=
      List.inj_on_of_nodup_map accounts.statusKey statusMem status (same.trans statusId)
    have departments := List.inj_on_of_nodup_map accounts.departmentKey departmentMem department
      (same'.trans departmentId)
    exact ⟨statuses ▸ named, departments ▸ named'⟩
  · rintro ⟨named, named'⟩
    exact ⟨⟨_, status, statusId.symm, named⟩, _, department, departmentId.symm, named',
      companyId ▸ Option.some_ne_none _⟩

local instance : LawfulBEq Uuid := inferInstance

local instance : LawfulBEq Str := inferInstance

/-- What the constraints on `users` say against a new row. -/
def refuses (accounts : Accounts) (row : UserRow) : Option Refusal :=
  if row.stored.overflows then some .other
  else if row.id ∈ accounts.users.map UserRow.id ∨
      row.stored.userName ∈ accounts.users.map UserRow.userName ∨
      row.stored.email ∈ accounts.users.map UserRow.email then some .unique
  else if row.departmentId ∈ accounts.departmentIds ∧ row.statusId ∈ accounts.statusIds then none
  else some .foreignKey

/-- A row that no constraint is against. -/
structure Takes (accounts : Accounts) (row : UserRow) : Prop where
  fits : row.stored.overflows = false
  id : row.id ∉ accounts.users.map UserRow.id
  userName : row.stored.userName ∉ accounts.users.map UserRow.userName
  email : row.stored.email ∉ accounts.users.map UserRow.email
  department : row.departmentId ∈ accounts.departmentIds
  status : row.statusId ∈ accounts.statusIds

theorem refuses_eq_none_iff : accounts.refuses row = none ↔ accounts.Takes row := by
  unfold refuses
  constructor
  · intro accepted
    split at accepted
    · cases accepted
    · rename_i fits
      split at accepted
      · cases accepted
      · rename_i fresh
        split at accepted
        · rename_i references
          rw [not_or, not_or] at fresh
          exact ⟨by simpa using fits, fresh.1, fresh.2.1, fresh.2.2, references.1, references.2⟩
        · cases accepted
  · rintro ⟨fits, id, userName, email, department, status⟩
    rw [fits, if_neg Bool.false_ne_true, if_neg (by simp [id, userName, email]),
      if_pos ⟨department, status⟩]

/-- An address that a new row is stored under, cut or not, is nobody's. -/
theorem Takes.fresh_email (takes : accounts.Takes row) :
    row.email ∉ accounts.users.map UserRow.email := by
  intro taken
  rcases List.mem_map.mp taken with ⟨other, mem, same⟩
  have short := UserRow.length_email_le (accounts.fits other mem)
  rw [same] at short
  have kept : row.stored.email = row.email := Varchar.stored_of_length_le short
  exact takes.email (kept ▸ taken)

def insertUser (accounts : Accounts) (row : UserRow) : Except Refusal Accounts :=
  match accepted : accounts.refuses row with
  | some refusal => .error refusal
  | none => .ok {
      accounts with
      users := row.stored :: accounts.users
      userKey := List.nodup_cons.mpr ⟨(refuses_eq_none_iff.mp accepted).id, accounts.userKey⟩
      userNameKey :=
        List.nodup_cons.mpr ⟨(refuses_eq_none_iff.mp accepted).userName, accounts.userNameKey⟩
      emailKey := List.nodup_cons.mpr ⟨(refuses_eq_none_iff.mp accepted).email, accounts.emailKey⟩
      fits := List.forall_mem_cons.mpr ⟨(refuses_eq_none_iff.mp accepted).fits, accounts.fits⟩
      statusExists :=
        List.forall_mem_cons.mpr ⟨(refuses_eq_none_iff.mp accepted).status, accounts.statusExists⟩
      departmentExists :=
        List.forall_mem_cons.mpr ⟨(refuses_eq_none_iff.mp accepted).department,
          accounts.departmentExists⟩ }

theorem insertUser_eq_ok (ok : accounts.insertUser row = .ok accounts') :
    accounts.refuses row = none ∧ accounts'.users = row.stored :: accounts.users ∧
      accounts'.roles = accounts.roles ∧ accounts'.userRoles = accounts.userRoles := by
  unfold insertUser at ok
  split at ok
  · cases ok
  · rename_i accepted
    cases ok
    exact ⟨accepted, rfl, rfl, rfl⟩

theorem insertUser_of_accepted (accepted : accounts.refuses row = none) :
    ∃ accounts', accounts.insertUser row = .ok accounts' := by
  unfold insertUser
  split
  · rename_i refused
    cases accepted.symm.trans refused
  · exact ⟨_, rfl⟩

/-- The users other than one. -/
def others (accounts : Accounts) (id : Uuid) : List UserRow :=
  accounts.users.filter fun row => row.id != id

def setUser (accounts : Accounts) (id : Uuid) (columns : Columns) : List UserRow :=
  accounts.users.map fun row => if row.id = id then columns.set row else row

theorem map_setUser {β : Type} {get : UserRow → β} (columns : Columns)
    (kept : ∀ row, get (columns.set row) = get row) :
    (accounts.setUser id columns).map get = accounts.users.map get := by
  rw [setUser, List.map_map]
  apply List.map_congr_left
  intro row _
  rw [Function.comp_apply]
  split
  · exact kept row
  · rfl

theorem nodup_email_setUser {columns : Columns}
    (free : ∀ email ∈ columns.email, email ∉ (accounts.others id).map UserRow.email) :
    ((accounts.setUser id columns).map UserRow.email).Nodup := by
  rw [setUser, List.map_map]
  refine List.Nodup.map_on ?_ accounts.userKey.of_map
  -- the changed row has an email of its own, the rest keep theirs
  have apart {row row' : UserRow} (mem' : row' ∈ accounts.users) (changed : row.id = id)
      (kept : row'.id ≠ id) (mem : row ∈ accounts.users) :
      (columns.set row).email ≠ row'.email := by
    rw [Columns.set_email]
    cases set : columns.email with
    | none =>
        intro same
        have one := List.inj_on_of_nodup_map accounts.emailKey mem mem' same
        exact kept (one ▸ changed)
    | some email =>
        intro same
        refine free email set (List.mem_map.mpr ⟨row', List.mem_filter.mpr ⟨mem', ?_⟩, same.symm⟩)
        exact bne_iff_ne.mpr kept
  intro row mem row' mem' same
  rw [Function.comp_apply, Function.comp_apply] at same
  split at same
  · rename_i changed
    split at same
    · rename_i changed'
      exact List.inj_on_of_nodup_map accounts.userKey mem mem' (changed.trans changed'.symm)
    · rename_i kept
      exact absurd same (apart mem' changed kept mem)
  · rename_i kept
    split at same
    · rename_i changed
      exact absurd same.symm (apart mem changed kept mem')
    · exact List.inj_on_of_nodup_map accounts.emailKey mem mem' same

/-- What the constraints on `users` say against an update of a row. -/
def refusesUpdate (accounts : Accounts) (id : Uuid) (columns : Columns) : Option Refusal :=
  if columns.stored.overflows then some .other
  else if ∃ email ∈ columns.stored.email,
  email ∈ (accounts.others id).map UserRow.email then some .unique
  else if columns.departmentId.all accounts.departmentIds.contains &&
      columns.statusId.all accounts.statusIds.contains then none
  else some .foreignKey

/-- An update that no constraint is against. -/
structure TakesUpdate (accounts : Accounts) (id : Uuid) (columns : Columns) : Prop where
  fits : columns.stored.overflows = false
  email : ∀ email ∈ columns.stored.email, email ∉ (accounts.others id).map UserRow.email
  department : ∀ department ∈ columns.departmentId, department ∈ accounts.departmentIds
  status : ∀ status ∈ columns.statusId, status ∈ accounts.statusIds

theorem refusesUpdate_eq_none_iff {columns : Columns} :
    accounts.refusesUpdate id columns = none ↔ accounts.TakesUpdate id columns := by
  have references : (columns.departmentId.all accounts.departmentIds.contains &&
      columns.statusId.all accounts.statusIds.contains) = true ↔
      (∀ department ∈ columns.departmentId, department ∈ accounts.departmentIds) ∧
        ∀ status ∈ columns.statusId, status ∈ accounts.statusIds := by
    simp [Option.all_eq_true]
  unfold refusesUpdate
  constructor
  · intro accepted
    split at accepted
    · cases accepted
    · rename_i fits
      split at accepted
      · cases accepted
      · rename_i free
        split at accepted
        · rename_i known
          rw [references] at known
          exact ⟨by simpa using fits, fun email set taken => free ⟨email, set, taken⟩, known.1, known.2⟩
        · cases accepted
  · rintro ⟨fits, free, department, status⟩
    rw [fits, if_neg Bool.false_ne_true, if_neg, if_pos (references.mpr ⟨department, status⟩)]
    rintro ⟨email, set, taken⟩
    exact free email set taken

/-- What holds of every row and of the changed ones holds after an update. -/
theorem forall_mem_setUser {columns : Columns} {holds : UserRow → Prop}
    (before : ∀ row ∈ accounts.users, holds row)
    (changed : ∀ row ∈ accounts.users, holds (columns.set row)) :
    ∀ row ∈ accounts.setUser id columns, holds row := by
  intro row mem
  rcases List.mem_map.mp mem with ⟨earlier, earlierMem, rfl⟩
  split
  · exact changed earlier earlierMem
  · exact before earlier earlierMem

/-- An `UPDATE` of the row with the id. -/
def updateUser (accounts : Accounts) (id : Uuid) (columns : Columns) : Except Refusal Accounts :=
  match accepted : accounts.refusesUpdate id columns with
  | some refusal => .error refusal
  | none => .ok {
      accounts with
      users := accounts.setUser id columns.stored
      userKey := by
        rw [map_setUser _ fun _ => rfl]
        exact accounts.userKey
      userNameKey := by
        rw [map_setUser _ fun _ => rfl]
        exact accounts.userNameKey
      emailKey := nodup_email_setUser (refusesUpdate_eq_none_iff.mp accepted).email
      fits := forall_mem_setUser accounts.fits fun row mem =>
        Columns.overflows_set (refusesUpdate_eq_none_iff.mp accepted).fits (accounts.fits row mem)
      statusExists := forall_mem_setUser accounts.statusExists fun row mem =>
        Columns.getD_of_forall (refusesUpdate_eq_none_iff.mp accepted).status
          (accounts.statusExists row mem)
      departmentExists := forall_mem_setUser accounts.departmentExists fun row mem =>
        Columns.getD_of_forall (refusesUpdate_eq_none_iff.mp accepted).department
          (accounts.departmentExists row mem) }

theorem updateUser_eq_ok {columns : Columns} (ok : accounts.updateUser id columns = .ok accounts') :
    accounts.refusesUpdate id columns = none ∧ accounts'.users =
      accounts.setUser id columns.stored ∧
      accounts'.roles = accounts.roles ∧ accounts'.userRoles = accounts.userRoles := by
  unfold updateUser at ok
  split at ok
  · cases ok
  · rename_i accepted
    cases ok
    exact ⟨accepted, rfl, rfl, rfl⟩

theorem updateUser_of_accepted {columns : Columns}
    (accepted : accounts.refusesUpdate id columns = none) :
    ∃ accounts', accounts.updateUser id columns = .ok accounts' := by
  unfold updateUser
  split
  · rename_i refused
    cases accepted.symm.trans refused
  · exact ⟨_, rfl⟩

/-- The ids of the roles with one of the names. -/
def roleIds (accounts : Accounts) (names : List Str) : List Int :=
  (accounts.roles.filter fun role => names.contains role.name).map Role.id

/-- A statement takes no text with a NUL in it. -/
def refusesNames (names : List Str) : Bool := names.any fun name => name.contains '\x00'

/-- The tables with the roles added. A role that the user holds already is left as it is. -/
def withRoles (accounts : Accounts) (user : Uuid) (names : List Str) : Accounts :=
  { accounts with
    userRoles := accounts.userRoles ++
      ((accounts.roleIds names).filter fun role => !accounts.holds user role).map fun role =>
      (user, role) }

def withoutRoles (accounts : Accounts) (user : Uuid) (names : List Str) : Accounts :=
  { accounts with
    userRoles := accounts.userRoles.filter fun held =>
      !(held.1 == user && (accounts.roleIds names).contains held.2) }

def addUserRoles (accounts : Accounts) (user : Uuid) (names : List Str) : Except Refusal Accounts :=
  if names.isEmpty then .ok accounts
  else if refusesNames names then .error .other
  else .ok (accounts.withRoles user names)

def removeUserRoles (accounts : Accounts) (user : Uuid) (names : List Str) :
    Except Refusal Accounts :=
  if names.isEmpty then .ok accounts
  else if refusesNames names then .error .other
  else .ok (accounts.withoutRoles user names)

@[simp]
theorem roleIds_nil : accounts.roleIds [] = [] := by
  simp [roleIds]

@[simp]
theorem withRoles_nil : accounts.withRoles user [] = accounts := by
  simp [withRoles]

@[simp]
theorem withoutRoles_nil : accounts.withoutRoles user [] = accounts := by
  simp [withoutRoles]

@[simp]
theorem users_withRoles {names : List Str} :
    (accounts.withRoles user names).users = accounts.users := rfl

@[simp]
theorem users_withoutRoles {names : List Str} :
    (accounts.withoutRoles user names).users = accounts.users := rfl

theorem addUserRoles_eq_ok_iff {names : List Str} :
    accounts.addUserRoles user names = .ok accounts' ↔
    refusesNames names = false ∧ accounts' = accounts.withRoles user names := by
  unfold addUserRoles
  cases names with
  | nil =>
      rw [withRoles_nil]
      exact ⟨fun ok => ⟨rfl, (Except.ok.inj ok).symm⟩, fun both => congrArg Except.ok both.2.symm⟩
  | cons name rest =>
      rw [if_neg (by simp)]
      cases refusesNames (name :: rest) with
      | true => simp
      | false => simp [eq_comm]

theorem removeUserRoles_eq_ok_iff {names : List Str} :
    accounts.removeUserRoles user names = .ok accounts' ↔
    refusesNames names = false ∧ accounts' = accounts.withoutRoles user names := by
  unfold removeUserRoles
  cases names with
  | nil =>
      rw [withoutRoles_nil]
      exact ⟨fun ok => ⟨rfl, (Except.ok.inj ok).symm⟩, fun both => congrArg Except.ok both.2.symm⟩
  | cons name rest =>
      rw [if_neg (by simp)]
      cases refusesNames (name :: rest) with
      | true => simp
      | false => simp [eq_comm]

theorem holds_withRoles {names : List Str} {other : Uuid} {role : Int} :
    (accounts.withRoles user names).holds other role = true ↔
      accounts.holds other role = true ∨ (other = user ∧ role ∈ accounts.roleIds names) := by
  rw [holds, withRoles, List.contains_iff_mem, List.mem_append, ← List.contains_iff_mem, ← holds]
  constructor
  · rintro (before | added)
    · exact .inl before
    · rcases List.mem_map.mp added with ⟨role, mem, same⟩
      cases same
      exact .inr ⟨rfl, List.mem_of_mem_filter mem⟩
  · rintro (before | ⟨rfl, named⟩)
    · exact .inl before
    · cases held : accounts.holds other role with
      | true => exact .inl rfl
      | false =>
          refine .inr (List.mem_map.mpr ⟨role, List.mem_filter.mpr ⟨named, ?_⟩, rfl⟩)
          rw [held]
          rfl

theorem holds_withoutRoles {names : List Str} {other : Uuid} {role : Int} :
    (accounts.withoutRoles user names).holds other role = true ↔
      accounts.holds other role = true ∧ ¬ (other = user ∧ role ∈ accounts.roleIds names) := by
  rw [holds, withoutRoles, List.contains_iff_mem, List.mem_filter, ← List.contains_iff_mem, ← holds]
  simp [imp_iff_not_or]

end Accounts

end SchemaForge.Iam
