import SchemaForge.Iam.Users
import SchemaForge.Pagination

/-!
# Walking a user listing

The listing of users joins their status, their department and its company, filters the
rows and orders them by one column. Nothing breaks the ties of that column, so the
database may place rows that tie another way for every page.
-/

namespace SchemaForge.UserListing

open Iam Paging Service Pagination

open Repository hiding ListRequest

/--
What the database does with texts: the order of its collation, and `ILIKE` of a text and a pattern.
-/
class Collation where
  le : Str → Str → Bool
  ilike : Str → Str → Bool
  le_total : ∀ first second, le first second = true ∨ le second first = true
  le_trans : ∀ first second third, le first second = true → le second third = true →
    le first third = true

inductive SortColumn where
  | userName | email | firstName | lastName | status | department
deriving DecidableEq

def sortColumn (sortBy : Str) : SortColumn :=
  if sortBy = "email" then .email
  else if sortBy = "first_name" then .firstName
  else if sortBy = "last_name" then .lastName
  else if sortBy = "status" then .status
  else if sortBy = "department" then .department
  else .userName

def SortColumn.value (row : JoinedRow) : SortColumn → Option Str
  | userName => some row.user.userName
  | email => some row.user.email
  | firstName => some row.user.firstName
  | lastName => some row.user.lastName
  | status => row.status.status
  | department => row.department.name

inductive SortOrder where
  | asc | desc
deriving DecidableEq

def sortOrder (order : Str) : SortOrder := if order = "asc" then .asc else .desc

section Listing

variable [Collation]

/-- The ascending order of a column. A null comes behind every text. -/
def ascending : Option Str → Option Str → Bool
  | _, none => true
  | none, some _ => false
  | some first, some second => Collation.le first second

theorem ascending_total (first second : Option Str) :
    ascending first second = true ∨ ascending second first = true := by
  cases first with
  | none => exact Or.inr rfl
  | some first =>
      cases second with
      | none => exact Or.inl rfl
      | some second => exact Collation.le_total first second

theorem ascending_trans {first second third : Option Str} (le : ascending first second = true)
    (le' : ascending second third = true) : ascending first third = true := by
  cases third with
  | none => rfl
  | some third =>
      cases second with
      | none => cases le'
      | some second =>
          cases first with
          | none => cases le
          | some first => exact Collation.le_trans first second third le le'

/-- What `ORDER BY` a column, ascending or descending, orders rows by. -/
def ranking (request : ListRequest) : Ranking JoinedRow where
  le first second :=
    let value (row : JoinedRow) := (sortColumn request.sortBy).value row
    match sortOrder request.order with
    | .asc => ascending (value first) (value second)
    | .desc => ascending (value second) (value first)
  total first second := by
    cases sortOrder request.order with
    | asc => exact ascending_total _ _
    | desc => exact ascending_total _ _
  trans first second third := by
    cases sortOrder request.order with
    | asc => exact ascending_trans
    | desc => exact fun le le' => ascending_trans le' le

/--
The conditions that the filters of a request add. A status or a department that nothing can have
adds none.
-/
def matchesFilters (tables : Accounts) (request : ListRequest) (user : UserRow) : Bool :=
  (((request.filter "status").bind statusIdOf).all fun id => user.statusId == id) &&
    (((request.filter "department_id").bind Str.parseI32).all fun id => user.departmentId == id) &&
    ((request.filter "role").all fun name =>
      tables.roles.any fun role => tables.holds user.id role.id && role.name == name) &&
    ((request.filter "first_name").all fun name =>
      Collation.ilike user.firstName ("%" ++ name ++ "%"))

/-- The rows that a request selects. -/
def selected (tables : Accounts) (request : ListRequest) : List JoinedRow :=
  tables.joined.filter fun row => matchesFilters tables request row.user

variable [Postgres]

/-- A filter that the database takes for no text. -/
def refusesFilters (request : ListRequest) : Bool :=
  ((request.filter "role").any fun name => (Postgres.refusesText name).isSome) ||
    ((request.filter "first_name").any fun name =>
      (Postgres.refusesText ("%" ++ name ++ "%")).isSome)

/-- `PgUserRepository::index`, with the order that the database has for the rows of the page. -/
def listIn (order : List JoinedRow) (tables : Accounts) (request : ListRequest) :
    Except Iam.DomainError (List User × Int64) :=
  if refusesFilters request then .error .database
  else
    let total := Int64.ofNat (selected tables request).length
    if request.perPage < 0 then .error .database
    else if request.offset < 0 then .error .database
    else do
      let rows := (order.drop request.offset.toNatClampNeg).take request.perPage.toNatClampNeg
      let users ← rows.mapM tables.mapUser
      return (users, total)

def indexIn (order : List JoinedRow) (tables : Accounts) (request : ListRequest) :
    Except Error (Data User) := do
  let (users, total) ← (listIn order tables request).mapError UserService.mapDomainError
  return .new users total request.page request.perPage

end Listing

variable {tables : Accounts}

theorem nodup_flatMap_of_get {α β : Type} {f : α → List β} {get : β → α} {items : List α}
    (nodup : items.Nodup)
    (each : ∀ item ∈ items, (f item).Nodup) (same : ∀ item, ∀ made ∈ f item, get made = item) :
    (items.flatMap f).Nodup := by
  rw [List.nodup_flatMap]
  refine ⟨each, nodup.imp ?_⟩
  intro first second apart made mem mem'
  exact apart ((same first made mem).symm.trans (same second made mem'))

theorem nodup_joined (tables : Accounts) : tables.joined.Nodup := by
  have users := List.Nodup.of_map UserRow.id tables.userKey
  have statuses := List.Nodup.of_map StatusRow.id tables.statusKey
  have departments := List.Nodup.of_map DepartmentRow.id tables.departmentKey
  have companies := List.Nodup.of_map CompanyRow.id tables.companyKey
  refine @nodup_flatMap_of_get _ _ _ JoinedRow.user _ users ?_ ?_
  · intro user _
    refine @nodup_flatMap_of_get _ _ _ JoinedRow.status _ (statuses.filter _) ?_ ?_
    · intro status _
      refine @nodup_flatMap_of_get _ _ _ JoinedRow.department _ (departments.filter _) ?_ ?_
      · intro department _
        refine (companies.filter _).map ?_
        intro first second same
        exact congrArg JoinedRow.company same
      · intro department row mem
        rcases List.mem_map.mp mem with ⟨company, -, rfl⟩
        rfl
    · intro status row mem
      rcases List.mem_flatMap.mp mem with ⟨department, -, mem⟩
      rcases List.mem_map.mp mem with ⟨company, -, rfl⟩
      rfl
  · intro user row mem
    rcases List.mem_flatMap.mp mem with ⟨status, -, mem⟩
    rcases List.mem_flatMap.mp mem with ⟨department, -, mem⟩
    rcases List.mem_map.mp mem with ⟨company, -, rfl⟩
    rfl

/-- The user of a row whose names are not null. -/
def userOf (tables : Accounts) (row : JoinedRow) : User :=
  ⟨row.user, row.status.id, row.status.status.getD [], row.department.id, row.department.name.getD
    [], row.company, tables.rolesOf row.user.id⟩

theorem mapUser_of_isNamed {row : JoinedRow} (named : row.IsNamed) :
    tables.mapUser row = .ok (userOf tables row) := by
  rcases Option.ne_none_iff_exists'.mp named.1 with ⟨status, hasStatus⟩
  rcases Option.ne_none_iff_exists'.mp named.2 with ⟨name, hasName⟩
  rw [Accounts.mapUser, userOf, hasStatus, hasName]
  rfl

theorem isNamed_of_mapUser {row : JoinedRow} {user : User}
    (mapped : tables.mapUser row = .ok user) :
    row.IsNamed := by
  unfold Accounts.mapUser at mapped
  split at mapped
  · rename_i status name hasStatus hasName
    exact ⟨hasStatus ▸ Option.some_ne_none _, hasName ▸ Option.some_ne_none _⟩
  · cases mapped

theorem mapM_mapUser {rows : List JoinedRow} (named : ∀ row ∈ rows, row.IsNamed) :
    rows.mapM tables.mapUser = .ok (rows.map (userOf tables)) := by
  induction rows with
  | nil => rfl
  | cons row rows ih =>
      rw [List.mapM_cons, mapUser_of_isNamed (named row List.mem_cons_self),
        ih fun later mem => named later (List.mem_cons_of_mem _ mem)]
      rfl

theorem isNamed_of_mapM {rows : List JoinedRow} {users : List User}
    (mapped : rows.mapM tables.mapUser = .ok users) :
    ∀ row ∈ rows, row.IsNamed := by
  induction rows generalizing users with
  | nil => exact List.forall_mem_nil _
  | cons row rows ih =>
      rw [List.mapM_cons] at mapped
      rcases first : tables.mapUser row with error | user
      · rw [first] at mapped
        cases mapped
      · rcases rest : rows.mapM tables.mapUser with error | users
        · rw [first, rest] at mapped
          cases mapped
        · exact List.forall_mem_cons.mpr ⟨isNamed_of_mapUser first, ih rest⟩

/-- The same request, for another page. -/
def atPage (request : ListRequest) (page : Int64) : ListRequest := { request with page }

section Answers

variable [Collation] [Postgres] {request : ListRequest} {order : List JoinedRow} {number : Nat}

theorem listIn_eq (positive : 1 ≤ request.perPage.toInt)
    (fits : (selected tables request).length + 1 < 2 ^ 63)
    (first : 1 ≤ number)
    (last : number ≤ max 1 (pageCount request.perPage.toInt.toNat (selected tables request).length))
    (accepted : refusesFilters request = false) :
    listIn order tables (atPage request (Int64.ofNat number)) = (do
      let users ← (page request.perPage.toInt.toNat number order).mapM tables.mapUser
      return (users, Int64.ofNat (selected tables request).length)) := by
  have offset := toInt_offset_of_page positive fits first last
  have limit : ¬request.perPage < 0 := by
    rw [Int64.lt_iff_toInt_lt, Int64.toInt_zero]
    omega
  have start : ¬(atPage request (Int64.ofNat number)).offset < 0 := by
    change ¬(Repository.ListRequest.mk (Int64.ofNat number) request.perPage).offset < 0
    rw [Int64.lt_iff_toInt_lt, offset, Int64.toInt_zero]
    omega
  have skipped : (atPage request (Int64.ofNat number)).offset.toNatClampNeg =
      (number - 1) * request.perPage.toInt.toNat := by
    change (Repository.ListRequest.mk (Int64.ofNat number) request.perPage).offset.toNatClampNeg = _
    rw [Int64.toNatClampNeg, offset, Int.toNat_natCast]
  change (if refusesFilters request = true then _ else if request.perPage < 0 then _
    else if _ then _ else _) = _
  rw [if_neg (by rw [accepted]; exact Bool.false_ne_true), if_neg limit, if_neg start, skipped]
  rfl

theorem indexIn_of_named (positive : 1 ≤ request.perPage.toInt)
    (fits : (selected tables request).length + 1 < 2 ^ 63)
    (first : 1 ≤ number)
    (last : number ≤ max 1 (pageCount request.perPage.toInt.toNat (selected tables request).length))
    (accepted : refusesFilters request = false)
    (named : ∀ row ∈ page request.perPage.toInt.toNat number order, row.IsNamed) :
    indexIn order tables (atPage request (Int64.ofNat number)) =
      .ok (.new ((page request.perPage.toInt.toNat number order).map (userOf tables))
        (Int64.ofNat (selected tables request).length) (Int64.ofNat number) request.perPage) := by
  rw [indexIn, listIn_eq positive fits first last accepted, mapM_mapUser named]
  rfl

theorem of_indexIn_eq_ok (positive : 1 ≤ request.perPage.toInt)
    (fits : (selected tables request).length + 1 < 2 ^ 63)
    (first : 1 ≤ number)
    (last : number ≤ max 1 (pageCount request.perPage.toInt.toNat (selected tables request).length))
    {data : Data User}
    (answered : indexIn order tables (atPage request (Int64.ofNat number)) = .ok data) :
    refusesFilters request = false ∧ ∀ row ∈ page request.perPage.toInt.toNat number order,
    row.IsNamed := by
  by_cases refused : refusesFilters request = true
  · have failed : listIn order tables (atPage request (Int64.ofNat number)) = .error .database :=
      if_pos refused
    rw [indexIn, failed] at answered
    cases answered
  · have accepted : refusesFilters request = false := by simpa using refused
    refine ⟨accepted, ?_⟩
    rw [indexIn, listIn_eq positive fits first last accepted] at answered
    rcases mapped : (page request.perPage.toInt.toNat number order).mapM tables.mapUser with
      error | users
    · rw [mapped] at answered
      cases answered
    · exact isNamed_of_mapM mapped

end Answers

section Walks

variable [Collation] [Postgres] {request : ListRequest}

/-- The walk shows every user that the filters match, and each of them once. -/
def Shows (tables : Accounts) (request : ListRequest) (orders : Int64 → List JoinedRow) : Prop :=
  ∃ walked, Walk (fun page => indexIn (orders page) tables (atPage request page)) 1 walked ∧
    ((walked.flatMap Data.data).map fun user => user.row.id).Perm
      ((tables.users.filter (matchesFilters tables request)).map UserRow.id)

/-- The database may choose any order for each page that agrees with the column it orders by. -/
def ShowsForAllOrders (tables : Accounts) (request : ListRequest) : Prop :=
  ∀ orders : Int64 → List JoinedRow,
    (∀ page, IsOrderOf (ranking request) (selected tables request) (orders page)) →
      Shows tables request orders

theorem walk_of_named (positive : 1 ≤ request.perPage.toInt)
    (fits : (selected tables request).length + 1 < 2 ^ 63)
    (accepted : refusesFilters request = false)
    (named : ∀ row ∈ selected tables request, row.IsNamed) {orders : Int64 → List JoinedRow}
    (inOrders : ∀ page, IsOrderOf (ranking request) (selected tables request) (orders page)) :
    ∃ walked, Walk (fun page => indexIn (orders page) tables (atPage request page)) 1 walked ∧
      (walked.flatMap Data.data).map (fun user => user.row.id) =
        (visited request.perPage.toInt.toNat (fun number => orders (Int64.ofNat number))
          (pageCount request.perPage.toInt.toNat (selected tables request).length)).map fun row =>
            row.user.id := by
  have size : 0 < request.perPage.toInt.toNat := by omega
  have sized : request.perPage.toInt = request.perPage.toInt.toNat := by omega
  have counted : (Int64.ofNat (selected tables request).length).toInt =
      (selected tables request).length :=
    toInt_ofNat (by omega)
  have answers : ∀ number, 1 ≤ number →
      number ≤ max 1 (pageCount request.perPage.toInt.toNat (selected tables request).length) →
      ∃ data, indexIn (orders (Int64.ofNat number)) tables
        (atPage request (Int64.ofNat number)) = .ok data ∧
        IsPage request.perPage.toInt.toNat (selected tables request).length number
          ((page request.perPage.toInt.toNat number (orders (Int64.ofNat number))).map
            (userOf tables)) data := by
    intro number first last
    have namedHere :
        ∀ row ∈ page request.perPage.toInt.toNat number (orders (Int64.ofNat number)),
        row.IsNamed :=
      fun row mem => named row ((inOrders _).perm.subset (mem_of_mem_page mem))
    exact ⟨_, indexIn_of_named positive fits first last accepted namedHere,
      isPage_new size sized counted fits first last _⟩
  rcases @exists_walk User _ _ Error (fun page =>
    indexIn (orders page) tables (atPage request page))
    (fun number => (page request.perPage.toInt.toNat number (orders (Int64.ofNat number))).map
      (userOf tables))
    answers with ⟨walked, walk, isWalk⟩
  refine ⟨walked, walk, ?_⟩
  have shown := visited_max_one size fun number => inOrders (Int64.ofNat number)
  rw [isWalk.flatMap_data, isWalk.length, ← shown, visited_eq_flatMap, List.map_flatMap,
    List.map_flatMap]
  refine List.flatMap_congr fun number _ => ?_
  rw [List.map_map]
  rfl

/--
Where a walk is completed, the filters are taken and no name of a row that it came to is null.
-/
theorem of_walk (positive : 1 ≤ request.perPage.toInt)
    (fits : (selected tables request).length + 1 < 2 ^ 63)
    {orders : Int64 → List JoinedRow} {walked : List (Data User)}
    (walk : Walk (fun page => indexIn (orders page) tables (atPage request page)) 1 walked) :
    refusesFilters request = false ∧ ∀ row ∈ visited request.perPage.toInt.toNat
      (fun number => orders (Int64.ofNat number))
      (pageCount request.perPage.toInt.toNat (selected tables request).length), row.IsNamed := by
  have size : 0 < request.perPage.toInt.toNat := by omega
  have sized : request.perPage.toInt = request.perPage.toInt.toNat := by omega
  have counted : (Int64.ofNat (selected tables request).length).toInt =
      (selected tables request).length :=
    toInt_ofNat (by omega)
  have next : ∀ number data, 1 ≤ number →
      number ≤ max 1 (pageCount request.perPage.toInt.toNat (selected tables request).length) →
      indexIn (orders (Int64.ofNat number)) tables
        (atPage request (Int64.ofNat number)) = .ok data →
      data.metaData.nextPage =
        if number + 1 ≤ pageCount request.perPage.toInt.toNat (selected tables request).length then
          some (Int64.ofNat (number + 1)) else none := by
    intro number data first last answered
    rcases of_indexIn_eq_ok positive fits first last answered with ⟨accepted, named⟩
    rw [indexIn_of_named positive fits first last accepted named] at answered
    rw [← Except.ok.inj answered]
    exact (isPage_new size sized counted fits first last _).next
  have answered := walk.answered next rfl (Nat.le_refl 1) (Nat.le_max_left _ _)
  constructor
  · rcases answered 1 (Nat.le_refl 1) (Nat.le_max_left _ _) with ⟨data, answered⟩
    exact (of_indexIn_eq_ok positive fits (Nat.le_refl 1) (Nat.le_max_left _ _) answered).1
  · intro row mem
    rcases mem_visited.mp mem with ⟨number, inside, mem⟩
    have last : number + 1 ≤ max 1
        (pageCount request.perPage.toInt.toNat (selected tables request).length) :=
      Nat.le_trans inside (Nat.le_max_right _ _)
    rcases answered (number + 1) (Nat.le_add_left 1 number) last with ⟨data, answered⟩
    exact (of_indexIn_eq_ok positive fits (Nat.le_add_left 1 number) last answered).2 row mem

omit [Postgres] in
theorem mem_selected {row : JoinedRow} :
    row ∈ selected tables request ↔ row ∈ tables.joined ∧
      matchesFilters tables request row.user = true :=
  List.mem_filter

omit [Postgres] in
theorem nodup_ids_selected (tables : Accounts) (request : ListRequest) :
    ((selected tables request).map fun row => row.user.id).Nodup := by
  refine List.Nodup.map_on ?_ ((nodup_joined tables).filter _)
  intro first mem second mem' same
  exact Accounts.joined_unique (mem_selected.mp mem).1 (mem_selected.mp mem').1 same

omit [Postgres] in
/-- The rows of a request are those of the users that match, where each of these has one. -/
theorem ids_selected_perm
    (complete : ∀ user ∈ tables.users, matchesFilters tables request user = true →
      tables.IsComplete user) :
    ((selected tables request).map fun row => row.user.id).Perm
      ((tables.users.filter (matchesFilters tables request)).map UserRow.id) := by
  have once := nodup_ids_selected tables request
  have once' : ((tables.users.filter (matchesFilters tables request)).map UserRow.id).Nodup :=
    tables.userKey.sublist (List.filter_sublist.map _)
  rw [List.perm_ext_iff_of_nodup once once']
  intro id
  simp only [List.mem_map, List.mem_filter]
  constructor
  · rintro ⟨row, mem, rfl⟩
    rcases mem_selected.mp mem with ⟨joined, accepted⟩
    exact ⟨row.user, ⟨(Accounts.mem_joined.mp joined).1, accepted⟩, rfl⟩
  · rintro ⟨user, ⟨mem, accepted⟩, rfl⟩
    rcases Accounts.exists_joined_of_isComplete mem (complete user mem accepted) with
      ⟨row, joined, rfl⟩
    exact ⟨row, mem_selected.mpr ⟨joined, accepted⟩, rfl⟩

omit [Collation] [Postgres] in
theorem perm_of_map_perm {α β : Type} {f : α → β} {first second : List α}
    (once : (second.map f).Nodup) (sub : ∀ item ∈ first, item ∈ second)
    (perm : (first.map f).Perm (second.map f)) :
    first.Perm second := by
  have once' := List.Nodup.of_map f (perm.nodup_iff.mpr once)
  rw [List.perm_ext_iff_of_nodup once' (List.Nodup.of_map f once)]
  intro item
  refine ⟨sub item, fun mem => ?_⟩
  rcases List.mem_map.mp (perm.symm.subset (List.mem_map_of_mem mem)) with ⟨other, otherMem, same⟩
  rwa [← List.inj_on_of_nodup_map once (sub other otherMem) mem same]

/-- A request whose listing may be walked: its filters are texts, every user that they match has a
department of a company and names to be shown with, and no users that tie stand on both sides of the
end of a page. -/
structure IsWalkable (tables : Accounts) (request : ListRequest) : Prop where
  accepted : refusesFilters request = false
  complete : ∀ user ∈ tables.users, matchesFilters tables request user = true →
    tables.IsComplete user
  ties : TiesFit (ranking request) request.perPage.toInt.toNat (selected tables request)

theorem shows_of_isWalkable (positive : 1 ≤ request.perPage.toInt)
    (fits : (selected tables request).length + 1 < 2 ^ 63) (walkable : IsWalkable tables request) :
    ShowsForAllOrders tables request := by
  intro orders inOrders
  have named : ∀ row ∈ selected tables request, row.IsNamed := by
    intro row mem
    rcases mem_selected.mp mem with ⟨joined, accepted⟩
    exact (Accounts.isComplete_iff_of_mem joined).mp
      (walkable.complete _ (Accounts.mem_joined.mp joined).1 accepted)
  rcases walk_of_named positive fits walkable.accepted named inOrders with ⟨walked, walk, ids⟩
  refine ⟨walked, walk, ?_⟩
  have once := List.Nodup.of_map _ (nodup_ids_selected tables request)
  have shown := (visited_perm_iff (by omega) once).mpr walkable.ties _ fun number => inOrders
      (Int64.ofNat number)
  rw [ids]
  exact (shown.map _).trans (ids_selected_perm walkable.complete)

theorem isWalkable_of_shows (positive : 1 ≤ request.perPage.toInt)
    (fits : (selected tables request).length + 1 < 2 ^ 63)
    (shows' : ShowsForAllOrders tables request) :
    IsWalkable tables request := by
  have size : 0 < request.perPage.toInt.toNat := by omega
  have once := List.Nodup.of_map _ (nodup_ids_selected tables request)
  -- With one order for all pages, every row is come to.
  have inOrder := (ranking request).isOrderOf_mergeSort (selected tables request)
  generalize (selected tables request).mergeSort (ranking request).le = order at inOrder
  rcases shows' (fun _ => order) fun _ => inOrder with ⟨walked, walk, ids⟩
  have whole : visited request.perPage.toInt.toNat (fun _ => order)
      (pageCount request.perPage.toInt.toNat (selected tables request).length) = order := by
    rw [visited_const, List.take_of_length_le]
    rw [inOrder.perm.length_eq]
    exact le_pageCount_mul size _
  rcases of_walk positive fits walk with ⟨accepted, named⟩
  rw [whole] at named
  have namedAll : ∀ row ∈ selected tables request, row.IsNamed :=
    fun row mem => named row (inOrder.perm.symm.subset mem)
  -- Whatever the orders, the ids that are shown are those of the rows come to.
  have shown {orders : Int64 → List JoinedRow}
      (inOrders : ∀ page, IsOrderOf (ranking request) (selected tables request) (orders page)) :
      ((visited request.perPage.toInt.toNat (fun number => orders (Int64.ofNat number))
        (pageCount request.perPage.toInt.toNat (selected tables request).length)).map fun row =>
          row.user.id).Perm
      ((tables.users.filter (matchesFilters tables request)).map UserRow.id) := by
    rcases shows' orders inOrders with ⟨walked, walk, ids⟩
    rcases walk_of_named positive fits accepted namedAll inOrders with ⟨other, walk', ids'⟩
    rw [← ids', walk'.unique walk]
    exact ids
  have all : ((selected tables request).map fun row => row.user.id).Perm
      ((tables.users.filter (matchesFilters tables request)).map UserRow.id) := by
    have here := shown fun _ => inOrder
    rw [whole] at here
    exact (inOrder.perm.symm.map _).trans here
  refine ⟨accepted, ?_, ?_⟩
  · intro user mem matched
    have shownId : user.id ∈ (selected tables request).map fun row => row.user.id :=
      all.symm.subset (List.mem_map_of_mem (List.mem_filter.mpr ⟨mem, matched⟩))
    rcases List.mem_map.mp shownId with ⟨row, rowMem, same⟩
    have joined := (mem_selected.mp rowMem).1
    have sameUser :=
      List.inj_on_of_nodup_map tables.userKey (Accounts.mem_joined.mp joined).1 mem same
    exact sameUser ▸ (Accounts.isComplete_iff_of_mem joined).mpr (namedAll row rowMem)
  · refine (visited_perm_iff size once).mp ?_
    intro orders inOrders
    have shownHere := shown fun page => inOrders page.toInt.toNat
    have pages := pageCount_le size (selected tables request).length
    have same : ∀ number ≤ pageCount request.perPage.toInt.toNat (selected tables request).length,
        orders (Int64.ofNat number).toInt.toNat = orders number := by
      intro number inside
      rw [toInt_ofNat (by omega), Int.toNat_natCast]
    rw [visited_congr same] at shownHere
    refine perm_of_map_perm (nodup_ids_selected tables request) ?_ (shownHere.trans all.symm)
    intro row mem
    rcases mem_visited.mp mem with ⟨number, -, mem⟩
    exact (inOrders _).perm.subset (mem_of_mem_page mem)

/--
The walk shows every matching user once, for all orders of the database, exactly where it may.
-/
theorem shows_iff (positive : 1 ≤ request.perPage.toInt)
    (fits : (selected tables request).length + 1 < 2 ^ 63) :
    ShowsForAllOrders tables request ↔ IsWalkable tables request :=
  ⟨isWalkable_of_shows positive fits, shows_of_isWalkable positive fits⟩

end Walks

abbrev asciiCollation : Collation where
  le first second := decide (first.map Char.toNat ≤ second.map Char.toNat)
  ilike text pattern :=
    Str.containsStr ((pattern.filter (· != '%')).map Char.toLower) (text.map Char.toLower)
  le_total first second := by simpa using le_total (first.map Char.toNat) (second.map Char.toNat)
  le_trans first second third := by
    simp only [decide_eq_true_eq]
    exact le_trans

def twin (id : Uuid) (userName email : Str) : UserRow where
  id
  userName
  avatarId := []
  avatarUrl := none
  email
  password := []
  firstName := "Sam"
  lastName := "Lee"
  statusId := 1
  departmentId := 1

/-- Two people of one name, in one department. -/
def twins : Accounts where
  roles := [⟨3, "Staff"⟩]
  grants := []
  statuses := [⟨1, some "Active"⟩]
  departments := [⟨1, some "Sales", some 1⟩]
  companies := [⟨1, "Example Company"⟩]
  users := [twin 7 "sam" "sam@example.com", twin 8 "sammy" "sammy@example.com"]
  userRoles := [(7, 3), (8, 3)]
  passwordResets := []
  statusKey := by decide
  departmentKey := by decide
  companyKey := by decide
  companyNameKey := by decide
  userKey := by decide
  userNameKey := by decide
  emailKey := by decide
  fits := by decide
  statusExists := by simp [twin]
  departmentExists := by simp [twin]
  companyExists := by simp

def oneByOne (sortBy : Str) : ListRequest where
  page := 1
  perPage := 1
  sortBy
  order := "asc"
  filters _ := none

theorem shows_iff_twins : letI := asciiCollation; letI := asciiDatabase
    ShowsForAllOrders twins (oneByOne "email") ↔ IsWalkable twins (oneByOne "email") :=
  letI := asciiCollation
  letI := asciiDatabase
  shows_iff (by decide) (by decide)

/-- The tie of the two users stands across the end of the first page. -/
theorem hides_a_twin : letI := asciiCollation; letI := asciiDatabase
    ¬ShowsForAllOrders twins (oneByOne "first_name") := by
  let := asciiCollation
  let := asciiDatabase
  intro shown
  have walkable := isWalkable_of_shows (by decide) (by decide) shown
  have mem : (⟨twin 7 "sam" "sam@example.com", ⟨1, some "Active"⟩, ⟨1, some "Sales", some 1⟩,
      ⟨1, "Example Company"⟩⟩ : JoinedRow) ∈ selected twins (oneByOne "first_name") := by
    decide
  exact walkable.ties _ mem 1 (by decide)

end SchemaForge.UserListing
