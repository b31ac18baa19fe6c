import SchemaForge.Pagination

/-!
# Walking a schema listing

A caller who follows the next page of a listing sees each of his schemas once, in the
order they were made. The id of a schema breaks the ties of that order, so that it does
not matter in which order the database reads rows.
-/

namespace SchemaForge.Service

open Repository Paging

open Pagination hiding ListRequest

theorem before_iff {first second : LinkRow × SchemaRow} : before first second = true ↔
    @LT.lt Int _ first.1.createdAt second.1.createdAt ∨
      @Eq Int first.1.createdAt second.1.createdAt ∧
      first.1.schemaId.toNat ≤ second.1.schemaId.toNat := by
  rw [before, Bool.or_eq_true, Bool.and_eq_true, decide_eq_true_eq, beq_iff_eq, decide_eq_true_eq]
  rfl

/-- The order of a listing: by the time of creation, then by the id. -/
def creation : Ranking (LinkRow × SchemaRow) where
  le := before
  total first second := by
    rw [before_iff, before_iff]
    omega
  trans first second third := by
    rw [before_iff, before_iff, before_iff]
    omega

variable {tables : Tables} {caller : Uuid}

theorem mem_joined {link : LinkRow} {row : SchemaRow} : (link, row) ∈ tables.joined caller ↔
    (link ∈ tables.links ∧ link.userId = caller) ∧ row ∈ tables.schemas ∧
      row.id = link.schemaId := by
  simp only [Tables.joined, Tables.linksOf, List.mem_flatMap, List.mem_map,
    List.mem_filter, beq_iff_eq, Prod.mk.injEq]
  constructor
  · rintro ⟨link, linked, row, stored, rfl, rfl⟩
    exact ⟨linked, stored⟩
  · rintro ⟨linked, stored⟩
    exact ⟨link, linked, row, stored, rfl, rfl⟩

/-- Rows that tie in the order of a listing are one row. -/
theorem creation_antisymm : ∀ first ∈ tables.joined caller, ∀ second ∈ tables.joined caller,
    creation.le first second = true → creation.le second first = true → first = second := by
  rintro ⟨link, row⟩ mem ⟨link', row'⟩ mem' le le'
  rcases mem_joined.mp mem with ⟨⟨linked, -⟩, stored, key⟩
  rcases mem_joined.mp mem' with ⟨⟨linked', -⟩, stored', key'⟩
  change before _ _ = true at le le'
  rw [before_iff] at le le'
  have same : link.schemaId = link'.schemaId := by
    apply BitVec.eq_of_toNat_eq
    dsimp only at le le'
    omega
  have sameLink := List.inj_on_of_nodup_map tables.linkKey linked linked' same
  have sameRow := List.inj_on_of_nodup_map tables.schemaKey stored stored'
      (key.trans (same.trans key'.symm))
  rw [sameLink, sameRow]

theorem filter_id_eq_singleton {row : SchemaRow} (stored : row ∈ tables.schemas) :
    (tables.schemas.filter fun other => other.id == row.id) = [row] := by
  have count : (tables.schemas.filter fun other => other.id == row.id).length = 1 := by
    rw [← List.countP_eq_length_filter, ← List.count_eq_one_of_mem tables.schemaKey
      (List.mem_map_of_mem stored), List.count, List.countP_map]
    rfl
  rcases List.length_eq_one_iff.mp count with ⟨only, single⟩
  have mem : row ∈ tables.schemas.filter fun other => other.id == row.id :=
    List.mem_filter.mpr ⟨stored, beq_iff_eq.mpr rfl⟩
  rw [single, List.mem_singleton] at mem
  rw [single, mem]

/-- Every link has its schema, and one only. -/
theorem map_fst_joined (tables : Tables) (caller : Uuid) :
    (tables.joined caller).map Prod.fst = tables.linksOf caller := by
  have one : ∀ link ∈ tables.linksOf caller,
      (((tables.schemas.filter fun row => row.id == link.schemaId).map fun row => (link, row)).map
        Prod.fst) = [link] := by
    intro link mem
    rcases List.mem_map.mp (tables.references link (List.mem_filter.mp mem).1) with
      ⟨row, stored, key⟩
    rw [← key, filter_id_eq_singleton stored]
    rfl
  rw [Tables.joined, List.map_flatMap, List.flatMap_congr one]
  exact List.flatMap_singleton' _

/-- The schemas of the listing are the caller's, each one once. -/
theorem map_snd_joined_perm (tables : Tables) (caller : Uuid) :
    ((tables.joined caller).map Prod.snd).Perm (tables.owned caller) := by
  have keys : ((tables.joined caller).map Prod.snd).map SchemaRow.id =
      (tables.linksOf caller).map LinkRow.schemaId := by
    rw [← map_fst_joined, List.map_map, List.map_map]
    refine List.map_congr_left ?_
    rintro ⟨link, row⟩ mem
    exact (mem_joined.mp mem).2.2
  have once : ((tables.joined caller).map Prod.snd).Nodup := by
    apply List.Nodup.of_map SchemaRow.id
    rw [keys]
    exact tables.linkKey.sublist (List.filter_sublist.map _)
  have once' : (tables.owned caller).Nodup :=
    (List.Nodup.of_map SchemaRow.id tables.schemaKey).filter _
  rw [List.perm_ext_iff_of_nodup once once']
  intro row
  simp only [Tables.owned, Tables.owns, List.mem_map, List.mem_filter, List.any_eq_true,
    Bool.and_eq_true, beq_iff_eq]
  constructor
  · rintro ⟨⟨link, row⟩, mem, rfl⟩
    rcases mem_joined.mp mem with ⟨⟨linked, mine⟩, stored, key⟩
    exact ⟨stored, link, linked, key.symm, mine⟩
  · rintro ⟨stored, link, linked, key, mine⟩
    exact ⟨(link, row), mem_joined.mpr ⟨⟨linked, mine⟩, stored, key.symm⟩, rfl⟩

section Walk

variable [Postgres]

/--
`PgSchemaRepository::index`, where the database reads the rows of the join in some order of its own.
-/
def listIn (order : List (LinkRow × SchemaRow)) (tables : Tables) (caller : Uuid)
    (request : ListRequest) :
    Except DomainError (List SchemaSummary × Int64) :=
  let total := Int64.ofNat (tables.linksOf caller).length
  if request.perPage < 0 then .error (.storage "LIMIT must not be negative")
  else if request.offset < 0 then .error (.storage "OFFSET must not be negative")
  else
    let page := (order.drop request.offset.toNatClampNeg).take request.perPage.toNatClampNeg
    .ok (page.map fun row => mapSummary row.2, total)

/-- The answer for a page, with the order that the database has for it. -/
def indexIn (order : List (LinkRow × SchemaRow)) (tables : Tables) (caller : Uuid)
    (request : ListRequest) :
    Except Error (Data SchemaSummary) := do
  let (summaries, total) ← (listIn order tables caller request).mapError toError
  return .new summaries total request.page request.perPage

/--
What a caller sees who walks the listing: his schemas, each once and in order, and the way back.
-/
structure ShowsAll (tables : Tables) (caller : Uuid) (walked : List (Data SchemaSummary)) :
    Prop where
  inOrder : ∃ rows, IsOrderOf creation (tables.joined caller) rows ∧
    walked.flatMap Data.data = rows.map fun row => mapSummary row.2
  everySchema : ((tables.joined caller).map Prod.snd).Perm (tables.owned caller)
  stops : ∀ last ∈ walked.getLast?, last.metaData.currentPage =
    if (tables.owned caller).isEmpty then 1 else last.metaData.totalPages
  leadsBack : ∀ number, (inside : number + 1 < walked.length) →
    walked[number + 1].metaData.previousPage = some walked[number].metaData.currentPage

variable {order : List (LinkRow × SchemaRow)} {perPage : Int64}

theorem indexIn_page {number : Nat} (positive : 1 ≤ perPage.toInt)
    (fits : (tables.linksOf caller).length + 1 < 2 ^ 63) (first : 1 ≤ number)
    (last : number ≤ max 1 (pageCount perPage.toInt.toNat (tables.linksOf caller).length)) :
    indexIn order tables caller ⟨Int64.ofNat number, perPage⟩ =
      .ok (.new ((page perPage.toInt.toNat number order).map fun row => mapSummary row.2)
        (Int64.ofNat (tables.linksOf caller).length) (Int64.ofNat number) perPage) := by
  have offset := toInt_offset_of_page positive fits first last
  have limit : ¬perPage < 0 := by
    rw [Int64.lt_iff_toInt_lt, Int64.toInt_zero]
    omega
  have start : ¬(ListRequest.mk (Int64.ofNat number) perPage).offset < 0 := by
    rw [Int64.lt_iff_toInt_lt, offset, Int64.toInt_zero]
    omega
  have skipped : (ListRequest.mk (Int64.ofNat number) perPage).offset.toNatClampNeg =
      (number - 1) * perPage.toInt.toNat := by
    rw [Int64.toNatClampNeg, offset, Int.toNat_natCast]
  unfold indexIn listIn
  rw [if_neg limit, if_neg start, skipped]
  rfl

omit [Postgres] in
theorem length_joined (tables : Tables) (caller : Uuid) :
    (tables.joined caller).length = (tables.linksOf caller).length := by
  rw [← map_fst_joined, List.length_map]

/-- The walk of the listing shows all of the caller's schemas. -/
theorem showsAll_of_isWalk {orders : Nat → List (LinkRow × SchemaRow)} {size : Nat}
    (positive : 0 < size)
    (inOrders : ∀ number, IsOrderOf creation (tables.joined caller) (orders number))
    {walked : List (Data SchemaSummary)} (walk : IsWalk size (tables.linksOf caller).length
      (fun number => (page size number (orders number)).map fun row => mapSummary row.2) walked) :
    ShowsAll tables caller walked where
  inOrder := by
    refine ⟨_, creation.isOrderOf_mergeSort (tables.joined caller), ?_⟩
    have shown := visited_eq positive creation_antisymm (creation.isOrderOf_mergeSort _) inOrders
    rw [← visited_max_one positive inOrders, length_joined, visited_eq_flatMap] at shown
    rw [walk.flatMap_data, walk.length, ← shown, List.map_flatMap]
  everySchema := map_snd_joined_perm tables caller
  stops := by
    intro last mem
    have count := (map_snd_joined_perm tables caller).length_eq
    rw [List.length_map, length_joined] at count
    have enough := le_pageCount_mul positive (tables.linksOf caller).length
    rw [List.getLast?_eq_getElem?, Option.mem_def, List.getElem?_eq_some_iff] at mem
    rcases mem with ⟨inside, rfl⟩
    have page := walk.pages _ inside
    have length := walk.length
    have place : walked.length - 1 + 1 = max 1 (pageCount size (tables.linksOf caller).length) := by
      omega
    rw [page.currentPage, page.totalPages, place]
    cases owned : tables.owned caller with
    | nil =>
        have none : (tables.linksOf caller).length = 0 := by rw [count, owned, List.length_nil]
        rw [none, pageCount, Nat.zero_div, Nat.zero_mod]
        rfl
    | cons row rows =>
        rw [owned, List.length_cons] at count
        have some : 1 ≤ pageCount size (tables.linksOf caller).length := by
          by_contra none
          rw [show pageCount size (tables.linksOf caller).length = 0 by
            omega, Nat.zero_mul] at enough
          omega
        rw [Nat.max_eq_right some]
        rfl
  leadsBack := by
    intro number inside
    rw [(walk.pages (number + 1) inside).previous,
      (walk.pages number (Nat.lt_of_succ_lt inside)).currentPage,
      if_pos (by omega)]
    rfl

/--
Whatever order the database has for each page, following the next page shows every schema of the
caller once.
-/
theorem walk_index {orders : Int64 → List (LinkRow × SchemaRow)}
    (inOrders : ∀ page, IsOrderOf creation (tables.joined caller) (orders page))
    (positive : 1 ≤ perPage.toInt)
    (fits : (tables.linksOf caller).length + 1 < 2 ^ 63) :
    ∃ walked, Walk (fun page => indexIn (orders page) tables caller ⟨page, perPage⟩) 1 walked ∧
      (∀ other, Walk (fun page => indexIn (orders page) tables caller ⟨page, perPage⟩) 1 other →
        other = walked) ∧
      ShowsAll tables caller walked := by
  have size : 0 < perPage.toInt.toNat := by omega
  have sized : perPage.toInt = perPage.toInt.toNat := by omega
  have counted : (Int64.ofNat (tables.linksOf caller).length).toInt =
      (tables.linksOf caller).length :=
    toInt_ofNat (by omega)
  have answers : ∀ number, 1 ≤ number →
      number ≤ max 1 (pageCount perPage.toInt.toNat (tables.linksOf caller).length) →
      ∃ data, indexIn (orders (Int64.ofNat number)) tables caller ⟨Int64.ofNat number,
        perPage⟩ = .ok data ∧
        IsPage perPage.toInt.toNat (tables.linksOf caller).length number
          ((page perPage.toInt.toNat number (orders (Int64.ofNat number))).map fun row =>
            mapSummary row.2) data := by
    intro number first last
    exact ⟨_, indexIn_page positive fits first last,
      isPage_new size sized counted fits first last _⟩
  rcases @exists_walk SchemaSummary _ _ Error (fun page =>
    indexIn (orders page) tables caller ⟨page, perPage⟩)
    (fun number => (page perPage.toInt.toNat number (orders (Int64.ofNat number))).map fun row =>
      mapSummary row.2)
    answers with ⟨walked, walk, isWalk⟩
  refine ⟨walked, walk, fun other walk' => walk'.unique walk, ?_⟩
  exact showsAll_of_isWalk size (fun number => inOrders (Int64.ofNat number)) isWalk

end Walk

/-- Two schemas of one user, made at the same time. -/
def twoSchemas : Tables where
  schemas := [⟨1, "Orders", [], [], [], 3, 3⟩, ⟨2, "Users", [], [], [], 3, 3⟩]
  links := [⟨7, 2, 3⟩, ⟨7, 1, 3⟩]
  schemaKey := by simp
  linkKey := by simp
  references := by simp

theorem walk_index_twoSchemas : letI := asciiDatabase
    ∃ walked,
    Walk (fun page =>
      indexIn ((twoSchemas.joined 7).mergeSort creation.le) twoSchemas 7 ⟨page, 1⟩) 1 walked ∧
      (∀ other, Walk (fun page =>
        indexIn ((twoSchemas.joined 7).mergeSort creation.le) twoSchemas 7 ⟨page, 1⟩) 1
        other → other = walked) ∧
      ShowsAll twoSchemas 7 walked :=
  letI := asciiDatabase
  walk_index (fun _ => creation.isOrderOf_mergeSort _) (by decide) (by decide)

end SchemaForge.Service
