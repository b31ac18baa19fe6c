import SchemaForge.Foundation.Paging
import SchemaForge.Service

/-!
# Requests for a page

What a caller asks of a listing is clamped before the listing is read, from a query
string and from plain numbers alike. A page number is clamped from below alone, so
that the arithmetic on it can leave the 64 bits it is done in.
-/

namespace SchemaForge.Pagination

open Service

def defaultPerPage : Int64 := 10

def maxPerPage : Int64 := 100

/-- A request for a page, with what a listing may be ordered by and filtered on. -/
structure ListRequest extends Repository.ListRequest where
  sortBy : Str
  order : Str
  filters : Str → Option Str

namespace ListRequest

def default : ListRequest where
  page := 1
  perPage := defaultPerPage
  sortBy := []
  order := []
  filters _ := none

def normalize (request : ListRequest) : ListRequest where
  page := if request.page < 1 then 1 else request.page
  perPage := if request.perPage < 1 || maxPerPage < request.perPage then defaultPerPage
    else request.perPage
  sortBy := request.sortBy
  order := if request.order ≠ "asc" && request.order ≠ "desc" then [] else request.order
  filters := request.filters

/-- The request of a caller that has the numbers already. -/
def paged (page perPage : Int64) : ListRequest := normalize { default with page, perPage }

/-- A pair of a query string. -/
def accept (request : ListRequest) (pair : Str × Str) : ListRequest :=
  let (key, value) := pair
  if key = "page" then { request with page := (Str.parseI64 value).getD 1 }
  else if key = "per_page" then { request with perPage := (Str.parseI64 value).getD defaultPerPage }
  else if key = "sort_by" then { request with sortBy := value }
  else if key = "order" then { request with order := value }
  else { request with filters := Function.update request.filters key (some value) }

/-- The request of a query string, which another crate splits into pairs. -/
def fromQuery (urlencoded : Str → Option (List (Str × Str))) (query : Str) : ListRequest :=
  normalize (((urlencoded query).getD []).foldl accept default)

def filter (request : ListRequest) (key : Str) : Option Str :=
  (request.filters key).filter fun value => !value.isEmpty

end ListRequest

theorem toInt_add_of_fits {x y : Int64} (low : -2 ^ 63 ≤ x.toInt + y.toInt)
    (high : x.toInt + y.toInt < 2 ^ 63) :
    (x + y).toInt = x.toInt + y.toInt := by
  rw [Int64.toInt_add, Int.bmod_eq_of_le_mul_two (by omega) (by omega)]

theorem toInt_sub_of_fits {x y : Int64} (low : -2 ^ 63 ≤ x.toInt - y.toInt)
    (high : x.toInt - y.toInt < 2 ^ 63) :
    (x - y).toInt = x.toInt - y.toInt := by
  rw [Int64.toInt_sub, Int.bmod_eq_of_le_mul_two (by omega) (by omega)]

theorem toInt_mul_of_fits {x y : Int64} (low : -2 ^ 63 ≤ x.toInt * y.toInt)
    (high : x.toInt * y.toInt < 2 ^ 63) :
    (x * y).toInt = x.toInt * y.toInt := by
  rw [Int64.toInt_mul, Int.bmod_eq_of_le_mul_two (by omega) (by omega)]

theorem toInt_div_of_pos {x y : Int64} (nonneg : 0 ≤ x.toInt) (positive : 0 < y.toInt) :
    (x / y).toInt = x.toInt / y.toInt := by
  have other : y ≠ -1 := by
    rintro rfl
    exact absurd positive (by decide)
  rw [Int64.toInt_div_of_ne_right x y other, Int.tdiv_eq_ediv_of_nonneg nonneg]

theorem toInt_mod_of_nonneg {x : Int64} (nonneg : 0 ≤ x.toInt) (y : Int64) :
    (x % y).toInt = x.toInt % y.toInt := by
  rw [Int64.toInt_mod, Int.tmod_eq_emod_of_nonneg nonneg]

/-- How many pages a number of rows takes. -/
def pagesOf (total size : Int) : Int := total / size + if total % size = 0 then 0 else 1

theorem toInt_totalPages {α : Type} (rows : List α) {total perPage : Int64} (page : Int64)
    (nonneg : 0 ≤ total.toInt)
    (positive : 0 < perPage.toInt) :
    (Data.new rows total page perPage).metaData.totalPages.toInt =
      pagesOf total.toInt perPage.toInt := by
  have size : ¬perPage < 1 := by
    rw [Int64.lt_iff_toInt_lt, Int64.toInt_one]
    omega
  change ((total / (if perPage < 1 then 1 else perPage)) +
    if total % (if perPage < 1 then 1 else perPage) ≠ 0 then 1 else 0).toInt = _
  rw [if_neg size]
  have quotient := toInt_div_of_pos nonneg positive
  have remainder := toInt_mod_of_nonneg nonneg perPage
  have bound := Int64.toInt_lt total
  unfold pagesOf
  by_cases even : total.toInt % perPage.toInt = 0
  · have none : total % perPage = 0 := by
      rw [← Int64.toInt_inj, remainder, even, Int64.toInt_zero]
    rw [if_pos even, none, if_neg (not_not_intro rfl), Int64.add_zero, Int.add_zero, quotient]
  · have some : total % perPage ≠ 0 := by
      intro none
      rw [none, Int64.toInt_zero] at remainder
      exact even remainder.symm
    have several : 2 ≤ perPage.toInt := by
      by_contra single
      have one : perPage.toInt = 1 := by omega
      rw [one, Int.emod_one] at even
      exact even rfl
    have least : 0 ≤ total.toInt / perPage.toInt := Int.ediv_nonneg nonneg (by omega)
    have half : total.toInt / perPage.toInt * 2 ≤ total.toInt :=
      Int.le_trans (Int.mul_le_mul_of_nonneg_left several least) (Int.ediv_mul_le _ (by omega))
    rw [if_neg even, if_pos some, toInt_add_of_fits, quotient, Int64.toInt_one]
    · rw [quotient, Int64.toInt_one]
      omega
    · rw [quotient, Int64.toInt_one]
      omega

/-- The page size that a total is divided by. -/
def divisor (perPage : Int64) : Int64 := if perPage < 1 then 1 else perPage

/--
The arithmetic on a page is exact: every result is the number it stands for, and the offset is not
negative.
-/
structure NeverWraps {α : Type} (rows : List α) (request : Repository.ListRequest) (total : Int64) :
    Prop where
  before : (request.page - 1).toInt = request.page.toInt - 1
  offset : request.offset.toInt = (request.page.toInt - 1) * request.perPage.toInt
  offset_nonneg : 0 ≤ request.offset.toInt
  quotient : (total / divisor request.perPage).toInt = total.toInt / (divisor request.perPage).toInt
  remainder : (total % divisor request.perPage).toInt =
    total.toInt % (divisor request.perPage).toInt
  totalPages : (Data.new rows total request.page request.perPage).metaData.totalPages.toInt =
    pagesOf total.toInt (divisor request.perPage).toInt
  next : (request.page + 1).toInt = request.page.toInt + 1

/-- The last page that leaves its offset and the page behind it within 64 bits. -/
def lastPage (size : Int) : Int := min (2 ^ 63 - 2) ((2 ^ 63 - 1) / size + 1)

variable {request : Repository.ListRequest}

theorem divisor_of_pos {perPage : Int64} (positive : 1 ≤ perPage.toInt) :
    divisor perPage = perPage := by
  have size : ¬perPage < 1 := by
    rw [Int64.lt_iff_toInt_lt, Int64.toInt_one]
    omega
  rw [divisor, if_neg size]

theorem toInt_before (page : 1 ≤ request.page.toInt) :
    (request.page - 1).toInt = request.page.toInt - 1 := by
  have bound := Int64.toInt_lt request.page
  rw [toInt_sub_of_fits, Int64.toInt_one]
  · rw [Int64.toInt_one]
    omega
  · rw [Int64.toInt_one]
    omega

theorem toInt_offset (page : 1 ≤ request.page.toInt) (size : 1 ≤ request.perPage.toInt)
    (fits : request.page.toInt - 1 ≤ (2 ^ 63 - 1) / request.perPage.toInt) :
    request.offset.toInt = (request.page.toInt - 1) * request.perPage.toInt := by
  have exact' := toInt_before page
  have high : (request.page.toInt - 1) * request.perPage.toInt ≤ 2 ^ 63 - 1 :=
    (Int.le_ediv_iff_mul_le (by omega)).mp fits
  have low : 0 ≤ (request.page.toInt - 1) * request.perPage.toInt :=
    Int.mul_nonneg (by omega) (by omega)
  rw [Repository.ListRequest.offset, toInt_mul_of_fits, exact']
  · rw [exact']
    omega
  · rw [exact']
    omega

theorem neverWraps_iff_le_lastPage {α : Type} (rows : List α) (page : 1 ≤ request.page.toInt)
    (size : 1 ≤ request.perPage.toInt) :
    (∀ total : Int64, 0 ≤ total.toInt → NeverWraps rows request total) ↔
      request.page.toInt ≤ lastPage request.perPage.toInt := by
  unfold lastPage
  constructor
  · intro all
    have never := all 0 (Int.le_refl 0)
    have next := Int64.toInt_lt (request.page + 1)
    have offset := Int64.toInt_lt request.offset
    rw [never.next] at next
    rw [never.offset] at offset
    have places := (Int.le_ediv_iff_mul_le (show 0 < request.perPage.toInt by omega)).mpr
        (Int.le_sub_one_of_lt offset)
    omega
  · intro fits total nonneg
    have offset := toInt_offset page size (by omega)
    have divided := divisor_of_pos size
    constructor
    · exact toInt_before page
    · exact offset
    · rw [offset]
      exact Int.mul_nonneg (by omega) (by omega)
    · rw [divided, toInt_div_of_pos nonneg (by omega)]
    · rw [divided, toInt_mod_of_nonneg nonneg]
    · rw [divided, toInt_totalPages rows request.page nonneg (by omega)]
    · rw [toInt_add_of_fits, Int64.toInt_one]
      · rw [Int64.toInt_one]
        omega
      · rw [Int64.toInt_one]
        omega

/-- The page size that a caller is given. -/
def sizeFor (perPage : Int) : Int := if 1 ≤ perPage ∧ perPage ≤ 100 then perPage else 10

/-- The page that a caller asks for is none too large for the page size. -/
def PageFits (page perPage : Int64) : Prop := page.toInt ≤ lastPage (sizeFor perPage.toInt)

instance (page perPage : Int64) : Decidable (PageFits page perPage) :=
  inferInstanceAs (Decidable (_ ≤ _))

/-- The last number that is sent under a name. -/
def lastSent (key : Str) (pairs : List (Str × Str)) (default : Int64) : Int64 :=
  ((pairs.reverse.find? fun pair => pair.1 == key).bind fun pair =>
    Str.parseI64 pair.2).getD default

namespace ListRequest

theorem accept_page (request : ListRequest) (pair : Str × Str) : (request.accept pair).page =
    if pair.1 == "page" then (Str.parseI64 pair.2).getD 1 else request.page := by
  rcases pair with ⟨key, value⟩
  unfold accept
  dsimp only
  by_cases page : key = "page"
  · rw [if_pos page, if_pos (beq_iff_eq.mpr page)]
  · rw [if_neg page, if_neg (mt beq_iff_eq.mp page)]
    split_ifs <;> rfl

theorem accept_perPage (request : ListRequest) (pair : Str × Str) : (request.accept pair).perPage =
    if pair.1 == "per_page" then (Str.parseI64 pair.2).getD defaultPerPage
      else request.perPage := by
  rcases pair with ⟨key, value⟩
  unfold accept
  dsimp only
  by_cases perPage : key = "per_page"
  · subst perPage
    rfl
  · rw [if_neg perPage, if_neg (mt beq_iff_eq.mp perPage)]
    split_ifs <;> rfl

/-- A number that each pair of one name sets is the one that was sent last. -/
theorem foldl_accept (get : ListRequest → Int64) {key : Str} {value : Int64}
    (accepted : ∀ request pair, get (accept request pair) =
      if pair.1 == key then (Str.parseI64 pair.2).getD value else get request)
        (pairs : List (Str × Str))
    (start : get default = value) :
    get (pairs.foldl accept default) = lastSent key pairs value := by
  induction pairs using List.reverseRecOn with
  | nil => exact start
  | append_singleton pairs pair ih =>
      rw [List.foldl_concat, accepted, ih, lastSent, lastSent, List.reverse_concat, List.find?_cons]
      cases pair.1 == key with
      | true => rfl
      | false => rfl

theorem normalize_page (request : ListRequest) :
    request.normalize.page.toInt = max 1 request.page.toInt := by
  change (if request.page < 1 then 1 else request.page).toInt = _
  split_ifs with small
  · rw [Int64.lt_iff_toInt_lt, Int64.toInt_one] at small
    rw [Int64.toInt_one]
    omega
  · rw [Int64.lt_iff_toInt_lt, Int64.toInt_one] at small
    omega

theorem normalize_perPage (request : ListRequest) :
    request.normalize.perPage.toInt = sizeFor request.perPage.toInt := by
  have hundred : maxPerPage.toInt = 100 := rfl
  change (if request.perPage < 1 || maxPerPage < request.perPage then defaultPerPage
    else request.perPage).toInt = _
  have outside : (request.perPage < 1 || maxPerPage < request.perPage) = true ↔
      ¬(1 ≤ request.perPage.toInt ∧ request.perPage.toInt ≤ 100) := by
    rw [Bool.or_eq_true, decide_eq_true_eq, decide_eq_true_eq, Int64.lt_iff_toInt_lt,
      Int64.lt_iff_toInt_lt, hundred, Int64.toInt_one]
    omega
  by_cases clamped : (request.perPage < 1 || maxPerPage < request.perPage) = true
  · rw [if_pos clamped, sizeFor, if_neg (outside.mp clamped)]
    rfl
  · rw [if_neg clamped, sizeFor, if_pos (not_not.mp (mt outside.mpr clamped))]

theorem neverWraps_normalize_iff {α : Type} (rows : List α) (request : ListRequest) :
    (∀ total : Int64, 0 ≤ total.toInt → NeverWraps rows request.normalize.toListRequest total) ↔
      PageFits request.page request.perPage := by
  have size : 1 ≤ sizeFor request.perPage.toInt ∧ sizeFor request.perPage.toInt ≤ 100 := by
    unfold sizeFor
    split_ifs <;> omega
  have least : 1 ≤ lastPage (sizeFor request.perPage.toInt) := by
    have places : 0 ≤ (2 ^ 63 - 1) / sizeFor request.perPage.toInt :=
      Int.ediv_nonneg (by decide) (by omega)
    unfold lastPage
    omega
  have page : 1 ≤ request.normalize.page.toInt := by
    rw [normalize_page]
    omega
  have perPage : 1 ≤ request.normalize.perPage.toInt := by
    rw [normalize_perPage]
    exact size.1
  rw [neverWraps_iff_le_lastPage rows page perPage, normalize_page, normalize_perPage, PageFits]
  omega

/-- The arithmetic on a page is exact where the page that is sent is not too large for its size. -/
theorem neverWraps_iff {α : Type} (rows : List α) (urlencoded : Str → Option (List (Str × Str)))
    (query : Str)
    (page perPage : Int64) :
    ((∀ total : Int64, 0 ≤ total.toInt →
      NeverWraps rows (fromQuery urlencoded query).toListRequest total) ↔
      PageFits (lastSent "page" ((urlencoded query).getD []) 1)
        (lastSent "per_page" ((urlencoded query).getD []) defaultPerPage)) ∧
    ((∀ total : Int64, 0 ≤ total.toInt → NeverWraps rows (paged page perPage).toListRequest total) ↔
      PageFits page perPage) := by
  constructor
  · have sentPage := foldl_accept (·.page) accept_page ((urlencoded query).getD []) rfl
    have sentPerPage := foldl_accept (·.perPage) accept_perPage ((urlencoded query).getD []) rfl
    rw [← sentPage, ← sentPerPage]
    exact neverWraps_normalize_iff rows _
  · exact neverWraps_normalize_iff rows { default with page, perPage }

/-- The largest number of 64 bits as a page. -/
theorem wraps_on_the_largest_page :
    ¬NeverWraps ([] : List Unit) (fromQuery (fun _ => some [("page", "9223372036854775807")])
        "page=9223372036854775807").toListRequest 0 ∧
      (fromQuery (fun _ => some [("page", "9223372036854775807")])
        "page=9223372036854775807").toListRequest.offset = -20 := by
  have offset : (fromQuery (fun _ => some [("page", "9223372036854775807")])
      "page=9223372036854775807").toListRequest.offset = -20 := by
    decide
  refine ⟨fun never => ?_, offset⟩
  have nonneg := never.offset_nonneg
  rw [offset] at nonneg
  exact absurd nonneg (by decide)

end ListRequest

/-- The answers that a caller gets who follows the next page from a page on. -/
inductive Walk {α ε : Type} (answer : Int64 → Except ε (Data α)) :
    Int64 → List (Data α) → Prop where
  | last {page : Int64} {data : Data α} (answered : answer page = .ok data)
      (none : data.metaData.nextPage = none) : Walk answer page [data]
  | next {page later : Int64} {data : Data α} {walked : List (Data α)}
      (answered : answer page = .ok data) (some : data.metaData.nextPage = some later)
      (walk : Walk answer later walked) :
      Walk answer page (data :: walked)

theorem Walk.unique {α ε : Type} {answer : Int64 → Except ε (Data α)} {page : Int64}
    {first second : List (Data α)} (walk : Walk answer page first)
    (walk' : Walk answer page second) : first = second := by
  induction walk generalizing second with
  | last answered none =>
      cases walk' with
      | last answered' none' => rw [Except.ok.inj (answered.symm.trans answered')]
      | next answered' some' _ =>
          rw [← Except.ok.inj (answered.symm.trans answered'), none] at some'
          cases some'
  | next answered some _ ih =>
      cases walk' with
      | last answered' none' =>
          rw [← Except.ok.inj (answered.symm.trans answered'), some] at none'
          cases none'
      | next answered' some' walk' =>
          have same := Except.ok.inj (answered.symm.trans answered')
          rw [← same, some] at some'
          rw [ih (Option.some.inj some' ▸ walk'), same]

section Following

open Paging

theorem pagesOf_eq_pageCount (size rows : Nat) : pagesOf rows size = pageCount size rows := by
  unfold pagesOf pageCount
  by_cases even : rows % size = 0
  · rw [if_pos (by exact_mod_cast even), if_neg (not_not_intro even)]
    simp
  · rw [if_neg (by exact_mod_cast even), if_pos even]
    simp

theorem pageCount_le {size : Nat} (positive : 0 < size) (rows : Nat) :
    pageCount size rows ≤ rows := by
  have split := Nat.div_add_mod rows size
  have places : rows / size ≤ size * (rows / size) := Nat.le_mul_of_pos_left _ positive
  unfold pageCount
  split_ifs
  · omega
  · omega

theorem toInt_ofNat {number : Nat} (small : number < 2 ^ 63) :
    (Int64.ofNat number).toInt = number :=
  Int64.toInt_ofNat_of_lt small

theorem ofNat_le_ofNat {first second : Nat} (small : first < 2 ^ 63) (small' : second < 2 ^ 63) :
    Int64.ofNat first ≤ Int64.ofNat second ↔ first ≤ second := by
  rw [Int64.le_iff_toInt_le, toInt_ofNat small, toInt_ofNat small']
  omega

/-- The answer for a page of a listing, with its links to the pages beside it. -/
structure IsPage {α : Type} (size rows number : Nat) (shown : List α) (answer : Data α) : Prop where
  data : answer.data = shown
  currentPage : answer.metaData.currentPage = Int64.ofNat number
  totalPages : answer.metaData.totalPages = Int64.ofNat (pageCount size rows)
  next : answer.metaData.nextPage =
    if number + 1 ≤ pageCount size rows then some (Int64.ofNat (number + 1)) else none
  previous : answer.metaData.previousPage =
    if 1 < number then some (Int64.ofNat (number - 1)) else none

variable {α : Type} {size rows number : Nat} {perPage total : Int64}

theorem isPage_new (positive : 0 < size) (sized : perPage.toInt = size)
    (counted : total.toInt = rows) (small : rows + 1 < 2 ^ 63) (first : 1 ≤ number)
    (last : number ≤ max 1 (pageCount size rows)) (shown : List α) :
    IsPage size rows number shown (Data.new shown total (Int64.ofNat number) perPage) := by
  have pages := pageCount_le positive rows
  have page : (Int64.ofNat number).toInt = number := toInt_ofNat (by omega)
  have totalPages : (Data.new shown total (Int64.ofNat number) perPage).metaData.totalPages =
      Int64.ofNat (pageCount size rows) := by
    rw [← Int64.toInt_inj, toInt_totalPages shown _ (by omega) (by omega), counted, sized,
      pagesOf_eq_pageCount, toInt_ofNat (by omega)]
  have next : Int64.ofNat number + 1 = Int64.ofNat (number + 1) := by
    rw [← Int64.toInt_inj, toInt_add_of_fits, page, toInt_ofNat (by omega), Int64.toInt_one]
    · omega
    · rw [page, Int64.toInt_one]
      omega
    · rw [page, Int64.toInt_one]
      omega
  have previous : Int64.ofNat number - 1 = Int64.ofNat (number - 1) := by
    rw [← Int64.toInt_inj, toInt_sub_of_fits, page, toInt_ofNat (by omega), Int64.toInt_one]
    · omega
    · rw [page, Int64.toInt_one]
      omega
    · rw [page, Int64.toInt_one]
      omega
  constructor
  · rfl
  · rfl
  · exact totalPages
  · change (some (Int64.ofNat number + 1)).filter (fun page => decide
      (page ≤ (Data.new shown total (Int64.ofNat number) perPage).metaData.totalPages)) = _
    rw [totalPages, next, Option.filter_some]
    simp only [decide_eq_true_eq, ofNat_le_ofNat (show number + 1 < 2 ^ 63 by omega)
      (show pageCount size rows < 2 ^ 63 by omega)]
  · have one : (1 : Int64) = Int64.ofNat 1 := rfl
    change (some (Int64.ofNat number - 1)).filter (fun page => decide (1 ≤ page) && decide
      (page ≤ (Data.new shown total (Int64.ofNat number) perPage).metaData.totalPages)) = _
    rw [totalPages, previous, Option.filter_some, one]
    simp only [Bool.and_eq_true, decide_eq_true_eq, ofNat_le_ofNat (show 1 < 2 ^ 63 by omega)
      (show number - 1 < 2 ^ 63 by omega), ofNat_le_ofNat (show number - 1 < 2 ^ 63 by omega)
      (show pageCount size rows < 2 ^ 63 by omega)]
    congr 1
    apply propext
    omega

/-- The offset of a page that there is. -/
theorem toInt_offset_of_page (positive : 1 ≤ perPage.toInt) (small : rows + 1 < 2 ^ 63)
    (first : 1 ≤ number) (last : number ≤ max 1 (pageCount perPage.toInt.toNat rows)) :
    (Repository.ListRequest.mk (Int64.ofNat number) perPage).offset.toInt =
      ((number - 1) * perPage.toInt.toNat : Nat) := by
  have pages := pageCount_le (show 0 < perPage.toInt.toNat by omega) rows
  have page : (Int64.ofNat number).toInt = number := toInt_ofNat (by omega)
  have front : (number - 1) * perPage.toInt.toNat ≤ rows := by
    by_cases only : number = 1
    · rw [only, Nat.sub_self, Nat.zero_mul]
      exact Nat.zero_le _
    · exact mul_le_of_lt_pageCount (by omega)
  have exact' : ((number - 1 : Nat) : Int) * (perPage.toInt.toNat : Int) =
      (number - 1) * perPage.toInt := by
    rw [Int.toNat_of_nonneg (by omega), Int.natCast_sub first]
    rfl
  rw [toInt_offset, page, Int.natCast_mul, exact']
  · rw [page]
    omega
  · exact positive
  · rw [page, Int.le_ediv_iff_mul_le (show 0 < perPage.toInt by omega), ← exact']
    have front' : ((number - 1 : Nat) : Int) * (perPage.toInt.toNat : Int) ≤ rows := by
      exact_mod_cast front
    omega

/-- The walk of a listing: its pages in order, each but the first leading back to the one before. -/
structure IsWalk (size rows : Nat) (shown : Nat → List α) (walked : List (Data α)) : Prop where
  length : walked.length = max 1 (pageCount size rows)
  pages : ∀ number (inside : number < walked.length),
    IsPage size rows (number + 1) (shown (number + 1)) walked[number]

/-- Following the next page from the first one shows every page there is. -/
theorem exists_walk {ε : Type} {answer : Int64 → Except ε (Data α)} {shown : Nat → List α}
    (answers : ∀ number, 1 ≤ number → number ≤ max 1 (pageCount size rows) →
      ∃ data, answer (Int64.ofNat number) = .ok data ∧ IsPage size rows number
        (shown number) data) :
    ∃ walked, Walk answer 1 walked ∧ IsWalk size rows shown walked := by
  have goOn (count : Nat) : ∀ number, 1 ≤ number → number + count = max 1 (pageCount size rows) →
      ∃ walked, Walk answer (Int64.ofNat number) walked ∧ walked.length = count + 1 ∧
        ∀ place (inside : place < walked.length),
          IsPage size rows (number + place) (shown (number + place)) walked[place] := by
    induction count with
    | zero =>
        intro number first last
        rcases answers number first (by omega) with ⟨data, answered, isPage⟩
        refine ⟨[data], .last answered (isPage.next.trans (if_neg (by omega))), rfl, ?_⟩
        intro place inside
        have here : place = 0 := by
          rw [List.length_singleton] at inside
          omega
        subst here
        exact isPage
    | succ count ih =>
        intro number first last
        rcases answers number first (by omega) with ⟨data, answered, isPage⟩
        rcases ih (number + 1) (by omega) (by omega) with ⟨walked, walk, length, pages⟩
        refine ⟨data :: walked, .next answered (isPage.next.trans (if_pos (by omega))) walk, ?_, ?_⟩
        · rw [List.length_cons, length]
        · intro place inside
          cases place with
          | zero => exact isPage
          | succ place =>
              have later := pages place (Nat.lt_of_succ_lt_succ inside)
              rw [Nat.add_assoc, Nat.add_comm 1] at later
              exact later
  rcases goOn (max 1 (pageCount size rows) - 1) 1 (Nat.le_refl 1) (by omega) with
    ⟨walked, walk, length, pages⟩
  refine ⟨walked, walk, by omega, ?_⟩
  intro number inside
  have page := pages number inside
  rwa [Nat.add_comm] at page

/-- Whoever comes to the end of a walk has been answered on every page. -/
theorem Walk.answered {ε : Type} {answer : Int64 → Except ε (Data α)} {page : Int64}
    {walked : List (Data α)} (walk : Walk answer page walked)
    (next : ∀ number data, 1 ≤ number → number ≤ max 1 (pageCount size rows) →
      answer (Int64.ofNat number) = .ok data →
      data.metaData.nextPage = if number + 1 ≤
        pageCount size rows then some (Int64.ofNat (number + 1)) else none)
    (start : page = Int64.ofNat number) (first : 1 ≤ number)
    (last : number ≤ max 1 (pageCount size rows)) :
    ∀ later, number ≤ later → later ≤ max 1 (pageCount size rows) →
      ∃ data, answer (Int64.ofNat later) = .ok data := by
  induction walk generalizing number with
  | last answered none =>
      subst start
      intro later notBefore inside
      have stop := next number _ first last answered
      rw [none] at stop
      split_ifs at stop
      have here : later = number := by omega
      exact here ▸ ⟨_, answered⟩
  | next answered some _ ih =>
      subst start
      intro later notBefore inside
      by_cases here : later = number
      · exact here ▸ ⟨_, answered⟩
      · have goOn := next number _ first last answered
        rw [some] at goOn
        split_ifs at goOn with more
        exact ih (Option.some.inj goOn) (by omega) (by omega) later (by omega) inside

theorem IsWalk.flatMap_data {shown : Nat → List α} {walked : List (Data α)}
    (walk : IsWalk size rows shown walked) :
    walked.flatMap Data.data = (List.range walked.length).flatMap fun number =>
      shown (number + 1) := by
  have each : walked.map Data.data = (List.range walked.length).map fun number =>
      shown (number + 1) := by
    refine List.ext_getElem (by simp) ?_
    intro number inside inside'
    rw [List.getElem_map, List.getElem_map, List.getElem_range]
    exact (walk.pages number (by simpa using inside)).data
  rw [List.flatMap_def, List.flatMap_def, each]

end Following

end SchemaForge.Pagination
