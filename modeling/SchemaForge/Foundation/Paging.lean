import Mathlib.Data.List.Basic
import Mathlib.Data.List.Sort

/-!
# Pages of an ordered listing

A listing that is read page by page is put in order anew for every page. Where rows
tie, each of these orders may place them its own way. The pages together show every
row once for all such orders exactly when no page ends between two rows that tie.
-/

namespace Paging

variable {α : Type*}

/-- What a listing is ordered by. Rows that come before each other tie. -/
structure Ranking (α : Type*) where
  le : α → α → Bool
  total : ∀ first second, le first second = true ∨ le second first = true
  trans : ∀ first second third, le first second = true → le second third = true →
    le first third = true

/-- The row comes strictly before another. -/
def Ranking.before (ranking : Ranking α) (row other : α) : Bool := !ranking.le other row

/-- The rows of a page. Pages are counted from one. -/
def page (size number : Nat) (order : List α) : List α :=
  (order.drop ((number - 1) * size)).take size

/-- How many pages a number of rows takes. -/
def pageCount (size rows : Nat) : Nat := rows / size + if rows % size ≠ 0 then 1 else 0

/-- What the pages up to a number show, with an order for each of them. -/
def visited (size : Nat) (orders : Nat → List α) : Nat → List α
  | 0 => []
  | number + 1 => visited size orders number ++ page size (number + 1) (orders (number + 1))

/-- The rows, put in order. -/
structure IsOrderOf (ranking : Ranking α) (rows order : List α) : Prop where
  perm : order.Perm rows
  sorted : order.Pairwise fun first second => ranking.le first second = true

/-- No page ends between two rows that tie. -/
def TiesFit (ranking : Ranking α) (size : Nat) (rows : List α) : Prop :=
  ∀ row ∈ rows, ∀ number, ¬(rows.countP (ranking.before · row) < number * size ∧
    number * size < rows.countP (ranking.le · row))

theorem take_append_page (size number : Nat) (order : List α) :
    order.take (number * size) ++ page size (number + 1) order = order.take
      ((number + 1) * size) := by
  rw [page, Nat.add_sub_cancel, Nat.succ_mul, List.take_add]

theorem le_pageCount_mul {size : Nat} (positive : 0 < size) (rows : Nat) :
    rows ≤ pageCount size rows * size := by
  have split := Nat.div_add_mod rows size
  have rest := Nat.mod_lt rows positive
  unfold pageCount
  split
  · rw [Nat.add_mul, Nat.mul_comm (rows / size)]
    omega
  · rw [Nat.add_zero, Nat.mul_comm]
    omega

/-- The rows in front of a page that there is. -/
theorem mul_le_of_lt_pageCount {size rows number : Nat} (inside : number < pageCount size rows) :
    number * size ≤ rows := by
  have split := Nat.div_add_mod rows size
  have full : rows / size * size ≤ rows := Nat.div_mul_le_self rows size
  have places : number ≤ rows / size := by
    unfold pageCount at inside
    split_ifs at inside <;> omega
  exact Nat.le_trans (Nat.mul_le_mul_right size places) full

variable {ranking : Ranking α} {rows order : List α}

namespace Ranking

theorem before_iff {row other : α} : ranking.before row other = true ↔
    ranking.le other row = false := by
  simp [before]

theorem refl (ranking : Ranking α) (row : α) :
    ranking.le row row = true := (ranking.total row row).elim id id

/-- Every list of rows has an order. -/
theorem isOrderOf_mergeSort (ranking : Ranking α) (rows : List α) :
    IsOrderOf ranking rows (rows.mergeSort ranking.le) where
  perm := List.mergeSort_perm rows ranking.le
  sorted := List.pairwise_mergeSort ranking.trans
    (fun first second => by simpa using ranking.total first second) rows

end Ranking

/-- In an order, rows that nothing else comes before stand at the front. -/
theorem front_of_closed {p : α → Bool}
    (closed : ∀ first second, ranking.le first second = true → p second = true →
    p first = true) (sorted : order.Pairwise fun first second => ranking.le first second = true) :
    (∀ row ∈ order.take (order.countP p), p row = true) ∧ ∀ row ∈ order.drop
    (order.countP p), ¬p row = true := by
  induction order with
  | nil => simp
  | cons first rest ih =>
      rcases List.pairwise_cons.mp sorted with ⟨least, sorted⟩
      by_cases here : p first = true
      · rw [List.countP_cons, if_pos here, List.take_succ_cons, List.drop_succ_cons]
        exact ⟨List.forall_mem_cons.mpr ⟨here, (ih sorted).1⟩, (ih sorted).2⟩
      · have after : ∀ later ∈ first :: rest, ¬p later = true := by
          intro later mem found
          rcases List.mem_cons.mp mem with rfl | mem
          · exact here found
          · exact here (closed _ _ (least later mem) found)
        rw [List.countP_eq_zero.mpr after, List.take_zero, List.drop_zero]
        exact ⟨List.forall_mem_nil _, after⟩

theorem before_closed (row : α) (first second : α) (le : ranking.le first second = true)
    (before : ranking.before second row = true) : ranking.before first row = true := by
  rw [Ranking.before_iff] at before ⊢
  by_contra found
  rw [ranking.trans _ _ _ (by simpa using found) le] at before
  cases before

/-- In an order, what comes before a row stands at the front. -/
theorem filter_before_eq_take
    (sorted : order.Pairwise fun first second => ranking.le first second = true) (row : α) :
    order.filter (ranking.before · row) = order.take (order.countP (ranking.before · row)) := by
  rcases front_of_closed (before_closed row) sorted with ⟨front, back⟩
  generalize order.countP (ranking.before · row) = cut at front back ⊢
  have split := List.take_append_drop cut order
  calc order.filter (ranking.before · row)
      = (order.take cut).filter (ranking.before · row) ++ (order.drop cut).filter
        (ranking.before · row) := by
        rw [← List.filter_append, split]
    _ = order.take cut := by
        rw [List.filter_eq_self.mpr front, List.filter_eq_nil_iff.mpr back, List.append_nil]

/-- How many rows come before the one behind a cut, strictly and not. -/
theorem count_at_cut {front back : List α} {row : α}
    (sorted : order.Pairwise fun first second => ranking.le first second = true)
    (split : order = front ++ row :: back) :
    order.countP (ranking.before · row) ≤ front.length ∧ front.length < order.countP
      (ranking.le · row) := by
  subst split
  rcases List.pairwise_append.mp sorted with ⟨-, later, earlier⟩
  rcases List.pairwise_cons.mp later with ⟨behind, -⟩
  have front_le : ∀ first ∈ front, ranking.le first row = true :=
    fun first mem => earlier first mem row List.mem_cons_self
  have back_not : ∀ last ∈ row :: back, ¬ranking.before last row = true := by
    intro last mem before
    rw [Ranking.before_iff] at before
    rcases List.mem_cons.mp mem with rfl | mem
    · rw [ranking.refl] at before
      cases before
    · rw [behind last mem] at before
      cases before
  constructor
  · rw [List.countP_append, List.countP_eq_zero.mpr back_not, Nat.add_zero]
    exact List.countP_le_length
  · have here : 0 < (row :: back).countP (ranking.le · row) :=
      List.countP_pos_iff.mpr ⟨row, List.mem_cons_self, ranking.refl row⟩
    rw [List.countP_append, List.countP_eq_length.mpr front_le]
    omega

/-- Where no tie is cut, all orders agree on what comes before the cut. -/
theorem take_perm_of_fits {other : List α} {cut : Nat}
    (fits : ∀ row ∈ rows,
      ¬(rows.countP (ranking.before · row) < cut ∧ cut < rows.countP (ranking.le · row)))
    (first : IsOrderOf ranking rows order) (second : IsOrderOf ranking rows other) :
    (order.take cut).Perm (other.take cut) := by
  by_cases inside : cut < order.length
  · rcases split : order.drop cut with _ | ⟨row, back⟩
    · rw [List.drop_eq_nil_iff] at split
      omega
    · have whole : order = order.take cut ++ row :: back := by rw [← split, List.take_append_drop]
      have reached := count_at_cut first.sorted whole
      rw [List.length_take, Nat.min_eq_left (Nat.le_of_lt inside), first.perm.countP_eq,
        first.perm.countP_eq] at reached
      have mem : row ∈ rows := first.perm.subset (by rw [whole]; simp)
      have exact' : rows.countP (ranking.before · row) = cut := by
        have := fits row mem
        omega
      have front := filter_before_eq_take first.sorted row
      have front' := filter_before_eq_take second.sorted row
      rw [first.perm.countP_eq, exact'] at front
      rw [second.perm.countP_eq, exact'] at front'
      rw [← front, ← front']
      exact (first.perm.trans second.perm.symm).filter _
  · have length : other.length = order.length :=
      second.perm.length_eq.trans first.perm.length_eq.symm
    rw [List.take_of_length_le (by omega), List.take_of_length_le (by omega)]
    exact first.perm.trans second.perm.symm

section Walk

variable {size : Nat}

theorem visited_perm (fits : TiesFit ranking size rows) (inOrder : IsOrderOf ranking rows order)
    {orders : Nat → List α} (inOrders : ∀ number, IsOrderOf ranking rows (orders number))
    (number : Nat) :
    (visited size orders number).Perm (order.take (number * size)) := by
  induction number with
  | zero => rw [visited, Nat.zero_mul, List.take_zero]
  | succ number ih =>
      have same : (order.take (number * size)).Perm ((orders (number + 1)).take (number * size)) :=
        take_perm_of_fits (fun row mem => fits row mem number) inOrder (inOrders _)
      have same' :
          ((orders (number + 1)).take ((number + 1) * size)).Perm
          (order.take ((number + 1) * size)) :=
        take_perm_of_fits (fun row mem => fits row mem (number + 1)) (inOrders _) inOrder
      rw [visited]
      have here := (ih.trans same).append_right (page size (number + 1) (orders (number + 1)))
      rw [take_append_page] at here
      exact here.trans same'

/-- One order on every page is read from its front to its end. -/
theorem visited_const (size : Nat) (order : List α) (number : Nat) :
    visited size (fun _ => order) number = order.take (number * size) := by
  induction number with
  | zero => rw [visited, Nat.zero_mul, List.take_zero]
  | succ number ih => rw [visited, ih, take_append_page]

theorem visited_congr {orders other : Nat → List α} {number : Nat}
    (same : ∀ number' ≤ number, orders number' = other number') :
    visited size orders number = visited size other number := by
  induction number with
  | zero => rfl
  | succ number ih =>
      rw [visited, visited, ih fun number' le => same number' (Nat.le_succ_of_le le),
        same _ (Nat.le_refl _)]

/-- An order up to a page, and another one from there on. -/
def switch (order other : List α) (number number' : Nat) :
    List α := if number' ≤ number then order else other

theorem visited_switch (size : Nat) (order other : List α) (number later : Nat) :
    visited size (switch order other number) (number + later) =
      order.take (number * size) ++ (other.drop (number * size)).take (later * size) := by
  induction later with
  | zero =>
      have same : ∀ number' ≤ number, switch order other number number' = order :=
        fun _ le => if_pos le
      rw [Nat.add_zero, visited_congr same, visited_const, Nat.zero_mul, List.take_zero,
        List.append_nil]
  | succ later ih =>
      have shown : switch order other number (number + later + 1) = other := if_neg (by omega)
      have place : (number + later) * size = number * size + later * size := Nat.add_mul _ _ _
      rw [← Nat.add_assoc, visited, ih, shown, List.append_assoc, page, Nat.add_sub_cancel, place,
        ← List.drop_drop, ← List.take_add, Nat.succ_mul]

theorem visited_eq_flatMap (size : Nat) (orders : Nat → List α) (number : Nat) :
    visited size orders number =
      (List.range number).flatMap fun earlier =>
        page size (earlier + 1) (orders (earlier + 1)) := by
  induction number with
  | zero => rfl
  | succ number ih => rw [visited, ih, List.range_succ, List.flatMap_append, List.flatMap_singleton]

theorem mem_visited {orders : Nat → List α} {number : Nat} {row : α} :
    row ∈ visited size orders number ↔
    ∃ earlier < number, row ∈ page size (earlier + 1) (orders (earlier + 1)) := by
  rw [visited_eq_flatMap, List.mem_flatMap]
  simp only [List.mem_range]

theorem mem_of_mem_page {number : Nat} {row : α} (mem : row ∈ page size number order) :
    row ∈ order :=
  List.mem_of_mem_drop (List.mem_of_mem_take mem)

/-- A listing without rows has a first page all the same. -/
theorem visited_max_one (positive : 0 < size) {orders : Nat → List α}
    (inOrders : ∀ number, IsOrderOf ranking rows (orders number)) :
    visited size orders (max 1 (pageCount size rows.length)) = visited size orders
      (pageCount size rows.length) := by
  have enough := le_pageCount_mul positive rows.length
  cases count : pageCount size rows.length with
  | zero =>
      have none : rows = [] := List.eq_nil_of_length_eq_zero (by rw [count] at enough; omega)
      have nothing : orders 1 = [] := List.Perm.eq_nil (none ▸ (inOrders 1).perm)
      rw [Nat.max_eq_left (Nat.zero_le 1), visited, visited, page, nothing, List.drop_nil,
        List.take_nil]
      rfl
  | succ pages => rw [Nat.max_eq_right (by omega)]

/-- A tie across a cut: the rows on both sides of it may change places. -/
theorem exists_swap {cut : Nat} {row : α} (inOrder : IsOrderOf ranking rows order)
    (earlier : rows.countP (ranking.before · row) < cut)
    (later : cut < rows.countP (ranking.le · row)) :
    ∃ front first second back, order = front ++ first :: second :: back ∧ front.length + 1 = cut ∧
      IsOrderOf ranking rows (front ++ second :: first :: back) := by
  rw [← inOrder.perm.countP_eq] at earlier later
  have inside : cut < order.length := Nat.lt_of_lt_of_le later List.countP_le_length
  rcases split : order.drop (cut - 1) with _ | ⟨first, _ | ⟨second, back⟩⟩
  · rw [List.drop_eq_nil_iff] at split
    omega
  · have length := congrArg List.length split
    rw [List.length_drop, List.length_singleton] at length
    omega
  · have whole : order = order.take (cut - 1) ++ first :: second :: back := by
      rw [← split, List.take_append_drop]
    have count : (order.take (cut - 1)).length = cut - 1 := by
      rw [List.length_take]
      omega
    rcases front_of_closed (before_closed row) inOrder.sorted with ⟨-, notBefore⟩
    have closed (first second : α) (le : ranking.le first second = true)
        (le' : ranking.le second row = true) :
        ranking.le first row = true := ranking.trans _ _ _ le le'
    rcases front_of_closed closed inOrder.sorted with ⟨atMost, -⟩
    have ties : ∀ tied ∈ [first, second], ranking.le tied row = true ∧
        ranking.le row tied = true := by
      intro tied mem
      constructor
      · apply atMost
        have front : order.take (cut + 1) = order.take (cut - 1) ++ [first, second] := by
          have places : cut + 1 = cut - 1 + 2 := by omega
          rw [places, List.take_add, split]
          rfl
        exact List.take_subset_take_left order later (front ▸ List.mem_append_right _ mem)
      · have tiedMem : tied ∈ order.drop (cut - 1) := by
          rw [split]
          rcases List.mem_cons.mp mem with rfl | mem
          · exact List.mem_cons_self
          · rw [List.mem_singleton.mp mem]
            exact List.mem_cons_of_mem _ List.mem_cons_self
        have here := notBefore tied (List.drop_subset_drop_left order (by omega) tiedMem)
        simpa [Ranking.before] using here
    have swapped : (order.take (cut - 1) ++ second :: first :: back).Perm order := by
      conv_rhs => rw [whole]
      exact (List.Perm.swap first second back).append_left _
    refine ⟨order.take (cut - 1), first, second, back, whole, by
      omega, swapped.trans inOrder.perm, ?_⟩
    have sorted := inOrder.sorted
    rw [whole] at sorted
    rcases List.pairwise_append.mp sorted with ⟨front, rest, across⟩
    rcases List.pairwise_cons.mp rest with ⟨firstLe, rest⟩
    rcases List.pairwise_cons.mp rest with ⟨secondLe, rest⟩
    have back_le : ranking.le second first = true :=
      ranking.trans _ _ _ (ties second (by simp)).1 (ties first (by simp)).2
    refine List.pairwise_append.mpr ⟨front, ?_, ?_⟩
    · refine List.pairwise_cons.mpr ⟨?_, List.pairwise_cons.mpr ⟨?_, rest⟩⟩
      · exact List.forall_mem_cons.mpr ⟨back_le, secondLe⟩
      · intro last mem
        exact firstLe last (List.mem_cons_of_mem _ mem)
    · intro row rowMem last mem
      exact across row rowMem last ((List.Perm.swap first second back).subset mem)

/-- All orders together show every row once exactly when no tie stands across the end of a page. -/
theorem visited_perm_iff (positive : 0 < size) (nodup : rows.Nodup) :
    (∀ orders : Nat → List α, (∀ number, IsOrderOf ranking rows (orders number)) →
      (visited size orders (pageCount size rows.length)).Perm rows) ↔
        TiesFit ranking size rows := by
  have inOrder := ranking.isOrderOf_mergeSort rows
  generalize rows.mergeSort ranking.le = order at inOrder
  have enough := le_pageCount_mul positive rows.length
  constructor
  · intro all row mem number ⟨earlier, later⟩
    rcases exists_swap inOrder earlier later with ⟨front, first, second, back, whole, cut, swapped⟩
    have inside : number * size < rows.length := Nat.lt_of_lt_of_le later List.countP_le_length
    have numberLt : number < pageCount size rows.length :=
      Nat.lt_of_mul_lt_mul_right (Nat.lt_of_lt_of_le inside enough)
    rcases Nat.exists_eq_add_of_lt numberLt with ⟨rest, pages⟩
    have shown := all (switch order (front ++ second :: first :: back) number) fun number' => by
      unfold switch
      split
      · exact inOrder
      · exact swapped
    rw [pages, Nat.add_assoc, visited_switch, ← cut, whole] at shown
    have once := shown.nodup_iff.mpr nodup
    have before : first ∈ (front ++ first :: second :: back).take (front.length + 1) := by
      rw [List.take_length_add_append]
      exact List.mem_append_right _ List.mem_cons_self
    have again :
        first ∈ ((front ++ second :: first :: back).drop (front.length + 1)).take
          ((rest + 1) * size) := by
      rw [List.drop_length_add_append, List.drop_succ_cons, List.drop_zero]
      rcases Nat.exists_eq_succ_of_ne_zero
        (Nat.ne_of_gt (Nat.mul_pos (Nat.succ_pos rest) positive)) with ⟨count, some⟩
      rw [some, List.take_succ_cons]
      exact List.mem_cons_self
    exact List.disjoint_of_nodup_append once before again
  · intro fits orders inOrders
    have shown := visited_perm fits inOrder inOrders (pageCount size rows.length)
    rw [List.take_of_length_le (inOrder.perm.length_eq ▸ enough)] at shown
    exact shown.trans inOrder.perm

theorem IsOrderOf.unique {other : List α}
    (antisymm : ∀ first ∈ rows, ∀ second ∈ rows, ranking.le first second = true →
      ranking.le second first = true →
      first = second) (inOrder : IsOrderOf ranking rows order)
    (inOrder' : IsOrderOf ranking rows other) :
    order = other := by
  refine List.Perm.eq_of_pairwise ?_ inOrder.sorted inOrder'.sorted
    (inOrder.perm.trans inOrder'.perm.symm)
  intro first second mem mem' le le'
  exact antisymm first (inOrder.perm.subset mem) second (inOrder'.perm.subset mem') le le'

/-- Without ties the pages show the rows in their one order. -/
theorem visited_eq (positive : 0 < size)
    (antisymm : ∀ first ∈ rows, ∀ second ∈ rows, ranking.le first second = true →
      ranking.le second first = true →
      first = second) (inOrder : IsOrderOf ranking rows order) {orders : Nat → List α}
    (inOrders : ∀ number, IsOrderOf ranking rows (orders number)) :
    visited size orders (pageCount size rows.length) = order := by
  have same : orders = fun _ => order :=
    funext fun number => (inOrders number).unique antisymm inOrder
  rw [same, visited_const, List.take_of_length_le]
  rw [inOrder.perm.length_eq]
  exact le_pageCount_mul positive rows.length

end Walk

end Paging
