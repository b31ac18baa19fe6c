import Mathlib

/-!
# Matching lists

Each item of one list takes the first item of another that fits it and is not
taken yet. When every item finds one and none is left over, the matching is a
bijection between the places of the two lists.
-/

namespace SchemaForge

section MatchUp

variable {α β γ : Type}

/-- What each item of `left` takes of `right`, and the items that nothing took. -/
def matchUp (fits : α → β → Bool) : List α → List β → List (α × Option β) × List β
  | [], right => ([], right)
  | item :: left, right =>
      let (found, rest) := matchUp fits left (right.eraseP (fits item))
      ((item, right.find? (fits item)) :: found, rest)

/-- Nothing went unmatched on either side. -/
def IsComplete (outcome : List (α × Option β) × List β) : Prop :=
  (∀ pair ∈ outcome.1, pair.2.isSome = true) ∧ outcome.2 = []

variable {fits : α → β → Bool}

/-- Lists that fit item by item are matched item by item. -/
theorem matchUp_of_forall₂ {left : List α} {right : List β}
    (fit : List.Forall₂ (fun item other => fits item other = true) left right) :
    matchUp fits left right = ((left.zip right).map fun pair => (pair.1, some pair.2), []) := by
  induction fit with
  | nil => rfl
  | cons head _ rest =>
      simp only [matchUp, List.eraseP_cons_of_pos head, List.find?_cons_of_pos head, rest,
        List.zip_cons_cons, List.map_cons]

/-- A list is matched item by item with an image of it that fits. -/
theorem matchUp_map {left : List α} {image : α → β}
    (fit : ∀ item ∈ left, fits item (image item) = true) :
    matchUp fits left (left.map image) = (left.map fun item => (item, some (image item)), []) := by
  have pairs : left.zip (left.map image) = left.map fun item => (item, image item) := by
    rw [List.zip_map_right, List.zip_eq_zipWith, List.zipWith_self, List.map_map]
    rfl
  have itemwise : List.Forall₂ (fun item other => fits item other = true) left
      (left.map image) := by
    rw [List.forall₂_map_right_iff, List.forall₂_same]
    exact fit
  rw [matchUp_of_forall₂ itemwise, pairs, List.map_map]
  rfl

theorem isComplete_map {left : List α} {image : α → β}
    (fit : ∀ item ∈ left, fits item (image item) = true) :
    IsComplete (matchUp fits left (left.map image)) := by
  rw [matchUp_map fit]
  refine ⟨fun pair mem => ?_, rfl⟩
  obtain ⟨_, -, rfl⟩ := List.mem_map.mp mem
  rfl

theorem eq_of_mem_matchUp_map {left : List α} {image : α → β}
    (fit : ∀ item ∈ left, fits item (image item) = true) {item : α} {other : β}
    (mem : (item, some other) ∈ (matchUp fits left (left.map image)).1) :
    other = image item ∧ item ∈ left := by
  rw [matchUp_map fit] at mem
  obtain ⟨_, found, same⟩ := List.mem_map.mp mem
  simp only [Prod.mk.injEq, Option.some.injEq] at same
  obtain ⟨rfl, rfl⟩ := same
  exact ⟨rfl, found⟩

theorem perm_eraseP {test : β → Bool} {right : List β} {taken : β}
    (found : right.find? test = some taken) : right.Perm (taken :: right.eraseP test) := by
  induction right with
  | nil => contradiction
  | cons item right rest =>
      by_cases accepted : test item = true
      · rw [List.find?_cons_of_pos accepted, Option.some.injEq] at found
        rw [List.eraseP_cons_of_pos accepted, found]
      · rw [List.find?_cons_of_neg accepted] at found
        rw [List.eraseP_cons_of_neg accepted]
        exact ((rest found).cons item).trans (.swap taken item _)

/-- Every item of one list is listed once. -/
theorem map_fst_matchUp (left : List α) (right : List β) :
    (matchUp fits left right).1.map Prod.fst = left := by
  induction left generalizing right with
  | nil => rfl
  | cons item left rest => rw [matchUp, List.map_cons, rest]

/-- Every item of the other is taken once or left over. -/
theorem perm_matchUp (left : List α) (right : List β) :
    ((matchUp fits left right).1.filterMap Prod.snd ++ (matchUp fits left right).2).Perm right := by
  induction left generalizing right with
  | nil => exact .refl right
  | cons item left rest =>
      rw [matchUp, List.filterMap_cons]
      cases found : right.find? (fits item) with
      | none =>
          have kept : right.eraseP (fits item) = right :=
            List.eraseP_of_forall_not fun other mem => List.find?_eq_none.mp found other mem
          simp only [kept]
          exact rest right
      | some taken => exact ((rest _).cons taken).trans (perm_eraseP found).symm

/-- What a complete matching takes, in the order of the items that take it. -/
theorem exists_perm_of_isComplete {left : List α} {right : List β}
    (complete : IsComplete (matchUp fits left right)) :
    ∃ image : List β, image.Perm right ∧
      List.Forall₂ (fun item other => fits item other = true) left image ∧
      (matchUp fits left right).1 = (left.zip image).map fun pair => (pair.1, some pair.2) := by
  induction left generalizing right with
  | nil =>
      obtain ⟨-, empty⟩ := complete
      exact ⟨[], by rw [show right = [] from empty], .nil, rfl⟩
  | cons item left rest =>
      obtain ⟨matched, empty⟩ := complete
      have some_ := matched (item, right.find? (fits item)) (List.mem_cons_self ..)
      obtain ⟨taken, found⟩ : ∃ taken, right.find? (fits item) = some taken :=
        Option.isSome_iff_exists.mp some_
      obtain ⟨image, perm, fit, pairs⟩ :=
        rest ⟨fun pair mem => matched pair (List.mem_cons_of_mem _ mem), empty⟩
      refine ⟨taken :: image, ?_, .cons (List.find?_some found) fit, ?_⟩
      · exact (perm.cons taken).trans (perm_eraseP found).symm
      · change (item, right.find? (fits item)) :: _ = _
        rw [pairs, found]
        rfl

/-- What is matched in a complete matching is of the two lists. -/
theorem mem_of_isComplete {left : List α} {right : List β}
    (complete : IsComplete (matchUp fits left right)) {item : α} {other : β}
    (mem : (item, some other) ∈ (matchUp fits left right).1) : item ∈ left ∧ other ∈ right := by
  obtain ⟨image, perm, -, pairs⟩ := exists_perm_of_isComplete complete
  rw [pairs] at mem
  obtain ⟨⟨first, second⟩, paired, same⟩ := List.mem_map.mp mem
  simp only [Prod.mk.injEq, Option.some.injEq] at same
  obtain ⟨rfl, rfl⟩ := same
  have both := List.of_mem_zip paired
  exact ⟨both.1, perm.subset both.2⟩

/-- What is taken fits. -/
theorem fits_of_mem_matchUp {left : List α} {right : List β} {item : α} {other : β}
    (mem : (item, some other) ∈ (matchUp fits left right).1) : fits item other = true := by
  induction left generalizing right with
  | nil => cases mem
  | cons head left ih =>
      rcases List.mem_cons.mp mem with here | later
      · rcases Prod.mk.inj here with ⟨rfl, found⟩
        exact List.find?_some found.symm
      · exact ih later

/-- Two lists with the same keys, in any order, are matched completely. -/
theorem isComplete_of_perm [DecidableEq γ] {key : α → γ} {other : β → γ}
    (keyed : ∀ item thing, fits item thing = decide (key item = other thing)) {left : List α}
    {right : List β} (perm : (left.map key).Perm (right.map other)) :
    IsComplete (matchUp fits left right) := by
  induction left generalizing right with
  | nil =>
      have empty : right = [] := by simpa using perm.symm.eq_nil
      exact ⟨by simp [matchUp], empty⟩
  | cons item left rest =>
      have mem : key item ∈ right.map other := perm.subset (List.mem_cons_self ..)
      obtain ⟨thing, thingMem, same⟩ := List.mem_map.mp mem
      have some_ : (right.find? (fits item)).isSome = true :=
        List.find?_isSome.mpr ⟨thing, thingMem, by rw [keyed, same, decide_eq_true rfl]⟩
      obtain ⟨taken, found⟩ := Option.isSome_iff_exists.mp some_
      have takenKey : other taken = key item := by
        have fit := List.find?_some found
        rw [keyed, decide_eq_true_eq] at fit
        exact fit.symm
      have remaining : (left.map key).Perm ((right.eraseP (fits item)).map other) := by
        have step := perm.trans ((perm_eraseP found).map other)
        rw [List.map_cons, List.map_cons, takenKey] at step
        exact step.cons_inv
      obtain ⟨matched, empty⟩ := rest remaining
      refine ⟨fun pair mem => ?_, empty⟩
      rcases List.mem_cons.mp mem with rfl | mem
      · exact some_
      · exact matched pair mem

end MatchUp

section Mirror

variable {α β : Type} {fits : α → β → Bool}

/-- The pairs that a matching makes. -/
def paired (outcome : List (α × Option β) × List β) : List (α × β) :=
  outcome.1.filterMap fun pair => pair.2.map (Prod.mk pair.1)

/-- The items that nothing was left for. -/
def unpaired (outcome : List (α × Option β) × List β) : List α :=
  outcome.1.filterMap fun pair => if pair.2.isNone then some pair.1 else none

/-- The same pairs are made both ways, and what finds nothing one way is left over the other. -/
structure Mirrors (outcome : List (α × Option β) × List β)
    (outcome' : List (β × Option α) × List α) :
    Prop where
  paired : ((paired outcome).map Prod.swap).Perm (paired outcome')
  missing : (unpaired outcome).Perm outcome'.2
  extra : outcome.2.Perm (unpaired outcome')

/--
An item at the head of the other list is taken by the first that fits it, and is in nobody's way.
-/
theorem matchUp_flip_cons_of_some {item : α} {left : List α} {right : List β} {taken : β}
    (found : right.find? (fits item) = some taken) :
    (matchUp (flip fits) right (item :: left)).1.Perm
        ((taken, some item) :: (matchUp (flip fits) (right.eraseP (fits item)) left).1) ∧
      (matchUp (flip fits) right (item :: left)).2 =
        (matchUp (flip fits) (right.eraseP (fits item)) left).2 := by
  induction right generalizing left with
  | nil => cases found
  | cons other right ih =>
      by_cases fit : fits item other = true
      · have first : (item :: left).find? (flip fits other) = some item :=
          List.find?_cons_of_pos fit
        have rest : (item :: left).eraseP (flip fits other) = left := List.eraseP_cons_of_pos fit
        rw [List.find?_cons_of_pos fit] at found
        cases found
        rw [List.eraseP_cons_of_pos fit]
        simp only [matchUp, first, rest]
        exact ⟨.refl _, trivial⟩
      · have first : (item :: left).find? (flip fits other) = left.find? (flip fits other) :=
          List.find?_cons_of_neg fit
        have rest : (item :: left).eraseP (flip fits other) =
            item :: left.eraseP (flip fits other) :=
          List.eraseP_cons_of_neg fit
        rw [List.find?_cons_of_neg fit] at found
        rw [List.eraseP_cons_of_neg fit]
        rcases @ih (left.eraseP (flip fits other)) found with ⟨perm, same⟩
        simp only [matchUp, first, rest]
        exact ⟨(perm.cons _).trans (.swap ..), same⟩

theorem matchUp_flip_cons_of_none {item : α} {left : List α} {right : List β}
    (missing : ∀ other ∈ right, ¬ fits item other = true) :
    (matchUp (flip fits) right (item :: left)).1 = (matchUp (flip fits) right left).1 ∧
      (matchUp (flip fits) right (item :: left)).2 =
        item :: (matchUp (flip fits) right left).2 := by
  induction right generalizing left with
  | nil => exact ⟨rfl, rfl⟩
  | cons other right ih =>
      have unfit := missing other List.mem_cons_self
      have first : (item :: left).find? (flip fits other) = left.find? (flip fits other) :=
        List.find?_cons_of_neg unfit
      have rest : (item :: left).eraseP (flip fits other) = item :: left.eraseP (flip fits other) :=
        List.eraseP_cons_of_neg unfit
      rcases @ih (left.eraseP (flip fits other))
        (fun other mem => missing other (List.mem_cons_of_mem _ mem)) with ⟨same, leftOver⟩
      simp only [matchUp, first, rest]
      exact ⟨congrArg _ same, leftOver⟩

/-- Who is matched with whom does not depend on which list chooses. -/
theorem mirrors_matchUp (left : List α) (right : List β) :
    Mirrors (matchUp fits left right) (matchUp (flip fits) right left) := by
  induction left generalizing right with
  | nil =>
      have alone (right : List β) :
          (matchUp (flip fits) right ([] : List α)) =
          (right.map fun other => (other, none), []) := by
        induction right with
        | nil => rfl
        | cons other right ih => rw [matchUp, List.eraseP_nil, ih, List.find?_nil, List.map_cons]
      rw [alone]
      constructor
      · simp [SchemaForge.paired, matchUp]
      · simp [unpaired, matchUp]
      · simp [unpaired, matchUp]
  | cons item left ih =>
      cases found : right.find? (fits item) with
      | some taken =>
          rcases ih (right.eraseP (fits item)) with ⟨paired, missing, extra⟩
          rcases @matchUp_flip_cons_of_some _ _ fits item left right taken found with ⟨perm, same⟩
          rw [matchUp, found]
          constructor
          · have pairs := (perm.filterMap fun pair => pair.2.map (Prod.mk pair.1)).symm
            exact (paired.cons (taken, item)).trans pairs
          · rw [same]
            exact missing
          · have alone :=
              (perm.filterMap fun pair => if pair.2.isNone then some pair.1 else none).symm
            exact extra.trans alone
      | none =>
          have unfit : ∀ other ∈ right, ¬ fits item other = true := List.find?_eq_none.mp found
          rcases ih right with ⟨paired, missing, extra⟩
          rcases @matchUp_flip_cons_of_none _ _ fits item left right unfit with ⟨same, leftOver⟩
          rw [matchUp, found, List.eraseP_of_forall_not unfit]
          constructor
          · rw [SchemaForge.paired, SchemaForge.paired, same]
            exact paired
          · rw [leftOver]
            exact missing.cons item
          · rw [unpaired, same]
            exact extra

theorem Mirrors.isComplete {outcome : List (α × Option β) × List β}
    {outcome' : List (β × Option α) × List α} (mirrors : Mirrors outcome outcome')
    (complete : IsComplete outcome) : IsComplete outcome' := by
  have nobody : unpaired outcome = [] := by
    refine List.filterMap_eq_nil_iff.mpr fun pair mem => ?_
    rw [← Option.not_isSome, complete.1 pair mem]
    rfl
  have nothing : unpaired outcome' = [] := (mirrors.extra.symm.trans (by rw [complete.2])).eq_nil
  refine ⟨fun pair mem => ?_, (mirrors.missing.symm.trans (by rw [nobody])).eq_nil⟩
  have taken := List.filterMap_eq_nil_iff.mp nothing pair mem
  cases found : pair.2 with
  | none => simp [found] at taken
  | some _ => rfl

theorem mem_paired {outcome : List (α × Option β) × List β} {item : α} {other : β} :
    (item, other) ∈ paired outcome ↔ (item, some other) ∈ outcome.1 := by
  simp only [paired, List.mem_filterMap, Option.map_eq_some_iff, Prod.mk.injEq]
  constructor
  · rintro ⟨⟨_, _⟩, mem, _, rfl, rfl, rfl⟩
    exact mem
  · exact fun mem => ⟨_, mem, _, rfl, rfl, rfl⟩

theorem Mirrors.mem {outcome : List (α × Option β) × List β}
    {outcome' : List (β × Option α) × List α} (mirrors : Mirrors outcome outcome') {item : α}
    {other : β} (mem : (other, some item) ∈ outcome'.1) :
    (item, some other) ∈ outcome.1 := by
  rcases List.mem_map.mp (mirrors.paired.symm.subset (mem_paired.mpr mem)) with
    ⟨⟨_, _⟩, found, same⟩
  cases same
  exact mem_paired.mp found

end Mirror

section Compose

variable {α β γ κ : Type} [DecidableEq κ] {first : α → κ} {second : β → κ} {third : γ → κ}

/-- Items fit when they have the same key. -/
abbrev byKey (first : α → κ) (second : β → κ) (item : α) (other : β) : Bool :=
  decide (first item = second other)

theorem find?_eraseP_of_disjoint {test skipped : β → Bool} {items : List β}
    (disjoint : ∀ item, skipped item = true → test item = false) :
    (items.eraseP skipped).find? test = items.find? test := by
  induction items with
  | nil => rfl
  | cons item items ih =>
      by_cases taken : skipped item = true
      · rw [List.eraseP_cons_of_pos taken, List.find?_cons_of_neg (by simp [disjoint item taken])]
      · rw [List.eraseP_cons_of_neg taken, List.find?_cons, List.find?_cons, ih]

/-- The first two of one key are matched with one another, and are in nobody's way. -/
theorem matchUp_byKey_of_some {left : List α} {right : List β} {key : κ} {item : α} {other : β}
    (chooses : left.find? (fun item => decide (key = first item)) = some item)
    (found : right.find? (fun other => decide (key = second other)) = some other) :
    (matchUp (byKey first second) left right).1.Perm ((item, some other) ::
        (matchUp (byKey first second) (left.eraseP fun item => decide (key = first item))
          (right.eraseP fun other => decide (key = second other))).1) ∧
      (matchUp (byKey first second) left right).2 =
        (matchUp (byKey first second) (left.eraseP fun item => decide (key = first item))
          (right.eraseP fun other => decide (key = second other))).2 := by
  induction left generalizing right with
  | nil => cases chooses
  | cons head left ih =>
      by_cases fit : key = first head
      · rw [List.find?_cons_of_pos (by simpa using fit)] at chooses
        cases chooses
        rw [List.eraseP_cons_of_pos (by simpa using fit)]
        subst fit
        rw [matchUp, found]
        exact ⟨.refl _, rfl⟩
      · -- What the head takes has another key, so it is taken before or after as well.
        have apart (other : β) (fits : byKey first second head other = true) :
            decide (key = second other) = false := by
          simp only [decide_eq_true_eq, decide_eq_false_iff_not] at fits ⊢
          exact fun same => fit (same.trans fits.symm)
        have apart' (other : β) (fits : decide (key = second other) = true) :
            byKey first second head other = false := by
          by_contra same
          rw [apart other (by simpa using same)] at fits
          cases fits
        rw [List.find?_cons_of_neg (by simpa using fit)] at chooses
        rw [List.eraseP_cons_of_neg (by simpa using fit), matchUp, matchUp,
          find?_eraseP_of_disjoint apart']
        have rest := @ih (right.eraseP (byKey first second head)) chooses
          ((find?_eraseP_of_disjoint apart).trans found)
        rw [List.eraseP_comm fun other _ => by grind] at rest
        exact ⟨(rest.1.cons _).trans (.swap ..), rest.2⟩

theorem perm_keys_of_isComplete {left : List α} {right : List β}
    (complete : IsComplete (matchUp (byKey first second) left right)) :
    (left.map first).Perm (right.map second) := by
  obtain ⟨image, perm, fit, -⟩ := exists_perm_of_isComplete complete
  have keys : left.map first = image.map second := by
    rw [← List.forall₂_eq_eq_eq, List.forall₂_map_left_iff, List.forall₂_map_right_iff]
    exact fit.imp fun _ _ fits => of_decide_eq_true fits
  rw [keys]
  exact perm.map second

/-- Items that are matched with the same item of a third list are matched with one another. -/
theorem matchUp_byKey_trans {left : List α} {middle : List β} {right : List γ}
    (complete : IsComplete (matchUp (byKey first second) left middle))
    (complete' : IsComplete (matchUp (byKey second third) middle right)) {item : α} {thing : γ}
    (mem : (item, some thing) ∈ (matchUp (byKey first third) left right).1) :
    ∃ other, (item, some other) ∈ (matchUp (byKey first second) left middle).1 ∧
      (other, some thing) ∈ (matchUp (byKey second third) middle right).1 := by
  induction left generalizing middle right with
  | nil => cases mem
  | cons head left ih =>
      rcases complete with ⟨all, empty⟩
      obtain ⟨other, chosen⟩ : ∃ other, middle.find? (byKey first second head) = some other :=
        Option.isSome_iff_exists.mp (all (head, _) List.mem_cons_self)
      have known : first head ∈ right.map third := by
        refine (perm_keys_of_isComplete complete').subset ?_
        have fits : byKey first second head other = true := List.find?_some chosen
        rw [of_decide_eq_true fits]
        exact List.mem_map_of_mem (List.mem_of_find?_eq_some chosen)
      rcases List.mem_map.mp known with ⟨candidate, candidateMem, alike⟩
      have exists_ : (right.find? (byKey first third head)).isSome = true :=
        List.find?_isSome.mpr ⟨candidate, candidateMem, decide_eq_true alike.symm⟩
      rcases Option.isSome_iff_exists.mp exists_ with ⟨answer, found⟩
      rcases @matchUp_byKey_of_some _ _ _ _ second third _ _ _ _ _ chosen found with ⟨perm, same⟩
      rcases List.mem_cons.mp mem with here | later
      · rw [Prod.mk.injEq, found, Option.some.injEq] at here
        rw [here.1, here.2]
        refine ⟨other, ?_, perm.symm.subset List.mem_cons_self⟩
        rw [matchUp, chosen]
        exact List.mem_cons_self
      · rcases ih ⟨fun pair pairMem => all pair (List.mem_cons_of_mem _ pairMem), empty⟩
          ⟨fun pair pairMem => complete'.1 pair (perm.symm.subset (List.mem_cons_of_mem _ pairMem)),
            same.symm.trans complete'.2⟩ later with ⟨between, taken, taken'⟩
        exact ⟨between, List.mem_cons_of_mem _ taken,
          perm.symm.subset (List.mem_cons_of_mem _ taken')⟩

theorem isComplete_byKey_trans {left : List α} {middle : List β} {right : List γ}
    (complete : IsComplete (matchUp (byKey first second) left middle))
    (complete' : IsComplete (matchUp (byKey second third) middle right)) :
    IsComplete (matchUp (byKey first third) left right) :=
  isComplete_of_perm (fun _ _ => rfl)
    ((perm_keys_of_isComplete complete).trans (perm_keys_of_isComplete complete'))

end Compose

section Places

variable {α β : Type}

/-- A permutation of a list moves places. -/
theorem exists_equiv_of_perm {left right : List α} (perm : left.Perm right) :
    ∃ places : Fin left.length ≃ Fin right.length,
      ∀ i, right.get (places i) = left.get i := by
  induction perm with
  | nil => exact ⟨.refl _, fun i => i.elim0⟩
  | @cons item left right _ rest =>
      obtain ⟨places, same⟩ := rest
      refine ⟨(finSuccEquiv left.length).trans
        (places.optionCongr.trans (finSuccEquiv right.length).symm), fun i => ?_⟩
      cases i using Fin.cases with
      | zero => simp
      | succ i => simpa using same i
  | swap first second items =>
      refine ⟨Equiv.swap (0 : Fin (items.length + 2)) 1, fun i => ?_⟩
      cases i using Fin.cases with
      | zero => simp
      | succ i =>
          cases i using Fin.cases with
          | zero => simp
          | succ i =>
              rw [Equiv.swap_apply_of_ne_of_ne (Fin.succ_ne_zero _) (by
                simp [Fin.ext_iff])]
              rfl
  | trans _ _ left right =>
      obtain ⟨places, same⟩ := left
      obtain ⟨more, again⟩ := right
      exact ⟨places.trans more, fun i => (again _).trans (same i)⟩

/-- A bijection of places that keeps a key permutes the keys. -/
theorem perm_map_of_equiv {γ : Type} {left : List α} {right : List β} {key : α → γ} {other : β → γ}
    (places : Fin left.length ≃ Fin right.length)
    (kept : ∀ i, key (left.get i) = other (right.get (places i))) :
    (left.map key).Perm (right.map other) := by
  have listed {δ : Type} (items : List δ) (f : δ → γ) :
      (items.map f : Multiset γ) = Finset.univ.val.map fun i => f (items.get i) := by
    have places := @List.map_ofFn _ _ _ items.get f
    rw [List.ofFn_get] at places
    rw [Fin.univ_val_map, places]
    rfl
  rw [← Multiset.coe_eq_coe, listed, listed, ← Multiset.map_univ_val_equiv places, Multiset.map_map]
  exact Multiset.map_congr rfl fun i _ => kept i

/-- A list related to a permutation of another is related to it by a bijection of places. -/
theorem exists_equiv_of_forall₂ {r : α → β → Prop} {left : List α} {image right : List β}
    (related : List.Forall₂ r left image) (perm : image.Perm right) :
    ∃ places : Fin left.length ≃ Fin right.length,
      ∀ i, r (left.get i) (right.get (places i)) := by
  obtain ⟨places, same⟩ := exists_equiv_of_perm perm
  refine ⟨(finCongr related.length_eq).trans places, fun i => ?_⟩
  rw [Equiv.trans_apply, same]
  exact related.get i.isLt (related.length_eq ▸ i.isLt)

/-- A complete matching relates the items of one list to those of the other, in some order. -/
theorem exists_forall₂_of_isComplete {fits : α → β → Bool} {r : α → β → Prop} {left : List α}
    {right : List β} (complete : IsComplete (matchUp fits left right))
    (related : ∀ item ∈ left, ∀ other ∈ right, fits item other = true →
      (item, some other) ∈ (matchUp fits left right).1 → r item other) :
    ∃ image : List β, image.Perm right ∧ List.Forall₂ r left image := by
  obtain ⟨image, perm, fit, pairs⟩ := exists_perm_of_isComplete complete
  refine ⟨image, perm, List.forall₂_iff_zip.mpr ⟨fit.length_eq, fun {item other} mem => ?_⟩⟩
  refine related item (List.of_mem_zip mem).1 other (perm.subset (List.of_mem_zip mem).2)
    ((List.forall₂_iff_zip.mp fit).2 mem) ?_
  rw [pairs]
  exact List.mem_map.mpr ⟨(item, other), mem, rfl⟩

/-- A complete matching is a bijection of places, and keeps what holds of every matched pair. -/
theorem exists_equiv_of_isComplete {fits : α → β → Bool} {r : α → β → Prop} {left : List α}
    {right : List β} (complete : IsComplete (matchUp fits left right))
    (related : ∀ item other, (item, some other) ∈ (matchUp fits left right).1 → r item other) :
    ∃ places : Fin left.length ≃ Fin right.length, ∀ i,
      fits (left.get i) (right.get (places i)) = true ∧ r (left.get i) (right.get (places i)) := by
  have both : ∃ image : List β, image.Perm right ∧
      List.Forall₂ (fun item other => fits item other = true ∧ r item other) left image :=
    exists_forall₂_of_isComplete complete fun item _ other _ fit mem =>
      ⟨fit, related item other mem⟩
  obtain ⟨image, perm, fit⟩ := both
  exact exists_equiv_of_forall₂ fit perm

end Places

end SchemaForge
