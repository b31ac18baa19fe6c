import Mathlib

/-!
# Lists without duplicates

Operations that go by the place of an element, or that stop at the first element
a test accepts, are maps and lookups by the element itself where elements are
distinct. `updateFirst` changes the first element that a test accepts.
-/

namespace List

variable {α β γ : Type}

/-- Changes the first element that the test accepts. -/
def updateFirst (test : α → Bool) (change : α → α) : List α → List α
  | [] => []
  | item :: items =>
      if test item then change item :: items else item :: updateFirst test change items

/-- Where at most one element is accepted, changing the first changes them all. -/
theorem updateFirst_eq_map {test : α → Bool} {change : α → α} {items : List α}
    (single : items.Pairwise fun left right => ¬(test left = true ∧ test right = true)) :
    items.updateFirst test change = items.map fun item =>
      if test item then change item else item := by
  induction items with
  | nil => rfl
  | cons item items ih =>
      rw [List.pairwise_cons] at single
      rw [updateFirst, List.map_cons]
      split
      · rename_i accepted
        have others : items.map (fun item => if test item then change item else item) = items := by
          refine (List.map_congr_left fun other mem => ?_).trans (List.map_id items)
          rw [if_neg fun alsoAccepted => single.1 other mem ⟨accepted, alsoAccepted⟩, id]
        rw [others]
      · rw [ih single.2]

theorem injective_get_of_nodup_map {key : α → β} {items : List α}
    (distinct : (items.map key).Nodup) {i j : Fin items.length}
    (same : key (items.get i) = key (items.get j)) : i = j := by
  have nodup := List.inj_on_of_nodup_map distinct (List.get_mem ..) (List.get_mem ..) same
  exact (List.Nodup.get_inj_iff (List.Nodup.of_map key distinct)).mp nodup

theorem nodup_map_of_getElem? {key : α → β} {items : List α}
    (apart : ∀ (i j : Nat) (first second : α), items[i]? = some first → items[j]? = some second →
      key first = key second → i = j) : (items.map key).Nodup := by
  rw [List.nodup_iff_injective_get]
  intro m n same
  have bound (k : Fin (items.map key).length) : k.val < items.length := by
    simpa using k.isLt
  apply Fin.ext
  apply apart m n _ _ (List.getElem?_eq_getElem (bound m)) (List.getElem?_eq_getElem (bound n))
  simpa using same

/-- Changing the first accepted element is changing what stands at its place. -/
theorem updateFirst_eq_modify {test : α → Bool} (change : α → α) {items : List α} {index : Nat}
    (found : items.findIdx? test = some index) :
    items.updateFirst test change = items.modify index change := by
  induction items generalizing index with
  | nil => simp at found
  | cons item items ih =>
      rw [List.findIdx?_cons] at found
      rw [updateFirst]
      split at found
      · rename_i accepted
        rcases Option.some.inj found
        rw [if_pos accepted, List.modify_zero_cons]
      · rename_i refused
        rcases Option.map_eq_some_iff.mp found with ⟨later, foundLater, rfl⟩
        rw [if_neg refused, ih foundLater, List.modify_succ_cons]

/-- An item in the place of another makes no difference to a test that takes both for the same. -/
theorem findIdx?_set_of_same {test : α → Bool} {items : List α} {index : Nat} {old new : α}
    (oldAt : items[index]? = some old) (same : test new = test old) :
    (items.set index new).findIdx? test = items.findIdx? test := by
  have lookup (items : List α) : items.findIdx? test = (items.map test).findIdx? id := by
    rw [List.findIdx?_map]
    rfl
  have kept : (items.map test).set index (test old) = items.map test := by
    rcases List.getElem?_eq_some_iff.mp oldAt with ⟨bound, rfl⟩
    rw [← List.map_set, List.set_getElem_self]
  rw [lookup, lookup, List.map_set, same, kept]

theorem fst_eq_snd_of_mem_zip_self {items : List α} {pair : α × α} (mem : pair ∈ items.zip items) :
    pair.1 = pair.2 := by
  rcases List.mem_iff_getElem?.mp mem with ⟨index, found⟩
  rcases List.getElem?_zip_eq_some.mp found with ⟨firstAt, secondAt⟩
  exact Option.some.inj (firstAt.symm.trans secondAt)

/-- Where keys are distinct, the place of a key is the place of its item. -/
theorem findIdx?_key_of_nodup [BEq β] [LawfulBEq β] {key : α → β} {items : List α}
    (distinct : (items.map key).Nodup) {index : Nat} {item : α}
    (found : items[index]? = some item) :
    (items.findIdx? fun other => key other == key item) = some index := by
  rcases List.getElem?_eq_some_iff.mp found with ⟨bound, rfl⟩
  rw [List.findIdx?_eq_some_iff_getElem]
  refine ⟨bound, by simp, ?_⟩
  intro earlier before
  have earlierBound := Nat.lt_trans before bound
  have apart : key (items.get ⟨earlier, earlierBound⟩) ≠ key (items.get ⟨index, bound⟩) := by
    intro same
    have places := injective_get_of_nodup_map distinct same
    simp only [Fin.mk.injEq] at places
    omega
  simpa using apart

/-- Where keys are distinct, an item is found by its key. -/
theorem find?_eq_some_of_nodup [BEq β] [LawfulBEq β] {key : α → β} {items : List α}
    (distinct : (items.map key).Nodup) {item : α} (mem : item ∈ items) :
    (items.find? fun other => key other == key item) = some item := by
  induction items with
  | nil => contradiction
  | cons first items rest =>
      rw [List.map_cons, List.nodup_cons] at distinct
      rcases List.mem_cons.mp mem with rfl | later
      · simp
      · have different : key first ≠ key item := fun same =>
          distinct.1 (same ▸ List.mem_map_of_mem later)
        rw [List.find?_cons_of_neg (by simpa using different), rest distinct.2 later]

/-- An element that a test tells from all others is the one that is found. -/
theorem find?_eq_some_of_unique {test : α → Bool} {items : List α} {item : α} (mem : item ∈ items)
    (accepted : test item = true) (unique : ∀ other ∈ items, test other = true → other = item) :
    items.find? test = some item := by
  have some_ : (items.find? test).isSome = true := List.find?_isSome.mpr ⟨item, mem, accepted⟩
  obtain ⟨found, same⟩ := Option.isSome_iff_exists.mp some_
  rw [same, unique found (List.mem_of_find?_eq_some same) (List.find?_some same)]

section Places

variable [DecidableEq α]

theorem idxOf_eq_of_getElem? {items : List α} (nodup : items.Nodup) {index : Nat} {item : α}
    (found : items[index]? = some item) : items.idxOf item = index := by
  obtain ⟨bound, rfl⟩ := List.getElem?_eq_some_iff.mp found
  exact List.Nodup.idxOf_getElem nodup index bound

theorem findIdx?_eq_some_idxOf {test : α → Bool} {items : List α} {item : α} (mem : item ∈ items)
    (accepted : test item = true) (unique : ∀ other ∈ items, test other = true → other = item) :
    items.findIdx? test = some (items.idxOf item) := by
  rw [List.findIdx?_eq_some_iff_getElem]
  refine ⟨List.idxOf_lt_length_of_mem mem, by rw [List.getElem_idxOf]; exact accepted, ?_⟩
  intro index before alsoAccepted
  have bound := Nat.lt_trans before (List.idxOf_lt_length_of_mem mem)
  have same := unique _ (List.getElem_mem bound) alsoAccepted
  have different : (items[index] == item) = false := List.not_of_lt_findIdx before
  simp [same] at different

/-- Mapping with the place of each element is a map where elements are distinct. -/
theorem mapIdx_eq_map_idxOf {items : List α} (nodup : items.Nodup) (g : α → β) (f : Nat → β → γ) :
    (items.map g).mapIdx f = items.map fun item => f (items.idxOf item) (g item) := by
  apply List.ext_getElem?
  intro index
  rw [List.getElem?_mapIdx, List.getElem?_map, List.getElem?_map]
  cases found : items[index]? with
  | none => rfl
  | some item =>
      rw [Option.map_some, Option.map_some, Option.map_some, idxOf_eq_of_getElem? nodup found]

/-- Changing what stands at the place of an element. -/
theorem modify_idxOf {items : List α} (nodup : items.Nodup) {item : α} (mem : item ∈ items)
    (f : α → β) (change : β → β) :
    (items.map f).modify (items.idxOf item) change =
      items.map fun other => if other = item then change (f other) else f other := by
  apply List.ext_getElem?
  intro index
  rw [List.getElem?_modify, List.getElem?_map, List.getElem?_map]
  cases found : items[index]? with
  | none => simp
  | some other =>
      by_cases here : other = item
      · subst here
        simp [idxOf_eq_of_getElem? nodup found]
      · have elsewhere : items.idxOf item ≠ index := by
          rintro rfl
          rw [List.getElem?_idxOf mem, Option.some.injEq] at found
          exact here found.symm
        simp [here, elsewhere]

end Places

theorem map_mapIdx (f : Nat → α → β) (g : β → γ) (items : List α) :
    (items.mapIdx f).map g = items.mapIdx fun index item => g (f index item) := by
  apply List.ext_getElem?
  intro index
  rw [List.getElem?_map, List.getElem?_mapIdx, List.getElem?_mapIdx, Option.map_map]
  rfl

theorem mapIdx_map (g : α → β) (f : Nat → β → γ) (items : List α) :
    (items.map g).mapIdx f = items.mapIdx fun index item => f index (g item) := by
  induction items generalizing f with
  | nil => rfl
  | cons item items ih => rw [map_cons, mapIdx_cons, mapIdx_cons, ih]

/-- What mapping with places does not change is mapped as before. -/
theorem map_mapIdx_of_same {f : Nat → α → β} {get : β → γ} {get' : α → γ} {items : List α}
    (same : ∀ index item, get (f index item) = get' item) :
    (items.mapIdx f).map get = items.map get' := by
  rw [map_mapIdx]
  apply List.ext_getElem?
  intro index
  rw [List.getElem?_mapIdx, List.getElem?_map]
  exact congrArg (Option.map · items[index]?) (funext (same index))

theorem mapIdx_eq_of_forall₂ {relates : α → β → Prop} {f : Nat → α → γ} {g : Nat → β → γ}
    {left : List α} {right : List β} (related : List.Forall₂ relates left right)
    (same : ∀ index item other, relates item other → f index item = g index other) :
    left.mapIdx f = right.mapIdx g := by
  induction related generalizing f g with
  | nil => rfl
  | cons head _ ih =>
      rw [List.mapIdx_cons, List.mapIdx_cons, same 0 _ _ head,
        ih fun index item other relates => same (index + 1) item other relates]

theorem map_modify_of_kept {change : α → α} {get : α → β}
    (kept : ∀ item, get (change item) = get item) (items : List α) (index : Nat) :
    (items.modify index change).map get = items.map get := by
  apply List.ext_getElem?
  intro other
  rw [List.getElem?_map, List.getElem?_modify, List.getElem?_map]
  cases items[other]? with
  | none => rfl
  | some item =>
      by_cases here : index = other
      · simp [here, kept]
      · simp [here]

theorem map_updateFirst_of_kept {test : α → Bool} {change : α → α} {get : α → β} {items : List α}
    (kept : ∀ item, get (change item) = get item) :
    (items.updateFirst test change).map get = items.map get := by
  induction items with
  | nil => rfl
  | cons item items ih =>
      rw [updateFirst]
      split
      · rw [List.map_cons, List.map_cons, kept]
      · rw [List.map_cons, List.map_cons, ih]

theorem findIdx?_mapIdx_of_same {f : Nat → α → β} {test : β → Bool} {test' : α → Bool}
    {items : List α} (same : ∀ index item, test (f index item) = test' item) :
    (items.mapIdx f).findIdx? test = items.findIdx? test' := by
  have lookup {δ : Type} (check : δ → Bool) (items : List δ) :
      items.findIdx? check = (items.map check).findIdx? id := by
    rw [List.findIdx?_map]
    rfl
  rw [lookup, map_mapIdx_of_same same, ← lookup]

/-- What no step of a fold writes to is kept by the fold. -/
theorem foldl_get_of_kept {step : α → β → α} {get : α → γ} {items : List β}
    (keeps : ∀ state, ∀ item ∈ items, get (step state item) = get state) (state : α) :
    get (items.foldl step state) = get state := by
  induction items generalizing state with
  | nil => rfl
  | cons item items ih =>
      rw [List.foldl_cons, ih fun state item mem => keeps state item (List.mem_cons_of_mem _ mem),
        keeps state item (List.mem_cons_self ..)]

/-- What is written in a fold is the value that every writing step writes. -/
theorem foldl_get_of_written {step : α → β → α} {get : α → γ} {value : γ} {writes : β → Prop}
    {items : List β} (set : ∀ state, ∀ item ∈ items, writes item → get (step state item) = value)
    (keeps : ∀ state, ∀ item ∈ items, ¬writes item → get (step state item) = get state)
    (written : ∃ item ∈ items, writes item) (state : α) : get (items.foldl step state) = value := by
  induction items using List.reverseRecOn with
  | nil => simp at written
  | append_singleton items last ih =>
      have lastMem : last ∈ items ++ [last] := by simp
      rw [List.foldl_append, List.foldl_cons, List.foldl_nil]
      by_cases writesLast : writes last
      · exact set _ last lastMem writesLast
      · rw [keeps _ last lastMem writesLast]
        refine ih (fun state item mem => set state item (List.mem_append_left _ mem))
          (fun state item mem => keeps state item (List.mem_append_left _ mem)) ?_
        obtain ⟨item, mem, itemWrites⟩ := written
        rcases List.mem_append.mp mem with before | here
        · exact ⟨item, before, itemWrites⟩
        · rw [List.mem_singleton.mp here] at itemWrites
          exact absurd itemWrites writesLast

/-- A lookup by a key of which there are no two. -/
theorem find?_key_eq_some [BEq β] [LawfulBEq β] {get : α → β} {items : List α}
    (distinct : (items.map get).Nodup) {key : β} {item : α} :
    (items.find? fun item => get item == key) = some item ↔ item ∈ items ∧ get item = key := by
  constructor
  · intro found
    have same := find?_some found
    exact ⟨mem_of_find?_eq_some found, beq_iff_eq.mp same⟩
  · rintro ⟨mem, rfl⟩
    cases found : items.find? fun other => get other == get item with
    | none => exact absurd (BEq.rfl : get item == get item) (find?_eq_none.mp found item mem)
    | some other =>
        have same := find?_some found
        rw [inj_on_of_nodup_map distinct (mem_of_find?_eq_some found) mem (beq_iff_eq.mp same)]

/-- In an ascending list the element that is found is the least that passes. -/
theorem find?_eq_some_iff_of_pairwise {r : α → α → Prop} [Std.Asymm r] {p : α → Bool} {l : List α}
    (sorted : l.Pairwise r) {a : α} :
    l.find? p = some a ↔ p a = true ∧ a ∈ l ∧ ∀ b ∈ l, r b a → p b = false := by
  induction l with
  | nil => simp
  | cons x rest ih =>
      rcases List.pairwise_cons.mp sorted with ⟨below, sorted⟩
      cases passes : p x with
      | true =>
          rw [List.find?_cons_of_pos passes]
          constructor
          · intro same
            cases same
            refine ⟨passes, List.mem_cons_self, ?_⟩
            intro b mem less
            rcases List.mem_cons.mp mem with rfl | mem
            · exact absurd less (Std.Asymm.asymm _ _ less)
            · exact absurd less (Std.Asymm.asymm _ _ (below b mem))
          · rintro ⟨passesA, mem, least⟩
            rcases List.mem_cons.mp mem with rfl | mem
            · rfl
            · rw [least x List.mem_cons_self (below a mem)] at passes
              cases passes
      | false =>
          have fails : ¬ p x = true := by rw [passes]; exact nofun
          rw [List.find?_cons_of_neg fails, ih sorted]
          refine and_congr_right fun passesA => ?_
          have other : a ≠ x := by
            rintro rfl
            exact fails passesA
          rw [List.mem_cons, or_iff_right other, List.forall_mem_cons]
          exact and_congr_right fun _ => ⟨fun least => ⟨fun _ => passes, least⟩, And.right⟩

theorem length_le_one_iff_of_nodup {l : List α} (nodup : l.Nodup) :
    l.length ≤ 1 ↔ ∀ a ∈ l, ∀ b ∈ l, a = b := by
  rcases l with _ | ⟨x, _ | ⟨y, rest⟩⟩
  · simp
  · simp
  · refine iff_of_false (by simp) ?_
    intro same
    have := same x List.mem_cons_self y (List.mem_cons_of_mem _ List.mem_cons_self)
    subst this
    simp at nodup

theorem map_snd_filterMap_zipIdx (read : α → Option β) (items : List α) (start : Nat) :
    ((items.zipIdx start).filterMap fun one => (read one.1).map (Prod.mk one.2)).map Prod.snd =
      items.filterMap read := by
  induction items generalizing start with
  | nil => rfl
  | cons item items ih =>
      rw [List.zipIdx_cons, List.filterMap_cons, List.filterMap_cons, ← ih (start + 1)]
      cases read item with
      | none => simp only [Option.map_none]
      | some result => simp only [Option.map_some, List.map_cons]

end List
