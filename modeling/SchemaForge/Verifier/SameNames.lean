import SchemaForge.Generator
import SchemaForge.Verifier.Valid

/-!
# Names that several elements go by

The check for duplicates files the elements under their names, in lower case and
without the white space around them. Its groups are the classes of names that are
equal so, and without a group the names that the generator quotes are distinct.
-/

namespace SchemaForge.Verifier

section Groups

variable {α : Type}

theorem map_fst_addToGroup (key : Str) (item : α) (groups : List (Str × List α)) :
    (addToGroup key item groups).map Prod.fst =
      if key ∈ groups.map Prod.fst then groups.map Prod.fst else groups.map Prod.fst ++ [key] := by
  induction groups with
  | nil => rfl
  | cons group groups ih =>
      rcases group with ⟨existing, members⟩
      by_cases here : existing = key
      · simp [addToGroup, here]
      · have other : key ≠ existing := Ne.symm here
        simp only [addToGroup, if_neg here, List.map_cons, ih, List.mem_cons, other, false_or]
        split
        · rfl
        · rfl

variable [Unicode]

theorem nodup_keys (items : List α) (name : α → Str) :
    ((nameGroups items name).map Prod.fst).Nodup := by
  have step (groups : List (Str × List α)) (nodup : (groups.map Prod.fst).Nodup) :
      ((items.foldl (fun groups item =>
        let key := Str.toLowercase (Str.trim (name item))
        if key.isEmpty then groups else addToGroup key item groups) groups).map Prod.fst).Nodup :=
          by
    induction items generalizing groups with
    | nil => exact nodup
    | cons item items ih =>
        rw [List.foldl_cons]
        apply ih
        dsimp only
        split
        · exact nodup
        · rw [map_fst_addToGroup]
          split
          · exact nodup
          · rename_i new
            exact List.nodup_append.mpr ⟨nodup, List.nodup_singleton _, by
              intro key mem other otherMem same
              rw [List.mem_singleton.mp otherMem] at same
              exact new (same ▸ mem)⟩
  exact step [] .nil

omit [Unicode] in
theorem groupOf_eq_iff {groups : List (Str × List α)}
    (nodup : (groups.map Prod.fst).Nodup) {key : Str} {members : List α} (nonempty : members ≠ []) :
    (key, members) ∈ groups ↔ groupOf key groups = members := by
  induction groups with
  | nil =>
      constructor
      · intro mem
        cases mem
      · intro same
        exact absurd same.symm nonempty
  | cons group groups ih =>
      rcases group with ⟨existing, others⟩
      rw [List.map_cons, List.nodup_cons] at nodup
      rw [groupOf, List.mem_cons, Prod.mk.injEq, ih nodup.2]
      by_cases here : existing = key
      · subst here
        rw [if_pos rfl]
        constructor
        · rintro (same | same)
          · exact same.2.symm
          · have mem := (ih nodup.2).mpr same
            exact absurd (List.mem_map_of_mem mem) nodup.1
        · intro same
          exact .inl ⟨rfl, same.symm⟩
      · rw [if_neg here]
        constructor
        · rintro (same | same)
          · exact absurd same.1.symm here
          · exact same
        · exact .inr

theorem groupOf_nil (items : List α) (name : α → Str) :
    groupOf [] (nameGroups items name) = [] := by
  have step (groups : List (Str × List α)) (empty : groupOf [] groups = []) :
      groupOf [] (items.foldl (fun groups item =>
        let key := Str.toLowercase (Str.trim (name item))
        if key.isEmpty then groups else addToGroup key item groups) groups) = [] := by
    induction items generalizing groups with
    | nil => exact empty
    | cons item items ih =>
        rw [List.foldl_cons]
        apply ih
        dsimp only
        split
        · exact empty
        · rename_i named
          rw [groupOf_addToGroup, if_neg, empty]
          intro blank
          exact named (List.isEmpty_iff.mpr blank.symm)
  exact step [] rfl

theorem mem_nameGroups {items : List α} {name : α → Str} {key : Str} {members : List α}
    (nonempty : members ≠ []) : (key, members) ∈ nameGroups items name ↔
      key ≠ [] ∧ (items.filter fun item => nameKey (name item) = key) = members := by
  rw [groupOf_eq_iff (nodup_keys items name) nonempty]
  by_cases blank : key = []
  · subst blank
    rw [groupOf_nil]
    constructor
    · intro same
      exact absurd same.symm nonempty
    · rintro ⟨named, -⟩
      exact absurd rfl named
  · have group : groupOf key (nameGroups items name) = items.filter fun item =>
        nameKey (name item) = key :=
      groupOf_foldl blank items name []
    rw [group]
    exact ⟨fun same => ⟨blank, same⟩, fun both => both.2⟩

/-- The place of the first item whose name has the key. -/
def firstPlace (items : List α) (name : α → Str) (key : Str) : Nat :=
  items.findIdx fun item => nameKey (name item) = key

/-- What one more item does to the groups. -/
theorem nameGroups_append_singleton (items : List α) (item : α) (name : α → Str) :
    nameGroups (items ++ [item]) name =
      if nameKey (name item) = [] then nameGroups items name
      else addToGroup (nameKey (name item)) item (nameGroups items name) := by
  rw [nameGroups, List.foldl_append, List.foldl_cons, List.foldl_nil]
  change (if (nameKey (name item)).isEmpty then nameGroups items name
    else addToGroup (nameKey (name item)) item (nameGroups items name)) = _
  by_cases blank : nameKey (name item) = []
  · rw [if_pos (List.isEmpty_iff.mpr blank), if_pos blank]
  · rw [if_neg (blank ∘ List.isEmpty_iff.mp), if_neg blank]

theorem mem_keys_nameGroups {items : List α} {name : α → Str} {key : Str} :
    key ∈ (nameGroups items name).map Prod.fst ↔ key ≠ [] ∧ ∃ item ∈ items,
    nameKey (name item) = key := by
  induction items using List.reverseRecOn with
  | nil => simp [nameGroups]
  | append_singleton items item ih =>
      have split : (∃ other ∈ items ++ [item], nameKey (name other) = key) ↔
          (∃ other ∈ items, nameKey (name other) = key) ∨ nameKey (name item) = key := by
        simp [or_and_right, exists_or]
      rw [nameGroups_append_singleton, split]
      by_cases blank : nameKey (name item) = []
      · rw [if_pos blank, ih]
        constructor
        · rintro ⟨named, found⟩
          exact ⟨named, .inl found⟩
        · rintro ⟨named, found | same⟩
          · exact ⟨named, found⟩
          · exact absurd (same ▸ blank) named
      · rw [if_neg blank, map_fst_addToGroup]
        have here : key = nameKey (name item) → key ≠ [] := fun same => same ▸ blank
        split
        · rename_i known
          rw [ih]
          constructor
          · rintro ⟨named, found⟩
            exact ⟨named, .inl found⟩
          · rintro ⟨named, found | same⟩
            · exact ⟨named, found⟩
            · exact ih.mp (same ▸ known)
        · rw [List.mem_append, List.mem_singleton, ih]
          constructor
          · rintro (⟨named, found⟩ | same)
            · exact ⟨named, .inl found⟩
            · exact ⟨here same, .inr same.symm⟩
          · rintro ⟨named, found | same⟩
            · exact .inl ⟨named, found⟩
            · exact .inr same.symm

/-- A place that is there already stays. -/
theorem firstPlace_append {items : List α} {name : α → Str} {key : Str} (more : List α)
    (found : ∃ item ∈ items, nameKey (name item) = key) :
    firstPlace (items ++ more) name key = firstPlace items name key ∧
      firstPlace items name key < items.length := by
  rcases found with ⟨item, mem, same⟩
  have bound : firstPlace items name key < items.length :=
    List.findIdx_lt_length_of_exists ⟨item, mem, decide_eq_true same⟩
  refine ⟨?_, bound⟩
  unfold firstPlace at bound ⊢
  rw [List.findIdx_append, if_pos bound]

/-- The groups are opened in the order of their first members. -/
theorem ordered_keys (items : List α) (name : α → Str) :
    ((nameGroups items name).map Prod.fst).Pairwise fun key other =>
      firstPlace items name key < firstPlace items name other := by
  induction items using List.reverseRecOn with
  | nil => exact .nil
  | append_singleton items item ih =>
      have kept : ((nameGroups items name).map Prod.fst).Pairwise fun key other =>
          firstPlace (items ++ [item]) name key < firstPlace (items ++ [item]) name other := by
        refine ih.imp_of_mem ?_
        intro key other mem otherMem before
        rw [(firstPlace_append [item] (mem_keys_nameGroups.mp mem).2).1,
          (firstPlace_append [item] (mem_keys_nameGroups.mp otherMem).2).1]
        exact before
      rw [nameGroups_append_singleton]
      split
      · exact kept
      · rw [map_fst_addToGroup]
        split
        · exact kept
        · rename_i named unknown
          rw [List.pairwise_append]
          refine ⟨kept, List.pairwise_singleton _ _, ?_⟩
          intro key mem other otherMem
          rw [List.mem_singleton.mp otherMem]
          rcases firstPlace_append [item] (mem_keys_nameGroups.mp mem).2 with ⟨same, bound⟩
          have absent : ∀ other ∈ items,
              ¬ decide (nameKey (name other) = nameKey (name item)) = true := by
            intro other otherMem alike
            exact unknown
              (mem_keys_nameGroups.mpr ⟨named, other, otherMem, of_decide_eq_true alike⟩)
          have last : items.length ≤ firstPlace (items ++ [item]) name (nameKey (name item)) := by
            rw [firstPlace, List.findIdx_append, if_neg]
            · exact Nat.le_add_left _ _
            · rw [Nat.not_lt, List.findIdx_eq_length_of_false]
              intro other otherMem
              exact Bool.eq_false_iff.mpr (absent other otherMem)
          rw [same]
          exact Nat.lt_of_lt_of_le bound last

/--
The groups are the classes of two or more items with one key, in the order of their first members.
-/
structure AreSameNameGroups (items : List α) (name : α → Str) (groups : List (List α)) : Prop where
  mem_iff : ∀ group, group ∈ groups ↔
    1 < group.length ∧ ∃ key, key ≠ [] ∧ group = items.filter fun item => nameKey (name item) = key
  once : ∀ item ∈ items, nameKey (name item) ≠ [] →
    1 < (items.filter fun other => nameKey (name other) = nameKey (name item)).length →
      ∃! place : Fin groups.length, item ∈ groups.get place
  ordered : groups.Pairwise fun group later => ∀ item ∈ group, ∀ other ∈ later,
    firstPlace items name (nameKey (name item)) < firstPlace items name (nameKey (name other))

theorem mem_sameNameGroups {items : List α} {name : α → Str} {group : List α} :
    group ∈ sameNameGroups items name ↔
      1 < group.length ∧ ∃ key, key ≠ [] ∧ group = items.filter fun item =>
        nameKey (name item) = key := by
  rw [sameNameGroups, List.mem_filter, decide_eq_true_eq, and_comm]
  refine and_congr_right ?_
  intro long
  have nonempty : group ≠ [] := List.ne_nil_of_length_pos (Nat.zero_lt_of_lt long)
  constructor
  · intro mem
    rcases List.mem_map.mp mem with ⟨⟨key, members⟩, found, rfl⟩
    rcases (mem_nameGroups nonempty).mp found with ⟨named, same⟩
    exact ⟨key, named, same.symm⟩
  · rintro ⟨key, named, same⟩
    exact List.mem_map.mpr ⟨(key, group), (mem_nameGroups nonempty).mpr ⟨named, same.symm⟩, rfl⟩

theorem ordered_sameNameGroups (items : List α) (name : α → Str) :
    (sameNameGroups items name).Pairwise fun group later => ∀ item ∈ group, ∀ other ∈ later,
      firstPlace items name (nameKey (name item)) < firstPlace items name
        (nameKey (name other)) := by
  have ordered := ordered_keys items name
  rw [List.pairwise_map] at ordered
  have large := ordered.filter fun group => decide (1 < group.2.length)
  rw [sameNameGroups, List.filter_map, List.pairwise_map]
  refine large.imp_of_mem ?_
  intro first second mem mem' before item itemMem other otherMem
  have keyed {group : Str × List α}
      (mem : group ∈ (nameGroups items name).filter fun group => decide (1 < group.2.length))
      {item : α} (itemMem : item ∈ group.2) : nameKey (name item) = group.1 := by
    have nonempty : group.2 ≠ [] := List.ne_nil_of_mem itemMem
    rcases (mem_nameGroups nonempty).mp (List.mem_of_mem_filter mem) with ⟨-, same⟩
    rw [← same] at itemMem
    exact of_decide_eq_true (List.mem_filter.mp itemMem).2
  rw [keyed mem itemMem, keyed mem' otherMem]
  exact before

theorem areSameNameGroups (items : List α) (name : α → Str) :
    AreSameNameGroups items name (sameNameGroups items name) where
  mem_iff _ := mem_sameNameGroups
  once := by
    intro item mem named long
    have grouped := mem_sameNameGroups.mpr ⟨long, _, named, rfl⟩
    rcases List.get_of_mem grouped with ⟨place, found⟩
    refine ⟨place, ?_, ?_⟩
    · change item ∈ (sameNameGroups items name).get place
      rw [found]
      exact List.mem_filter.mpr ⟨mem, decide_eq_true rfl⟩
    · intro other otherMem
      have ordered := List.pairwise_iff_get.mp (ordered_sameNameGroups items name)
      have here : item ∈ (sameNameGroups items name).get place := by
        rw [found]
        exact List.mem_filter.mpr ⟨mem, decide_eq_true rfl⟩
      rcases lt_trichotomy other place with before | same | after
      · exact absurd (ordered other place before item otherMem item here) (Nat.lt_irrefl _)
      · exact same
      · exact absurd (ordered place other after item here item otherMem) (Nat.lt_irrefl _)
  ordered := ordered_sameNameGroups items name

/-- Items without a name are in nobody's group. -/
theorem sameNameGroups_filter (items : List α) (name : α → Str) :
    sameNameGroups (items.filter fun item => !(Str.trim (name item)).isEmpty) name =
      sameNameGroups items name := by
  have filed : nameGroups (items.filter fun item => !(Str.trim (name item)).isEmpty) name =
      nameGroups items name := by
    rw [nameGroups, nameGroups, List.foldl_filter]
    congr 1
    funext groups item
    cases blank : Str.trim (name item) with
    | nil => rfl
    | cons c rest => rfl
  rw [sameNameGroups, sameNameGroups, filed]

end Groups

section Duplicates

variable [Unicode] {schema : Schema}

omit [Unicode] in
theorem code_foldl_about {α : Type} (items : List α) (id : α → Str) (diagnostic : Diagnostic) :
    (items.foldl (fun diagnostic item => diagnostic.about (id item)) diagnostic).code =
      diagnostic.code := by
  induction items generalizing diagnostic with
  | nil => rfl
  | cons item items ih => exact ih _

/-- The verifier reports no two tables, and no two columns of one table, under one name. -/
def ReportsNoDuplicate (schema : Schema) : Prop :=
  ∀ diagnostic ∈ (verify schema).diagnostics,
    diagnostic.code ≠ .duplicateEntityName ∧ diagnostic.code ≠ .duplicateAttributeName

instance (schema : Schema) : Decidable (ReportsNoDuplicate schema) :=
  inferInstanceAs (Decidable (∀ diagnostic ∈ (verify schema).diagnostics, _))

theorem sameNameGroups_eq_nil (single : ReportsNoDuplicate schema) :
    sameNameGroups schema.entities Entity.name = [] ∧
      ∀ entity ∈ schema.entities, sameNameGroups entity.attributes Attribute.name = [] := by
  have silent : ∀ diagnostic ∈ checkDuplicateNames schema,
      diagnostic.code ≠ .duplicateEntityName ∧ diagnostic.code ≠ .duplicateAttributeName := by
    intro diagnostic mem
    exact single diagnostic (List.mem_flatMap.mpr ⟨checkDuplicateNames, by simp [checks], mem⟩)
  simp only [checkDuplicateNames, List.forall_mem_append, List.forall_mem_flatMap] at silent
  rcases silent with ⟨tables, columns⟩
  constructor
  · rw [List.eq_nil_iff_forall_not_mem]
    intro group mem
    have here := tables group mem
    cases group with
    | nil => exact absurd (mem_sameNameGroups.mp mem).1 (Nat.not_lt_zero 1)
    | cons first rest => exact (here _ List.mem_cons_self).1 (code_foldl_about _ _ _)
  · intro entity entityMem
    rw [List.eq_nil_iff_forall_not_mem]
    intro group mem
    have here := columns entity entityMem group mem
    cases group with
    | nil => exact absurd (mem_sameNameGroups.mp mem).1 (Nat.not_lt_zero 1)
    | cons first rest => exact (here _ List.mem_cons_self).2 (code_foldl_about _ _ _)

/-- Names that are quoted alike have one key. -/
theorem nameKey_eq_of_quote_eq {left right : Str}
    (same : Generator.quote left = Generator.quote right) :
    nameKey left = nameKey right := by
  have inner : Str.double '"' (Str.trim left) = Str.double '"' (Str.trim right) :=
    List.append_cancel_left (List.append_cancel_right same)
  rw [nameKey, nameKey, Str.double_injective inner]

theorem nodup_quotes {α : Type} {items : List α} {name : α → Str}
    (single : sameNameGroups items name = []) :
    ((items.filter fun item => !(Str.trim (name item)).isEmpty).map fun item =>
      Generator.quote (name item)).Nodup := by
  rw [← sameNameGroups_filter] at single
  have named : ∀ item ∈ items.filter fun item => !(Str.trim (name item)).isEmpty,
      Str.trim (name item) ≠ [] := by
    intro item mem
    simpa using (List.mem_filter.mp mem).2
  have keys := nodup_of_sameNameGroups single named
  rw [List.Nodup, List.pairwise_map] at keys ⊢
  exact keys.imp fun apart same => apart (nameKey_eq_of_quote_eq same)

/-- The names that stand behind `CREATE TABLE` in the script, but for the blank ones. -/
def tableNames (schema : Schema) : List Str :=
  (schema.entities.filter fun entity => !(Str.trim entity.name).isEmpty).map fun entity =>
    Generator.quote entity.name

/-- The names that the lines of a table start with, but for the blank ones. -/
def columnNames (entity : Entity) : List Str :=
  (entity.attributes.filter fun attr => !(Str.trim attr.name).isEmpty).map fun attr =>
    Generator.quote attr.name

/--
Equal names are grouped, and no others; without a group the script names no table and no column
twice.
-/
theorem sameNameGroups_correct {α : Type} (items : List α) (name : α → Str) (schema : Schema) :
    AreSameNameGroups items name (sameNameGroups items name) ∧
      (ReportsNoDuplicate schema →
        (tableNames schema).Nodup ∧ ∀ entity ∈ schema.entities, (columnNames entity).Nodup) := by
  refine ⟨areSameNameGroups items name, ?_⟩
  intro single
  rcases sameNameGroups_eq_nil single with ⟨tables, columns⟩
  exact ⟨nodup_quotes tables, fun entity mem => nodup_quotes (columns entity mem)⟩

end Duplicates

end SchemaForge.Verifier
