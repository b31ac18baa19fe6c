import SchemaForge.Exchange.Compare

/-!
# The counts of a comparison

Every table, column and relationship of the two drawings is counted once, on its
own side, and every difference that is listed as missing or extra is counted
under its kind. Precision and recall are ratios of these counts.
-/

namespace SchemaForge

namespace Counts

/-- How many things of the expected drawing were counted. -/
def expected (counts : Counts) : Nat := counts.matched + counts.changed + counts.missing

/-- How many things of the actual drawing were counted. -/
def actual (counts : Counts) : Nat := counts.matched + counts.changed + counts.extra

/-- A number that is read off the counts, and that adds up with them. -/
structure IsAdditive (measure : Counts → Nat) : Prop where
  zero : measure .zero = 0
  add : ∀ left right : Counts, measure (left.add right) = measure left + measure right

theorem isAdditive_matched : IsAdditive matched := ⟨rfl, fun _ _ => rfl⟩

theorem isAdditive_missing : IsAdditive missing := ⟨rfl, fun _ _ => rfl⟩

theorem isAdditive_extra : IsAdditive extra := ⟨rfl, fun _ _ => rfl⟩

theorem isAdditive_changed : IsAdditive changed := ⟨rfl, fun _ _ => rfl⟩

theorem isAdditive_expected : IsAdditive expected := by
  refine ⟨rfl, ?_⟩
  intro left right
  simp only [expected, add]
  omega

theorem isAdditive_actual : IsAdditive actual := by
  refine ⟨rfl, ?_⟩
  intro left right
  simp only [actual, add]
  omega

end Counts

namespace Comparison

open Counts

variable {measure : Counts → Nat}

@[simp]
theorem counts_append (left right : Comparison) (category : Category) :
    (left ++ right).counts category = (left.counts category).add (right.counts category) :=
  rfl

theorem counts_concat (additive : IsAdditive measure) (parts : List Comparison)
    (category : Category) :
    measure ((concat parts).counts category) =
      (parts.map fun part => measure (part.counts category)).sum := by
  induction parts with
  | nil => exact additive.zero
  | cons part parts ih =>
      rw [List.map_cons, List.sum_cons, ← ih, ← additive.add]
      rfl

@[simp]
theorem counts_matched_self (category : Category) :
    (matched category).counts category = ⟨1, 0, 0, 0⟩ :=
  if_pos rfl

@[simp]
theorem counts_record_self (category : Category) (difference : Difference) :
    (record category difference).counts category = .count difference.kind :=
  if_pos rfl

theorem counts_settle_self (category : Category) (fields : List (Option Difference)) :
    (settle category fields).counts category = ⟨1, 0, 0, 0⟩ ∨
      (settle category fields).counts category = ⟨0, 0, 0, 1⟩ := by
  unfold settle
  split
  · left
    apply counts_matched_self
  · right
    apply if_pos rfl

/-- Nothing is counted but in the listed categories. -/
def CountsOnly (categories : List Category) (comparison : Comparison) : Prop :=
  ∀ category, category ∉ categories → comparison.counts category = .zero

namespace CountsOnly

variable {categories others : List Category} {left right : Comparison}

theorem mono (only : left.CountsOnly categories) (subset : categories ⊆ others) :
    left.CountsOnly others :=
  fun category elsewhere => only category fun mem => elsewhere (subset mem)

theorem append (only : left.CountsOnly categories) (only' : right.CountsOnly categories) :
    (left ++ right).CountsOnly categories := by
  intro category elsewhere
  rw [counts_append, only category elsewhere, only' category elsewhere]
  rfl

theorem concat {parts : List Comparison} (only : ∀ part ∈ parts, part.CountsOnly categories) :
    (concat parts).CountsOnly categories := by
  induction parts with
  | nil =>
      intro category elsewhere
      rfl
  | cons part parts ih =>
      apply append
      · exact only part List.mem_cons_self
      · apply ih
        intro other mem
        exact only other (List.mem_cons_of_mem part mem)

theorem empty : Comparison.empty.CountsOnly categories := fun _ _ => rfl

theorem matched (category : Category) : (matched category).CountsOnly [category] := by
  intro other elsewhere
  apply if_neg
  simpa using elsewhere

theorem record (category : Category) (difference : Difference) :
    (record category difference).CountsOnly [category] := by
  intro other elsewhere
  apply if_neg
  simpa using elsewhere

theorem settle (category : Category) (fields : List (Option Difference)) :
    (settle category fields).CountsOnly [category] := by
  intro other elsewhere
  unfold Comparison.settle
  split
  · apply CountsOnly.matched category other elsewhere
  · apply if_neg
    simpa using elsewhere

end CountsOnly

/-- How many differences of the kind are listed. -/
def numberOf (kind : DifferenceKind) (comparison : Comparison) : Nat :=
  comparison.differences.countP fun difference => difference.kind = kind

/-- A number added up over all categories. -/
def total (measure : Counts → Nat) (comparison : Comparison) : Nat :=
  (Category.variants.map fun category => measure (comparison.counts category)).sum

/-- What is listed as missing or extra is what is counted so. -/
structure IsBalanced (comparison : Comparison) : Prop where
  missing : comparison.numberOf .missing = comparison.total Counts.missing
  extra : comparison.numberOf .extra = comparison.total Counts.extra

theorem numberOf_append (kind : DifferenceKind) (left right : Comparison) :
    (left ++ right).numberOf kind = left.numberOf kind + right.numberOf kind := by
  rw [numberOf, differences_append, List.countP_append]
  rfl

theorem total_append (additive : IsAdditive measure) (left right : Comparison) :
    (left ++ right).total measure = left.total measure + right.total measure := by
  simp only [total, counts_append, additive.add]
  exact List.sum_map_add

theorem total_of_countsOnly (additive : IsAdditive measure) {category : Category}
    {comparison : Comparison} (only : comparison.CountsOnly [category]) :
    comparison.total measure = measure (comparison.counts category) := by
  have elsewhere : ∀ other, other ≠ category → measure (comparison.counts other) = 0 := by
    intro other apart
    rw [only other (by simpa using apart)]
    exact additive.zero
  have single : ∀ categories : List Category, categories.Nodup → category ∈ categories →
      (categories.map fun other => measure (comparison.counts other)).sum =
        measure (comparison.counts category) := by
    intro categories nodup mem
    rw [List.sum_map_eq_nsmul_single category _ fun other apart _ => elsewhere other apart,
      List.count_eq_one_of_mem nodup mem, one_nsmul]
  exact single Category.variants (by decide) (Category.mem_variants category)

namespace IsBalanced

variable {left right : Comparison}

theorem append (balanced : left.IsBalanced) (balanced' : right.IsBalanced) :
    (left ++ right).IsBalanced where
  missing := by
    rw [numberOf_append, total_append isAdditive_missing, balanced.missing, balanced'.missing]
  extra := by rw [numberOf_append, total_append isAdditive_extra, balanced.extra, balanced'.extra]

theorem empty : Comparison.empty.IsBalanced := ⟨rfl, rfl⟩

theorem concat {parts : List Comparison} (balanced : ∀ part ∈ parts, part.IsBalanced) :
    (concat parts).IsBalanced := by
  induction parts with
  | nil => exact empty
  | cons part parts ih =>
      apply append
      · exact balanced part List.mem_cons_self
      · apply ih
        intro other mem
        exact balanced other (List.mem_cons_of_mem part mem)

theorem record (category : Category) (difference : Difference) :
    (record category difference).IsBalanced := by
  constructor
  · rw [total_of_countsOnly isAdditive_missing (.record category difference), counts_record_self]
    cases kind : difference.kind <;> simp [numberOf, kind, count]
  · rw [total_of_countsOnly isAdditive_extra (.record category difference), counts_record_self]
    cases kind : difference.kind <;> simp [numberOf, kind, count]

theorem matched (category : Category) : (matched category).IsBalanced := by
  constructor
  · rw [total_of_countsOnly isAdditive_missing (.matched category), counts_matched_self]
    rfl
  · rw [total_of_countsOnly isAdditive_extra (.matched category), counts_matched_self]
    rfl

theorem settle (category : Category) {fields : List (Option Difference)}
    (changed : ∀ difference, some difference ∈ fields → difference.kind = .changed) :
    (settle category fields).IsBalanced := by
  have none_listed (kind : DifferenceKind) (other : kind ≠ .changed) :
      (Comparison.settle category fields).numberOf kind = 0 := by
    rw [numberOf, differences_settle, List.countP_eq_zero]
    intro difference mem same
    have listed : some difference ∈ fields := by simpa using mem
    rw [changed difference listed] at same
    exact other (of_decide_eq_true same).symm
  constructor
  · rw [none_listed .missing (by decide), total_of_countsOnly isAdditive_missing
      (.settle category fields)]
    rcases counts_settle_self category fields with same | moved
    · rw [same]
    · rw [moved]
  · rw [none_listed .extra (by decide), total_of_countsOnly isAdditive_extra
      (.settle category fields)]
    rcases counts_settle_self category fields with same | moved
    · rw [same]
    · rw [moved]

end IsBalanced

end Comparison

namespace Exchange

open Comparison Counts

variable {expected actual : SchemaDraft} {includePositions : Bool}

theorem kind_of_field {α : Type} [DecidableEq α] {spell : α → Str} {path name : Str}
    {left right : α} {difference : Difference}
    (found : field spell path name left right = some difference) :
    difference.kind = .changed := by
  unfold field at found
  split at found
  · cases found
  · cases found
    rfl

theorem countsOnly_description (path expected actual : Str) :
    (description path expected actual).CountsOnly [.descriptions] := by
  simp only [description]
  split_ifs
  · apply CountsOnly.empty
  · apply CountsOnly.record
  · apply CountsOnly.record
  · apply CountsOnly.matched
  · apply CountsOnly.record

theorem isBalanced_description (path expected actual : Str) :
    (description path expected actual).IsBalanced := by
  simp only [description]
  split_ifs
  · apply IsBalanced.empty
  · apply IsBalanced.record
  · apply IsBalanced.record
  · apply IsBalanced.matched
  · apply IsBalanced.record

theorem countsOnly_position (path : Str) (left right : Entity) :
    (position path left right).CountsOnly [.positions] := by
  unfold position
  split
  · apply CountsOnly.matched
  · apply CountsOnly.record

theorem isBalanced_position (path : Str) (left right : Entity) :
    (position path left right).IsBalanced := by
  unfold position
  split
  · apply IsBalanced.matched
  · apply IsBalanced.record

theorem countsOnly_keys (path : Str) (left right : Attribute) :
    (keys path left right).CountsOnly [.keys] := by
  unfold keys
  split
  · apply CountsOnly.empty
  · apply CountsOnly.record
  · apply CountsOnly.record
  · apply CountsOnly.settle

theorem isBalanced_keys (path : Str) (left right : Attribute) :
    (keys path left right).IsBalanced := by
  unfold keys
  split
  · apply IsBalanced.empty
  · apply IsBalanced.record
  · apply IsBalanced.record
  · apply IsBalanced.settle
    intro difference mem
    simp only [List.mem_cons, List.not_mem_nil, or_false] at mem
    rcases mem with found | found <;> exact kind_of_field found.symm

theorem counts_column (table : Str) (left right : Attribute) :
    (column table left right).counts .columns = ⟨1, 0, 0, 0⟩ ∨
      (column table left right).counts .columns = ⟨0, 0, 0, 1⟩ := by
  simp only [column, counts_append, countsOnly_keys _ left right .columns (by decide),
    countsOnly_description _ left.description right.description .columns (by decide)]
  exact counts_settle_self .columns _

theorem countsOnly_column (table : Str) (left right : Attribute) :
    (column table left right).CountsOnly [.columns, .keys, .descriptions] := by
  simp only [column]
  apply CountsOnly.append
  · apply CountsOnly.append
    · exact (CountsOnly.settle _ _).mono (by simp)
    · exact (countsOnly_keys _ _ _).mono (by simp)
  · exact (countsOnly_description _ _ _).mono (by simp)

theorem isBalanced_column (table : Str) (left right : Attribute) :
    (column table left right).IsBalanced := by
  simp only [column]
  apply IsBalanced.append
  · apply IsBalanced.append
    · apply IsBalanced.settle
      intro difference mem
      simp only [List.mem_cons, List.not_mem_nil, or_false] at mem
      rcases mem with found | found | found <;> exact kind_of_field found.symm
    · apply isBalanced_keys
  · apply isBalanced_description

section Matching

variable {α β : Type} {fits : α → β → Bool} {left : List α} {right : List β}
  {pairing : α × Option β → Comparison} {leftover : β → Comparison} {category : Category}

/-- What is counted of a matching whose items each make one comparison. -/
def counted (outcome : List (α × Option β) × List β) (pairing : α × Option β → Comparison)
    (leftover : β → Comparison) : Comparison :=
  concat (outcome.1.map pairing) ++ concat (outcome.2.map leftover)

/-- How the items of a matching are counted in its category. -/
structure CountsItems (category : Category) (pairing : α × Option β → Comparison)
    (leftover : β → Comparison) : Prop where
  unmatched : ∀ item, (pairing (item, none)).counts category = ⟨0, 1, 0, 0⟩
  paired : ∀ item other, (pairing (item, some other)).counts category = ⟨1, 0, 0, 0⟩ ∨
    (pairing (item, some other)).counts category = ⟨0, 0, 0, 1⟩
  leftover : ∀ other, (leftover other).counts category = ⟨0, 0, 1, 0⟩

theorem expected_counted (items : CountsItems category pairing leftover) :
    ((counted (matchUp fits left right) pairing leftover).counts category).expected =
      left.length := by
  have each : ∀ pair : α × Option β, ((pairing pair).counts category).expected = 1 := by
    rintro ⟨item, other | other⟩
    · rw [items.unmatched]
      rfl
    · rcases items.paired item other with same | moved
      · rw [same]
        rfl
      · rw [moved]
        rfl
  have none_left : ∀ other, ((leftover other).counts category).expected = 0 := by
    intro other
    rw [items.leftover]
    rfl
  rw [counted, counts_append, isAdditive_expected.add, counts_concat isAdditive_expected,
    counts_concat isAdditive_expected]
  simp only [List.map_map, Function.comp_def, each, none_left, List.map_const', List.sum_replicate]
  rw [← List.length_map (f := Prod.fst), map_fst_matchUp]
  simp

theorem actual_counted (items : CountsItems category pairing leftover) :
    ((counted (matchUp fits left right) pairing leftover).counts category).actual =
      right.length := by
  have each : ∀ found : List (α × Option β),
      ((found.map pairing).map fun part => (part.counts category).actual).sum =
        (found.filterMap Prod.snd).length := by
    intro found
    induction found with
    | nil => rfl
    | cons pair found ih =>
        rw [List.map_cons, List.map_cons, List.sum_cons, ih]
        rcases pair with ⟨item, other | other⟩
        · rw [items.unmatched]
          simp [Counts.actual]
        · rcases items.paired item other with same | moved
          · rw [same]
            simp [Counts.actual]
            omega
          · rw [moved]
            simp [Counts.actual]
            omega
  have once : ∀ other, ((leftover other).counts category).actual = 1 := by
    intro other
    rw [items.leftover]
    rfl
  rw [counted, counts_append, isAdditive_actual.add, counts_concat isAdditive_actual,
    counts_concat isAdditive_actual, each]
  simp only [List.map_map, Function.comp_def, once, List.map_const', List.sum_replicate]
  rw [← (@perm_matchUp _ _ fits left right).length_eq, List.length_append]
  simp

theorem countsOnly_counted {categories : List Category} {outcome : List (α × Option β) × List β}
    (pairs : ∀ pair, (pairing pair).CountsOnly categories)
    (rest : ∀ other, (leftover other).CountsOnly categories) :
    (counted outcome pairing leftover).CountsOnly categories := by
  apply CountsOnly.append
  · apply CountsOnly.concat
    simp only [List.forall_mem_map]
    exact fun pair _ => pairs pair
  · apply CountsOnly.concat
    simp only [List.forall_mem_map]
    exact fun other _ => rest other

theorem isBalanced_counted {outcome : List (α × Option β) × List β}
    (pairs : ∀ pair, (pairing pair).IsBalanced) (rest : ∀ other, (leftover other).IsBalanced) :
    (counted outcome pairing leftover).IsBalanced := by
  apply IsBalanced.append
  · apply IsBalanced.concat
    simp only [List.forall_mem_map]
    exact fun pair _ => pairs pair
  · apply IsBalanced.concat
    simp only [List.forall_mem_map]
    exact fun other _ => rest other

end Matching

/-- What a matched or missing column of a table adds. -/
def columnPairing (path : Str) (pair : Attribute × Option Attribute) : Comparison :=
  match pair.2 with
  | some right => column path pair.1 right
  | none => record .columns (.missing (columnPath path pair.1.name) pair.1.name)

def columnLeftover (path : Str) (right : Attribute) : Comparison :=
  record .columns (.extra (columnPath path right.name) right.name)

theorem entity_eq (left right : Entity) :
    entity left right includePositions =
      description (tablePath left.name) left.description right.description ++
        (if includePositions then position (tablePath left.name) left right else empty) ++
        concat ((columnMatching left right).1.map (columnPairing (tablePath left.name))) ++
        concat ((columnMatching left right).2.map (columnLeftover (tablePath left.name))) :=
  rfl

theorem countsItems_columns (path : Str) :
    CountsItems .columns (columnPairing path) (columnLeftover path) where
  unmatched _ := counts_record_self _ _
  paired left right := counts_column path left right
  leftover _ := counts_record_self _ _

theorem countsOnly_layout (left right : Entity) :
    (if includePositions then position (tablePath left.name) left right else empty).CountsOnly
    [.positions] := by
  split
  · apply countsOnly_position
  · apply CountsOnly.empty

theorem isBalanced_layout (left right : Entity) :
    (if includePositions then position (tablePath left.name) left right else empty).IsBalanced := by
  split
  · apply isBalanced_position
  · apply IsBalanced.empty

theorem counts_entity_columns (left right : Entity) :
    (entity left right includePositions).counts .columns =
      (counted (columnMatching left right) (columnPairing (tablePath left.name))
        (columnLeftover (tablePath left.name))).counts .columns := by
  have noDescription :=
    countsOnly_description (tablePath left.name) left.description right.description
    .columns (by decide)
  have noPosition := @countsOnly_layout includePositions left right .columns (by decide)
  simp only [entity_eq, counted, counts_append, noDescription, noPosition, add, zero, Nat.zero_add]

theorem countsOnly_columnPairing (path : Str) (pair : Attribute × Option Attribute) :
    (columnPairing path pair).CountsOnly [.columns, .keys, .descriptions] := by
  unfold columnPairing
  split
  · apply countsOnly_column
  · exact (CountsOnly.record _ _).mono (by simp)

theorem countsOnly_entity (left right : Entity) :
    (entity left right includePositions).CountsOnly
    [.columns, .keys, .descriptions, .positions] := by
  rw [entity_eq]
  apply CountsOnly.append
  · apply CountsOnly.append
    · apply CountsOnly.append
      · exact (countsOnly_description _ _ _).mono (by simp)
      · exact (countsOnly_layout left right).mono (by simp)
    · apply CountsOnly.concat
      simp only [List.forall_mem_map]
      exact fun pair _ => (countsOnly_columnPairing _ pair).mono (by simp)
  · apply CountsOnly.concat
    simp only [List.forall_mem_map]
    exact fun other _ => (CountsOnly.record _ _).mono (by simp)

theorem isBalanced_entity (left right : Entity) :
    (entity left right includePositions).IsBalanced := by
  rw [entity_eq]
  apply IsBalanced.append
  · apply IsBalanced.append
    · apply IsBalanced.append
      · apply isBalanced_description
      · apply isBalanced_layout
    · apply IsBalanced.concat
      simp only [List.forall_mem_map]
      rintro ⟨left, right | right⟩ mem
      · apply IsBalanced.record
      · apply isBalanced_column
  · apply IsBalanced.concat
    simp only [List.forall_mem_map]
    exact fun other _ => IsBalanced.record _ _

def tablePairing (pair : Entity × Option Entity) : Comparison :=
  match pair.2 with
  | some _ => matched .tables
  | none => record .tables (.missing (tablePath pair.1.name) pair.1.name)

def tableLeftover (right : Entity) : Comparison :=
  record .tables (.extra (tablePath right.name) right.name)

theorem entities_eq : (entities expected actual).2 =
    counted (entityMatching expected actual) tablePairing tableLeftover :=
  rfl

theorem countsItems_tables : CountsItems .tables tablePairing tableLeftover where
  unmatched _ := counts_record_self _ _
  paired _ _ := Or.inl (counts_matched_self _)
  leftover _ := counts_record_self _ _

theorem countsOnly_tablePairing (pair : Entity × Option Entity) :
    (tablePairing pair).CountsOnly [.tables] := by
  unfold tablePairing
  split
  · apply CountsOnly.matched
  · apply CountsOnly.record

theorem countsOnly_entities : (entities expected actual).2.CountsOnly [.tables] := by
  rw [entities_eq]
  apply countsOnly_counted countsOnly_tablePairing
  intro right
  apply CountsOnly.record

theorem isBalanced_entities : (entities expected actual).2.IsBalanced := by
  rw [entities_eq]
  apply isBalanced_counted
  · rintro ⟨left, right | right⟩
    · apply IsBalanced.record
    · apply IsBalanced.matched
  · intro right
    apply IsBalanced.record

/-- No table is counted as changed. -/
theorem changed_tables : ((entities expected actual).2.counts .tables).changed = 0 := by
  have pairs : ∀ pair, ((tablePairing pair).counts .tables).changed = 0 := by
    rintro ⟨left, right | right⟩ <;> rfl
  have rest : ∀ right, ((tableLeftover right).counts .tables).changed = 0 := fun _ => rfl
  rw [entities_eq, counted, counts_append, isAdditive_changed.add, counts_concat isAdditive_changed,
    counts_concat isAdditive_changed]
  simp [Function.comp_def, pairs, rest]

theorem matched_tables :
    ((entities expected actual).2.counts .tables).matched =
    (entities expected actual).1.length := by
  have pairs : ∀ found : List (Entity × Option Entity),
      (found.map fun pair => ((tablePairing pair).counts .tables).matched).sum =
        (found.filterMap fun pair => pair.2.map (Prod.mk pair.1)).length := by
    intro found
    induction found with
    | nil => rfl
    | cons pair found ih =>
        rw [List.map_cons, List.sum_cons, ih]
        rcases pair with ⟨left, right | right⟩
        · exact Nat.zero_add _
        · exact Nat.add_comm _ _
  have rest : ∀ right, ((tableLeftover right).counts .tables).matched = 0 := fun _ => rfl
  rw [entities_eq, counted, counts_append, isAdditive_matched.add, counts_concat isAdditive_matched,
    counts_concat isAdditive_matched]
  simp only [List.map_map, Function.comp_def, rest, List.map_const', List.sum_replicate, pairs]
  simp [entities]

def keyPairing (right : List (Str × Str)) (reference : Str × Str) : Comparison :=
  match right.find? fun other => same other.1 reference.1 with
  | none => record .foreignKeys (.missing (reference.1 ++ ".foreignKey") reference.2)
  | some other =>
      if same other.2 reference.2 then matched .foreignKeys
      else record .foreignKeys (.changed (reference.1 ++ ".foreignKey") reference.2 other.2)

theorem foreignKeys_eq : foreignKeys expected actual =
    concat ((references expected).map (keyPairing (references actual))) ++
      concat (((references actual).filter fun reference =>
        !(references expected).any fun other => same other.1 reference.1).map fun reference =>
          record .foreignKeys (.extra (reference.1 ++ ".foreignKey") reference.2)) := by
  refine congrArg (· ++ concat _) (congrArg concat (List.map_congr_left ?_))
  rintro ⟨holder, target⟩ mem
  simp only [keyPairing]
  cases (references actual).find? fun other => same other.1 holder with
  | none => rfl
  | some other => rfl

theorem countsOnly_foreignKeys : (foreignKeys expected actual).CountsOnly [.foreignKeys] := by
  rw [foreignKeys_eq]
  apply CountsOnly.append
  · apply CountsOnly.concat
    simp only [List.forall_mem_map]
    intro reference mem
    unfold keyPairing
    split
    · apply CountsOnly.record
    · split
      · apply CountsOnly.matched
      · apply CountsOnly.record
  · apply CountsOnly.concat
    simp only [List.forall_mem_map]
    exact fun reference _ => CountsOnly.record _ _

theorem isBalanced_foreignKeys : (foreignKeys expected actual).IsBalanced := by
  rw [foreignKeys_eq]
  apply IsBalanced.append
  · apply IsBalanced.concat
    simp only [List.forall_mem_map]
    intro reference mem
    unfold keyPairing
    split
    · apply IsBalanced.record
    · split
      · apply IsBalanced.matched
      · apply IsBalanced.record
  · apply IsBalanced.concat
    simp only [List.forall_mem_map]
    exact fun reference _ => IsBalanced.record _ _

def linkPairing (pair : (Relationship × Str) × Option (Relationship × Str)) : Comparison :=
  match pair.2 with
  | none => record .relationships
      (.missing ("relationships[" ++ pair.1.2 ++ "]") pair.1.1.cardinality.asStr)
  | some other =>
      (if other.1.cardinality = pair.1.1.cardinality then matched .relationships
        else record .relationships (.changed ("relationships[" ++ pair.1.2 ++ "]")
          pair.1.1.cardinality.asStr other.1.cardinality.asStr)) ++
        description ("relationships[" ++ pair.1.2 ++ "]") pair.1.1.description other.1.description

def linkLeftover (link : Relationship × Str) : Comparison :=
  record .relationships (.extra ("relationships[" ++ link.2 ++ "]") link.1.cardinality.asStr)

theorem relationships_eq : relationships expected actual =
    counted (linkMatching expected actual) linkPairing linkLeftover := by
  refine congrArg (· ++ concat _) (congrArg concat (List.map_congr_left ?_))
  rintro ⟨⟨link, ends⟩, other | ⟨other, other_ends⟩⟩ mem
  · rfl
  · rfl

theorem counts_linkPairing (left right : Relationship × Str) :
    (linkPairing (left, some right)).counts .relationships = ⟨1, 0, 0, 0⟩ ∨
      (linkPairing (left, some right)).counts .relationships = ⟨0, 0, 0, 1⟩ := by
  have noDescription :=
    countsOnly_description ("relationships[" ++ left.2 ++ "]") left.1.description
    right.1.description .relationships (by decide)
  simp only [linkPairing, counts_append, noDescription]
  split
  · left
    rw [counts_matched_self]
    rfl
  · right
    rw [counts_record_self]
    rfl

theorem countsItems_relationships : CountsItems .relationships linkPairing linkLeftover where
  unmatched _ := counts_record_self _ _
  paired := counts_linkPairing
  leftover _ := counts_record_self _ _

theorem countsOnly_relationships :
    (relationships expected actual).CountsOnly [.relationships, .descriptions] := by
  rw [relationships_eq]
  apply countsOnly_counted
  · rintro ⟨left, right | right⟩
    · exact (CountsOnly.record _ _).mono (by simp)
    · apply CountsOnly.append
      · split
        · exact (CountsOnly.matched _).mono (by simp)
        · exact (CountsOnly.record _ _).mono (by simp)
      · exact (countsOnly_description _ _ _).mono (by simp)
  · intro link
    exact (CountsOnly.record _ _).mono (by simp)

theorem isBalanced_relationships : (relationships expected actual).IsBalanced := by
  rw [relationships_eq]
  apply isBalanced_counted
  · rintro ⟨left, right | right⟩
    · apply IsBalanced.record
    · apply IsBalanced.append
      · split
        · apply IsBalanced.matched
        · apply IsBalanced.record
      · apply isBalanced_description
  · intro link
    apply IsBalanced.record

theorem compare_eq : compare expected actual includePositions =
    (entities expected actual).2 ++
      concat ((entities expected actual).1.map fun pair => entity pair.1 pair.2 includePositions) ++
      foreignKeys expected actual ++ relationships expected actual :=
  rfl

theorem countsOnly_pairs : (concat ((entities expected actual).1.map fun pair =>
    entity pair.1 pair.2 includePositions)).CountsOnly
      [.columns, .keys, .descriptions, .positions] := by
  apply CountsOnly.concat
  simp only [List.forall_mem_map]
  exact fun pair _ => countsOnly_entity pair.1 pair.2

theorem counts_compare_tables :
    (compare expected actual includePositions).counts .tables =
    (entities expected actual).2.counts .tables := by
  simp only [compare_eq, counts_append, countsOnly_pairs .tables (by decide),
    countsOnly_foreignKeys .tables (by decide), countsOnly_relationships .tables
      (by decide), add, zero,
    Nat.add_zero]

theorem counts_compare_columns : (compare expected actual includePositions).counts .columns =
    (concat ((entities expected actual).1.map fun pair =>
      entity pair.1 pair.2 includePositions)).counts .columns := by
  simp only [compare_eq, counts_append, countsOnly_entities .columns (by decide),
    countsOnly_foreignKeys .columns (by decide), countsOnly_relationships .columns
      (by decide), add, zero,
    Nat.add_zero, Nat.zero_add]

theorem counts_compare_relationships :
    (compare expected actual includePositions).counts .relationships =
    (relationships expected actual).counts .relationships := by
  simp only [compare_eq, counts_append, countsOnly_entities .relationships (by decide),
    countsOnly_pairs .relationships (by decide), countsOnly_foreignKeys .relationships
      (by decide), add, zero,
    Nat.zero_add]

theorem isBalanced_compare : (compare expected actual includePositions).IsBalanced := by
  rw [compare_eq]
  apply IsBalanced.append
  · apply IsBalanced.append
    · apply IsBalanced.append
      · exact isBalanced_entities
      · apply IsBalanced.concat
        simp only [List.forall_mem_map]
        exact fun pair _ => isBalanced_entity pair.1 pair.2
    · exact isBalanced_foreignKeys
  · exact isBalanced_relationships

/-- The counts of a comparison, added up against the two drawings. -/
structure AddsUp (expected actual : SchemaDraft) (comparison : Comparison) : Prop where
  tablesExpected : (comparison.counts .tables).matched + (comparison.counts .tables).missing =
    expected.entities.length
  tablesActual : (comparison.counts .tables).matched + (comparison.counts .tables).extra =
    actual.entities.length
  tablesMatched : (comparison.counts .tables).matched = (entities expected actual).1.length
  columnsExpected : (comparison.counts .columns).matched + (comparison.counts .columns).changed +
    (comparison.counts .columns).missing =
      ((entities expected actual).1.map fun pair => pair.1.attributes.length).sum
  columnsActual : (comparison.counts .columns).matched + (comparison.counts .columns).changed +
    (comparison.counts .columns).extra =
      ((entities expected actual).1.map fun pair => pair.2.attributes.length).sum
  relationshipsExpected : (comparison.counts .relationships).matched +
    (comparison.counts .relationships).changed + (comparison.counts .relationships).missing =
      expected.relationships.length
  relationshipsActual : (comparison.counts .relationships).matched +
    (comparison.counts .relationships).changed + (comparison.counts .relationships).extra =
      actual.relationships.length
  missing : comparison.numberOf .missing = comparison.total Counts.missing
  extra : comparison.numberOf .extra = comparison.total Counts.extra
  isEqual : comparison.isEqual = true ↔ comparison.differences = []

/-- The counts of every comparison add up. -/
theorem compare_addsUp (expected actual : SchemaDraft) (includePositions : Bool) :
    AddsUp expected actual (compare expected actual includePositions) where
  tablesExpected := by
    have counted : ((entities expected actual).2.counts .tables).expected =
        expected.entities.length :=
      expected_counted countsItems_tables
    have unchanged := @changed_tables expected actual
    rw [counts_compare_tables]
    unfold Counts.expected at counted
    omega
  tablesActual := by
    have counted : ((entities expected actual).2.counts .tables).actual = actual.entities.length :=
      actual_counted countsItems_tables
    have unchanged := @changed_tables expected actual
    rw [counts_compare_tables]
    unfold Counts.actual at counted
    omega
  tablesMatched := by rw [counts_compare_tables, matched_tables]
  columnsExpected := by
    have each (pair : Entity × Entity) :
        ((entity pair.1 pair.2 includePositions).counts .columns).expected =
          pair.1.attributes.length := by
      rw [counts_entity_columns]
      exact expected_counted (countsItems_columns _)
    rw [counts_compare_columns]
    change Counts.expected _ = _
    rw [counts_concat isAdditive_expected, List.map_map]
    exact congrArg List.sum (List.map_congr_left fun pair _ => each pair)
  columnsActual := by
    have each (pair : Entity × Entity) :
        ((entity pair.1 pair.2 includePositions).counts .columns).actual =
          pair.2.attributes.length := by
      rw [counts_entity_columns]
      exact actual_counted (countsItems_columns _)
    rw [counts_compare_columns]
    change Counts.actual _ = _
    rw [counts_concat isAdditive_actual, List.map_map]
    exact congrArg List.sum (List.map_congr_left fun pair _ => each pair)
  relationshipsExpected := by
    rw [counts_compare_relationships, relationships_eq]
    apply (expected_counted countsItems_relationships).trans
    apply List.length_map
  relationshipsActual := by
    rw [counts_compare_relationships, relationships_eq]
    apply (actual_counted countsItems_relationships).trans
    apply List.length_map
  missing := isBalanced_compare.missing
  extra := isBalanced_compare.extra
  isEqual := isEqual_iff

end Exchange

end SchemaForge
