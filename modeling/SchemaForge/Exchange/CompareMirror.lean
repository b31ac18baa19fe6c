import SchemaForge.Exchange.CompareCounts
import SchemaForge.Exchange.CompareEqual

/-!
# Comparing the other way round

What is missing one way is extra the other way, and what matches or changed is the
same: the two matchings make the same pairs at every level, and every field is
compared without regard to the side it is on.
-/

namespace SchemaForge

namespace Counts

/-- The counts of the comparison the other way round. -/
def mirror (counts : Counts) : Counts :=
  ⟨counts.matched, counts.extra, counts.missing, counts.changed⟩

/-- How much of a total matched; of nothing, all of it. -/
def ratio (matched total : Nat) : F64 :=
  if total = 0 then .ofInt 1 else .nearest false (matched * F64.unit) total

def precision (counts : Counts) : F64 :=
  ratio counts.matched (counts.matched + counts.extra + counts.changed)

def «recall» (counts : Counts) : F64 :=
  ratio counts.matched (counts.matched + counts.missing + counts.changed)

theorem recall_mirror (counts : Counts) : counts.mirror.recall = counts.precision := rfl

theorem add_comm (left right : Counts) : left.add right = right.add left := by
  simp only [add, Counts.mk.injEq]
  omega

theorem add_assoc (first second third : Counts) :
    (first.add second).add third = first.add (second.add third) := by
  simp only [add, Counts.mk.injEq]
  omega

theorem zero_add (counts : Counts) : zero.add counts = counts := by
  simp only [add, zero, Nat.zero_add]

theorem mirror_add (left right : Counts) : (left.add right).mirror = left.mirror.add right.mirror :=
  rfl

end Counts

namespace Comparison

open Counts

/--
In the category, the second comparison counts what the first counts, seen from the other side.
-/
def Mirrored (category : Category) (left right : Comparison) : Prop :=
  right.counts category = (left.counts category).mirror

variable {category : Category}

theorem counts_concat_cons (part : Comparison) (parts : List Comparison) (category : Category) :
    (concat (part :: parts)).counts category = (part.counts category).add
    ((concat parts).counts category) :=
  rfl

theorem counts_concat_perm {parts parts' : List Comparison} (perm : parts.Perm parts') :
    (concat parts).counts category = (concat parts').counts category := by
  induction perm with
  | nil => rfl
  | cons part _ ih => rw [counts_concat_cons, ih, ← counts_concat_cons]
  | swap first second parts =>
      simp only [counts_concat_cons]
      rw [← Counts.add_assoc, Counts.add_comm (second.counts category), Counts.add_assoc]
  | trans _ _ ih ih' => exact ih.trans ih'

namespace Mirrored

variable {left left' right right' : Comparison}

theorem empty : Mirrored category Comparison.empty Comparison.empty := rfl

theorem append (first : Mirrored category left left') (second : Mirrored category right right') :
    Mirrored category (left ++ right) (left' ++ right') := by
  unfold Mirrored at *
  rw [counts_append, counts_append, first, second, mirror_add]

theorem matched (other : Category) :
    Mirrored category (Comparison.matched other) (Comparison.matched other) := by
  unfold Mirrored Comparison.matched
  dsimp only
  split
  · rfl
  · rfl

/-- A difference is mirrored by one of the mirrored kind. -/
theorem record (other : Category) {difference difference' : Difference}
    (kinds : Counts.count difference'.kind = (Counts.count difference.kind).mirror) :
    Mirrored category (Comparison.record other difference)
      (Comparison.record other difference') := by
  unfold Mirrored Comparison.record
  dsimp only
  split
  · exact kinds
  · rfl

theorem settle (other : Category) {fields fields' : List (Option Difference)}
    (alike : fields.filterMap id = [] ↔ fields'.filterMap id = []) :
    Mirrored category (Comparison.settle other fields) (Comparison.settle other fields') := by
  have shape : ∀ fields : List (Option Difference),
      (Comparison.settle other fields).counts category =
      if category = other then if fields.filterMap id = [] then ⟨1, 0, 0, 0⟩ else ⟨0, 0, 0, 1⟩
      else .zero := by
    intro fields
    unfold Comparison.settle
    split
    · rename_i none
      rw [if_pos none]
      rfl
    · rename_i found
      have nonempty : fields.filterMap id ≠ [] := by
        rw [found]
        exact List.cons_ne_nil _ _
      rw [if_neg nonempty]
  unfold Mirrored
  rw [shape, shape]
  by_cases same : fields.filterMap id = []
  · rw [if_pos same, if_pos (alike.mp same)]
    split <;> rfl
  · rw [if_neg same, if_neg fun same' => same (alike.mpr same')]
    split <;> rfl

theorem concat_map {α : Type} {items : List α} {part part' : α → Comparison}
    (each : ∀ item, Mirrored category (part item) (part' item)) :
    Mirrored category (concat (items.map part)) (concat (items.map part')) := by
  induction items with
  | nil => rfl
  | cons item items ih => exact append (each item) ih

theorem perm {parts parts' : List Comparison}
    (mirrored : Mirrored category left (Comparison.concat parts))
    (same : parts.Perm parts') : Mirrored category left (Comparison.concat parts') := by
  unfold Mirrored at *
  rw [← mirrored, counts_concat_perm same]

end Mirrored

end Comparison

namespace Exchange

open Comparison Counts

variable {category : Category} {includePositions : Bool}

/-- No field moved one way when none moved the other way. -/
theorem filterMap_fields_eq_nil_iff {fields : List (Option Difference)} :
    fields.filterMap id = [] ↔ ∀ field ∈ fields, field = none := by
  rw [List.filterMap_eq_nil_iff]
  rfl

theorem mirrored_description (path path' left right : Str) :
    Mirrored category (description path left right) (description path' right left) := by
  simp only [description]
  by_cases blank : (Str.trim left).isEmpty = true
  · by_cases blank' : (Str.trim right).isEmpty = true
    · rw [if_pos blank, if_pos blank', if_pos blank', if_pos blank]
      exact .empty
    · rw [if_pos blank, if_neg blank', if_neg blank', if_pos blank]
      exact .record _ rfl
  · by_cases blank' : (Str.trim right).isEmpty = true
    · rw [if_neg blank, if_pos blank', if_pos blank', if_neg blank]
      exact .record _ rfl
    · rw [if_neg blank, if_neg blank', if_neg blank', if_neg blank]
      by_cases same : Str.trim left = Str.trim right
      · rw [if_pos same, if_pos same.symm]
        exact .matched _
      · rw [if_neg same, if_neg (Ne.symm same)]
        exact .record _ rfl

theorem position_eq_comm (first second : Position) : first.eq second = second.eq first := by
  unfold Position.eq
  rw [F64.eq_comm first.x, F64.eq_comm first.y]

theorem mirrored_position (path path' : Str) (left right : Entity) :
    Mirrored category (position path left right) (position path' right left) := by
  unfold position
  rw [position_eq_comm]
  split
  · exact .matched _
  · exact .record _ rfl

theorem mirrored_keys (path path' : Str) (left right : Attribute) :
    Mirrored category (keys path left right) (keys path' right left) := by
  unfold keys
  cases left.primaryKey || left.unique with
  | false =>
      cases right.primaryKey || right.unique with
      | false => exact .empty
      | true => exact .record _ rfl
  | true =>
      cases right.primaryKey || right.unique with
      | false => exact .record _ rfl
      | true =>
          apply Mirrored.settle
          simp only [filterMap_fields_eq_nil_iff, List.forall_mem_cons, field_eq_none_iff,
            List.not_mem_nil, false_imp_iff, implies_true, and_true]
          rw [eq_comm, @eq_comm _ left.unique]

theorem mirrored_column (path path' : Str) (left right : Attribute) :
    Mirrored category (column path left right) (column path' right left) := by
  simp only [column]
  apply Mirrored.append
  · apply Mirrored.append
    · apply Mirrored.settle
      simp only [filterMap_fields_eq_nil_iff, List.forall_mem_cons, field_eq_none_iff,
        List.not_mem_nil, false_imp_iff, implies_true, and_true]
      rw [eq_comm, @eq_comm _ left.nullable, @eq_comm _ (optional left.defaultValue)]
    · apply mirrored_keys
  · apply mirrored_description

section Matching

variable {α : Type} {pairing pairing' : α × Option α → Comparison}
    {leftover leftover' : α → Comparison}

/-- The items of a matching, counted as pairs and as items that found nothing. -/
theorem counts_concat_pairing (found : List (α × Option α)) (rest : List α) :
    (concat (found.map pairing)).counts category =
      (concat ((paired (found, rest)).map fun pair => pairing (pair.1, some pair.2)) ++
        concat ((unpaired (found, rest)).map fun item => pairing (item, none))).counts
          category := by
  induction found with
  | nil => rfl
  | cons pair found ih =>
      rcases pair with ⟨item, other | other⟩
      · change (concat (pairing (item, none) :: found.map pairing)).counts category =
          ((concat ((paired (found, rest)).map fun pair => pairing (pair.1, some pair.2))).counts
            category).add
            ((concat (pairing (item, none) ::
              (unpaired (found, rest)).map fun item => pairing (item, none))).counts category)
        rw [counts_concat_cons, counts_concat_cons, ih, counts_append, ← Counts.add_assoc,
          ← Counts.add_assoc, Counts.add_comm ((pairing (item, none)).counts category)]
      · change (concat (pairing (item, some other) :: found.map pairing)).counts category =
          ((concat (pairing (item, some other) ::
              (paired (found, rest)).map fun pair => pairing (pair.1, some pair.2))).counts
                category).add
            ((concat ((unpaired (found, rest)).map fun item => pairing (item, none))).counts
              category)
        rw [counts_concat_cons, counts_concat_cons, ih, counts_append, Counts.add_assoc]

theorem counts_counted (outcome : List (α × Option α) × List α) :
    (counted outcome pairing leftover).counts category =
      ((concat ((paired outcome).map fun pair => pairing (pair.1, some pair.2)) ++
        concat ((unpaired outcome).map fun item => pairing (item, none))) ++
          concat (outcome.2.map leftover)).counts category := by
  rw [counted, counts_append, counts_append, counts_concat_pairing outcome.1 outcome.2]

/-- Two matchings that mirror one another are counted as mirrored when their items are. -/
theorem mirrored_counted {outcome outcome' : List (α × Option α) × List α}
    (mirrors : Mirrors outcome outcome')
    (pairs : ∀ item other, Mirrored category (pairing (item, some other))
      (pairing' (other, some item)))
    (missing : ∀ item, Mirrored category (pairing (item, none)) (leftover' item))
    (extra : ∀ item, Mirrored category (leftover item) (pairing' (item, none))) :
    Mirrored category (counted outcome pairing leftover) (counted outcome' pairing' leftover') := by
  have both : Mirrored category
      (concat ((paired outcome).map fun pair => pairing (pair.1, some pair.2)))
      (concat ((paired outcome').map fun pair => pairing' (pair.1, some pair.2))) := by
    have mapped : ∀ pair : α × α, Mirrored category (pairing (pair.1, some pair.2))
        (pairing' (pair.2, some pair.1)) := fun pair => pairs pair.1 pair.2
    apply (Mirrored.concat_map mapped).perm
    have perm := mirrors.paired.map fun pair => pairing' (pair.1, some pair.2)
    rwa [List.map_map] at perm
  have left := (Mirrored.concat_map missing).perm (mirrors.missing.map leftover')
  have right :=
    (Mirrored.concat_map extra).perm (mirrors.extra.map fun item => pairing' (item, none))
  unfold Mirrored at *
  rw [counts_counted, counts_counted]
  simp only [counts_append, mirror_add, both, left, right]
  rw [Counts.add_assoc, Counts.add_assoc]
  congr 1
  rw [Counts.add_comm]

end Matching

theorem flip_same {α : Type} (name : α → Str) :
    flip (fun left right => same (name right) (name left)) = fun left right =>
      same (name right) (name left) := by
  funext left right
  exact Str.eqIgnoreAsciiCase_comm _ _

theorem mirrors_columnMatching (left right : Entity) :
    Mirrors (columnMatching left right) (columnMatching right left) := by
  have mirrors := @mirrors_matchUp _ _ (fun left right : Attribute => same right.name left.name)
    left.attributes right.attributes
  rwa [flip_same Attribute.name] at mirrors

theorem mirrors_entityMatching (expected actual : SchemaDraft) :
    Mirrors (entityMatching expected actual) (entityMatching actual expected) := by
  have mirrors := @mirrors_matchUp _ _ (fun left right : Entity => same right.name left.name)
    expected.entities actual.entities
  rwa [flip_same Entity.name] at mirrors

theorem mirrors_linkMatching (expected actual : SchemaDraft) :
    Mirrors (linkMatching expected actual) (linkMatching actual expected) := by
  have mirrors := @mirrors_matchUp _ _ (fun left right : Relationship × Str => same right.2 left.2)
    (links expected) (links actual)
  rwa [flip_same Prod.snd] at mirrors

theorem mirrored_entity (left right : Entity) :
    Mirrored category (entity left right includePositions)
      (entity right left includePositions) := by
  have columns : Mirrored category
      (counted (columnMatching left right) (columnPairing (tablePath left.name))
        (columnLeftover (tablePath left.name)))
      (counted (columnMatching right left) (columnPairing (tablePath right.name))
        (columnLeftover (tablePath right.name))) := by
    apply mirrored_counted (mirrors_columnMatching left right)
    · intro item other
      apply mirrored_column
    · intro item
      exact .record _ rfl
    · intro item
      exact .record _ rfl
  have layout : Mirrored category
      (if includePositions then position (tablePath left.name) left right else empty)
      (if includePositions then position (tablePath right.name) right left else empty) := by
    split
    · apply mirrored_position
    · exact .empty
  have head := (@mirrored_description category (tablePath left.name) (tablePath right.name)
    left.description right.description).append layout
  have regroup (left right : Entity) : (entity left right includePositions).counts category =
      (description (tablePath left.name) left.description right.description ++
        (if includePositions then position (tablePath left.name) left right else empty) ++
        counted (columnMatching left right) (columnPairing (tablePath left.name))
          (columnLeftover (tablePath left.name))).counts category := by
    rw [entity_eq]
    simp only [counted, counts_append, Counts.add_assoc]
  have whole := head.append columns
  unfold Mirrored at whole ⊢
  rw [regroup, regroup]
  exact whole

theorem mirrored_entities (expected actual : SchemaDraft) :
    Mirrored category (entities expected actual).2 (entities actual expected).2 := by
  rw [entities_eq, entities_eq]
  apply mirrored_counted (mirrors_entityMatching expected actual)
  · intro item other
    exact .matched _
  · intro item
    exact .record _ rfl
  · intro item
    exact .record _ rfl

theorem mirrored_pairs (expected actual : SchemaDraft) :
    Mirrored category
      (concat ((entities expected actual).1.map fun pair => entity pair.1 pair.2 includePositions))
      (concat ((entities actual expected).1.map fun pair =>
        entity pair.1 pair.2 includePositions)) := by
  have each : ∀ pair : Entity × Entity, Mirrored category (entity pair.1 pair.2 includePositions)
      (entity pair.2 pair.1 includePositions) := fun pair => mirrored_entity pair.1 pair.2
  apply (Mirrored.concat_map each).perm
  have perm := (mirrors_entityMatching expected actual).paired.map fun pair =>
    entity pair.1 pair.2 includePositions
  rwa [List.map_map] at perm

theorem mirrored_linkPairing (left right : Relationship × Str) :
    Mirrored category (linkPairing (left, some right)) (linkPairing (right, some left)) := by
  apply Mirrored.append
  · by_cases same : right.1.cardinality = left.1.cardinality
    · rw [if_pos same, if_pos same.symm]
      exact .matched _
    · rw [if_neg same, if_neg (Ne.symm same)]
      exact .record _ rfl
  · apply mirrored_description

theorem mirrored_relationships (expected actual : SchemaDraft) :
    Mirrored category (relationships expected actual) (relationships actual expected) := by
  rw [relationships_eq, relationships_eq]
  apply mirrored_counted (mirrors_linkMatching expected actual)
  · intro item other
    apply mirrored_linkPairing
  · intro item
    exact .record _ rfl
  · intro item
    exact .record _ rfl

/-- Recall one way is precision the other, in every category but the foreign keys. -/
theorem counts_compare_mirror (paired : category ≠ .foreignKeys) (expected actual : SchemaDraft)
    (includePositions : Bool) :
    (compare actual expected includePositions).counts category =
        ((compare expected actual includePositions).counts category).mirror ∧
      ((compare actual expected includePositions).counts category).recall =
        ((compare expected actual includePositions).counts category).precision := by
  have keyless (expected actual : SchemaDraft) :
      (foreignKeys expected actual).counts category = .zero :=
    countsOnly_foreignKeys category (by simpa using paired)
  have keys : Mirrored category (foreignKeys expected actual) (foreignKeys actual expected) := by
    unfold Mirrored
    rw [keyless, keyless]
    rfl
  have mirrored : Mirrored category (compare expected actual includePositions)
      (compare actual expected includePositions) := by
    rw [compare_eq, compare_eq]
    apply Mirrored.append
    · apply Mirrored.append
      · apply Mirrored.append
        · apply mirrored_entities
        · apply mirrored_pairs
      · exact keys
    · apply mirrored_relationships
  refine ⟨mirrored, ?_⟩
  rw [mirrored, recall_mirror]

/-- Two tables of one name, two columns of one name, and two lines between the same columns. -/
def twiceDraft : SchemaDraft where
  name := "blog"
  description := []
  entities := [
    { Entity.new "e1" "users" with
      attributes :=
        [.new "a1" "id" ⟨.integer, none, none, none⟩, .new "a2" "name" ⟨.text, none, none, none⟩,
        .new "a3" "name" ⟨.varchar, none, none, none⟩] },
    { Entity.new "e2" "users" with
      attributes :=
        [.new "b1" "id" ⟨.integer, none, none, none⟩,
          .new "b2" "owner" ⟨.integer, none, none, none⟩] }]
  relationships :=
    [.new "r1" ("e1", "a1") ("e2", "b2") .oneToMany, .new "r2" ("e1", "a1") ("e2", "b2") .oneToOne]

/-- The same with one line, one column of the name and another type. -/
def onceDraft : SchemaDraft where
  name := "blog"
  description := []
  entities := [
    { Entity.new "f1" "users" with
      attributes :=
        [.new "c1" "name" ⟨.varchar, none, none, none⟩, .new "c2" "id" ⟨.bigInt, none, none, none⟩]
          },
    { Entity.new "f2" "users" with attributes := [.new "d1" "owner" ⟨.integer, none, none, none⟩] },
    .new "f3" "posts"]
  relationships := [.new "s1" ("f1", "c2") ("f2", "d1") .oneToOne]

theorem counts_compare_mirror_twiceDraft : Category.columns ≠ .foreignKeys ∧
    (compare onceDraft twiceDraft true).counts .columns = ⟨1, 0, 2, 2⟩ ∧
    (compare onceDraft twiceDraft true).counts .columns =
        ((compare twiceDraft onceDraft true).counts .columns).mirror ∧
      ((compare onceDraft twiceDraft true).counts .columns).recall =
        ((compare twiceDraft onceDraft true).counts .columns).precision :=
  ⟨by decide, by decide +kernel, counts_compare_mirror (by decide) twiceDraft onceDraft true⟩

end Exchange

end SchemaForge
