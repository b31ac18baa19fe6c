import SchemaForge.Domain.Report

/-!
# Comparisons

What a comparison of two drawings found, counted by category. A comparison is
put together from parts: something that matched, something that differs. Every
comparison carries that its counts agree with the differences it lists.

The counts are natural numbers; the program counts in 32 bits, which no drawing
that fits in memory exhausts.
-/

namespace SchemaForge

inductive Category where
  | tables | columns | keys | foreignKeys | relationships | descriptions | positions
deriving DecidableEq

namespace Category

def variants : List Category :=
  [tables, columns, keys, foreignKeys, relationships, descriptions, positions]

theorem mem_variants (category : Category) : category ∈ variants := by
  cases category <;> decide

end Category

inductive DifferenceKind where
  | missing | extra | changed
deriving DecidableEq

/-- One thing that did not survive, named by where it sits in the schema. -/
structure Difference where
  kind : DifferenceKind
  path : Str
  expected : Str
  actual : Str
deriving DecidableEq

namespace Difference

def missing (path expected : Str) : Difference := ⟨.missing, path, expected, []⟩

def extra (path actual : Str) : Difference := ⟨.extra, path, [], actual⟩

def changed (path expected actual : Str) : Difference := ⟨.changed, path, expected, actual⟩

end Difference

structure Counts where
  matched : Nat
  missing : Nat
  extra : Nat
  changed : Nat
deriving DecidableEq

namespace Counts

def zero : Counts := ⟨0, 0, 0, 0⟩

def add (left right : Counts) : Counts :=
  ⟨left.matched + right.matched, left.missing + right.missing, left.extra + right.extra,
    left.changed + right.changed⟩

def isClean (counts : Counts) : Bool :=
  counts.missing == 0 && counts.extra == 0 && counts.changed == 0

/-- One difference, counted by its kind. -/
def count : DifferenceKind → Counts
  | .missing => ⟨0, 1, 0, 0⟩
  | .extra => ⟨0, 0, 1, 0⟩
  | .changed => ⟨0, 0, 0, 1⟩

theorem isClean_add (left right : Counts) :
    (left.add right).isClean = (left.isClean && right.isClean) := by
  rw [Bool.eq_iff_iff]
  simp only [isClean, add, Bool.and_eq_true, beq_iff_eq]
  omega

end Counts

/-- What was found, and how much of each category. -/
structure Comparison where
  differences : List Difference
  counts : Category → Counts
  clean_iff : (∀ category, (counts category).isClean = true) ↔ differences = []

namespace Comparison

def isEqual (comparison : Comparison) : Bool :=
  Category.variants.all fun category => (comparison.counts category).isClean

/-- A comparison is equal exactly when it lists no difference. -/
theorem isEqual_iff {comparison : Comparison} :
    comparison.isEqual = true ↔ comparison.differences = [] := by
  rw [← comparison.clean_iff, isEqual, List.all_eq_true]
  exact ⟨fun clean category => clean category (Category.mem_variants category),
    fun clean category _ => clean category⟩

/-- Nothing compared yet. -/
def empty : Comparison where
  differences := []
  counts _ := .zero
  clean_iff := iff_of_true (fun _ => rfl) rfl

/-- One thing of a category that is the same on both sides. -/
def matched (category : Category) : Comparison where
  differences := []
  counts other := if other = category then ⟨1, 0, 0, 0⟩ else .zero
  clean_iff := by
    refine iff_of_true (fun other => ?_) rfl
    split <;> rfl

/-- One thing that differs, counted under its kind. -/
def record (category : Category) (difference : Difference) : Comparison where
  differences := [difference]
  counts other := if other = category then .count difference.kind else .zero
  clean_iff := by
    refine iff_of_false (fun clean => ?_) (by simp)
    have dirty := clean category
    rw [if_pos rfl] at dirty
    cases kind : difference.kind <;> rw [kind] at dirty <;> contradiction

/-- One count for the thing, however many of its fields moved. -/
def settle (category : Category) (fields : List (Option Difference)) : Comparison :=
  match found : fields.filterMap id with
  | [] => matched category
  | first :: rest => {
      differences := fields.filterMap id
      counts := fun other => if other = category then ⟨0, 0, 0, 1⟩ else .zero
      clean_iff := by
        refine iff_of_false (fun clean => ?_) (by rw [found]; exact List.cons_ne_nil _ _)
        have dirty := clean category
        rw [if_pos rfl] at dirty
        contradiction }

/-- One comparison after another. -/
def append (left right : Comparison) : Comparison where
  differences := left.differences ++ right.differences
  counts category := (left.counts category).add (right.counts category)
  clean_iff := by
    rw [List.append_eq_nil_iff, ← left.clean_iff, ← right.clean_iff, ← forall_and]
    exact forall_congr' fun category => by rw [Counts.isClean_add, Bool.and_eq_true]

instance : Append Comparison := ⟨append⟩

def concat (parts : List Comparison) : Comparison := parts.foldr (· ++ ·) empty

@[simp]
theorem differences_append (left right : Comparison) :
    (left ++ right).differences = left.differences ++ right.differences :=
  rfl

@[simp]
theorem differences_empty : empty.differences = [] := rfl

@[simp]
theorem differences_matched (category : Category) : (matched category).differences = [] := rfl

@[simp]
theorem differences_record (category : Category) (difference : Difference) :
    (record category difference).differences = [difference] :=
  rfl

@[simp]
theorem differences_settle (category : Category) (fields : List (Option Difference)) :
    (settle category fields).differences = fields.filterMap id := by
  unfold settle
  split
  · rename_i found
    exact found.symm
  · rfl

theorem differences_concat (parts : List Comparison) :
    (concat parts).differences = parts.flatMap differences := by
  induction parts with
  | nil => rfl
  | cons part parts rest =>
      rw [List.flatMap_cons, ← rest]
      rfl

theorem differences_concat_eq_nil_iff {parts : List Comparison} :
    (concat parts).differences = [] ↔ ∀ part ∈ parts, part.differences = [] := by
  rw [differences_concat, List.flatMap_eq_nil_iff]

end Comparison

end SchemaForge
