import SchemaForge.Exchange.Compare
import SchemaForge.Generator
import SchemaForge.Verifier.Valid

/-!
# When a comparison is equal

A comparison is equal when it lists no difference. This file says for every part
of a comparison when it lists none, and from that when a drawing equals itself.
-/

namespace SchemaForge.Exchange

open Comparison

section Parts

theorem field_eq_none_iff {α : Type} [DecidableEq α] {spell : α → Str} {path name : Str}
    {expected actual : α} : field spell path name expected actual = none ↔ expected = actual := by
  unfold field
  split <;> simp_all

theorem description_eq_nil_iff {path expected actual : Str} :
    (description path expected actual).differences = [] ↔
      Str.trim expected = Str.trim actual := by
  simp only [description, List.isEmpty_iff]
  by_cases blank : Str.trim expected = []
  · rw [if_pos blank, blank]
    by_cases alsoBlank : Str.trim actual = []
    · simp [alsoBlank]
    · simp [alsoBlank, eq_comm]
  · rw [if_neg blank]
    by_cases alsoBlank : Str.trim actual = []
    · simp [alsoBlank, blank]
    · rw [if_neg alsoBlank]
      split <;> simp_all

theorem position_eq_nil_iff {path : Str} {expected actual : Entity} :
    (position path expected actual).differences = [] ↔
      expected.position.eq actual.position = true := by
  unfold position
  split <;> simp_all

theorem settle_eq_nil_iff {category : Category} {fields : List (Option Difference)} :
    (settle category fields).differences = [] ↔ ∀ field ∈ fields, field = none := by
  rw [differences_settle, List.filterMap_eq_nil_iff]
  rfl

theorem keys_eq_nil_iff {path : Str} {expected actual : Attribute} :
    (keys path expected actual).differences = [] ↔
      expected.primaryKey = actual.primaryKey ∧ expected.unique = actual.unique := by
  unfold keys
  cases expected.primaryKey <;> cases expected.unique <;> cases actual.primaryKey <;>
    cases actual.unique <;> simp [field]

/-- What a comparison asks of two columns of one name. -/
structure SameColumn (left right : Attribute) : Prop where
  dataType : left.dataType = right.dataType
  nullable : left.nullable = right.nullable
  default : optional left.defaultValue = optional right.defaultValue
  primaryKey : left.primaryKey = right.primaryKey
  unique : left.unique = right.unique
  description : Str.trim left.description = Str.trim right.description

theorem SameColumn.refl (attr : Attribute) : SameColumn attr attr := ⟨rfl, rfl, rfl, rfl, rfl, rfl⟩

theorem column_eq_nil_iff {table : Str} {expected actual : Attribute} :
    (column table expected actual).differences = [] ↔ SameColumn expected actual := by
  simp only [column, differences_append, List.append_eq_nil_iff, settle_eq_nil_iff,
    keys_eq_nil_iff, description_eq_nil_iff, List.forall_mem_cons, field_eq_none_iff,
    List.not_mem_nil, false_implies, implies_true, and_true]
  constructor
  · rintro ⟨⟨⟨dataType, nullable, default⟩, primaryKey, unique⟩, description⟩
    exact ⟨dataType, nullable, default, primaryKey, unique, description⟩
  · rintro ⟨dataType, nullable, default, primaryKey, unique, description⟩
    exact ⟨⟨⟨dataType, nullable, default⟩, primaryKey, unique⟩, description⟩

/-- A matching adds no difference when it is complete and no matched pair adds one. -/
theorem matching_eq_nil_iff {α β : Type} {outcome : List (α × Option β) × List β}
    {part : α × Option β → Comparison} {leftover : β → Comparison}
    (missing : ∀ item, (part (item, none)).differences ≠ [])
    (extra : ∀ item, (leftover item).differences ≠ []) :
    (concat (outcome.1.map part)).differences = [] ∧
        (concat (outcome.2.map leftover)).differences = [] ↔
      IsComplete outcome ∧ ∀ item other, (item, some other) ∈ outcome.1 →
        (part (item, some other)).differences = [] := by
  simp only [differences_concat_eq_nil_iff, List.forall_mem_map, IsComplete]
  constructor
  · rintro ⟨parts, leftovers⟩
    refine ⟨⟨fun (item, found) mem => ?_, ?_⟩, fun item other mem => parts _ mem⟩
    · cases found with
      | none => exact absurd (parts _ mem) (missing item)
      | some other => rfl
    · exact List.eq_nil_iff_forall_not_mem.mpr fun item mem => extra item (leftovers item mem)
  · rintro ⟨⟨matched, empty⟩, parts⟩
    refine ⟨fun (item, found) mem => ?_, by simp [empty]⟩
    obtain ⟨other, rfl⟩ := Option.isSome_iff_exists.mp (matched _ mem)
    exact parts item other mem

/-- What a comparison asks of two tables of one name. -/
structure SameTable (includePositions : Bool) (left right : Entity) : Prop where
  description : Str.trim left.description = Str.trim right.description
  position : includePositions = true → left.position.eq right.position = true
  complete : IsComplete (columnMatching left right)
  columns : ∀ attr other, (attr, some other) ∈ (columnMatching left right).1 →
    SameColumn attr other

theorem entity_eq_nil_iff {expected actual : Entity} {includePositions : Bool} :
    (entity expected actual includePositions).differences = [] ↔
      SameTable includePositions expected actual := by
  have placed : (if includePositions then position (tablePath expected.name) expected actual
      else empty).differences = [] ↔
        (includePositions = true → expected.position.eq actual.position = true) := by
    cases includePositions <;> simp [position_eq_nil_iff]
  simp only [entity, differences_append, List.append_eq_nil_iff, description_eq_nil_iff, placed,
    and_assoc]
  rw [matching_eq_nil_iff (by simp) (by simp)]
  simp only [column_eq_nil_iff]
  constructor
  · rintro ⟨description, position, complete, columns⟩
    exact ⟨description, position, complete, columns⟩
  · rintro ⟨description, position, complete, columns⟩
    exact ⟨description, position, complete, columns⟩

/-- What a comparison asks of the foreign keys. -/
structure SameKeys (left right : SchemaDraft) : Prop where
  found : ∀ key ∈ references left, ∃ other ∈ (references right).find? fun other =>
    same other.1 key.1, same other.2 key.2 = true
  known : ∀ other ∈ references right, ∃ key ∈ references left, same key.1 other.1 = true

theorem foreignKeys_eq_nil_iff {expected actual : SchemaDraft} :
    (foreignKeys expected actual).differences = [] ↔ SameKeys expected actual := by
  simp only [foreignKeys, differences_append, List.append_eq_nil_iff,
    differences_concat_eq_nil_iff, List.forall_mem_map, List.mem_filter, Bool.not_eq_true']
  refine Iff.trans (and_congr (forall₂_congr fun key _ => ?_) (forall_congr' fun other => ?_))
    ⟨fun ⟨found, known⟩ => ⟨found, known⟩, fun ⟨found, known⟩ => ⟨found, known⟩⟩
  · cases (references actual).find? fun other => same other.1 key.1 with
    | none => simp
    | some other => by_cases agree : same other.2 key.2 = true <;> simp [agree]
  · constructor
    · intro silent mem
      by_contra unknown
      have none_ : ((references expected).any fun key => same key.1 other.1) = false := by
        simpa using unknown
      exact absurd (silent ⟨mem, none_⟩) (by simp)
    · rintro known ⟨mem, none_⟩
      obtain ⟨key, keyMem, agree⟩ := known mem
      exact absurd agree (List.any_eq_false.mp none_ key keyMem)

/-- What a comparison asks of the relationships. -/
structure SameLinks (left right : SchemaDraft) : Prop where
  complete : IsComplete (linkMatching left right)
  links : ∀ link other, (link, some other) ∈ (linkMatching left right).1 →
    other.1.cardinality = link.1.cardinality ∧
      Str.trim link.1.description = Str.trim other.1.description

theorem relationships_eq_nil_iff {expected actual : SchemaDraft} :
    (relationships expected actual).differences = [] ↔ SameLinks expected actual := by
  simp only [relationships, differences_append, List.append_eq_nil_iff]
  rw [matching_eq_nil_iff (by simp) (by simp)]
  have drawn (path : Str) (link other : Relationship) :
      (if other.cardinality = link.cardinality then matched .relationships
        else record .relationships (.changed path link.cardinality.asStr
          other.cardinality.asStr)).differences = [] ↔ other.cardinality = link.cardinality := by
    split <;> simp_all
  simp only [differences_append, List.append_eq_nil_iff, drawn, description_eq_nil_iff]
  exact ⟨fun ⟨complete, links⟩ => ⟨complete, links⟩, fun ⟨complete, links⟩ => ⟨complete, links⟩⟩

/-- What a comparison asks of two drawings. -/
structure SameDraft (includePositions : Bool) (left right : SchemaDraft) : Prop where
  complete : IsComplete (entityMatching left right)
  tables : ∀ entity other, (entity, some other) ∈ (entityMatching left right).1 →
    SameTable includePositions entity other
  keys : SameKeys left right
  links : SameLinks left right

theorem compare_eq_nil_iff {expected actual : SchemaDraft} {includePositions : Bool} :
    (compare expected actual includePositions).differences = [] ↔
      SameDraft includePositions expected actual := by
  simp only [compare, entities, differences_append, List.append_eq_nil_iff,
    foreignKeys_eq_nil_iff, relationships_eq_nil_iff]
  rw [matching_eq_nil_iff (by simp) (by simp)]
  simp only [differences_matched, implies_true, and_true, differences_concat_eq_nil_iff,
    List.forall_mem_map, List.mem_filterMap, Option.map_eq_some_iff]
  constructor
  · rintro ⟨⟨⟨complete, tables⟩, keys⟩, links⟩
    refine ⟨complete, fun entity other mem => ?_, keys, links⟩
    exact entity_eq_nil_iff.mp (tables (entity, other) ⟨_, mem, other, rfl, rfl⟩)
  · rintro ⟨complete, tables, keys, links⟩
    refine ⟨⟨⟨complete, ?_⟩, keys⟩, links⟩
    rintro _ ⟨⟨entity, _⟩, mem, other, rfl, rfl⟩
    exact entity_eq_nil_iff.mpr (tables entity other mem)

theorem compare_isEqual_iff {expected actual : SchemaDraft} {includePositions : Bool} :
    (compare expected actual includePositions).isEqual = true ↔
      SameDraft includePositions expected actual := by
  rw [isEqual_iff, compare_eq_nil_iff]

end Parts

section Self

theorem mem_references {draft : SchemaDraft} {key : Str × Str} :
    key ∈ references draft ↔ ∃ entity ∈ draft.entities, ∃ attr ∈ entity.attributes,
      ∃ reference, attr.foreignKey = some reference ∧
        key = (spellColumn entity attr,
          pointAt draft reference.entityId reference.attributeId) := by
  simp only [references, List.mem_flatMap, List.mem_filterMap, Option.map_eq_some_iff,
    @eq_comm _ key]

theorem pointAt_of_resolve {schema : Schema} {entityId attributeId : Str} {entity : Entity}
    {attr : Attribute} (resolves : schema.resolve entityId attributeId = some (entity, attr)) :
    pointAt schema.draft entityId attributeId = spellColumn entity attr := by
  obtain ⟨table, column⟩ := Schema.resolve_eq_some_iff.mp resolves
  have found : (schema.draft.entities.find? fun entity => entity.id == entityId) = some entity :=
    table
  simp only [pointAt, found, column]

/-- In a valid schema the foreign keys are compared by the columns they resolve to. -/
theorem mem_references_of_isValid [Unicode] {schema : Schema} (valid : Verifier.IsValid schema)
    {key : Str × Str} : key ∈ references schema.draft ↔
      ∃ resolved ∈ Generator.resolvedKeys schema, key =
        (spellColumn resolved.entity resolved.attr, spellColumn resolved.target resolved.key) := by
  rw [mem_references]
  constructor
  · rintro ⟨entity, mem, attr, attrMem, reference, points, rfl⟩
    obtain ⟨target, column, resolves, -⟩ := valid.foreignKey_resolves mem attrMem points
    refine ⟨⟨entity, attr, target, column⟩, ?_, by rw [pointAt_of_resolve resolves]⟩
    exact Generator.mem_resolvedKeys.mpr ⟨mem, attrMem, reference, points, resolves⟩
  · rintro ⟨resolved, mem, rfl⟩
    obtain ⟨mem, attrMem, reference, points, resolves⟩ := Generator.mem_resolvedKeys.mp mem
    exact ⟨_, mem, _, attrMem, reference, points, by rw [pointAt_of_resolve resolves]⟩

/-- The foreign keys of a drawing agree with themselves unless a spelling is used twice. -/
theorem sameKeys_self_iff {draft : SchemaDraft} :
    SameKeys draft draft ↔ ∀ left ∈ references draft, ∀ right ∈ references draft,
      same left.1 right.1 = true → same left.2 right.2 = true := by
  constructor
  · intro agree left leftMem right rightMem alike
    -- Both keys are answered by the first key of their spelling.
    obtain ⟨first, found, leftTarget⟩ := agree.found left leftMem
    obtain ⟨second, foundAgain, rightTarget⟩ := agree.found right rightMem
    have tests : (fun other : Str × Str => same other.1 left.1) =
        fun other => same other.1 right.1 := by
      funext other
      rw [Bool.eq_iff_iff, Str.eqIgnoreAsciiCase_iff, Str.eqIgnoreAsciiCase_iff,
        Str.eqIgnoreAsciiCase_iff.mp alike]
    rw [tests] at found
    obtain rfl : first = second := Option.mem_unique found foundAgain
    have turned : same left.2 first.2 = true :=
      (Str.eqIgnoreAsciiCase_comm left.2 first.2).trans leftTarget
    exact Str.eqIgnoreAsciiCase_trans turned rightTarget
  · intro agree
    refine ⟨fun key mem => ?_, fun key mem => ⟨key, mem, Str.eqIgnoreAsciiCase_refl _⟩⟩
    have some_ : ((references draft).find? fun other => same other.1 key.1).isSome = true :=
      List.find?_isSome.mpr ⟨key, mem, Str.eqIgnoreAsciiCase_refl _⟩
    obtain ⟨first, found⟩ := Option.isSome_iff_exists.mp some_
    refine ⟨first, found, agree first (List.mem_of_find?_eq_some found) key mem ?_⟩
    simpa using List.find?_some found

theorem isComplete_self {α : Type} {fits : α → α → Bool} {items : List α}
    (fit : ∀ item ∈ items, fits item item = true) : IsComplete (matchUp fits items items) := by
  have complete := @isComplete_map α α fits items id fit
  rwa [List.map_id] at complete

theorem eq_of_mem_matchUp_self {α : Type} {fits : α → α → Bool} {items : List α} {item other : α}
    (fit : ∀ item ∈ items, fits item item = true)
    (mem : (item, some other) ∈ (matchUp fits items items).1) : other = item ∧ item ∈ items := by
  have matched := @eq_of_mem_matchUp_map α α fits items id fit item other
  rw [List.map_id] at matched
  exact matched mem

theorem sameTable_self {includePositions : Bool} {entity : Entity}
    (numbers : entity.position.x.isNan = false ∧ entity.position.y.isNan = false) :
    SameTable includePositions entity entity := by
  have fit : ∀ attr ∈ entity.attributes, same attr.name attr.name = true := fun attr _ =>
    Str.eqIgnoreAsciiCase_refl attr.name
  refine ⟨rfl, fun _ => ?_, isComplete_self fit, fun attr other mem => ?_⟩
  · rw [Position.eq, F64.eq_self_of_not_nan numbers.1, F64.eq_self_of_not_nan numbers.2]
    rfl
  · obtain ⟨rfl, -⟩ := eq_of_mem_matchUp_self fit mem
    exact .refl _

/-- A drawing equals itself exactly when its foreign keys do. -/
theorem sameDraft_self_iff {includePositions : Bool} {draft : SchemaDraft}
    (numbers : ∀ entity ∈ draft.entities,
      entity.position.x.isNan = false ∧ entity.position.y.isNan = false) :
    SameDraft includePositions draft draft ↔ SameKeys draft draft := by
  refine ⟨fun agree => agree.keys, fun keys => ?_⟩
  have fit : ∀ entity ∈ draft.entities, same entity.name entity.name = true := fun entity _ =>
    Str.eqIgnoreAsciiCase_refl entity.name
  have linksFit : ∀ link ∈ links draft, same link.2 link.2 = true := fun link _ =>
    Str.eqIgnoreAsciiCase_refl link.2
  refine ⟨isComplete_self fit, fun entity other mem => ?_, keys, isComplete_self linksFit,
    fun link other mem => ?_⟩
  · obtain ⟨rfl, found⟩ := eq_of_mem_matchUp_self fit mem
    exact sameTable_self (numbers _ found)
  · obtain ⟨rfl, -⟩ := eq_of_mem_matchUp_self linksFit mem
    exact ⟨rfl, rfl⟩

/--
A valid schema equals itself, with positions or without, exactly when columns with foreign keys that
are spelled alike as `table.column` point at columns that are spelled alike.
-/
theorem compare_self_iff [Unicode] {schema : Schema} (valid : Verifier.IsValid schema)
    (numbers : ∀ entity ∈ schema.entities,
      entity.position.x.isNan = false ∧ entity.position.y.isNan = false)
    (includePositions : Bool) :
    ((compare schema.draft schema.draft includePositions).isEqual = true ∧
        (compare schema.draft schema.draft includePositions).differences = []) ↔
      ∀ left ∈ Generator.resolvedKeys schema, ∀ right ∈ Generator.resolvedKeys schema,
        Str.eqIgnoreAsciiCase (left.entity.name ++ "." ++ left.attr.name)
            (right.entity.name ++ "." ++ right.attr.name) = true →
          Str.eqIgnoreAsciiCase (left.target.name ++ "." ++ left.key.name)
            (right.target.name ++ "." ++ right.key.name) = true := by
  rw [isEqual_iff, and_self, compare_eq_nil_iff, sameDraft_self_iff numbers, sameKeys_self_iff]
  simp only [mem_references_of_isValid valid, forall_exists_index, and_imp]
  constructor
  · intro agree left leftMem right rightMem
    exact agree _ left leftMem rfl _ right rightMem rfl
  · rintro agree _ left leftMem rfl _ right rightMem rfl
    exact agree left leftMem right rightMem

/-- Tables `a` and `a.b`, with foreign keys in the columns `b.c` and `name`. -/
def dottedSchema (name : Str) : Schema :=
  let integer : DataType := ⟨.integer, none, none, none⟩
  let table (id name : Str) (columns : List Attribute) : Entity :=
    { Entity.new id name with
      attributes := { Attribute.new "k" "id" integer with
        nullable := false, primaryKey := true, unique := true } :: columns }
  { id := "s"
    name := "dots"
    description := []
    entities :=
      [table "t" "x" [],
        table "u" "a" [{ Attribute.new "f" "b.c" integer with foreignKey := some ⟨"t", "k"⟩ }],
        table "v" "a.b" [{ Attribute.new "g" name integer with foreignKey := some ⟨"u", "k"⟩ }]]
    relationships := [] }

theorem compare_dottedSchema :
    @Verifier.IsValid Unicode.ascii (dottedSchema "d") ∧
      (compare (dottedSchema "d").draft (dottedSchema "d").draft true).isEqual = true := by
  refine ⟨by decide, ((@compare_self_iff Unicode.ascii _ (by decide)
    (by decide +kernel) true).mpr ?_).1⟩
  have single : ∀ left ∈ Generator.resolvedKeys (dottedSchema "d"),
      ∀ right ∈ Generator.resolvedKeys (dottedSchema "d"),
        Str.eqIgnoreAsciiCase (left.entity.name ++ "." ++ left.attr.name)
            (right.entity.name ++ "." ++ right.attr.name) = true →
          Str.eqIgnoreAsciiCase (left.target.name ++ "." ++ left.key.name)
            (right.target.name ++ "." ++ right.key.name) = true := by
    decide
  exact single

/-- Both columns are spelled `a.b.c`, and they point at different columns. -/
theorem not_compare_dottedSchema :
    @Verifier.IsValid Unicode.ascii (dottedSchema "c") ∧
      (∀ entity ∈ (dottedSchema "c").entities,
        entity.position.x.isNan = false ∧ entity.position.y.isNan = false) ∧
      (compare (dottedSchema "c").draft (dottedSchema "c").draft true).isEqual = false := by
  decide +kernel

end Self

end SchemaForge.Exchange
