import SchemaForge.Foundation.Lists
import SchemaForge.Generator
import SchemaForge.Verifier.InsertionOrder
import SchemaForge.Verifier.Valid

/-!
# Two lookups of a table

The cycle check looks a table up in a map built from all tables, where the last
of two equal ids stays; every other part takes the first table with the id. On
the tables that foreign keys name both agree exactly when no id is given twice,
and then a valid schema generates no cycle of `NOT NULL` foreign keys.
-/

namespace SchemaForge.Verifier

open Relation

/-- The position of the table that `Schema::entity` finds. -/
def firstPositionOf (schema : Schema) (entityId : Str) : Option (Fin schema.entities.length) :=
  (List.finRange schema.entities.length).find? fun position =>
    (schema.entities.get position).id == entityId

/-- For every foreign key whose table exists, the cycle check looks at the table that the key is
resolved to. -/
def LookupsAgree (schema : Schema) : Prop :=
  ∀ entity ∈ schema.entities, ∀ attr ∈ entity.attributes, ∀ reference ∈ attr.foreignKey,
    ∀ position ∈ firstPositionOf schema reference.entityId,
      positionOf schema reference.entityId = some position

/-- No foreign key names an id that two tables have. -/
def NamesOneTable (schema : Schema) : Prop :=
  ∀ entity ∈ schema.entities, ∀ attr ∈ entity.attributes, ∀ reference ∈ attr.foreignKey,
    (schema.entities.filter fun target => target.id == reference.entityId).length ≤ 1

/-- The script adds a foreign key from one table to the other that may not be left empty. -/
def GeneratesRequired (schema : Schema) (start stop : Entity) : Prop :=
  ∃ resolved ∈ Generator.resolvedKeys schema, resolved.entity = start ∧ resolved.target = stop ∧
    resolved.attr.nullable = false

/-- No two different tables reach each other by the foreign keys of the script that may not be
left empty. -/
def GeneratesNoCycle (schema : Schema) : Prop :=
  ∀ start stop, Digraph.Connected (GeneratesRequired schema) start stop → start = stop

section

variable {schema : Schema}

theorem map_get_finRange (items : List Entity) :
    (List.finRange items.length).map items.get = items := by
  rw [← List.ofFn_eq_map, List.ofFn_get]

theorem entity_eq_firstPositionOf (entityId : Str) :
    schema.entity entityId = (firstPositionOf schema entityId).map schema.entities.get := by
  rw [Schema.entity, firstPositionOf]
  conv => lhs; rw [← map_get_finRange schema.entities]
  rw [List.find?_map]
  rfl

theorem firstPositionOf_eq_some {entityId : Str} {i : Fin schema.entities.length} :
    firstPositionOf schema entityId = some i ↔ idAt schema i = entityId ∧ ∀ j < i, idAt schema j ≠
      entityId := by
  rw [firstPositionOf, List.find?_eq_some_iff_of_pairwise (List.pairwise_lt_finRange _)]
  simp [idAt]

theorem positionOf_eq_some {entityId : Str} {i : Fin schema.entities.length} :
    positionOf schema entityId = some i ↔ idAt schema i = entityId ∧ ∀ j > i, idAt schema j ≠
      entityId := by
  have descending : (List.finRange schema.entities.length).reverse.Pairwise (· > ·) :=
    List.pairwise_reverse.mpr (List.pairwise_lt_finRange _)
  rw [positionOf, List.find?_eq_some_iff_of_pairwise descending]
  simp [idAt]

theorem exists_firstPositionOf {entityId : Str} {i : Fin schema.entities.length}
    (named : idAt schema i = entityId) :
    ∃ j ≤ i, firstPositionOf schema entityId = some j := by
  cases found : firstPositionOf schema entityId with
  | none =>
      have missing := List.find?_eq_none.mp found i (List.mem_finRange i)
      exact absurd (beq_iff_eq.mpr named) missing
  | some j =>
      refine ⟨j, ?_, rfl⟩
      by_contra later
      exact (firstPositionOf_eq_some.mp found).2 i (not_le.mp later) named

theorem length_filter_le_one_iff {entityId : Str} :
    (schema.entities.filter fun target => target.id == entityId).length ≤ 1 ↔
      ∀ i j, idAt schema i = entityId → idAt schema j = entityId → i = j := by
  have positions : (schema.entities.filter fun target => target.id == entityId).length =
      ((List.finRange schema.entities.length).filter fun i =>
        idAt schema i == entityId).length := by
    conv => lhs; rw [← map_get_finRange schema.entities]
    rw [List.filter_map, List.length_map]
    rfl
  rw [positions, List.length_le_one_iff_of_nodup ((List.nodup_finRange _).filter _)]
  simp only [List.mem_filter, List.mem_finRange, true_and, beq_iff_eq]
  exact ⟨fun same i j here there => same i here j there, fun same i here j there =>
    same i j here there⟩

/-- The first and the last table with an id are one table exactly if there is no other. -/
theorem lookups_agree_iff (entityId : Str) :
    (∀ position ∈ firstPositionOf schema entityId, positionOf schema entityId = some position) ↔
      (schema.entities.filter fun target => target.id == entityId).length ≤ 1 := by
  rw [length_filter_le_one_iff]
  constructor
  · -- what stands between the first and the last is both
    have squeezed (agree : ∀ position ∈ firstPositionOf schema entityId,
        positionOf schema entityId = some position) (i : Fin schema.entities.length)
        (named : idAt schema i = entityId) : firstPositionOf schema entityId = some i := by
      rcases exists_firstPositionOf named with ⟨first, le, found⟩
      have last := positionOf_eq_some.mp (agree first found)
      have same : first = i := by
        by_contra different
        exact last.2 i (lt_of_le_of_ne le different) named
      rwa [same] at found
    intro agree i j here there
    exact Option.some.inj ((squeezed agree i here).symm.trans (squeezed agree j there))
  · intro single first found
    have named := (firstPositionOf_eq_some.mp found).1
    refine positionOf_eq_some.mpr ⟨named, ?_⟩
    intro j later here
    exact later.ne (single first j named here)

theorem lookupsAgree_iff_namesOneTable : LookupsAgree schema ↔ NamesOneTable schema := by
  refine forall₂_congr fun entity _ => forall₂_congr fun attr _ =>
    forall₂_congr fun reference _ => ?_
  exact lookups_agree_iff reference.entityId

/-- A path of generated keys from a table runs along the edges of the cycle check. -/
theorem reaches_of_generated (agree : LookupsAgree schema) {i : Fin schema.entities.length}
    {stop : Entity} (path : ReflTransGen (GeneratesRequired schema) (schema.entities.get i) stop) :
    ∃ j, schema.entities.get j = stop ∧
      ReflTransGen (fun x y => (x, y) ∈ requiredEdges schema) i j := by
  induction path with
  | refl => exact ⟨i, rfl, .refl⟩
  | tail _ key ih =>
      rcases ih with ⟨j, rfl, path⟩
      rcases key with ⟨resolved, mem, start, rfl, required⟩
      rcases Generator.mem_resolvedKeys.mp mem with ⟨inside, attrMem, reference, named, resolves⟩
      have found := (Schema.resolve_eq_some_iff.mp resolves).1
      rw [entity_eq_firstPositionOf, Option.map_eq_some_iff] at found
      rcases found with ⟨k, first, same⟩
      refine ⟨k, same, ?_⟩
      by_cases loop : k = j
      · rwa [loop]
      · refine path.tail
          (mem_keyEdges_iff.mpr ⟨loop, resolved.attr, start ▸ attrMem, ?_, reference, named, ?_⟩)
        · rw [required]
          rfl
        · exact agree _ inside _ attrMem reference named k first

theorem generatesNoCycle_of_valid [Unicode] (agree : LookupsAgree schema) (valid : IsValid schema) :
    GeneratesNoCycle schema := by
  intro start stop connected
  by_contra different
  have drawn {x y : Entity} (path : ReflTransGen (GeneratesRequired schema) x y) (apart : x ≠ y) :
      ∃ i, schema.entities.get i = x := by
    rcases path.cases_head with same | ⟨middle, ⟨resolved, mem, rfl, -⟩, -⟩
    · exact absurd same apart
    · exact List.mem_iff_get.mp (Generator.mem_resolvedKeys.mp mem).1
  rcases drawn connected.1 different with ⟨i, rfl⟩
  have injective : Function.Injective schema.entities.get :=
    List.nodup_iff_injective_get.mp valid.nodup_entityKeys.of_map
  rcases reaches_of_generated agree connected.1 with ⟨j, rfl, there⟩
  rcases reaches_of_generated agree connected.2 with ⟨k, same, back⟩
  cases injective same
  have apart : i ≠ j := fun same => different (congrArg _ same)
  rcases exists_group apart ⟨there, back⟩ with ⟨cycle, isCycle, inCycle, -⟩
  have wide : Connected (allEdges schema) i j :=
    Digraph.Connected.mono requiredEdges_subset ⟨there, back⟩
  rcases exists_group apart wide with ⟨component, found, mem, -⟩
  have blocked : isBlocked (stronglyConnected _ (requiredEdges schema)) component = true := by
    simp only [isBlocked, List.any_eq_true, List.contains_eq_mem, decide_eq_true_eq]
    exact ⟨cycle, isCycle, i, inCycle, mem⟩
  have quiet := isValid_iff.mp valid checkCycles (by simp [checks]) _ (List.mem_map_of_mem found)
  rw [Diagnostic.isError, severity_cycleDiagnostic, if_pos blocked] at quiet
  cases quiet

/-- The cycle check looks at the tables that the foreign keys are resolved to, and so a schema
without errors generates no cycle, exactly if no foreign key names two tables. -/
theorem cycleCheck_sound_iff [Unicode] (schema : Schema) :
    (LookupsAgree schema ∧ (IsValid schema → GeneratesNoCycle schema)) ↔ NamesOneTable schema := by
  rw [← lookupsAgree_iff_namesOneTable]
  exact and_iff_left_of_imp generatesNoCycle_of_valid

end

/-- Two tables that reference each other, and a third with the id of the first. -/
def twinSchema : Schema :=
  let integer : DataType := ⟨.integer, none, none, none⟩
  let key (id : Str) (reference : Option ForeignKeyRef) : Attribute :=
    { Attribute.new id "id" integer with
      nullable := false, primaryKey := true, foreignKey := reference }
  { id := "s"
    name := "orders"
    description := []
    entities :=
      [{ Entity.new "t" "orders" with attributes := [key "a" (some ⟨"u", "b"⟩)] },
        { Entity.new "u" "invoices" with attributes := [key "b" (some ⟨"t", "a"⟩)] },
        { Entity.new "t" "notes" with attributes := [key "c" none] }]
    relationships := [] }

/-- No error is reported, and the two tables of the script that reference each other cannot take a
first row. -/
theorem not_lookupsAgree_twinSchema :
    @IsValid Unicode.ascii twinSchema ∧ ¬ LookupsAgree twinSchema ∧
      ¬ GeneratesNoCycle twinSchema := by
  refine ⟨by decide, ?_, ?_⟩
  · intro agree
    have names :=
      lookupsAgree_iff_namesOneTable.mp agree _ (List.mem_cons_of_mem _ List.mem_cons_self) _
      List.mem_cons_self ⟨"t", "a"⟩ rfl
    revert names
    decide
  · intro acyclic
    -- `orders` and `invoices`, as the two resolved keys have them
    have edges : ∃ there ∈ Generator.resolvedKeys twinSchema,
        ∃ back ∈ Generator.resolvedKeys twinSchema, there.attr.nullable = false ∧
          back.attr.nullable = false ∧ back.entity = there.target ∧
          back.target = there.entity ∧ there.entity ≠ there.target := by decide +kernel
    rcases edges with
      ⟨there, thereMem, back, backMem, thereRequired, backRequired, start, stop, apart⟩
    refine apart (acyclic _ _ ⟨.single ⟨there, thereMem, rfl, rfl, thereRequired⟩, ?_⟩)
    exact .single ⟨back, backMem, start, stop, backRequired⟩

end SchemaForge.Verifier
