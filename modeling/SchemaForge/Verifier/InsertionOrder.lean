import SchemaForge.Verifier.Components
import SchemaForge.Verifier.Cycles

/-!
# The cycle check decides insertion order

What the check is for: rows can go into the tables one table after another
exactly when no error is pushed. The specification speaks of tables by their ids
and of `NOT NULL` foreign keys, and does not mention the algorithm.
-/

namespace SchemaForge.Verifier

open Relation

/-- Table `start` has a `NOT NULL` foreign key to the existing table `stop`, both given by id. -/
def RequiredKey (schema : Schema) (start stop : Str) : Prop :=
  ∃ entity ∈ schema.entities, entity.id = start ∧ ∃ attr ∈ entity.attributes,
    attr.nullable = false ∧ ∃ reference, attr.foreignKey = some reference ∧
      reference.entityId = stop ∧ stop ∈ schema.entities.map Entity.id

/-- Every `NOT NULL` foreign key points at its own table or at a table earlier in the order. -/
def IsInsertionOrder (schema : Schema) (order : List Entity) : Prop :=
  order.Perm schema.entities ∧ ∀ before entity after, order = before ++ entity :: after →
    ∀ attr ∈ entity.attributes, attr.nullable = false → ∀ reference ∈ attr.foreignKey,
      reference.entityId ∈ schema.entities.map Entity.id →
        reference.entityId = entity.id ∨ reference.entityId ∈ before.map Entity.id

/-- The group holds a cycle through two tables at least, made only of `NOT NULL` foreign keys. -/
def HasRequiredCycle (schema : Schema) (group : List Str) : Prop :=
  ∃ a ∈ group, ∃ b ∈ group, a ≠ b ∧
    Digraph.Connected (fun u v => RequiredKey schema u v ∧ u ∈ group ∧ v ∈ group) a b

section Edges

variable {schema : Schema}

/-- The id of the table at a position. -/
def idAt (schema : Schema) (position : Fin schema.entities.length) : Str :=
  (schema.entities.get position).id

theorem idAt_injective (distinct : (schema.entities.map Entity.id).Nodup) :
    Function.Injective (idAt schema) := by
  intro i j same
  have := List.nodup_iff_injective_get.mp distinct
  have images := @this (Fin.cast (by simp) i) (Fin.cast (by simp) j) (by simpa [idAt] using same)
  simpa [Fin.ext_iff] using images

theorem exists_idAt {id : Str} : id ∈ schema.entities.map Entity.id ↔ ∃ i, idAt schema i = id := by
  simp only [idAt, List.mem_map]
  constructor
  · rintro ⟨entity, mem, rfl⟩
    obtain ⟨i, rfl⟩ := List.mem_iff_get.mp mem
    exact ⟨i, rfl⟩
  · rintro ⟨i, rfl⟩
    exact ⟨_, List.get_mem _ i, rfl⟩

theorem positionOf_eq_some_iff (distinct : (schema.entities.map Entity.id).Nodup) {id : Str}
    {i : Fin schema.entities.length} : positionOf schema id = some i ↔ idAt schema i = id := by
  constructor
  · intro found
    simpa [idAt] using List.find?_some found
  · intro same
    cases found : positionOf schema id with
    | none =>
        have missing := List.find?_eq_none.mp found i (by simp)
        exact absurd same (by simpa [idAt] using missing)
    | some j =>
        have other : idAt schema j = id := by simpa [idAt] using List.find?_some found
        exact congrArg some (idAt_injective distinct (other.trans same.symm))

theorem mem_keyEdges_iff {keep : Attribute → Bool} {i j : Fin schema.entities.length} :
    (i, j) ∈ keyEdges schema keep ↔ j ≠ i ∧ ∃ attr ∈ (schema.entities.get i).attributes,
      keep attr = true ∧ ∃ reference, attr.foreignKey = some reference ∧
        positionOf schema reference.entityId = some j := by
  simp only [keyEdges, List.mem_flatMap, List.mem_finRange, true_and, List.mem_filterMap,
    Option.bind_eq_bind, Option.bind_eq_some_iff]
  constructor
  · rintro ⟨start, attr, mem, reference, key, stop, named, kept⟩
    split_ifs at kept with loop selected
    simp only [Option.some.injEq, Prod.mk.injEq] at kept
    obtain ⟨rfl, rfl⟩ := kept
    exact ⟨loop, attr, mem, selected, reference, key, named⟩
  · rintro ⟨proper, attr, mem, selected, reference, key, named⟩
    refine ⟨i, attr, mem, reference, key, j, named, ?_⟩
    simp [proper, selected]

theorem mem_keyEdges (distinct : (schema.entities.map Entity.id).Nodup) {keep : Attribute → Bool}
    {i j : Fin schema.entities.length} :
    (i, j) ∈ keyEdges schema keep ↔ j ≠ i ∧ ∃ attr ∈ (schema.entities.get i).attributes,
      keep attr = true ∧ ∃ reference, attr.foreignKey = some reference ∧
        reference.entityId = idAt schema j := by
  simp only [mem_keyEdges_iff, positionOf_eq_some_iff distinct, eq_comm]

theorem requiredEdges_subset (i j : Fin schema.entities.length)
    (edge : (i, j) ∈ requiredEdges schema) :
    (i, j) ∈ allEdges schema := by
  obtain ⟨proper, attr, mem, -, key⟩ := mem_keyEdges_iff.mp edge
  exact mem_keyEdges_iff.mpr ⟨proper, attr, mem, rfl, key⟩

theorem mem_requiredEdges (distinct : (schema.entities.map Entity.id).Nodup)
    {i j : Fin schema.entities.length} :
    (i, j) ∈ requiredEdges schema ↔ j ≠ i ∧ RequiredKey schema (idAt schema i) (idAt schema j) := by
  rw [requiredEdges, mem_keyEdges distinct, and_congr_right_iff]
  intro _
  constructor
  · rintro ⟨attr, mem, required, reference, key, named⟩
    exact ⟨_, List.get_mem _ i, rfl, attr, mem, by simpa using required, reference, key, named,
      exists_idAt.mpr ⟨j, rfl⟩⟩
  · rintro ⟨entity, inside, same, attr, mem, required, reference, key, named, -⟩
    obtain ⟨k, rfl⟩ := List.mem_iff_get.mp inside
    obtain rfl : k = i := idAt_injective distinct same
    exact ⟨attr, mem, by simpa using required, reference, key, named⟩

/-- A path of required keys between ids is a path of edges between positions. -/
theorem reaches_of_ids (distinct : (schema.entities.map Entity.id).Nodup)
    {i : Fin schema.entities.length} {b : Str}
    (path : ReflTransGen (RequiredKey schema) (idAt schema i) b) :
    ∃ j, idAt schema j = b ∧ ReflTransGen (fun x y => (x, y) ∈ requiredEdges schema) i j := by
  induction path with
  | refl => exact ⟨i, rfl, .refl⟩
  | @tail u v _ key ih =>
      obtain ⟨j, rfl, path⟩ := ih
      obtain ⟨k, rfl⟩ : ∃ k, idAt schema k = v := by
        obtain ⟨_, _, _, _, _, _, _, _, _, exists_⟩ := key
        exact exists_idAt.mp exists_
      by_cases loop : k = j
      · exact ⟨j, by rw [loop], path⟩
      · exact ⟨k, rfl, path.tail ((mem_requiredEdges distinct).mpr ⟨loop, key⟩)⟩

theorem connected_of_ids (distinct : (schema.entities.map Entity.id).Nodup)
    {i j : Fin schema.entities.length}
    (connected : Digraph.Connected (RequiredKey schema) (idAt schema i) (idAt schema j)) :
    Connected (requiredEdges schema) i j := by
  obtain ⟨k, same, path⟩ := reaches_of_ids distinct connected.1
  obtain ⟨l, again, back⟩ := reaches_of_ids distinct connected.2
  obtain rfl := idAt_injective distinct same
  obtain rfl := idAt_injective distinct again
  exact ⟨path, back⟩

end Edges

section Diagnostics

variable {schema : Schema}

theorem foldl_about (positions : List (Fin schema.entities.length)) (diagnostic : Diagnostic) :
    positions.foldl (fun diagnostic position => diagnostic.about (schema.entities.get position).id)
        diagnostic =
      { diagnostic with elementIds := diagnostic.elementIds ++ positions.map (idAt schema) } := by
  induction positions generalizing diagnostic with
  | nil => simp
  | cons position positions ih =>
      rw [List.foldl_cons, ih]
      simp [Diagnostic.about, idAt]

theorem elementIds_cycleDiagnostic (blocked : List (List (Fin schema.entities.length)))
    (component : List (Fin schema.entities.length)) :
    (cycleDiagnostic schema blocked component).elementIds = component.map (idAt schema) := by
  rw [cycleDiagnostic.eq_def, foldl_about]
  cases component <;> dsimp only [Diagnostic.place] <;> split <;> rfl

theorem severity_cycleDiagnostic (blocked : List (List (Fin schema.entities.length)))
    (component : List (Fin schema.entities.length)) :
    (cycleDiagnostic schema blocked component).severity =
      if isBlocked blocked component then .error else .warning := by
  rw [cycleDiagnostic.eq_def, foldl_about]
  cases component <;> dsimp only [Diagnostic.place] <;> split <;> rfl

theorem code_cycleDiagnostic (blocked : List (List (Fin schema.entities.length)))
    (component : List (Fin schema.entities.length)) :
    (cycleDiagnostic schema blocked component).code = .circularDependency := by
  rw [cycleDiagnostic.eq_def, foldl_about]
  cases component <;> dsimp only [Diagnostic.place] <;> split <;> rfl

/-- A diagnosed group is blocked when two of its tables are connected by required keys. -/
theorem isBlocked_iff {component : List (Fin schema.entities.length)}
    (found : component ∈ stronglyConnected _ (allEdges schema)) :
    isBlocked (stronglyConnected _ (requiredEdges schema)) component = true ↔
      ∃ x ∈ component, ∃ y ∈ component, x ≠ y ∧ Connected (requiredEdges schema) x y := by
  simp only [isBlocked, List.any_eq_true, List.contains_eq_mem, decide_eq_true_eq]
  constructor
  · rintro ⟨cycle, isCycle, p, inCycle, inComponent⟩
    have widen : ∀ z ∈ cycle, z ∈ component := fun z mem => by
      rw [mem_group_iff found inComponent]
      exact ((mem_group_iff isCycle inCycle z).mp mem).mono (requiredEdges_subset)
    obtain ⟨x, xMem, y, yMem, different⟩ := exists_two_of_group isCycle
    exact ⟨x, widen x xMem, y, widen y yMem, different, (mem_group_iff isCycle xMem y).mp yMem⟩
  · rintro ⟨x, xMem, y, -, different, connected⟩
    obtain ⟨cycle, isCycle, inCycle, -⟩ := exists_group different connected
    exact ⟨cycle, isCycle, x, inCycle, xMem⟩

/-- Inside a diagnosed group, connection by required keys is a cycle that stays in the group. -/
theorem exists_connected_iff_hasRequiredCycle (distinct : (schema.entities.map Entity.id).Nodup)
    {component : List (Fin schema.entities.length)}
    (found : component ∈ stronglyConnected _ (allEdges schema)) :
    (∃ x ∈ component, ∃ y ∈ component, x ≠ y ∧ Connected (requiredEdges schema) x y) ↔
      HasRequiredCycle schema (component.map (idAt schema)) := by
  constructor
  · rintro ⟨x, xMem, y, yMem, different, connected⟩
    have inside {z : Fin schema.entities.length} (near : Connected (requiredEdges schema) x z) :
        idAt schema z ∈ component.map (idAt schema) := by
      refine List.mem_map_of_mem ?_
      rw [mem_group_iff found xMem]
      exact near.mono (requiredEdges_subset)
    -- The path stays among what is connected with `x`, and all of that is in the group.
    have lift {u v : Fin schema.entities.length} (near : Connected (requiredEdges schema) x u)
        (path : Connected (requiredEdges schema) u v) :
        ReflTransGen (fun a b => RequiredKey schema a b ∧ a ∈ component.map (idAt schema) ∧
          b ∈ component.map (idAt schema)) (idAt schema u) (idAt schema v) := by
      refine ReflTransGen.lift (idAt schema) ?_ _ _ (Digraph.reaches_within path)
      rintro a b ⟨edge, fromU, toV⟩
      exact ⟨((mem_requiredEdges distinct).mp edge).2, inside (near.trans fromU),
        inside (near.trans toV)⟩
    refine ⟨_, List.mem_map_of_mem xMem, _, List.mem_map_of_mem yMem,
      fun same => different (idAt_injective distinct same), lift (.refl x) connected,
      lift connected connected.symm⟩
  · rintro ⟨a, aMem, b, bMem, different, connected⟩
    obtain ⟨x, xMem, rfl⟩ := List.mem_map.mp aMem
    obtain ⟨y, yMem, rfl⟩ := List.mem_map.mp bMem
    refine ⟨x, xMem, y, yMem, fun same => different (by rw [same]), connected_of_ids distinct ?_⟩
    exact connected.mono fun _ _ step => step.1

end Diagnostics

section Orders

variable {schema : Schema}

/-- Without a cycle of required keys the tables can be ordered. -/
theorem exists_insertionOrder (distinct : (schema.entities.map Entity.id).Nodup)
    (acyclic : ∀ x y, Connected (requiredEdges schema) x y → x = y) :
    ∃ order, IsInsertionOrder schema order := by
  obtain ⟨order, perm, backward⟩ := @Digraph.exists_order _ _ (List.finRange _) acyclic
  have listed := perm.map schema.entities.get
  rw [← List.ofFn_eq_map, List.ofFn_get] at listed
  refine ⟨order.map schema.entities.get, listed, ?_⟩
  intro before entity after split attr mem required reference key exists_
  obtain ⟨front, rest, rfl, frontShape, restShape⟩ := List.map_eq_append_iff.mp split
  obtain ⟨i, back, rfl, rfl, rfl⟩ := List.map_eq_cons_iff.mp restShape
  obtain ⟨j, named⟩ := exists_idAt.mp exists_
  by_cases own : j = i
  · left
    rw [← named, own]
    rfl
  · right
    have edge : (i, j) ∈ requiredEdges schema :=
      (mem_keyEdges distinct).mpr ⟨own, attr, mem, by simpa using required, reference, key,
        named.symm⟩
    rcases backward front i back rfl j (List.mem_finRange j) edge with same | earlier
    · exact absurd same own
    · rw [← named, ← frontShape, List.map_map]
      exact List.mem_map_of_mem (f := Entity.id ∘ schema.entities.get) earlier

/-- An order of the tables excludes cycles of required keys. -/
theorem eq_of_insertionOrder (distinct : (schema.entities.map Entity.id).Nodup)
    {order : List Entity} (inserted : IsInsertionOrder schema order)
    {x y : Fin schema.entities.length} (connected : Connected (requiredEdges schema) x y) :
    x = y := by
  obtain ⟨perm, backward⟩ := inserted
  have ids := perm.map Entity.id
  refine (idAt_injective distinct ?_).symm
  refine Digraph.eq_of_connected_of_order (ids.nodup_iff.mpr distinct) ?_ ?_ connected
  · intro before b after split u v named edge
    obtain ⟨front, rest, rfl, rfl, restShape⟩ := List.map_eq_append_iff.mp split
    obtain ⟨entity, back, rfl, rfl, rfl⟩ := List.map_eq_cons_iff.mp restShape
    obtain ⟨-, attr, mem, required, reference, key, target⟩ := (mem_keyEdges distinct).mp edge
    have same : entity = schema.entities.get u := by
      have inside : entity ∈ schema.entities := perm.subset (by simp)
      obtain ⟨w, rfl⟩ := List.mem_iff_get.mp inside
      rw [idAt_injective distinct named]
    have exists_ : reference.entityId ∈ schema.entities.map Entity.id :=
      exists_idAt.mpr ⟨v, target.symm⟩
    rw [← target]
    exact backward front entity back rfl attr (same ▸ mem) (by simpa using required) reference key
      exists_
  · rw [ids.mem_iff]
    exact exists_idAt.mpr ⟨x, rfl⟩

end Orders

/--
The cycle check is complete for insertion order: it pushes an error exactly when the tables cannot
be filled one after another, and a diagnosed group is an error exactly when it holds a cycle of
`NOT NULL` foreign keys through two tables at least.
-/
theorem checkCycles_iff_no_insertionOrder {schema : Schema}
    (distinct : (schema.entities.map Entity.id).Nodup) :
    ((∃ diagnostic ∈ checkCycles schema,
        diagnostic.code = .circularDependency ∧ diagnostic.severity = .error) ↔
      ¬∃ order, IsInsertionOrder schema order) ∧
    ∀ diagnostic ∈ checkCycles schema,
      (diagnostic.severity = .error ↔ HasRequiredCycle schema diagnostic.elementIds) ∧
        (diagnostic.severity = .warning ↔ ¬HasRequiredCycle schema diagnostic.elementIds) := by
  have group {component : List (Fin schema.entities.length)}
      (found : component ∈ stronglyConnected _ (allEdges schema)) :=
    (isBlocked_iff found).trans (exists_connected_iff_hasRequiredCycle distinct found)
  constructor
  · constructor
    · rintro ⟨diagnostic, mem, -, error⟩ ⟨order, inserted⟩
      obtain ⟨component, found, rfl⟩ := List.mem_map.mp mem
      have blocked : isBlocked (stronglyConnected _ (requiredEdges schema)) component = true := by
        by_contra free
        simp [severity_cycleDiagnostic, free] at error
      obtain ⟨x, -, y, -, different, connected⟩ := (isBlocked_iff found).mp blocked
      exact different (eq_of_insertionOrder distinct inserted connected)
    · intro unordered
      obtain ⟨x, y, connected, different⟩ :
          ∃ x y, Connected (requiredEdges schema) x y ∧ x ≠ y := by
        by_contra acyclic
        push Not at acyclic
        exact unordered (exists_insertionOrder distinct acyclic)
      obtain ⟨component, found, xMem, yMem⟩ :=
        exists_group different (connected.mono (requiredEdges_subset))
      refine ⟨_, List.mem_map_of_mem found, code_cycleDiagnostic _ _, ?_⟩
      rw [severity_cycleDiagnostic,
        (isBlocked_iff found).mpr ⟨x, xMem, y, yMem, different, connected⟩, if_pos rfl]
  · intro diagnostic mem
    obtain ⟨component, found, rfl⟩ := List.mem_map.mp mem
    rw [elementIds_cycleDiagnostic, severity_cycleDiagnostic, ← group found]
    split <;> simp_all

/-- Two tables that reference each other, where one key may be left empty. -/
def mutualSchema (nullable : Bool) : Schema :=
  let integer : DataType := ⟨.integer, none, none, none⟩
  { id := "s"
    name := []
    description := []
    entities :=
      [{ Entity.new "t" "orders" with
          attributes := [{ Attribute.new "a" "invoice" integer with
            nullable := nullable, foreignKey := some ⟨"u", "b"⟩ }] },
        { Entity.new "u" "invoices" with
          attributes := [{ Attribute.new "b" "order" integer with
            nullable := false, foreignKey := some ⟨"t", "a"⟩ }] }]
    relationships := [] }

theorem insertionOrder_mutualSchema :
    (¬∃ order, IsInsertionOrder (mutualSchema false) order) ∧
      ∃ order, IsInsertionOrder (mutualSchema true) order := by
  constructor
  · exact (@checkCycles_iff_no_insertionOrder (mutualSchema false) (by decide)).1.mp (by
      decide)
  · by_contra unordered
    have error := (@checkCycles_iff_no_insertionOrder (mutualSchema true) (by decide)).1.mpr
      unordered
    revert error
    decide

end SchemaForge.Verifier
