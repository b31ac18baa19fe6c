import SchemaForge.Verifier.Directions
import SchemaForge.Verifier.DrawingOrder
import SchemaForge.Verifier.InsertionOrder
import SchemaForge.Verifier.SameNames

/-!
# What the verifier accepts

The verifier reports no error exactly on the well-formed schemas. What a
well-formed schema is says nothing of checks and diagnostics: names, types, keys,
lines, and an order in which the first rows can go in. Each check is taken alone;
the order of the checks and their warnings play no part.
-/

namespace SchemaForge.Verifier

/-- The parameters that the type takes are within what PostgreSQL allows. -/
structure HasSoundParameters (dataType : DataType) : Prop where
  length : dataType.kind.takesLength = true → ∀ length ∈ dataType.length, length ≠ 0 ∧
    length ≤ maxLength
  precision : dataType.kind.takesPrecision = true →
    ∀ precision ∈ dataType.precision, precision ≠ 0 ∧ precision ≤ maxPrecision
  scale : dataType.kind.takesPrecision = true →
    ∀ scale ∈ dataType.scale, dataType.precision ≠ none ∧ scale ≤ maxPrecision

/-- The foreign key of the column, if it has one, points at a key of its family of types. -/
def PointsAtKey (schema : Schema) (attr : Attribute) : Prop :=
  ∀ reference ∈ attr.foreignKey, ∃ target key,
    schema.resolve reference.entityId reference.attributeId = some (target, key) ∧
      isUniqueKey target key = true ∧ attr.dataType.isCompatibleWith key.dataType = true

/--
The line joins two columns, and one of them is a foreign key to the other unless a join table is
meant.
-/
def IsBorne (schema : Schema) (link : Relationship) : Prop :=
  ∃ fromEntity start toEntity stop,
    schema.resolve link.fromEntityId link.fromAttributeId = some (fromEntity, start) ∧
      schema.resolve link.toEntityId link.toAttributeId = some (toEntity, stop) ∧
      (link.cardinality.requiresJoinTable = true ∨ pointsAt start toEntity stop = true ∨
        pointsAt stop fromEntity start = true)

structure IsWellFormed [Unicode] (schema : Schema) : Prop where
  tablesNamed : ∀ entity ∈ schema.entities, Str.trim entity.name ≠ []
  columnsNamed : ∀ entity ∈ schema.entities, ∀ attr ∈ entity.attributes, Str.trim attr.name ≠ []
  parameters : ∀ entity ∈ schema.entities, ∀ attr ∈ entity.attributes,
    HasSoundParameters attr.dataType
  tablesApart : (schema.entities.map fun entity => nameKey entity.name).Nodup
  columnsApart : ∀ entity ∈ schema.entities,
    (entity.attributes.map fun attr => nameKey attr.name).Nodup
  keyed : ∀ entity ∈ schema.entities, ∃ attr ∈ entity.attributes, attr.primaryKey = true
  references : ∀ entity ∈ schema.entities, ∀ attr ∈ entity.attributes, PointsAtKey schema attr
  lines : ∀ link ∈ schema.relationships, IsBorne schema link
  /-- No two tables wait for one another through columns that need a value. -/
  enterable : ∀ start stop, start ≠ stop → ¬Connected (requiredEdges schema) start stop

def IsSilent (diagnostics : List Diagnostic) : Prop :=
  ∀ diagnostic ∈ diagnostics, diagnostic.isError = false

theorem isSilent_append {first second : List Diagnostic} :
    IsSilent (first ++ second) ↔ IsSilent first ∧ IsSilent second :=
  List.forall_mem_append

theorem isSilent_flatMap {α : Type} {items : List α} {problems : α → List Diagnostic} :
    IsSilent (items.flatMap problems) ↔ ∀ item ∈ items, IsSilent (problems item) := by
  simp only [IsSilent, List.forall_mem_flatMap]

theorem isSilent_ite {sound : Prop} [Decidable sound] {diagnostic : Diagnostic}
    (error : diagnostic.isError = true) :
    IsSilent (if sound then [] else [diagnostic]) ↔ sound := by
  by_cases holds : sound
  · simp [IsSilent, holds]
  · simp [IsSilent, holds, error]

theorem isSilent_checkNames_iff {schema : Schema} : IsSilent (checkNames schema) ↔
    ∀ entity ∈ schema.entities, Str.trim entity.name ≠ [] ∧ ∀ attr ∈ entity.attributes,
    Str.trim attr.name ≠ [] := by
  rw [checkNames, isSilent_flatMap]
  refine forall₂_congr fun entity _ => ?_
  rw [isSilent_append, isSilent_flatMap]
  refine and_congr ?_ (forall₂_congr fun attr _ => ?_)
  · cases blank : Str.trim entity.name <;> simp [IsSilent]
  · cases blank : Str.trim attr.name <;> simp [IsSilent]

theorem ite_some_eq_none_iff {wrong : Prop} [Decidable wrong] {message : Str} {rest : Option Str} :
    (if wrong then some message else rest) = none ↔ ¬wrong ∧ rest = none := by
  split
  · rename_i holds
    exact iff_of_false (Option.some_ne_none _) fun both => both.1 holds
  · rename_i fails
    exact (and_iff_right fails).symm

theorem parameterProblem_eq_none_iff {dataType : DataType} :
    parameterProblem dataType = none ↔ HasSoundParameters dataType := by
  -- No kind takes both a length and a precision.
  have either : dataType.kind.takesLength = true → dataType.kind.takesPrecision ≠ true := by
    cases dataType.kind <;> decide
  rw [parameterProblem]
  split
  · rename_i takesLength
    have noPrecision := either takesLength
    cases length : dataType.length with
    | none =>
        refine iff_of_true rfl ⟨?_, fun takes => absurd takes noPrecision, fun takes =>
          absurd takes noPrecision⟩
        simp [length]
    | some length' =>
        simp only [ite_some_eq_none_iff, and_true]
        constructor
        · rintro ⟨positive, short⟩
          refine ⟨?_, fun takes => absurd takes noPrecision, fun takes => absurd takes noPrecision⟩
          intro _ other found
          rw [length, Option.mem_some_iff] at found
          subst found
          exact ⟨positive, UInt32.not_lt.mp short⟩
        · intro sound
          have bounds := sound.length takesLength length' length
          exact ⟨bounds.1, UInt32.not_lt.mpr bounds.2⟩
  · rename_i noLength
    split
    · rename_i takesPrecision
      cases precision : dataType.precision with
      | none =>
          cases scale : dataType.scale with
          | none =>
              exact iff_of_true rfl
                ⟨fun takes => absurd takes noLength, by simp [precision], by simp [scale]⟩
          | some scale' =>
              refine iff_of_false (Option.some_ne_none _) fun sound => ?_
              exact (sound.scale takesPrecision scale' scale).1 precision
      | some precision' =>
          have finer : (∀ scale ∈ dataType.scale, scale ≤ maxPrecision) ∧ precision' ≠ 0 ∧
              precision' ≤ maxPrecision ↔
              HasSoundParameters dataType := by
            constructor
            · rintro ⟨scales, positive, fine⟩
              refine ⟨fun takes => absurd takes noLength, ?_, ?_⟩
              · intro _ other found
                rw [precision, Option.mem_some_iff] at found
                subst found
                exact ⟨positive, fine⟩
              · intro _ scale found
                exact ⟨by simp [precision], scales scale found⟩
            · intro sound
              exact ⟨fun scale found => (sound.scale takesPrecision scale found).2,
                sound.precision takesPrecision precision' precision⟩
          rw [← finer]
          cases dataType.scale with
          | none =>
              simp only [ite_some_eq_none_iff, and_true, UInt32.not_lt]
              simp
          | some scale =>
              simp only [ite_some_eq_none_iff, and_true, UInt32.not_lt,
                Option.mem_some_iff, forall_eq']
              exact and_assoc.symm.trans and_comm
    · rename_i noPrecision
      exact iff_of_true rfl ⟨fun takes => absurd takes noLength, fun takes =>
        absurd takes noPrecision, fun takes => absurd takes noPrecision⟩

theorem isSilent_checkTypeParameters_iff {schema : Schema} : IsSilent (checkTypeParameters schema) ↔
    ∀ entity ∈ schema.entities, ∀ attr ∈ entity.attributes, HasSoundParameters attr.dataType := by
  rw [checkTypeParameters, isSilent_flatMap]
  refine forall₂_congr fun entity _ => ?_
  rw [isSilent_flatMap]
  refine forall₂_congr fun attr _ => ?_
  rw [← parameterProblem_eq_none_iff]
  cases parameterProblem attr.dataType <;> simp [IsSilent]

theorem isSilent_checkRelationshipEnds_iff {schema : Schema} :
    IsSilent (checkRelationshipEnds schema) ↔
    ∀ link ∈ schema.relationships,
      (schema.resolve link.fromEntityId link.fromAttributeId).isSome = true ∧
      (schema.resolve link.toEntityId link.toAttributeId).isSome = true := by
  rw [checkRelationshipEnds_eq, isSilent_flatMap]
  refine forall₂_congr fun link _ => ?_
  rw [endProblems, ← Bool.and_eq_true]
  split
  · rename_i both
    simp [IsSilent, both]
  · rename_i dangling
    refine iff_of_false ?_ dangling
    cases (schema.entity link.fromEntityId).or (schema.entity link.toEntityId) <;> simp [IsSilent]

theorem isSilent_checkPrimaryKeys_iff {schema : Schema} : IsSilent (checkPrimaryKeys schema) ↔
    ∀ entity ∈ schema.entities, ∃ attr ∈ entity.attributes, attr.primaryKey = true := by
  rw [checkPrimaryKeys, isSilent_flatMap]
  refine forall₂_congr fun entity _ => ?_
  rw [isSilent_ite rfl, Entity.hasPrimaryKey, List.any_eq_true]

theorem isSilent_checkForeignKeys_iff {schema : Schema} : IsSilent (checkForeignKeys schema) ↔
    ∀ entity ∈ schema.entities, ∀ attr ∈ entity.attributes, PointsAtKey schema attr := by
  rw [checkForeignKeys_eq, isSilent_flatMap]
  refine forall₂_congr fun entity _ => ?_
  rw [isSilent_flatMap]
  refine forall₂_congr fun attr _ => ?_
  rw [referenceProblems, PointsAtKey]
  cases attr.foreignKey with
  | none => simp [IsSilent]
  | some reference =>
      simp only [Option.mem_some_iff, forall_eq']
      cases schema.resolve reference.entityId reference.attributeId with
      | none => simp [IsSilent]
      | some pair =>
          rcases pair with ⟨target, key⟩
          simp only [Option.some.injEq, Prod.mk.injEq]
          cases unique : isUniqueKey target key <;>
            cases compatible : attr.dataType.isCompatibleWith key.dataType <;>
              cases narrower : isNarrower attr.dataType key.dataType <;> simp_all [IsSilent]

theorem isSilent_keyProblems_iff {schema : Schema} {link : Relationship}
    {fromEntity toEntity : Entity} {start stop : Attribute}
    (from_ : schema.resolve link.fromEntityId link.fromAttributeId = some (fromEntity, start))
    (to_ : schema.resolve link.toEntityId link.toAttributeId = some (toEntity, stop)) :
    IsSilent (keyProblems schema link) ↔ link.cardinality.requiresJoinTable = true ∨
      pointsAt start toEntity stop = true ∨ pointsAt stop fromEntity start = true := by
  have warned (entity : Entity) (attr : Attribute) :
      IsSilent (cardinalityWarning schema link entity attr) := by
    unfold cardinalityWarning
    split <;> simp [IsSilent]
  rw [keyProblems]
  simp only [from_, to_]
  split
  · rename_i joined
    exact iff_of_true (by simp [IsSilent]) (.inl joined)
  · rename_i drawn
    split
    · rename_i forward
      exact iff_of_true (warned fromEntity start) (.inr (.inl forward))
    · rename_i ahead
      split
      · rename_i backward
        exact iff_of_true (warned toEntity stop) (.inr (.inr backward))
      · rename_i behind
        exact iff_of_false (by simp [IsSilent]) (by simp [drawn, ahead, behind])

theorem isSilent_lines_iff {schema : Schema} :
    IsSilent (checkRelationshipEnds schema) ∧ IsSilent (checkRelationships schema) ↔
      ∀ link ∈ schema.relationships, IsBorne schema link := by
  rw [isSilent_checkRelationshipEnds_iff, checkRelationships_eq, isSilent_flatMap, ← forall₂_and]
  refine forall₂_congr fun link _ => ?_
  rw [IsBorne]
  cases from_ : schema.resolve link.fromEntityId link.fromAttributeId with
  | none => simp
  | some start =>
      cases to_ : schema.resolve link.toEntityId link.toAttributeId with
      | none => simp
      | some stop =>
          rcases start with ⟨fromEntity, start⟩
          rcases stop with ⟨toEntity, stop⟩
          rw [isSilent_keyProblems_iff from_ to_]
          constructor
          · rintro ⟨-, borne⟩
            exact ⟨_, _, _, _, rfl, rfl, borne⟩
          · rintro ⟨_, _, _, _, ⟨⟩, ⟨⟩, borne⟩
            exact ⟨⟨rfl, rfl⟩, borne⟩

/-- A check leaves groups of one name exactly where two keys agree. -/
theorem sameNameGroups_eq_nil_iff [Unicode] {α : Type} {items : List α} {name : α → Str}
    (named : ∀ item ∈ items, Str.trim (name item) ≠ []) :
    sameNameGroups items name = [] ↔ (items.map fun item => nameKey (name item)).Nodup := by
  refine ⟨fun none => nodup_of_sameNameGroups none named, fun distinct => ?_⟩
  rw [List.eq_nil_iff_forall_not_mem]
  intro group mem
  rcases mem_sameNameGroups.mp mem with ⟨long, key, -, rfl⟩
  have once : ((items.map fun item => nameKey (name item)).count key) ≤ 1 :=
    List.nodup_iff_count_le_one.mp distinct key
  rw [List.count, List.countP_map, List.countP_eq_length_filter] at once
  refine absurd once (not_le.mpr ?_)
  refine lt_of_lt_of_eq long (congrArg List.length (List.filter_congr fun item _ => ?_))
  rw [Function.comp_apply, Bool.eq_iff_iff, decide_eq_true_iff, beq_iff_eq]

theorem isSilent_checkDuplicateNames_iff [Unicode] {schema : Schema}
    (named : ∀ entity ∈ schema.entities, Str.trim entity.name ≠ [] ∧
      ∀ attr ∈ entity.attributes, Str.trim attr.name ≠ []) :
    IsSilent (checkDuplicateNames schema) ↔
      (schema.entities.map fun entity => nameKey entity.name).Nodup ∧
      ∀ entity ∈ schema.entities, (entity.attributes.map fun attr => nameKey attr.name).Nodup := by
  have quiet {α : Type} {groups : List (List α)} {id : α → Str} {start : α → Nat → Diagnostic}
      (nonempty : ∀ group ∈ groups, group ≠ [])
      (error : ∀ first count, (start first count).isError = true) :
      IsSilent (groups.flatMap (sameNameProblems id start)) ↔ groups = [] := by
    rw [isSilent_flatMap, List.eq_nil_iff_forall_not_mem]
    refine forall_congr' fun group => imp_congr_right fun mem => iff_of_false ?_ not_false
    cases group with
    | nil => exact absurd rfl (nonempty _ mem)
    | cons first rest =>
        simp [sameNameProblems, IsSilent, IsValid.isError_foldl_about, error]
  rw [checkDuplicateNames_eq, isSilent_append]
  refine and_congr ?_ (isSilent_flatMap.trans (forall₂_congr fun entity mem => ?_))
  · rw [quiet (fun _ => IsValid.sameNameGroups_ne_nil) fun _ _ => rfl,
      sameNameGroups_eq_nil_iff fun entity mem => (named entity mem).1]
  · rw [quiet (fun _ => IsValid.sameNameGroups_ne_nil) fun _ _ =>
      rfl, sameNameGroups_eq_nil_iff (named entity mem).2]

theorem isSilent_checkCycles_iff {schema : Schema} : IsSilent (checkCycles schema) ↔
    ∀ start stop, start ≠ stop → ¬Connected (requiredEdges schema) start stop := by
  rw [checkCycles, IsSilent, List.forall_mem_map]
  have severity (group : List (Fin schema.entities.length)) :
      (cycleDiagnostic schema (stronglyConnected _ (requiredEdges schema)) group).isError =
        isBlocked (stronglyConnected _ (requiredEdges schema)) group := by
    rw [Diagnostic.isError, severity_cycleDiagnostic]
    cases isBlocked (stronglyConnected _ (requiredEdges schema)) group <;> rfl
  simp only [severity]
  constructor
  · intro unblocked start stop different connected
    have wide := connected.mono requiredEdges_subset
    rcases exists_group different wide with ⟨group, found, startMem, stopMem⟩
    have blocked := (isBlocked_iff found).mpr ⟨start, startMem, stop, stopMem, different, connected⟩
    rw [unblocked group found] at blocked
    cases blocked
  · intro enterable group found
    rw [Bool.eq_false_iff]
    intro blocked
    rcases (isBlocked_iff found).mp blocked with ⟨start, -, stop, -, different, connected⟩
    exact enterable start stop different connected

/-- The verifier reports no error exactly on the well-formed schemas. -/
theorem isValid_iff_isWellFormed [Unicode] {schema : Schema} :
    IsValid schema ↔ IsWellFormed schema := by
  have all : IsValid schema ↔ ∀ check ∈ checks, IsSilent (check schema) := isValid_iff
  have warnings : IsSilent (checkNotEmpty schema) ∧ IsSilent (checkDocumentation schema) := by
    constructor
    · unfold checkNotEmpty
      split <;> simp [IsSilent]
    · rw [checkDocumentation_eq, isSilent_append, isSilent_flatMap, isSilent_flatMap]
      constructor
      · intro entity _
        unfold descriptionProblems
        dsimp only
        split <;> simp [IsSilent, IsValid.isError_foldl_about]
      · intro link _
        split <;> simp [IsSilent]
  rw [all]
  simp only [checks, List.forall_mem_cons, List.not_mem_nil, false_implies, implies_true, and_true]
  constructor
  · rintro ⟨-, names, parameters, ends, duplicates, keys, references, lines, cycles, -⟩
    have named := isSilent_checkNames_iff.mp names
    have apart := (isSilent_checkDuplicateNames_iff named).mp duplicates
    exact ⟨fun entity mem => (named entity mem).1, fun entity mem => (named entity mem).2,
      isSilent_checkTypeParameters_iff.mp parameters, apart.1, apart.2,
      isSilent_checkPrimaryKeys_iff.mp keys, isSilent_checkForeignKeys_iff.mp references,
      isSilent_lines_iff.mp ⟨ends, lines⟩, isSilent_checkCycles_iff.mp cycles⟩
  · intro wellFormed
    have named := fun entity mem =>
        And.intro (wellFormed.tablesNamed entity mem) (wellFormed.columnsNamed entity mem)
    have lines := isSilent_lines_iff.mpr wellFormed.lines
    exact ⟨warnings.1, isSilent_checkNames_iff.mpr named,
      isSilent_checkTypeParameters_iff.mpr wellFormed.parameters,
      lines.1, (isSilent_checkDuplicateNames_iff named).mpr ⟨wellFormed.tablesApart,
        wellFormed.columnsApart⟩,
      isSilent_checkPrimaryKeys_iff.mpr wellFormed.keyed,
      isSilent_checkForeignKeys_iff.mpr wellFormed.references, lines.2,
      isSilent_checkCycles_iff.mpr wellFormed.enterable, warnings.2⟩

end SchemaForge.Verifier
