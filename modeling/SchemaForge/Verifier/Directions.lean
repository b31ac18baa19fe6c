import SchemaForge.Verifier.Valid

/-!
# The direction of a line

A line may be drawn from the key to the column that points at it, or the other
way round. The verifier looks for the foreign key at both ends, first at the one
the line starts from. Where two columns point at each other it is the direction
that decides which of them is held to the cardinality, and then both are unique
keys in a valid schema.
-/

namespace SchemaForge

/-- The line drawn the other way round. -/
def Relationship.reversed (link : Relationship) : Relationship :=
  { link with
    fromEntityId := link.toEntityId
    fromAttributeId := link.toAttributeId
    toEntityId := link.fromEntityId
    toAttributeId := link.fromAttributeId }

namespace Verifier

/-- The schema with the chosen lines drawn the other way round. -/
def reverseLines (chosen : Nat → Bool) (schema : Schema) : Schema :=
  { schema with
    relationships := schema.relationships.mapIdx fun index link =>
      if chosen index then link.reversed else link }

/-- What a diagnostic says apart from its message and its place. -/
def verdict (diagnostic : Diagnostic) : DiagnosticCode × Severity :=
  (diagnostic.code, diagnostic.severity)

variable {chosen : Nat → Bool} {schema : Schema}

section Lines

variable {α : Type} {f g : Relationship → List α}

theorem flatMap_reverseLines
    (kept : ∀ link ∈ schema.relationships, f link = g link ∧ f link.reversed = g link) :
    (reverseLines chosen schema).relationships.flatMap f = schema.relationships.flatMap g := by
  have items (links : List Relationship) (chosen : Nat → Bool)
      (kept : ∀ link ∈ links, f link = g link ∧ f link.reversed = g link) :
      (links.mapIdx fun index link => if chosen index then link.reversed else link).flatMap f =
        links.flatMap g := by
    induction links generalizing chosen with
    | nil => rfl
    | cons link links ih =>
        rw [List.mapIdx_cons, List.flatMap_cons, List.flatMap_cons]
        rw [ih (fun index => chosen (index + 1)) fun other mem =>
          kept other (List.mem_cons_of_mem _ mem)]
        rcases kept link List.mem_cons_self with ⟨same, reversed⟩
        split
        · rw [reversed]
        · rw [same]
  exact items schema.relationships chosen kept

end Lines

/-- What the ends of a line say about it. -/
def endProblems (schema : Schema) (link : Relationship) : List Diagnostic :=
  if (schema.resolve link.fromEntityId link.fromAttributeId).isSome &&
      (schema.resolve link.toEntityId link.toAttributeId).isSome then []
  else
    let diagnostic := (Diagnostic.error .danglingRelationship
      (relationship schema link ++ " points at a table or column that does not exist")).about
        link.id
    match (schema.entity link.fromEntityId).or (schema.entity link.toEntityId) with
    | some entity => [diagnostic.place entity.position]
    | none => [diagnostic]

theorem checkRelationshipEnds_eq (schema : Schema) :
    checkRelationshipEnds schema = schema.relationships.flatMap (endProblems schema) :=
  rfl

theorem verdict_endProblems (link : Relationship) : (endProblems schema link).map verdict =
    if (schema.resolve link.fromEntityId link.fromAttributeId).isSome &&
      (schema.resolve link.toEntityId link.toAttributeId).isSome then []
    else [(DiagnosticCode.danglingRelationship, Severity.error)] := by
  unfold endProblems
  split
  · rfl
  · cases (schema.entity link.fromEntityId).or (schema.entity link.toEntityId) with
    | none => rfl
    | some entity => rfl

theorem verdict_checkRelationshipEnds :
    (checkRelationshipEnds (reverseLines chosen schema)).map verdict =
      (checkRelationshipEnds schema).map verdict := by
  rw [checkRelationshipEnds_eq, checkRelationshipEnds_eq, List.map_flatMap, List.map_flatMap]
  apply flatMap_reverseLines
  intro link mem
  constructor
  · rw [verdict_endProblems, verdict_endProblems]
    rfl
  · rw [verdict_endProblems, verdict_endProblems, Bool.and_comm]
    rfl

/-- What the foreign keys at the ends of a line say about it. -/
def keyProblems (schema : Schema) (link : Relationship) : List Diagnostic :=
  if link.cardinality.requiresJoinTable then []
  else
    match schema.resolve link.fromEntityId link.fromAttributeId,
        schema.resolve link.toEntityId link.toAttributeId with
    | some (fromEntity, start), some (toEntity, stop) =>
        if pointsAt start toEntity stop then cardinalityWarning schema link fromEntity start
        else if pointsAt stop fromEntity start then cardinalityWarning schema link toEntity stop
        else
          [((Diagnostic.error .relationshipWithoutForeignKey
            (relationship schema link ++ " joins " ++ column fromEntity start ++ " and " ++
              column toEntity stop ++
              ", but neither column is a foreign key to the other")).about link.id).place
                fromEntity.position]
    | _, _ => []

theorem checkRelationships_eq (schema : Schema) :
    checkRelationships schema = schema.relationships.flatMap (keyProblems schema) :=
  rfl

/-- What a line of the cardinality is warned about, given whether its column is a unique key. -/
def cardinalityVerdict (cardinality : Cardinality) (isKey : Bool) :
    List (DiagnosticCode × Severity) :=
  match cardinality, isKey with
  | .oneToOne, false => [(.cardinalityMismatch, .warning)]
  | .oneToMany, true => [(.cardinalityMismatch, .warning)]
  | _, _ => []

theorem verdict_cardinalityWarning (link : Relationship) (entity : Entity) (attr : Attribute) :
    (cardinalityWarning schema link entity attr).map verdict =
      cardinalityVerdict link.cardinality (isUniqueKey entity attr) := by
  unfold cardinalityWarning cardinalityVerdict
  cases link.cardinality <;> cases isUniqueKey entity attr <;> rfl

/-- What is said of a line whose ends are found. -/
def joinVerdict (link : Relationship) (fromEntity toEntity : Entity) (start stop : Attribute) :
    List (DiagnosticCode × Severity) :=
  if pointsAt start toEntity stop then cardinalityVerdict link.cardinality
    (isUniqueKey fromEntity start)
  else if pointsAt stop fromEntity start then cardinalityVerdict link.cardinality
    (isUniqueKey toEntity stop)
  else [(.relationshipWithoutForeignKey, .error)]

theorem verdict_keyProblems {link : Relationship} {fromEntity toEntity : Entity}
    {start stop : Attribute} (direct : link.cardinality.requiresJoinTable = false)
    (left : schema.resolve link.fromEntityId link.fromAttributeId = some (fromEntity, start))
    (right : schema.resolve link.toEntityId link.toAttributeId = some (toEntity, stop)) :
    (keyProblems schema link).map verdict = joinVerdict link fromEntity toEntity start stop := by
  rw [keyProblems, direct, if_neg Bool.false_ne_true, left, right, joinVerdict]
  dsimp only
  split
  · apply verdict_cardinalityWarning
  · split
    · apply verdict_cardinalityWarning
    · rfl

theorem keyProblems_of_dangling {link : Relationship}
    (dangling : schema.resolve link.fromEntityId link.fromAttributeId = none ∨
      schema.resolve link.toEntityId link.toAttributeId = none) : keyProblems schema link = [] := by
  unfold keyProblems
  split
  · rfl
  · rcases dangling with missing | missing
    · rw [missing]
    · rw [missing]
      cases schema.resolve link.fromEntityId link.fromAttributeId <;> rfl

/-- A line is told the same in both directions, if the same is said of its ends in both. -/
theorem verdict_keyProblems_reversed {β : Type} {get : List (DiagnosticCode × Severity) → β}
    {link : Relationship} (agree : ∀ fromEntity toEntity start stop,
      schema.resolve link.fromEntityId link.fromAttributeId = some (fromEntity, start) →
      schema.resolve link.toEntityId link.toAttributeId = some (toEntity, stop) →
      get (joinVerdict link.reversed toEntity fromEntity stop start) =
        get (joinVerdict link fromEntity toEntity start stop)) :
    get ((keyProblems (reverseLines chosen schema) link).map verdict) =
        get ((keyProblems schema link).map verdict) ∧
      get ((keyProblems (reverseLines chosen schema) link.reversed).map verdict) =
        get ((keyProblems schema link).map verdict) := by
  by_cases joined : link.cardinality.requiresJoinTable = true
  · have silent (other : Schema) (line : Relationship)
        (same : line.cardinality = link.cardinality) :
        keyProblems other line = [] := by
      rw [keyProblems, same, if_pos joined]
    rw [silent _ link rfl, silent _ link.reversed rfl, silent _ link rfl]
    exact ⟨rfl, rfl⟩
  · rw [Bool.not_eq_true] at joined
    cases left : schema.resolve link.fromEntityId link.fromAttributeId with
    | none =>
        rw [keyProblems_of_dangling (Or.inl left),
          @keyProblems_of_dangling (reverseLines chosen schema) link
          (Or.inl left), @keyProblems_of_dangling (reverseLines chosen schema) link.reversed
          (Or.inr left)]
        exact ⟨rfl, rfl⟩
    | some start =>
        cases right : schema.resolve link.toEntityId link.toAttributeId with
        | none =>
            rw [keyProblems_of_dangling (Or.inr right),
              @keyProblems_of_dangling (reverseLines chosen schema)
              link (Or.inr right), @keyProblems_of_dangling
                (reverseLines chosen schema) link.reversed
              (Or.inl right)]
            exact ⟨rfl, rfl⟩
        | some stop =>
            rw [verdict_keyProblems joined left right,
              @verdict_keyProblems (reverseLines chosen schema) link
              _ _ _ _ joined left right, @verdict_keyProblems
                (reverseLines chosen schema) link.reversed
              _ _ _ _ joined right left]
            exact ⟨rfl, agree _ _ _ _ left right⟩

def isErrorVerdict (said : DiagnosticCode × Severity) : Bool := said.2 == .error

/-- Whether a line lacks a foreign key does not depend on its direction. -/
theorem errors_joinVerdict (link : Relationship) (fromEntity toEntity : Entity)
    (start stop : Attribute) :
    (joinVerdict link.reversed toEntity fromEntity stop start).filter isErrorVerdict =
      (joinVerdict link fromEntity toEntity start stop).filter isErrorVerdict := by
  have warned (cardinality : Cardinality) (isKey : Bool) :
      (cardinalityVerdict cardinality isKey).filter isErrorVerdict = [] := by
    cases cardinality <;> cases isKey <;> rfl
  unfold joinVerdict
  cases pointsAt start toEntity stop <;> cases pointsAt stop fromEntity start <;> simp [warned]

/-- A column that is pointed at from a column of a valid schema is a unique key. -/
theorem isUniqueKey_of_pointsAt [Unicode] (valid : IsValid schema) {entity target : Entity}
    {attr key : Attribute} {entityId attrId targetId keyId : Str}
    (here : schema.resolve entityId attrId = some (entity, attr))
    (there : schema.resolve targetId keyId = some (target, key))
    (points : pointsAt attr target key = true) : isUniqueKey target key = true := by
  rcases Schema.mem_of_resolve here with ⟨mem, attrMem, -, -⟩
  rcases Schema.mem_of_resolve there with ⟨-, -, rfl, rfl⟩
  unfold pointsAt at points
  cases referenced : attr.foreignKey with
  | none => simp [referenced] at points
  | some reference =>
      simp only [referenced, Bool.and_eq_true, beq_iff_eq] at points
      rcases valid.foreignKey_resolves mem attrMem referenced with ⟨target', key', found, unique⟩
      rw [points.1, points.2, there] at found
      cases found
      exact unique

theorem joinVerdict_of_isValid [Unicode] (valid : IsValid schema) {link : Relationship}
    {fromEntity toEntity : Entity} {start stop : Attribute}
    (left : schema.resolve link.fromEntityId link.fromAttributeId = some (fromEntity, start))
    (right : schema.resolve link.toEntityId link.toAttributeId = some (toEntity, stop)) :
    joinVerdict link.reversed toEntity fromEntity stop start =
      joinVerdict link fromEntity toEntity start stop := by
  unfold joinVerdict
  cases forth : pointsAt start toEntity stop with
  | false => cases pointsAt stop fromEntity start <;> rfl
  | true =>
      cases back : pointsAt stop fromEntity start with
      | false => rfl
      | true =>
          rw [isUniqueKey_of_pointsAt valid left right forth,
            isUniqueKey_of_pointsAt valid right left back]
          rfl

section Reports

variable [Unicode]

omit [Unicode] in
theorem cycleDiagnostic_reverseLines (blocked : List (List (Fin schema.entities.length)))
    (component : List (Fin schema.entities.length)) :
    cycleDiagnostic (reverseLines chosen schema) blocked component =
      cycleDiagnostic schema blocked component := by
  cases component with
  | nil => rfl
  | cons first component => rfl

omit [Unicode] in
theorem checkCycles_reverseLines :
    checkCycles (reverseLines chosen schema) = checkCycles schema := by
  apply List.map_congr_left
  intro component _
  apply cycleDiagnostic_reverseLines

theorem verdict_verify (schema : Schema) : (verify schema).diagnostics.map verdict =
    (checkNotEmpty schema ++ checkNames schema ++ checkTypeParameters schema).map verdict ++
      (checkRelationshipEnds schema).map verdict ++
      (checkDuplicateNames schema ++ checkPrimaryKeys schema ++ checkForeignKeys schema).map
        verdict ++
      (checkRelationships schema).map verdict ++ (checkCycles schema).map verdict ++
      (checkDocumentation schema).map verdict := by
  simp [verify, checks]

omit [Unicode] in
theorem verdict_checkDocumentation :
    (checkDocumentation (reverseLines chosen schema)).map verdict =
    (checkDocumentation schema).map verdict := by
  simp only [checkDocumentation, List.map_append, List.map_flatMap]
  congr 1
  apply flatMap_reverseLines
  intro link mem
  cases documented : link.isDocumented with
  | true =>
      have reversed : link.reversed.isDocumented = true := documented
      simp [reversed]
  | false =>
      have reversed : link.reversed.isDocumented = false := documented
      simp [reversed]
      constructor <;> rfl

omit [Unicode] in
theorem errors_checkRelationships :
    ((checkRelationships (reverseLines chosen schema)).map verdict).filter isErrorVerdict =
      ((checkRelationships schema).map verdict).filter isErrorVerdict := by
  rw [checkRelationships_eq, checkRelationships_eq]
  simp only [List.map_flatMap, List.filter_flatMap]
  apply flatMap_reverseLines
  intro link mem
  apply verdict_keyProblems_reversed
  intro fromEntity toEntity start stop _ _
  apply errors_joinVerdict

theorem verdict_checkRelationships (valid : IsValid schema) :
    (checkRelationships (reverseLines chosen schema)).map verdict =
    (checkRelationships schema).map verdict := by
  rw [checkRelationships_eq, checkRelationships_eq, List.map_flatMap, List.map_flatMap]
  apply flatMap_reverseLines
  intro link mem
  apply @verdict_keyProblems_reversed chosen schema _ id
  intro fromEntity toEntity start stop left right
  exact joinVerdict_of_isValid valid left right

theorem isValid_iff_verdict : IsValid schema ↔
    ((verify schema).diagnostics.map verdict).filter isErrorVerdict = [] := by
  rw [IsValid, Report.isValid, Bool.not_eq_true', List.any_eq_false, List.filter_map,
    List.map_eq_nil_iff, List.filter_eq_nil_iff]
  rfl

/--
Whether a schema is valid does not depend on how its lines are directed, nor what its report says.
-/
theorem verify_reverseLines (chosen : Nat → Bool) (schema : Schema) :
    (IsValid (reverseLines chosen schema) ↔ IsValid schema) ∧
      (IsValid schema → (verify (reverseLines chosen schema)).diagnostics.map verdict =
        (verify schema).diagnostics.map verdict) := by
  constructor
  · rw [isValid_iff_verdict, isValid_iff_verdict, verdict_verify, verdict_verify,
      verdict_checkRelationshipEnds, verdict_checkDocumentation, checkCycles_reverseLines]
    simp only [List.filter_append, errors_checkRelationships]
    rfl
  · intro valid
    rw [verdict_verify, verdict_verify, verdict_checkRelationshipEnds, verdict_checkDocumentation,
      verdict_checkRelationships valid, checkCycles_reverseLines]
    rfl

end Reports

/-- Two tables whose unique columns point at each other, and a line between these columns. -/
def licencesSchema : Schema :=
  let uuid : DataType := ⟨.uuid, none, none, none⟩
  let key (id : Str) : Attribute :=
  { Attribute.new id "id" uuid with primaryKey := true, nullable := false }
  let partner (id entity attr : Str) : Attribute :=
    { Attribute.new id "partner" uuid with unique := true, foreignKey := some ⟨entity, attr⟩ }
  { id := "s"
    name := []
    description := []
    entities :=
      [{ Entity.new "t" "drivers" with attributes := [key "a", partner "b" "u" "d"] },
        { Entity.new "u" "licences" with attributes := [key "c", partner "d" "t" "b"] }]
    relationships := [Relationship.new "r" ("t", "b") ("u", "d") .oneToMany] }

theorem verify_reverseLines_licencesSchema :
    @IsValid Unicode.ascii licencesSchema ∧
      (@verify Unicode.ascii (reverseLines (fun _ => true) licencesSchema)).diagnostics.map
        verdict =
        (@verify Unicode.ascii licencesSchema).diagnostics.map verdict := by
  have valid : @IsValid Unicode.ascii licencesSchema := by decide
  exact ⟨valid, (@verify_reverseLines Unicode.ascii (fun _ => true) licencesSchema).2 valid⟩

end Verifier

end SchemaForge
