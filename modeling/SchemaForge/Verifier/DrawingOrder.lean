import SchemaForge.Foundation.Matching
import SchemaForge.Verifier.Directions
import SchemaForge.Verifier.InsertionOrder
import SchemaForge.Verifier.SameNames
import SchemaForge.Verifier.Vectors

/-!
# The order of the drawing

Tables, the columns of a table, and lines are kept in the order they were drawn
in. A report blames the same elements for the same things in any order of them,
as long as ids are distinct. The diagnostics themselves come in another order,
and may be placed elsewhere.
-/

namespace SchemaForge.Verifier

/-- The same table, with its columns in another order. -/
structure SameColumns (left right : Entity) : Prop where
  id : left.id = right.id
  name : left.name = right.name
  description : left.description = right.description
  position : left.position = right.position
  attributes : left.attributes.Perm right.attributes

/-- The same drawing, with its tables, their columns, and its lines in another order. -/
structure Reordered (left right : Schema) : Prop where
  entities : ∃ middle, List.Forall₂ SameColumns left.entities middle ∧ middle.Perm right.entities
  relationships : left.relationships.Perm right.relationships

structure HasDistinctIds (schema : Schema) : Prop where
  entities : (schema.entities.map Entity.id).Nodup
  relationships : (schema.relationships.map Relationship.id).Nodup
  attributes : ∀ entity ∈ schema.entities, (entity.attributes.map Attribute.id).Nodup

/-- What a diagnostic says of which elements. -/
def signature (diagnostic : Diagnostic) : DiagnosticCode × Severity × Finset Str :=
  (diagnostic.code, diagnostic.severity, diagnostic.elementIds.toFinset)

section Lists

variable {α β γ : Type}

theorem map_eq_of_forall₂ {relates : α → β → Prop} {left : List α} {right : List β}
    (related : List.Forall₂ relates left right) {f : α → γ} {g : β → γ}
    (same : ∀ item other, relates item other → f item = g other) : left.map f = right.map g := by
  induction related with
  | nil => rfl
  | cons first _ ih => rw [List.map_cons, List.map_cons, ih, same _ _ first]

theorem perm_flatMap_of_forall₂ {relates : α → β → Prop} {left : List α} {middle right : List β}
    (related : List.Forall₂ relates left middle) (perm : middle.Perm right) {f : α → List γ}
    {g : β → List γ} (each : ∀ item other, relates item other → (f item).Perm (g other)) :
    (left.flatMap f).Perm (right.flatMap g) := by
  refine List.Perm.trans ?_ (perm.flatMap_right g)
  clear perm
  induction related with
  | nil => exact .nil
  | cons first _ ih =>
      rw [List.flatMap_cons, List.flatMap_cons]
      exact (each _ _ first).append ih

theorem find?_perm {p : α → Bool} {left right : List α} (perm : left.Perm right)
    (unique : ∀ a ∈ left, ∀ b ∈ left, p a = true → p b = true → a = b) :
    left.find? p = right.find? p := by
  cases found : left.find? p with
  | none =>
      rw [List.find?_eq_none] at found
      rw [eq_comm, List.find?_eq_none]
      exact fun item mem => found item (perm.mem_iff.mpr mem)
  | some item =>
      have mem := List.mem_of_find?_eq_some found
      cases other : right.find? p with
      | none =>
          exact absurd (List.find?_some found) (List.find?_eq_none.mp other item (perm.mem_iff.mp mem))
      | some thing =>
          have thingMem := perm.mem_iff.mpr (List.mem_of_find?_eq_some other)
          rw [unique item mem thing thingMem (List.find?_some found) (List.find?_some other)]

theorem rel_find? {relates : α → β → Prop} {p : α → Bool} {q : β → Bool} {left : List α}
    {right : List β} (related : List.Forall₂ relates left right)
    (same : ∀ item other, relates item other → p item = q other) :
    Option.Rel relates (left.find? p) (right.find? q) := by
  induction related with
  | nil => exact .none
  | @cons item other _ _ first _ ih =>
      rw [List.find?_cons, List.find?_cons, same item other first]
      cases q other with
      | true => exact .some first
      | false => exact ih

end Lists

namespace SameColumns

variable {left right : Entity}

theorem symm (same : SameColumns left right) : SameColumns right left where
  id := same.id.symm
  name := same.name.symm
  description := same.description.symm
  position := same.position.symm
  attributes := same.attributes.symm

theorem exists_attributes (same : SameColumns left right) :
    ∃ attributes, left.attributes.Perm attributes ∧
      right = { left with attributes := attributes } := by
  rcases left with ⟨id, name, description, attributes, position⟩
  rcases right with ⟨id', name', description', attributes', position'⟩
  rcases same with ⟨rfl, rfl, rfl, rfl, perm⟩
  exact ⟨attributes', perm, rfl⟩

theorem isUniqueKey (same : SameColumns left right) (attr : Attribute) :
    isUniqueKey left attr = isUniqueKey right attr := by
  have count : left.primaryKey.length = right.primaryKey.length :=
    (same.attributes.filter _).length_eq
  rw [Verifier.isUniqueKey, Verifier.isUniqueKey, count]

end SameColumns

section Lookups

variable {left right : Schema}

theorem perm_entities {γ : Type} {get : Entity → γ} (reordered : Reordered left right)
    (same : ∀ entity other, SameColumns entity other → get entity = get other) :
    (left.entities.map get).Perm (right.entities.map get) := by
  rcases reordered.entities with ⟨middle, related, perm⟩
  rw [map_eq_of_forall₂ related same]
  exact perm.map get

theorem nodup_ids (distinct : HasDistinctIds left) (reordered : Reordered left right) :
    (right.entities.map Entity.id).Nodup := by
  have perm := perm_entities reordered fun _ _ same => same.id
  exact perm.nodup_iff.mp distinct.entities

theorem rel_entity (distinct : HasDistinctIds left) (reordered : Reordered left right) (id : Str) :
    Option.Rel SameColumns (left.entity id) (right.entity id) := by
  have nodup := nodup_ids distinct reordered
  rcases reordered.entities with ⟨middle, related, perm⟩
  have ids := (perm.map Entity.id).nodup_iff.mpr nodup
  have found : middle.find? (fun entity => entity.id == id) = right.entity id := by
    apply find?_perm perm
    intro entity mem other otherMem this that
    rw [beq_iff_eq] at this that
    exact List.inj_on_of_nodup_map ids mem otherMem (this.trans that.symm)
  rw [← found]
  apply rel_find? related
  intro entity other same
  rw [same.id]

theorem attributeById_eq {entity other : Entity}
    (nodup : (entity.attributes.map Attribute.id).Nodup) (same : SameColumns entity other)
    (id : Str) : entity.attributeById id = other.attributeById id := by
  apply find?_perm same.attributes
  intro attr mem column columnMem this that
  rw [beq_iff_eq] at this that
  exact List.inj_on_of_nodup_map nodup mem columnMem (this.trans that.symm)

theorem rel_resolve (distinct : HasDistinctIds left) (reordered : Reordered left right)
    (entityId attrId : Str) :
    Option.Rel (fun pair other => SameColumns pair.1 other.1 ∧ pair.2 = other.2)
      (left.resolve entityId attrId) (right.resolve entityId attrId) := by
  rw [Schema.resolve, Schema.resolve]
  have related := rel_entity distinct reordered entityId
  cases found : left.entity entityId with
  | none =>
      rw [found] at related
      generalize right.entity entityId = other at related
      cases related
      exact .none
  | some entity =>
      rw [found] at related
      generalize right.entity entityId = other at related
      cases related with
      | @some _ other same =>
          have mem := List.mem_of_find?_eq_some found
          rw [Option.bind_some, Option.bind_some,
            attributeById_eq (distinct.attributes entity mem) same]
          cases other.attributeById attrId with
          | none => exact .none
          | some attr => exact .some ⟨same, rfl⟩

end Lookups

section Items

variable {left right : Schema}

theorem perm_tables (reordered : Reordered left right) {f g : Entity → List Diagnostic}
    (each : ∀ entity other, SameColumns entity other → ((f entity).map signature).Perm
      ((g other).map signature)) :
    ((left.entities.flatMap f).map signature).Perm ((right.entities.flatMap g).map signature) := by
  rcases reordered.entities with ⟨middle, related, perm⟩
  rw [List.map_flatMap, List.map_flatMap]
  exact perm_flatMap_of_forall₂ related perm each

theorem perm_columns {entity other : Entity} (same : SameColumns entity other)
    {f g : Attribute → List Diagnostic}
    (each : ∀ attr, (f attr).map signature = (g attr).map signature) :
    ((entity.attributes.flatMap f).map signature).Perm
    ((other.attributes.flatMap g).map signature) := by
  rw [List.map_flatMap, List.map_flatMap]
  apply same.attributes.flatMap
  intro attr _
  rw [each attr]

theorem perm_lines (reordered : Reordered left right) {f g : Relationship → List Diagnostic}
    (each : ∀ link, (f link).map signature = (g link).map signature) :
    ((left.relationships.flatMap f).map signature).Perm
    ((right.relationships.flatMap g).map signature) := by
  rw [List.map_flatMap, List.map_flatMap]
  apply reordered.relationships.flatMap
  intro link _
  rw [each link]

theorem perm_checkNotEmpty (reordered : Reordered left right) :
    ((checkNotEmpty left).map signature).Perm ((checkNotEmpty right).map signature) := by
  rcases reordered.entities with ⟨middle, related, perm⟩
  have length : left.entities.length = right.entities.length :=
    related.length_eq.trans perm.length_eq
  have empty : left.entities.isEmpty = right.entities.isEmpty := by
    rw [Bool.eq_iff_iff, List.isEmpty_iff_length_eq_zero, List.isEmpty_iff_length_eq_zero, length]
  rw [checkNotEmpty, checkNotEmpty, empty]

theorem perm_checkNames (reordered : Reordered left right) :
    ((checkNames left).map signature).Perm ((checkNames right).map signature) := by
  apply perm_tables reordered
  intro entity other same
  have columns := same
  rcases same.exists_attributes with ⟨attributes, -, rfl⟩
  rw [List.map_append, List.map_append]
  apply List.Perm.append
  · exact .refl _
  · apply perm_columns columns
    intro attr
    rfl

theorem perm_checkTypeParameters (reordered : Reordered left right) :
    ((checkTypeParameters left).map signature).Perm
    ((checkTypeParameters right).map signature) := by
  apply perm_tables reordered
  intro entity other same
  apply perm_columns same
  intro attr
  rcases same.exists_attributes with ⟨attributes, -, rfl⟩
  rfl

theorem perm_checkPrimaryKeys (reordered : Reordered left right) :
    ((checkPrimaryKeys left).map signature).Perm ((checkPrimaryKeys right).map signature) := by
  apply perm_tables reordered
  intro entity other same
  have keyed : entity.hasPrimaryKey = other.hasPrimaryKey := by
    rw [Bool.eq_iff_iff, Entity.hasPrimaryKey, Entity.hasPrimaryKey, List.any_eq_true,
      List.any_eq_true]
    simp only [same.attributes.mem_iff]
  rw [keyed]
  rcases same.exists_attributes with ⟨attributes, -, rfl⟩
  exact .refl _

theorem signature_foldl_about {α : Type} (items : List α) (id : α → Str) (diagnostic : Diagnostic) :
    signature (items.foldl (fun diagnostic item => diagnostic.about (id item)) diagnostic) =
      (diagnostic.code, diagnostic.severity, diagnostic.elementIds.toFinset ∪
        (items.map id).toFinset) := by
  induction items generalizing diagnostic with
  | nil => simp [signature]
  | cons item items ih =>
      rw [List.foldl_cons, ih]
      simp [Diagnostic.about]

/-- What the descriptions of a table and of its columns say about it. -/
def descriptionProblems (entity : Entity) : List Diagnostic :=
  let undocumented := entity.attributes.filter fun attr => !attr.isDocumented
  let columns := Str.join ", " (undocumented.map fun attr => "`" ++ Str.trim attr.name ++ "`")
  let warn (message : Str) : List Diagnostic :=
    [undocumented.foldl (fun diagnostic attr => diagnostic.about attr.id)
      (((Diagnostic.warning .missingDescription message).about entity.id).place entity.position)]
  match entity.isDocumented, undocumented.isEmpty with
  | true, true => []
  | false, true => warn (table entity ++ " has no description")
  | false, false =>
      warn (table entity ++ " has no description, and neither do these columns: " ++ columns)
  | true, false => warn (table entity ++ " has columns with no description: " ++ columns)

theorem checkDocumentation_eq (schema : Schema) : checkDocumentation schema =
    schema.entities.flatMap descriptionProblems ++ schema.relationships.flatMap fun link =>
      if link.isDocumented then []
      else
        [(Diagnostic.warning .missingDescription
          (relationship schema link ++ " has no description")).about link.id] :=
  rfl

theorem signature_descriptionProblems (entity : Entity) :
    (descriptionProblems entity).map signature =
    if entity.isDocumented && (entity.attributes.filter fun attr =>
      !attr.isDocumented).isEmpty then []
    else [(DiagnosticCode.missingDescription, Severity.warning,
      {entity.id} ∪
      ((entity.attributes.filter fun attr => !attr.isDocumented).map Attribute.id).toFinset)] := by
  unfold descriptionProblems
  generalize entity.attributes.filter (fun attr => !attr.isDocumented) = undocumented
  dsimp only
  cases entity.isDocumented <;> cases undocumented.isEmpty
  · rw [List.map_singleton, signature_foldl_about]
    rfl
  · rw [List.map_singleton, signature_foldl_about]
    rfl
  · rw [List.map_singleton, signature_foldl_about]
    rfl
  · rfl

theorem perm_checkDocumentation (reordered : Reordered left right) :
    ((checkDocumentation left).map signature).Perm ((checkDocumentation right).map signature) := by
  rw [checkDocumentation_eq, checkDocumentation_eq, List.map_append, List.map_append]
  apply List.Perm.append
  · apply perm_tables reordered
    intro entity other same
    have undocumented := same.attributes.filter fun attr => !attr.isDocumented
    have ids := List.toFinset_eq_of_perm _ _ (undocumented.map Attribute.id)
    have documented : entity.isDocumented = other.isDocumented := by
      rw [Entity.isDocumented, Entity.isDocumented, same.description]
    rw [signature_descriptionProblems, signature_descriptionProblems, documented, same.id, ids,
      undocumented.isEmpty_eq]
  · apply perm_lines reordered
    intro link
    split
    · rfl
    · rfl

end Items

section Keys

variable {left right : Schema}

theorem signature_endProblems {schema : Schema} (link : Relationship) :
    (endProblems schema link).map signature =
      if (schema.resolve link.fromEntityId link.fromAttributeId).isSome &&
        (schema.resolve link.toEntityId link.toAttributeId).isSome then []
      else [(DiagnosticCode.danglingRelationship, Severity.error, {link.id})] := by
  unfold endProblems
  split
  · rfl
  · cases (schema.entity link.fromEntityId).or (schema.entity link.toEntityId) with
    | none => rfl
    | some entity => rfl

theorem isSome_resolve (distinct : HasDistinctIds left) (reordered : Reordered left right)
    (entityId attrId : Str) :
    (left.resolve entityId attrId).isSome = (right.resolve entityId attrId).isSome := by
  have resolved := rel_resolve distinct reordered entityId attrId
  generalize left.resolve entityId attrId = found at resolved
  generalize right.resolve entityId attrId = found' at resolved
  cases resolved with
  | none => rfl
  | some _ => rfl

theorem perm_checkRelationshipEnds (distinct : HasDistinctIds left)
    (reordered : Reordered left right) :
    ((checkRelationshipEnds left).map signature).Perm
      ((checkRelationshipEnds right).map signature) := by
  apply perm_lines reordered
  intro link
  change (endProblems left link).map signature = (endProblems right link).map signature
  rw [signature_endProblems, signature_endProblems, isSome_resolve distinct reordered,
    isSome_resolve distinct reordered]

theorem signature_cardinalityWarning {schema : Schema} (link : Relationship) (entity : Entity)
    (attr : Attribute) :
    (cardinalityWarning schema link entity attr).map signature =
      (cardinalityVerdict link.cardinality (isUniqueKey entity attr)).map fun said =>
        (said.1, said.2, [link.id, entity.id, attr.id].toFinset) := by
  unfold cardinalityWarning cardinalityVerdict
  cases link.cardinality <;> cases isUniqueKey entity attr <;> rfl

theorem cardinalityWarning_eq (link : Relationship) {entity other : Entity}
    (same : SameColumns entity other) (attr : Attribute) :
    (cardinalityWarning left link entity attr).map signature =
      (cardinalityWarning right link other attr).map signature := by
  rw [signature_cardinalityWarning, signature_cardinalityWarning, same.isUniqueKey, same.id]

theorem pointsAt_eq {entity other : Entity} (same : SameColumns entity other)
    (attr key : Attribute) :
    pointsAt attr entity key = pointsAt attr other key := by
  unfold pointsAt
  rw [same.id]

theorem keyProblems_eq (distinct : HasDistinctIds left) (reordered : Reordered left right)
    (link : Relationship) :
    (keyProblems left link).map signature = (keyProblems right link).map signature := by
  have start := rel_resolve distinct reordered link.fromEntityId link.fromAttributeId
  have stop := rel_resolve distinct reordered link.toEntityId link.toAttributeId
  unfold keyProblems
  generalize left.resolve link.fromEntityId link.fromAttributeId = leftStart at start
  generalize right.resolve link.fromEntityId link.fromAttributeId = rightStart at start
  generalize left.resolve link.toEntityId link.toAttributeId = leftStop at stop
  generalize right.resolve link.toEntityId link.toAttributeId = rightStop at stop
  split
  · rfl
  · cases start with
    | none => rfl
    | @some start start' both =>
        cases stop with
        | none => rfl
        | @some stop stop' others =>
            rcases start with ⟨fromEntity, start⟩
            rcases start' with ⟨fromEntity', start'⟩
            rcases stop with ⟨toEntity, stop⟩
            rcases stop' with ⟨toEntity', stop'⟩
            rcases both with ⟨sameStart, rfl⟩
            rcases others with ⟨sameStop, rfl⟩
            dsimp only
            rw [pointsAt_eq sameStart, pointsAt_eq sameStop]
            split
            · exact cardinalityWarning_eq link sameStart start
            · split
              · exact cardinalityWarning_eq link sameStop stop
              · rfl

theorem perm_checkRelationships (distinct : HasDistinctIds left)
    (reordered : Reordered left right) :
    ((checkRelationships left).map signature).Perm ((checkRelationships right).map signature) := by
  apply perm_lines reordered
  exact keyProblems_eq distinct reordered

/-- What the foreign key of a column says about it. -/
def referenceProblems (schema : Schema) (entity : Entity) (attr : Attribute) : List Diagnostic :=
  match attr.foreignKey with
  | none => []
  | some reference =>
      match schema.resolve reference.entityId reference.attributeId with
      | none =>
          [(((Diagnostic.error .invalidForeignKey
            (column entity attr ++ " references a column that does not exist")).about
              entity.id).about attr.id).place entity.position]
      | some (target, key) =>
          let blame (diagnostic : Diagnostic) : Diagnostic :=
            ((((diagnostic.about entity.id).about attr.id).about target.id).about
              key.id).place entity.position
          (if isUniqueKey target key then []
          else
            [blame (.error .foreignKeyNotAKey
              (column entity attr ++ " references " ++ column target key ++
                ", which is neither the primary key nor unique"))]) ++
          if !attr.dataType.isCompatibleWith key.dataType then
            [blame (.error .typeMismatch
              (column entity attr ++ " is " ++ attr.dataType.display ++ " but references " ++
                column target key ++ ", which is " ++ key.dataType.display))]
          else if isNarrower attr.dataType key.dataType then
            [blame (.warning .typeMismatch
              (column entity attr ++ " is " ++ attr.dataType.display ++ " but references " ++
                column target key ++ ", which is " ++ key.dataType.display ++
                ", so some keys will not fit"))]
          else []

theorem checkForeignKeys_eq (schema : Schema) : checkForeignKeys schema =
    schema.entities.flatMap fun entity =>
      entity.attributes.flatMap (referenceProblems schema entity) :=
  rfl

theorem referenceProblems_eq (distinct : HasDistinctIds left) (reordered : Reordered left right)
    {entity other : Entity} (same : SameColumns entity other) (attr : Attribute) :
    (referenceProblems left entity attr).map signature = (referenceProblems right other attr).map
      signature := by
  rcases same.exists_attributes with ⟨attributes, -, rfl⟩
  unfold referenceProblems
  cases attr.foreignKey with
  | none => rfl
  | some reference =>
      dsimp only
      have resolved := rel_resolve distinct reordered reference.entityId reference.attributeId
      generalize left.resolve reference.entityId reference.attributeId = found at resolved
      generalize right.resolve reference.entityId reference.attributeId = found' at resolved
      cases resolved with
      | none => rfl
      | @some pair pair' both =>
          rcases pair with ⟨target, key⟩
          rcases pair' with ⟨target', key'⟩
          rcases both with ⟨sameTarget, rfl⟩
          dsimp only
          rw [sameTarget.isUniqueKey]
          dsimp only at sameTarget
          rcases sameTarget.exists_attributes with ⟨targetAttributes, -, rfl⟩
          rfl

theorem perm_checkForeignKeys (distinct : HasDistinctIds left) (reordered : Reordered left right) :
    ((checkForeignKeys left).map signature).Perm ((checkForeignKeys right).map signature) := by
  rw [checkForeignKeys_eq, checkForeignKeys_eq]
  apply perm_tables reordered
  intro entity other same
  apply perm_columns same
  exact referenceProblems_eq distinct reordered same

end Keys

section Names

variable {α β : Type}

variable [Unicode]

/-- The groups of two or more, each as the ids it holds. -/
def largeGroups (items : List α) (id name : α → Str) : List (Str × Multiset Str) :=
  ((nameGroups items name).filter fun group => 1 < group.2.length).map fun group =>
    (group.1, (group.2.map id : List Str))

theorem mem_largeGroups {items : List α} {id name : α → Str} {key : Str} {ids : Multiset Str} :
    (key, ids) ∈ largeGroups items id name ↔ key ≠ [] ∧ 1 < ids.card ∧
      ids = ((items.filter fun item => nameKey (name item) = key).map id : List Str) := by
  rw [largeGroups, List.mem_map]
  constructor
  · rintro ⟨⟨key', members⟩, mem, same⟩
    cases same
    rw [List.mem_filter, decide_eq_true_eq] at mem
    rcases mem with ⟨mem, long⟩
    have nonempty : members ≠ [] := List.ne_nil_of_length_pos (Nat.zero_lt_of_lt long)
    rcases (mem_nameGroups nonempty).mp mem with ⟨named, rfl⟩
    rw [Multiset.coe_card, List.length_map]
    exact ⟨named, long, rfl⟩
  · rintro ⟨named, long, rfl⟩
    rw [Multiset.coe_card, List.length_map] at long
    refine ⟨(key, items.filter fun item => nameKey (name item) = key), ?_, rfl⟩
    have nonempty := List.ne_nil_of_length_pos (Nat.zero_lt_of_lt long)
    exact List.mem_filter.mpr ⟨(mem_nameGroups nonempty).mpr ⟨named, rfl⟩, decide_eq_true long⟩

theorem nodup_largeGroups (items : List α) (id name : α → Str) :
    (largeGroups items id name).Nodup := by
  apply List.Nodup.of_map Prod.fst
  rw [largeGroups, List.map_map]
  have kept : ((nameGroups items name).filter fun group => 1 < group.2.length).Sublist
      (nameGroups items name) :=
    List.filter_sublist
  exact (nodup_keys items name).sublist (kept.map Prod.fst)

/-- The groups hold the same ids in any order of the items. -/
theorem perm_largeGroups {items : List α} {others : List β} {id name : α → Str}
    {id' name' : β → Str}
    (perm : (items.map fun item => (id item, name item)).Perm
      (others.map fun item => (id' item, name' item))) :
    (largeGroups items id name).Perm (largeGroups others id' name') := by
  rw [List.perm_ext_iff_of_nodup (nodup_largeGroups items id name)
    (nodup_largeGroups others id' name')]
  rintro ⟨key, ids⟩
  have held : (((items.filter fun item => nameKey (name item) = key).map id : List Str) :
      Multiset Str) =
      ((others.filter fun item => nameKey (name' item) = key).map id' : List Str) := by
    have kept := (perm.filter fun pair => nameKey pair.2 = key).map Prod.fst
    rw [List.filter_map, List.filter_map, List.map_map, List.map_map] at kept
    exact Multiset.coe_eq_coe.mpr kept
  rw [mem_largeGroups, mem_largeGroups, held]

/-- What is said of a group of items that go by one name. -/
def sameNameProblems (id : α → Str) (start : α → Nat → Diagnostic) (group : List α) :
    List Diagnostic :=
  match group with
  | [] => []
  | first :: _ =>
      [group.foldl (fun diagnostic item => diagnostic.about (id item)) (start first group.length)]

theorem signature_sameNameProblems (items : List α) (id name : α → Str)
    {start : α → Nat → Diagnostic} {code : DiagnosticCode} {severity : Severity} {ids : Finset Str}
    (starts : ∀ first count, signature (start first count) = (code, severity, ids)) :
    ((sameNameGroups items name).flatMap (sameNameProblems id start)).map signature =
      (largeGroups items id name).map fun group => (code, severity, ids ∪ group.2.toFinset) := by
  rw [sameNameGroups, largeGroups, List.filter_map]
  change (List.flatMap _
    (((nameGroups items name).filter fun group => 1 < group.2.length).map Prod.snd)).map _ = _
  have each (group : Str × List α) (long : 1 < group.2.length) :
      (sameNameProblems id start group.2).map signature =
        [(code, severity, ids ∪ ((group.2.map id : List Str) : Multiset Str).toFinset)] := by
    rcases group with ⟨key, _ | ⟨first, rest⟩⟩
    · contradiction
    · have said := starts first (first :: rest).length
      simp only [signature, Prod.mk.injEq] at said
      rw [sameNameProblems, List.map_singleton, signature_foldl_about, said.1, said.2.1, said.2.2]
      rfl
  have long : ∀ group ∈ (nameGroups items name).filter fun group => 1 < group.2.length,
      1 < group.2.length := by
    intro group mem
    exact decide_eq_true_eq.mp (List.mem_filter.mp mem).2
  generalize (nameGroups items name).filter (fun group => 1 < group.2.length) = groups at long
  induction groups with
  | nil => rfl
  | cons group groups ih =>
      rw [List.map_cons, List.flatMap_cons, List.map_append,
        each group (long group List.mem_cons_self), ih fun other mem =>
          long other (List.mem_cons_of_mem _ mem)]
      rfl

/-- What opens the report on tables that go by one name. -/
def sameNameTables (first : Entity) (count : Nat) : Diagnostic :=
  (Diagnostic.error .duplicateEntityName
    (Str.ofNat count ++ " tables are named `" ++ Str.trim first.name ++ "`")).place first.position

/-- What opens the report on columns of a table that go by one name. -/
def sameNameColumns (entity : Entity) (first : Attribute) (count : Nat) : Diagnostic :=
  ((Diagnostic.error .duplicateAttributeName
    (table entity ++ " has " ++ Str.ofNat count ++ " columns named `" ++
      Str.trim first.name ++ "`")).about entity.id).place entity.position

theorem checkDuplicateNames_eq (schema : Schema) : checkDuplicateNames schema =
    ((sameNameGroups schema.entities Entity.name).flatMap
      (sameNameProblems Entity.id sameNameTables)) ++
    schema.entities.flatMap fun entity =>
      (sameNameGroups entity.attributes Attribute.name).flatMap
        (sameNameProblems Attribute.id (sameNameColumns entity)) := by
  rw [checkDuplicateNames]
  congr 2
  · funext group
    cases group with
    | nil => rfl
    | cons first group => rfl
  · funext entity
    congr 1
    funext group
    cases group with
    | nil => rfl
    | cons first group => rfl

theorem perm_checkDuplicateNames {left right : Schema} (reordered : Reordered left right) :
    ((checkDuplicateNames left).map signature).Perm
    ((checkDuplicateNames right).map signature) := by
  have tables (first : Entity) (count : Nat) :
      signature (sameNameTables first count) = (.duplicateEntityName, .error, ∅) := rfl
  have columns (entity : Entity) (first : Attribute) (count : Nat) :
      signature (sameNameColumns entity first count) =
        (.duplicateAttributeName, .error, {entity.id}) := rfl
  rw [checkDuplicateNames_eq, checkDuplicateNames_eq, List.map_append, List.map_append]
  apply List.Perm.append
  · have named : (left.entities.map fun entity => (entity.id, entity.name)).Perm
        (right.entities.map fun entity => (entity.id, entity.name)) :=
      perm_entities reordered fun entity other same => Prod.ext same.id same.name
    rw [signature_sameNameProblems _ _ _ tables, signature_sameNameProblems _ _ _ tables]
    exact (perm_largeGroups named).map _
  · apply perm_tables reordered
    intro entity other same
    rw [signature_sameNameProblems _ _ _ (columns entity), signature_sameNameProblems _ _ _
      (columns other), same.id]
    exact (perm_largeGroups (same.attributes.map _)).map _

end Names

section Cycles

variable {left right : Schema}

/-- The same tables at other places. -/
structure Moved (left right : Schema)
    (places : Fin left.entities.length ≃ Fin right.entities.length) : Prop where
  same : ∀ place, SameColumns (left.entities.get place) (right.entities.get (places place))
  leftIds : (left.entities.map Entity.id).Nodup
  rightIds : (right.entities.map Entity.id).Nodup

variable {places : Fin left.entities.length ≃ Fin right.entities.length}

namespace Moved

theorem symm (moved : Moved left right places) : Moved right left places.symm where
  same := by
    intro place
    have same := (moved.same (places.symm place)).symm
    rwa [places.apply_symm_apply] at same
  leftIds := moved.rightIds
  rightIds := moved.leftIds

theorem idAt (moved : Moved left right places) (place : Fin left.entities.length) :
    idAt right (places place) = idAt left place :=
  (moved.same place).id.symm

theorem edge (moved : Moved left right places) {keep : Attribute → Bool}
    {start stop : Fin left.entities.length} (edge : (start, stop) ∈ keyEdges left keep) :
    (places start, places stop) ∈ keyEdges right keep := by
  rcases (mem_keyEdges moved.leftIds).mp edge with ⟨proper, attr, mem, kept, reference, key, target⟩
  refine (mem_keyEdges moved.rightIds).mpr ⟨?_, attr, ?_, kept, reference, key, ?_⟩
  · intro same
    exact proper (places.injective same)
  · exact (moved.same start).attributes.mem_iff.mp mem
  · rw [target, moved.idAt]

theorem connected (moved : Moved left right places) {keep : Attribute → Bool}
    {start stop : Fin left.entities.length}
    (connected : Connected (keyEdges left keep) start stop) :
    Connected (keyEdges right keep) (places start) (places stop) :=
  ⟨connected.1.lift places fun _ _ edge => moved.edge edge, connected.2.lift places fun _ _ edge =>
    moved.edge edge⟩

theorem connected_iff (moved : Moved left right places) {keep : Attribute → Bool}
    {start stop : Fin left.entities.length} :
    Connected (keyEdges right keep) (places start) (places stop) ↔
      Connected (keyEdges left keep) start stop := by
  constructor
  · intro connected
    have back := moved.symm.connected connected
    rwa [places.symm_apply_apply, places.symm_apply_apply] at back
  · exact moved.connected

/-- A group is found at the other places. -/
theorem exists_group (moved : Moved left right places) {group : List (Fin left.entities.length)}
    (found : group ∈ stronglyConnected _ (allEdges left)) :
    ∃ other ∈ stronglyConnected _ (allEdges right), ∀ place, places place ∈ other ↔
      place ∈ group := by
  rcases exists_two_of_group found with ⟨x, xMem, y, yMem, different⟩
  have connected := moved.connected ((mem_group_iff found xMem y).mp yMem)
  rcases Verifier.exists_group (fun same => different (places.injective same)) connected with
    ⟨other, otherFound, inside, -⟩
  refine ⟨other, otherFound, ?_⟩
  intro place
  rw [mem_group_iff otherFound inside, mem_group_iff found xMem]
  exact moved.connected_iff

theorem isBlocked (moved : Moved left right places) {group : List (Fin left.entities.length)}
    {other : List (Fin right.entities.length)} (found : group ∈ stronglyConnected _ (allEdges left))
    (otherFound : other ∈ stronglyConnected _ (allEdges right))
    (same : ∀ place, places place ∈ other ↔ place ∈ group) :
    isBlocked (stronglyConnected _ (requiredEdges left)) group =
      isBlocked (stronglyConnected _ (requiredEdges right)) other := by
  rw [Bool.eq_iff_iff, isBlocked_iff found, isBlocked_iff otherFound]
  simp only [places.surjective.exists, same]
  constructor
  · rintro ⟨x, xMem, y, yMem, different, connected⟩
    exact ⟨x, xMem, y, yMem, fun equal => different (places.injective equal),
      moved.connected connected⟩
  · rintro ⟨x, xMem, y, yMem, different, connected⟩
    exact ⟨x, xMem, y, yMem, fun equal => different (congrArg places equal),
      moved.connected_iff.mp connected⟩

theorem mem_checkCycles (moved : Moved left right places)
    {said : DiagnosticCode × Severity × Finset Str}
    (mem : said ∈ (checkCycles left).map signature) : said ∈ (checkCycles right).map signature := by
  rw [checkCycles, List.map_map, List.mem_map] at mem ⊢
  rcases mem with ⟨group, found, rfl⟩
  rcases moved.exists_group found with ⟨other, otherFound, same⟩
  refine ⟨other, otherFound, ?_⟩
  have ids : (other.map (Verifier.idAt right)).toFinset =
      (group.map (Verifier.idAt left)).toFinset := by
    ext id
    simp only [List.mem_toFinset, List.mem_map, places.surjective.exists, same, moved.idAt]
  rw [Function.comp_apply, Function.comp_apply, signature, signature, code_cycleDiagnostic,
    code_cycleDiagnostic, severity_cycleDiagnostic, severity_cycleDiagnostic,
    elementIds_cycleDiagnostic, elementIds_cycleDiagnostic, ids,
    moved.isBlocked found otherFound same]

end Moved

theorem nodup_checkCycles {schema : Schema} (distinct : (schema.entities.map Entity.id).Nodup) :
    ((checkCycles schema).map signature).Nodup := by
  rw [checkCycles, List.map_map]
  apply List.Nodup.map_on
  · intro group found other otherFound same
    rw [Function.comp_apply, Function.comp_apply, signature, signature, elementIds_cycleDiagnostic,
      elementIds_cycleDiagnostic] at same
    have ids := congrArg (fun said => said.2.2) same
    dsimp only at ids
    rcases exists_two_of_group found with ⟨x, mem, -⟩
    have listed : idAt schema x ∈ (other.map (idAt schema)).toFinset := by
      rw [← ids, List.mem_toFinset]
      exact List.mem_map_of_mem mem
    rw [List.mem_toFinset, List.mem_map_of_injective (idAt_injective distinct)] at listed
    refine (group_ascending found).pairwise.eq_of_mem_iff (group_ascending otherFound).pairwise ?_
    intro y
    rw [mem_group_iff found mem, mem_group_iff otherFound listed]
  · exact (groups_ascending _).imp fun less => less.ne

theorem perm_checkCycles (distinct : HasDistinctIds left) (reordered : Reordered left right) :
    ((checkCycles left).map signature).Perm ((checkCycles right).map signature) := by
  have rightIds := nodup_ids distinct reordered
  rcases reordered.entities with ⟨middle, related, perm⟩
  rcases exists_equiv_of_forall₂ related perm with ⟨places, same⟩
  have moved : Moved left right places := ⟨same, distinct.entities, rightIds⟩
  rw [List.perm_ext_iff_of_nodup (nodup_checkCycles distinct.entities) (nodup_checkCycles rightIds)]
  intro said
  exact ⟨moved.mem_checkCycles, moved.symm.mem_checkCycles⟩

end Cycles

section Reports

variable [Unicode] {left right : Schema}

theorem perm_verify (distinct : HasDistinctIds left) (reordered : Reordered left right) :
    ((verify left).diagnostics.map signature).Perm ((verify right).diagnostics.map signature) := by
  simp only [verify, checks, List.flatMap_cons, List.flatMap_nil, List.map_append]
  apply (perm_checkNotEmpty reordered).append
  apply (perm_checkNames reordered).append
  apply (perm_checkTypeParameters reordered).append
  apply (perm_checkRelationshipEnds distinct reordered).append
  apply (perm_checkDuplicateNames reordered).append
  apply (perm_checkPrimaryKeys reordered).append
  apply (perm_checkForeignKeys distinct reordered).append
  apply (perm_checkRelationships distinct reordered).append
  apply (perm_checkCycles distinct reordered).append
  exact (perm_checkDocumentation reordered).append (.refl _)

theorem isValid_iff_signature {schema : Schema} :
    IsValid schema ↔ ∀ said ∈ (verify schema).diagnostics.map signature, said.2.1 ≠ .error := by
  rw [IsValid, Report.isValid, Bool.not_eq_true', List.any_eq_false, List.forall_mem_map]
  simp [Diagnostic.isError, signature]

/-- Neither the verdict nor what is said of which elements depends on the order of the drawing. -/
theorem verify_reordered (distinct : HasDistinctIds left) (reordered : Reordered left right) :
    (IsValid left ↔ IsValid right) ∧
      ((verify left).diagnostics.map signature).Perm
      ((verify right).diagnostics.map signature) := by
  have perm := perm_verify distinct reordered
  refine ⟨?_, perm⟩
  rw [isValid_iff_signature, isValid_iff_signature]
  simp only [perm.mem_iff]

end Reports

/-- Two tables of one name that reference each other, and two lines between them. -/
def partnersSchema : Schema :=
  let uuid : DataType := ⟨.uuid, none, none, none⟩
  let key (id : Str) : Attribute :=
  { Attribute.new id "id" uuid with primaryKey := true, nullable := false }
  let partner (id entity attr : Str) : Attribute :=
    { Attribute.new id "partner" uuid with foreignKey := some ⟨entity, attr⟩ }
  { id := "s"
    name := []
    description := []
    entities :=
      [{ Entity.new "t" "partners" with attributes := [key "a", partner "b" "u" "c"] },
        { Entity.new "u" "Partners" with attributes := [key "c", partner "d" "t" "a"] }]
    relationships :=
      [Relationship.new "r" ("t", "b") ("u", "c") .oneToMany, Relationship.new "q" ("t", "a")
        ("u", "d") .oneToOne] }

/-- The schema with everything in the opposite order. -/
def backward (schema : Schema) : Schema :=
  { schema with
    entities := (schema.entities.map fun entity =>
      { entity with attributes := entity.attributes.reverse }).reverse
    relationships := schema.relationships.reverse }

theorem reordered_backward (schema : Schema) : Reordered schema (backward schema) where
  entities := by
    refine ⟨schema.entities.map fun entity =>
      { entity with attributes := entity.attributes.reverse }, ?_, ?_⟩
    · rw [List.forall₂_map_right_iff, List.forall₂_same]
      intro entity _
      exact ⟨rfl, rfl, rfl, rfl, (List.reverse_perm _).symm⟩
    · exact (List.reverse_perm _).symm
  relationships := (List.reverse_perm _).symm

theorem verify_reordered_partnersSchema :
    ((@verify Unicode.ascii partnersSchema).diagnostics.map signature).Perm
      ((@verify Unicode.ascii (backward partnersSchema)).diagnostics.map signature) := by
  have distinct : HasDistinctIds partnersSchema := by
    refine ⟨by decide, by decide, ?_⟩
    decide
  exact (@verify_reordered Unicode.ascii _ _ distinct (reordered_backward partnersSchema)).2

end SchemaForge.Verifier
