import SchemaForge.Adapter.Agreement
import SchemaForge.Repository.Stored

/-!
# Drafts at the boundary

What a transport accepts is in a normal form: nothing that has to be there is
blank, keys are not nullable, and types carry their own parameters only. A draft
in normal form is a fixed point of every codec at the boundary.
-/

namespace SchemaForge.Adapter

/-- A column as the mappers leave it. -/
structure AttributeIsNormal (attr : Attribute) : Prop where
  id : Str.trim attr.id ≠ []
  name : Str.trim attr.name ≠ []
  dataType : attr.dataType.carriesOwnParameters = true
  nullable : attr.primaryKey = true → attr.nullable = false
  foreignKey : ∀ reference ∈ attr.foreignKey,
    Str.trim reference.entityId ≠ [] ∧ Str.trim reference.attributeId ≠ []

structure RelationshipIsNormal (link : Relationship) : Prop where
  id : Str.trim link.id ≠ []
  fromEntityId : Str.trim link.fromEntityId ≠ []
  fromAttributeId : Str.trim link.fromAttributeId ≠ []
  toEntityId : Str.trim link.toEntityId ≠ []
  toAttributeId : Str.trim link.toAttributeId ≠ []

/-- A draft as the mappers leave it. -/
structure IsNormal (draft : SchemaDraft) : Prop where
  entityIds : ∀ entity ∈ draft.entities, Str.trim entity.id ≠ []
  entityNames : ∀ entity ∈ draft.entities, Str.trim entity.name ≠ []
  attributes : ∀ entity ∈ draft.entities, ∀ attr ∈ entity.attributes, AttributeIsNormal attr
  relationships : ∀ link ∈ draft.relationships, RelationshipIsNormal link

theorem carriesOwnParameters_dataTypeFrom {payload : Option DataTypePayload} {path : Str}
    {dataType : DataType} (mapped : (dataTypeFrom payload path).1 = some dataType) :
    dataType.carriesOwnParameters = true := by
  unfold dataTypeFrom at mapped
  split at mapped
  · cases mapped
  · split at mapped
    · cases mapped
    · rcases Option.some.inj mapped
      rename_i kind _
      cases length : kind.takesLength <;> cases precision : kind.takesPrecision <;>
        simp [DataType.carriesOwnParameters, length, precision]

theorem foreignKey_solid {payload : Option ForeignKeyRef} {path : Str} {reference : ForeignKeyRef}
    (mapped : (foreignKeyFrom payload path).1 = some reference) :
    Str.trim reference.entityId ≠ [] ∧ Str.trim reference.attributeId ≠ [] := by
  unfold foreignKeyFrom at mapped
  split at mapped
  · cases mapped
  · split at mapped
    · cases mapped
    · rename_i solid
      rcases Option.some.inj mapped
      simpa using solid

theorem attributeIsNormal_of_attributeFrom {payload : AttributePayload} {path : Str}
    {attr : Attribute} (mapped : (attributeFrom payload path).1 = some attr)
    (silent : (attributeFrom payload path).2 = []) : AttributeIsNormal attr := by
  unfold attributeFrom at mapped silent
  rcases typed : dataTypeFrom payload.dataType (path ++ ".data_type") with ⟨dataType, violations⟩
  rw [typed] at mapped silent
  cases dataType with
  | none => cases mapped
  | some dataType =>
      rcases Option.some.inj mapped
      simp only [List.append_eq_nil_iff] at silent
      rcases silent with ⟨⟨⟨id, name⟩, -⟩, -⟩
      refine ⟨checkText_eq_nil_iff.mp id, checkText_eq_nil_iff.mp name, ?_, ?_, ?_⟩
      · exact carriesOwnParameters_dataTypeFrom (congrArg Prod.fst typed)
      · intro key
        simpa using fun _ => key
      · intro reference points
        exact foreignKey_solid points

theorem relationshipIsNormal_of_relationshipFrom {payload : RelationshipPayload} {path : Str}
    {link : Relationship} (mapped : (relationshipFrom payload path).1 = some link)
    (silent : (relationshipFrom payload path).2 = []) : RelationshipIsNormal link := by
  unfold relationshipFrom at mapped silent
  rcases drawn : cardinalityFrom payload.cardinality (path ++ ".cardinality") with
    ⟨cardinality, violations⟩
  rw [drawn] at mapped silent
  cases cardinality with
  | none => cases mapped
  | some cardinality =>
      rcases Option.some.inj mapped
      simp only [List.append_eq_nil_iff, checkText_eq_nil_iff] at silent
      rcases silent with ⟨⟨⟨⟨⟨id, fromEntity⟩, fromAttribute⟩, toEntity⟩, toAttribute⟩, -⟩
      exact ⟨id, fromEntity, fromAttribute, toEntity, toAttribute⟩

/-- What the HTTP mapper accepts is in normal form. -/
theorem isNormal_of_draftFrom {payload : SchemaPayload} {draft : SchemaDraft}
    (accepted : draftFrom payload = .ok draft) : IsNormal draft := by
  rcases draftFrom_eq_ok_iff.mp accepted with ⟨rfl, silent⟩
  simp only [draftWith, List.append_eq_nil_iff, List.flatMap_eq_nil_iff, List.mem_mapIdx] at silent
  rcases silent with ⟨entities, relationships⟩
  have entity_cases {entity : Entity} (mem : entity ∈ (draftWith payload).1.entities) :
      ∃ source path, entity = (entityFrom source path).1 ∧ (entityFrom source path).2 = [] := by
    simp only [draftWith, List.mem_map, List.mem_mapIdx] at mem
    rcases mem with ⟨_, ⟨index, bound, rfl⟩, rfl⟩
    exact ⟨_, _, rfl, entities _ ⟨index, bound, rfl⟩⟩
  constructor
  · intro entity mem
    rcases entity_cases mem with ⟨source, path, rfl, quiet⟩
    simp only [entityFrom, List.append_eq_nil_iff] at quiet
    exact checkText_eq_nil_iff.mp quiet.1.1
  · intro entity mem
    rcases entity_cases mem with ⟨source, path, rfl, quiet⟩
    simp only [entityFrom, List.append_eq_nil_iff] at quiet
    exact checkText_eq_nil_iff.mp quiet.1.2
  · intro entity mem attr attrMem
    rcases entity_cases mem with ⟨source, path, rfl, quiet⟩
    simp only [entityFrom, List.append_eq_nil_iff, List.flatMap_eq_nil_iff] at quiet
    rcases List.mem_filterMap.mp attrMem with ⟨mapped, mappedMem, found⟩
    rcases List.mem_mapIdx.mp mappedMem with ⟨index, bound, rfl⟩
    exact attributeIsNormal_of_attributeFrom found (quiet.2 _ mappedMem)
  · intro link mem
    rcases List.mem_filterMap.mp mem with ⟨mapped, mappedMem, found⟩
    rcases List.mem_mapIdx.mp mappedMem with ⟨index, bound, rfl⟩
    exact relationshipIsNormal_of_relationshipFrom found (relationships _ ⟨index, bound, rfl⟩)

/-- The name that stands for a number over HTTP, which names nothing if the number does not. -/
def kindName (number : Int32) : Str :=
  (Rpc.dataTypeKindFrom number).elim "unspecified" DataTypeKind.asStr

def cardinalityName (number : Int32) : Str :=
  (Rpc.cardinalityFrom number []).1.elim "unspecified" Cardinality.asStr

def spelledAttribute (proto : Rpc.V1.Attribute) : AttributePayload where
  id := proto.id
  name := proto.name
  description := proto.description
  dataType := proto.dataType.map fun dataType =>
    ⟨kindName dataType.kind, dataType.length, dataType.precision, dataType.scale⟩
  nullable := proto.nullable
  primaryKey := proto.primaryKey
  unique := proto.unique
  foreignKey := proto.foreignKey
  defaultValue := proto.defaultValue

def spelledEntity (proto : Rpc.V1.Entity) : EntityPayload where
  id := proto.id
  name := proto.name
  description := proto.description
  attributes := proto.attributes.map spelledAttribute
  position := proto.position

def spelledRelationship (proto : Rpc.V1.Relationship) : RelationshipPayload where
  id := proto.id
  name := proto.name
  description := proto.description
  fromEntityId := proto.fromEntityId
  fromAttributeId := proto.fromAttributeId
  toEntityId := proto.toEntityId
  toAttributeId := proto.toAttributeId
  cardinality := cardinalityName proto.cardinality

/-- The payload that says over HTTP what a message says over gRPC. -/
def spelledSchema (proto : Rpc.V1.Schema) : SchemaPayload where
  id := proto.id
  name := proto.name
  description := proto.description
  entities := proto.entities.map spelledEntity
  relationships := proto.relationships.map spelledRelationship

theorem spellsKind_kindName (number : Int32) : SpellsKind number (kindName number) := by
  rw [kindName]
  cases known : Rpc.dataTypeKindFrom number with
  | some kind => exact Or.inl ⟨kind, mem_of_dataTypeKindFrom known, rfl⟩
  | none =>
      refine Or.inr ⟨?_, by decide⟩
      intro kind listed
      rw [dataTypeKindFrom_of_mem listed] at known
      cases known

theorem spellsCardinality_cardinalityName (number : Int32) :
    SpellsCardinality number (cardinalityName number) := by
  rw [cardinalityName]
  by_cases listed : ∃ cardinality, (number, cardinality) ∈ contractCardinalities
  · rcases listed with ⟨cardinality, listed⟩
    rw [cardinalityFrom_of_mem listed]
    exact Or.inl ⟨cardinality, listed, rfl⟩
  · have unlisted : ∀ cardinality, (number, cardinality) ∉ contractCardinalities := by
      intro cardinality mem
      exact listed ⟨cardinality, mem⟩
    rw [cardinalityFrom_of_unlisted unlisted]
    exact Or.inr ⟨unlisted, by decide⟩

theorem forall₂_map_right {α β : Type} {relates : α → β → Prop} {f : α → β}
    (related : ∀ item, relates item (f item)) (items : List α) :
    List.Forall₂ relates items (items.map f) :=
  List.forall₂_map_right_iff.mpr (List.forall₂_same.mpr fun item _ => related item)

theorem sameAttribute_spelled (proto : Rpc.V1.Attribute) :
    SameAttribute proto (spelledAttribute proto) := by
  refine ⟨rfl, rfl, rfl, ?_, rfl, rfl, rfl, rfl, rfl⟩
  rw [spelledAttribute]
  cases proto.dataType with
  | none => exact .none
  | some dataType => exact .some ⟨spellsKind_kindName _, rfl, rfl, rfl⟩

theorem sameSchema_spelled (proto : Rpc.V1.Schema) : SameSchema proto (spelledSchema proto) := by
  refine ⟨rfl, rfl, forall₂_map_right (fun entity => ?_) _, forall₂_map_right (fun link => ?_) _⟩
  · exact ⟨rfl, rfl, rfl, forall₂_map_right sameAttribute_spelled _, rfl⟩
  · exact ⟨rfl, rfl, rfl, rfl, rfl, rfl, rfl, spellsCardinality_cardinalityName _⟩

/-- What the gRPC mapper accepts is in normal form. -/
theorem Rpc.isNormal_of_draftFrom {proto : Rpc.V1.Schema} {draft : SchemaDraft}
    (accepted : Rpc.draftFrom proto.name proto.description proto.entities proto.relationships =
      .ok draft) : IsNormal draft := by
  rw [draftFrom_eq (sameSchema_spelled proto)] at accepted
  exact Adapter.isNormal_of_draftFrom accepted

theorem mapIdx_map_of_back {α β γ : Type} {write : α → β} {read : Nat → β → γ} {keep : α → γ}
    {items : List α} (back : ∀ index, ∀ item ∈ items, read index (write item) = keep item) :
    (items.map write).mapIdx read = items.map keep := by
  apply List.ext_getElem?
  intro index
  rw [List.getElem?_mapIdx, List.getElem?_map, List.getElem?_map]
  cases found : items[index]? with
  | none => rfl
  | some item => exact congrArg some (back index item (List.mem_of_getElem? found))

theorem filterMap_kept {α β : Type} (items : List α) :
    (items.map fun item => (some item, ([] : List β))).filterMap Prod.fst = items := by
  rw [List.filterMap_map]
  exact List.filterMap_some

theorem flatMap_silent {α β : Type} (items : List α) :
    (items.map fun item => (item, ([] : List β))).flatMap Prod.snd = [] := by
  rw [List.flatMap_map]
  exact List.flatMap_eq_nil_iff.mpr fun _ _ => rfl

theorem dataTypeFrom_dataTypePayload {dataType : DataType}
    (own : dataType.carriesOwnParameters = true) (path : Str) :
    dataTypeFrom (some (dataTypePayload dataType)) path = (some dataType, []) := by
  rcases dataType with ⟨kind, length, precision, scale⟩
  simp only [dataTypeFrom, dataTypePayload, DataTypeKind.fromStr_asStr]
  simp only [DataType.carriesOwnParameters, Bool.and_eq_true, Bool.or_eq_true,
    Option.isNone_iff_eq_none] at own
  rcases own with ⟨lengths, precisions⟩
  have keepsLength : (if kind.takesLength = true then length else none) = length := by
    rcases lengths with takes | rfl
    · rw [if_pos takes]
    · exact ite_self none
  have keepsPrecision : (if kind.takesPrecision = true then precision else none) = precision ∧
      (if kind.takesPrecision = true then scale else none) = scale := by
    rcases precisions with takes | ⟨rfl, rfl⟩
    · rw [if_pos takes, if_pos takes]
      exact ⟨rfl, rfl⟩
    · exact ⟨ite_self none, ite_self none⟩
  rw [keepsLength, keepsPrecision.1, keepsPrecision.2]

theorem foreignKeyFrom_of_solid {reference : Option ForeignKeyRef}
    (solid : ∀ one ∈ reference, Str.trim one.entityId ≠ [] ∧ Str.trim one.attributeId ≠ [])
    (path : Str) : foreignKeyFrom (reference.map fun one => ⟨one.entityId, one.attributeId⟩) path =
      (reference, []) := by
  cases reference with
  | none => rfl
  | some one =>
      rcases solid one rfl with ⟨entity, attr⟩
      simp [foreignKeyFrom, entity, attr]

theorem attributeFrom_attributePayload {attr : Attribute} (normal : AttributeIsNormal attr)
    (path : Str) : attributeFrom (attributePayload attr) path = (some attr, []) := by
  have keyed : (attr.nullable && !attr.primaryKey) = attr.nullable := by
    cases key : attr.primaryKey with
    | false => simp
    | true => simp [normal.nullable key]
  simp only [attributeFrom, attributePayload, checkText_eq_nil_iff.mpr normal.id,
    checkText_eq_nil_iff.mpr normal.name, dataTypeFrom_dataTypePayload normal.dataType,
    foreignKeyFrom_of_solid normal.foreignKey, keyed, List.append_nil]

theorem relationshipFrom_relationshipPayload {link : Relationship}
    (normal : RelationshipIsNormal link) (path : Str) :
    relationshipFrom (relationshipPayload link) path = (some link, []) := by
  simp only [relationshipFrom, relationshipPayload, checkText_eq_nil_iff.mpr normal.id,
    checkText_eq_nil_iff.mpr normal.fromEntityId, checkText_eq_nil_iff.mpr normal.fromAttributeId,
    checkText_eq_nil_iff.mpr normal.toEntityId, checkText_eq_nil_iff.mpr normal.toAttributeId,
    cardinalityFrom, Cardinality.fromStr_asStr, List.append_nil]

theorem entityFrom_entityPayload {entity : Entity} (id : Str.trim entity.id ≠ [])
    (name : Str.trim entity.name ≠ []) (normal : ∀ attr ∈ entity.attributes, AttributeIsNormal attr)
    (path : Str) : entityFrom (entityPayload entity) path = (entity, []) := by
  have attributes : ((entity.attributes.map attributePayload).mapIdx fun index attr =>
      attributeFrom attr (item (path ++ ".attributes") index)) =
        entity.attributes.map fun attr => (some attr, []) :=
    mapIdx_map_of_back fun index attr mem => attributeFrom_attributePayload (normal attr mem) _
  have silent :
      (entity.attributes.map fun attr => (some attr, ([] : Violations))).flatMap Prod.snd =
      [] := List.flatMap_eq_nil_iff.mpr (by simp)
  simp only [entityFrom, entityPayload, attributes, checkText_eq_nil_iff.mpr id,
    checkText_eq_nil_iff.mpr name, filterMap_kept, silent, List.append_nil, positionFrom,
    Option.getD_some]

/-- A draft in normal form is mapped to itself. -/
theorem draftFrom_schemaPayload {draft : SchemaDraft} (normal : IsNormal draft) (id : Str) :
    draftFrom (schemaPayload (.new id draft)) = .ok draft := by
  rw [draftFrom_eq_ok_iff]
  have entities : ((draft.entities.map entityPayload).mapIdx fun index entity =>
      entityFrom entity (item "entities" index)) = draft.entities.map fun entity => (entity, []) :=
    mapIdx_map_of_back fun index entity mem => entityFrom_entityPayload
      (normal.entityIds entity mem) (normal.entityNames entity mem) (normal.attributes entity mem) _
  have relationships : ((draft.relationships.map relationshipPayload).mapIdx fun index link =>
      relationshipFrom link (item "relationships" index)) =
        draft.relationships.map fun link => (some link, []) :=
    mapIdx_map_of_back fun index link mem =>
      relationshipFrom_relationshipPayload (normal.relationships link mem) _
  have silent : (draft.relationships.map fun link =>
      (some link, ([] : Violations))).flatMap Prod.snd = [] := List.flatMap_eq_nil_iff.mpr (by simp)
  have drawn : (draft.entities.map fun entity => (entity, ([] : Violations))).map Prod.fst =
      draft.entities := by
    rw [List.map_map]
    exact List.map_id draft.entities
  simp only [draftWith, schemaPayload, Schema.new, entities, relationships, filterMap_kept,
    flatMap_silent, silent, drawn, List.append_nil, and_self]

/-- A schema says the same in the forms of both transports. -/
theorem sameSchema_schemaTo (schema : Schema) :
    SameSchema (Rpc.schemaTo schema) (schemaPayload schema) := by
  have kinds (kind : DataTypeKind) : SpellsKind (Rpc.dataTypeKindTo kind).number kind.asStr := by
    refine Or.inl ⟨kind, ?_, rfl⟩
    cases kind <;> decide
  have cardinalities (cardinality : Cardinality) :
      SpellsCardinality (Rpc.cardinalityTo cardinality).number cardinality.asStr := by
    refine Or.inl ⟨cardinality, ?_, rfl⟩
    cases cardinality <;> decide
  have attributes (attr : Attribute) :
      SameAttribute (Rpc.attributeTo attr) (attributePayload attr) :=
    ⟨rfl, rfl, rfl, .some ⟨kinds _, rfl, rfl, rfl⟩, rfl, rfl, rfl, rfl, rfl⟩
  have entities (entity : Entity) : SameEntity (Rpc.entityTo entity) (entityPayload entity) := by
    refine ⟨rfl, rfl, rfl, ?_, rfl⟩
    exact List.forall₂_map_left_iff.mpr (forall₂_map_right attributes _)
  refine ⟨rfl, rfl, ?_, ?_⟩
  · exact List.forall₂_map_left_iff.mpr (forall₂_map_right entities _)
  · apply List.forall₂_map_left_iff.mpr
    apply forall₂_map_right
    intro link
    exact ⟨rfl, rfl, rfl, rfl, rfl, rfl, rfl, cardinalities _⟩

theorem Rpc.draftSchemaFrom_schemaTo {draft : SchemaDraft} (normal : IsNormal draft) (id : Str) :
    Rpc.draftSchemaFrom (Rpc.schemaTo (.new id draft)) = .ok (.new id draft) := by
  rw [Rpc.draftSchemaFrom, draftFrom_eq (sameSchema_schemaTo _), draftFrom_schemaPayload normal]
  rfl

/-- An accepted draft comes back from every codec as it was. -/
theorem accepted_draft_survives {draft : SchemaDraft}
    (accepted : (∃ payload, draftFrom payload = .ok draft) ∨ ∃ proto : Rpc.V1.Schema,
      Rpc.draftFrom proto.name proto.description proto.entities proto.relationships = .ok draft)
    (id : Str) :
    Rpc.draftSchemaFrom (Rpc.schemaTo (.new id draft)) = .ok (.new id draft) ∧
      draftFrom (schemaPayload (.new id draft)) = .ok draft ∧
      Repository.draftOfRow draft.name draft.description (Repository.drawing draft).1
        (Repository.drawing draft).2 = .ok draft := by
  have normal : IsNormal draft := by
    rcases accepted with ⟨payload, accepted⟩ | ⟨proto, accepted⟩
    · exact isNormal_of_draftFrom accepted
    · exact Rpc.isNormal_of_draftFrom accepted
  exact ⟨Rpc.draftSchemaFrom_schemaTo normal id, draftFrom_schemaPayload normal id,
    Repository.draftOfRow_drawing draft⟩

/-- A payload that is normalised when it is accepted. -/
def ordersPayload : SchemaPayload where
  id := []
  name := "shop"
  description := []
  entities := [{
    id := "e1"
    name := "orders"
    description := "What was bought"
    attributes :=
      [⟨"a1", "id", [], some ⟨" UUID ", some 4, none, none⟩, true, true, true, none, none⟩,
        ⟨"a2", "total", [], some ⟨"numeric", none, some 10, some 2⟩, true, false, false,
          some ⟨"e1", "a1"⟩, some "0"⟩]
    position := none }]
  relationships := [⟨"r1", [], [], "e1", "a1", "e1", "a2", "one_to_many"⟩]

def ordersDraft : SchemaDraft where
  name := "shop"
  description := []
  entities := [{
    id := "e1"
    name := "orders"
    description := "What was bought"
    attributes :=
      [⟨"a1", "id", [], ⟨.uuid, none, none, none⟩, false, true, true, none, none⟩,
        ⟨"a2", "total", [], ⟨.numeric, none, some 10, some 2⟩, true, false, false,
          some ⟨"e1", "a1"⟩, some "0".toList⟩]
    position := .origin }]
  relationships := [⟨"r1", [], [], "e1", "a1", "e1", "a2", .oneToMany⟩]

theorem ordersDraft_survives : draftFrom ordersPayload = .ok ordersDraft ∧
    Rpc.draftSchemaFrom (Rpc.schemaTo (.new "s1" ordersDraft)) = .ok (.new "s1" ordersDraft) ∧
      draftFrom (schemaPayload (.new "s1" ordersDraft)) = .ok ordersDraft ∧
      Repository.draftOfRow ordersDraft.name ordersDraft.description
        (Repository.drawing ordersDraft).1 (Repository.drawing ordersDraft).2 =
          .ok ordersDraft := by
  have accepted : draftFrom ordersPayload = .ok ordersDraft := by rfl
  exact ⟨accepted, accepted_draft_survives (Or.inl ⟨_, accepted⟩) "s1"⟩

end SchemaForge.Adapter
