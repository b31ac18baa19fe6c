import SchemaForge.Adapter.Rpc
import SchemaForge.Foundation.Lists

/-!
# Two transports, one mapping

The HTTP mapper and the gRPC mapper are written apart. A payload that says the
same in both transports is mapped to the same draft by both, or refused by both
with the same violations.
-/

namespace SchemaForge

namespace Adapter

/-- The kinds of the model under the numbers of the contract. -/
def contractKinds : List (Int32 × DataTypeKind) :=
  [(1, .text), (2, .varchar), (3, .char), (4, .smallInt), (5, .integer), (6, .bigInt),
    (7, .numeric), (8, .real), (9, .doublePrecision), (10, .boolean), (11, .date), (12, .time),
    (13, .timestamp), (14, .timestampTz), (15, .uuid), (16, .json), (17, .jsonb), (18, .bytea)]

def contractCardinalities : List (Int32 × Cardinality) :=
  [(1, .oneToOne), (2, .oneToMany), (3, .manyToMany)]

/-- The name is that of the numbered kind, or names none where the number stands for none. -/
def SpellsKind (number : Int32) (name : Str) : Prop :=
  (∃ kind, (number, kind) ∈ contractKinds ∧ name = kind.asStr) ∨
    (∀ kind, (number, kind) ∉ contractKinds) ∧ DataTypeKind.fromStr name = none

def SpellsCardinality (number : Int32) (name : Str) : Prop :=
  (∃ cardinality, (number, cardinality) ∈ contractCardinalities ∧ name = cardinality.asStr) ∨
    (∀ cardinality, (number, cardinality) ∉ contractCardinalities) ∧
      Cardinality.fromStr name = none

structure SameDataType (proto : Rpc.V1.DataType) (payload : DataTypePayload) : Prop where
  kind : SpellsKind proto.kind payload.kind
  length : proto.length = payload.length
  precision : proto.precision = payload.precision
  scale : proto.scale = payload.scale

structure SameAttribute (proto : Rpc.V1.Attribute) (payload : AttributePayload) : Prop where
  id : proto.id = payload.id
  name : proto.name = payload.name
  description : proto.description = payload.description
  dataType : Option.Rel SameDataType proto.dataType payload.dataType
  nullable : proto.nullable = payload.nullable
  primaryKey : proto.primaryKey = payload.primaryKey
  unique : proto.unique = payload.unique
  foreignKey : proto.foreignKey = payload.foreignKey
  defaultValue : proto.defaultValue = payload.defaultValue

structure SameEntity (proto : Rpc.V1.Entity) (payload : EntityPayload) : Prop where
  id : proto.id = payload.id
  name : proto.name = payload.name
  description : proto.description = payload.description
  attributes : List.Forall₂ SameAttribute proto.attributes payload.attributes
  position : proto.position = payload.position

structure SameRelationship (proto : Rpc.V1.Relationship) (payload : RelationshipPayload) :
    Prop where
  id : proto.id = payload.id
  name : proto.name = payload.name
  description : proto.description = payload.description
  fromEntityId : proto.fromEntityId = payload.fromEntityId
  fromAttributeId : proto.fromAttributeId = payload.fromAttributeId
  toEntityId : proto.toEntityId = payload.toEntityId
  toAttributeId : proto.toAttributeId = payload.toAttributeId
  cardinality : SpellsCardinality proto.cardinality payload.cardinality

/-- The same fields in both transports. The id of a payload is no field of the draft. -/
structure SameSchema (proto : Rpc.V1.Schema) (payload : SchemaPayload) : Prop where
  name : proto.name = payload.name
  description : proto.description = payload.description
  entities : List.Forall₂ SameEntity proto.entities payload.entities
  relationships : List.Forall₂ SameRelationship proto.relationships payload.relationships

theorem dataTypeKindFrom_of_mem {number : Int32} {kind : DataTypeKind}
    (listed : (number, kind) ∈ contractKinds) : Rpc.dataTypeKindFrom number = some kind := by
  have all : ∀ entry ∈ contractKinds, Rpc.dataTypeKindFrom entry.1 = some entry.2 := by decide
  exact all _ listed

theorem mem_of_dataTypeKindFrom {number : Int32} {kind : DataTypeKind}
    (known : Rpc.dataTypeKindFrom number = some kind) : (number, kind) ∈ contractKinds := by
  rcases Option.bind_eq_some_iff.mp known with ⟨proto, found, mapped⟩
  have numbered : proto.number = number := by
    have same := List.find?_some found
    exact beq_iff_eq.mp same
  subst numbered
  cases proto <;> cases mapped <;> decide

theorem dataTypeKindFrom_eq {number : Int32} {name : Str} (spelled : SpellsKind number name) :
    Rpc.dataTypeKindFrom number = DataTypeKind.fromStr name := by
  rcases spelled with ⟨kind, listed, rfl⟩ | ⟨unlisted, unnamed⟩
  · rw [dataTypeKindFrom_of_mem listed, DataTypeKind.fromStr_asStr]
  · rw [unnamed]
    cases known : Rpc.dataTypeKindFrom number with
    | none => rfl
    | some kind => exact absurd (mem_of_dataTypeKindFrom known) (unlisted kind)

theorem cardinalityFrom_of_mem {number : Int32} {cardinality : Cardinality}
    (listed : (number, cardinality) ∈ contractCardinalities) (path : Str) :
    Rpc.cardinalityFrom number path = (some cardinality, []) := by
  have cases_ : number = 1 ∧ cardinality = .oneToOne ∨ number = 2 ∧ cardinality = .oneToMany ∨
      number = 3 ∧ cardinality = .manyToMany := by
    simpa [contractCardinalities] using listed
  rcases cases_ with ⟨rfl, rfl⟩ | ⟨rfl, rfl⟩ | ⟨rfl, rfl⟩ <;> rfl

theorem cardinalityFrom_of_unlisted {number : Int32}
    (unlisted : ∀ cardinality, (number, cardinality) ∉ contractCardinalities) (path : Str) :
    Rpc.cardinalityFrom number path =
      (none, [(path, ("field is required and must name a known cardinality" : Str))]) := by
  unfold Rpc.cardinalityFrom
  cases found : Rpc.V1.Cardinality.tryFrom number with
  | none => rfl
  | some proto =>
      have numbered : proto.number = number := by
        have same := List.find?_some found
        exact beq_iff_eq.mp same
      subst numbered
      cases proto with
      | unspecified => rfl
      | oneToOne => exact absurd (by decide) (unlisted .oneToOne)
      | oneToMany => exact absurd (by decide) (unlisted .oneToMany)
      | manyToMany => exact absurd (by decide) (unlisted .manyToMany)

theorem cardinalityFrom_eq {number : Int32} {name : Str} (spelled : SpellsCardinality number name)
    (path : Str) : Rpc.cardinalityFrom number path = cardinalityFrom name path := by
  rcases spelled with ⟨cardinality, listed, rfl⟩ | ⟨unlisted, unnamed⟩
  · rw [cardinalityFrom_of_mem listed, cardinalityFrom, Cardinality.fromStr_asStr]
  · rw [cardinalityFrom_of_unlisted unlisted, cardinalityFrom, unnamed]

theorem dataTypeFrom_eq {proto : Option Rpc.V1.DataType} {payload : Option DataTypePayload}
    (same : Option.Rel SameDataType proto payload) (path : Str) :
    Rpc.dataTypeFrom proto path = dataTypeFrom payload path := by
  cases same with
  | none => rfl
  | some same =>
      rewrite [Rpc.dataTypeFrom, dataTypeKindFrom_eq same.kind, same.length,
        same.precision, same.scale]
      rfl

theorem foreignKeyFrom_eq (reference : Option ForeignKeyRef) (path : Str) :
    foreignKeyFrom reference path =
      (if reference.any fun reference =>
          (Str.trim reference.entityId).isEmpty || (Str.trim reference.attributeId).isEmpty
        then (none, [(path, ("a reference must name both an entity and an attribute" : Str))])
        else (reference, [])) := by
  cases reference with
  | none => rfl
  | some reference => rfl

theorem attributeFrom_eq {proto : Rpc.V1.Attribute} {payload : AttributePayload}
    (same : SameAttribute proto payload) (path : Str) :
    Rpc.attributeFrom proto path = attributeFrom payload path := by
  rw [Rpc.attributeFrom, attributeFrom, dataTypeFrom_eq same.dataType, same.id, same.name,
    same.description, same.nullable, same.primaryKey, same.unique, same.foreignKey,
    same.defaultValue, foreignKeyFrom_eq]
  rcases dataTypeFrom payload.dataType (path ++ ".data_type") with ⟨dataType, typed⟩
  cases dataType with
  | none => rfl
  | some dataType =>
      dsimp only
      split <;> rfl

theorem entityFrom_eq {proto : Rpc.V1.Entity} {payload : EntityPayload}
    (same : SameEntity proto payload) (path : Str) :
    Rpc.entityFrom proto path =
      (some (entityFrom payload path).1, (entityFrom payload path).2) := by
  have attributes : (proto.attributes.mapIdx fun index attr =>
      Rpc.attributeFrom attr (path ++ ".attributes[" ++ Str.ofNat index ++ "]")) =
        payload.attributes.mapIdx fun index attr =>
          attributeFrom attr (item (path ++ ".attributes") index) := by
    apply List.mapIdx_eq_of_forall₂ same.attributes
    intro index proto payload same
    rw [attributeFrom_eq same, item]
    simp only [List.append_assoc]
    rfl
  rw [Rpc.entityFrom, entityFrom, attributes, same.id, same.name, same.description, same.position]
  cases payload.position <;> rfl

theorem relationshipFrom_eq {proto : Rpc.V1.Relationship} {payload : RelationshipPayload}
    (same : SameRelationship proto payload) (path : Str) :
    Rpc.relationshipFrom proto path = relationshipFrom payload path := by
  rw [Rpc.relationshipFrom, relationshipFrom, cardinalityFrom_eq same.cardinality, same.id,
    same.name, same.description, same.fromEntityId, same.fromAttributeId, same.toEntityId,
    same.toAttributeId]
  simp only [List.flatMap_cons, List.flatMap_nil, List.append_nil, List.append_assoc]
  rfl

theorem draftFrom_eq {proto : Rpc.V1.Schema} {payload : SchemaPayload}
    (same : SameSchema proto payload) :
    Rpc.draftFrom proto.name proto.description proto.entities proto.relationships =
      draftFrom payload := by
  have entities : (proto.entities.mapIdx fun index entity =>
      Rpc.entityFrom entity ("entities[" ++ Str.ofNat index ++ "]")) =
        (payload.entities.mapIdx fun index entity =>
          entityFrom entity (item "entities" index)).map fun mapped =>
            (some mapped.1, mapped.2) := by
    rw [List.map_mapIdx]
    apply List.mapIdx_eq_of_forall₂ same.entities
    intro index proto payload same
    rw [entityFrom_eq same]
    rfl
  have relationships : (proto.relationships.mapIdx fun index link =>
      Rpc.relationshipFrom link ("relationships[" ++ Str.ofNat index ++ "]")) =
        payload.relationships.mapIdx fun index link =>
          relationshipFrom link (item "relationships" index) := by
    apply List.mapIdx_eq_of_forall₂ same.relationships
    intro index proto payload same
    rw [relationshipFrom_eq same]
    rfl
  have kept (mapped : List (Entity × Violations)) :
      (mapped.map fun one => (some one.1, one.2)).filterMap Prod.fst = mapped.map Prod.fst ∧
        (mapped.map fun one => (some one.1, one.2)).flatMap Prod.snd = mapped.flatMap Prod.snd := by
    rw [List.filterMap_map, List.flatMap_map]
    exact ⟨List.filterMap_eq_map_iff_forall_eq_some.mpr fun _ _ => rfl, rfl⟩
  rw [Rpc.draftFrom, entities, relationships, (kept _).1, (kept _).2, same.name, same.description]
  rfl

theorem intoResult_eq_error {violations : Violations} {error : Error}
    (refused : intoResult violations = .error error) :
    ∃ message fields, error = .validation message fields := by
  have pushed (violations : Violations) (message : Str) (fields : List (Str × List Str)) :
      ∃ fields', violations.foldl (fun error violation =>
        error.pushViolation violation.1 violation.2) (.validation message fields) =
          Error.validation message fields' := by
    induction violations generalizing fields with
    | nil => exact ⟨fields, rfl⟩
    | cons violation violations ih => exact ih _
  cases violations with
  | nil => cases refused
  | cons violation violations =>
      rcases pushed (violation :: violations) "failed payload validation" [] with ⟨fields, same⟩
      exact ⟨_, fields, (Except.error.inj refused).symm.trans same⟩

/-- What the transports say the same is mapped to one draft, or refused with the same violations. -/
theorem draftFrom_agree {proto : Rpc.V1.Schema} {payload : SchemaPayload}
    (same : SameSchema proto payload) :
    (∃ draft, Rpc.draftFrom proto.name proto.description proto.entities proto.relationships =
        .ok draft ∧ draftFrom payload = .ok draft) ∨
      ∃ message fields, Rpc.draftFrom proto.name proto.description proto.entities
          proto.relationships = .error (.validation message fields) ∧
        draftFrom payload = .error (.validation message fields) := by
  rw [draftFrom_eq same]
  cases mapped : draftFrom payload with
  | ok draft => exact Or.inl ⟨draft, rfl, rfl⟩
  | error error =>
      have refused : intoResult (draftWith payload).2 = .error error := by
        rw [draftFrom] at mapped
        cases result : intoResult (draftWith payload).2 with
        | ok _ =>
            simp only [result] at mapped
            cases mapped
        | error other =>
            simp only [result] at mapped
            rw [Except.error.inj mapped]
      rcases intoResult_eq_error refused with ⟨message, fields, rfl⟩
      exact Or.inr ⟨message, fields, rfl, rfl⟩

/-- A table whose first column is well formed, and whose second has a type that nobody knows. -/
def usersProto : Rpc.V1.Schema where
  id := []
  name := "blog"
  description := []
  entities := [{
    id := "e1"
    name := "users"
    description := []
    attributes :=
      [⟨"a1", "id", [], some ⟨15, some 4, none, none⟩, true, true, false, none, none⟩,
        ⟨"a2", [], [], some ⟨99, none, none, none⟩, true, false, false, none, none⟩]
    position := none }]
  relationships := [⟨"r1", [], [], "e1", "a1", "e1", "a1", 2⟩]

def usersPayload : SchemaPayload where
  id := "s1"
  name := "blog"
  description := []
  entities := [{
    id := "e1"
    name := "users"
    description := []
    attributes :=
      [⟨"a1", "id", [], some ⟨"uuid", some 4, none, none⟩, true, true, false, none, none⟩,
        ⟨"a2", [], [], some ⟨"geometry", none, none, none⟩, true, false, false, none, none⟩]
    position := none }]
  relationships := [⟨"r1", [], [], "e1", "a1", "e1", "a1", "1:N"⟩]

theorem sameSchema_users : SameSchema usersProto usersPayload := by
  have known : SpellsKind 15 "uuid" := Or.inl ⟨.uuid, by decide, rfl⟩
  have unknown : SpellsKind 99 "geometry" := by
    refine Or.inr ⟨?_, by decide⟩
    intro kind
    cases kind <;> decide
  have many : SpellsCardinality 2 "1:N" := Or.inl ⟨.oneToMany, by decide, rfl⟩
  refine ⟨rfl, rfl, .cons ⟨rfl, rfl, rfl, .cons ?_ (.cons ?_ .nil), rfl⟩ .nil,
    .cons ⟨rfl, rfl, rfl, rfl, rfl, rfl, rfl, many⟩ .nil⟩
  · exact ⟨rfl, rfl, rfl, .some ⟨known, rfl, rfl, rfl⟩, rfl, rfl, rfl, rfl, rfl⟩
  · exact ⟨rfl, rfl, rfl, .some ⟨unknown, rfl, rfl, rfl⟩, rfl, rfl, rfl, rfl, rfl⟩

theorem draftFrom_agree_users : SameSchema usersProto usersPayload ∧
    ((∃ draft, Rpc.draftFrom usersProto.name usersProto.description usersProto.entities
        usersProto.relationships = .ok draft ∧ draftFrom usersPayload = .ok draft) ∨
      ∃ message fields, Rpc.draftFrom usersProto.name usersProto.description usersProto.entities
          usersProto.relationships = .error (.validation message fields) ∧
        draftFrom usersPayload = .error (.validation message fields)) :=
  ⟨sameSchema_users, draftFrom_agree sameSchema_users⟩

end Adapter

end SchemaForge
