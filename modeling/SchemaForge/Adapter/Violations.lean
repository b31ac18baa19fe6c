import SchemaForge.Adapter.Codecs

/-!
# Every problem at once

A payload is checked field by field, and each check looks at its own field only.
The mappers report the checks that fail, but a column without a known type is
left before its reference is looked at: what is wrong with the reference is told
only once the type has been mended.
-/

namespace SchemaForge

namespace Adapter

/-- A check of a payload: the path of what it looks at, and whether it fails. -/
structure Check where
  path : Str
  fails : Bool

def failing (checks : List Check) : List Str := (checks.filter Check.fails).map Check.path

def isBlank (value : Str) : Bool := (Str.trim value).isEmpty

def isIncomplete (reference : Option ForeignKeyRef) : Bool :=
  reference.any fun reference => isBlank reference.entityId || isBlank reference.attributeId

/-- The kind that a payload names, if it names one. -/
def kindNamed (dataType : Option DataTypePayload) : Option DataTypeKind :=
  dataType.bind fun dataType => DataTypeKind.fromStr dataType.kind

def columnChecks (path id name : Str) (kind : Option DataTypeKind)
    (reference : Option ForeignKeyRef) :
    List Check :=
  [⟨path ++ ".id", isBlank id⟩, ⟨path ++ ".name", isBlank name⟩,
    ⟨path ++ ".data_type", kind.isNone⟩, ⟨path ++ ".foreign_key", isIncomplete reference⟩]

def attributeChecks (path : Str) (attr : AttributePayload) : List Check :=
  columnChecks path attr.id attr.name (kindNamed attr.dataType) attr.foreignKey

def entityChecks (path : Str) (entity : EntityPayload) : List Check :=
  [⟨path ++ ".id", isBlank entity.id⟩, ⟨path ++ ".name", isBlank entity.name⟩] ++
    (entity.attributes.mapIdx fun index attr =>
      attributeChecks (item (path ++ ".attributes") index) attr).flatten

def relationshipChecks (path : Str) (link : RelationshipPayload) : List Check :=
  [⟨path ++ ".id", isBlank link.id⟩, ⟨path ++ ".from_entity_id", isBlank link.fromEntityId⟩,
    ⟨path ++ ".from_attribute_id", isBlank link.fromAttributeId⟩,
    ⟨path ++ ".to_entity_id", isBlank link.toEntityId⟩,
    ⟨path ++ ".to_attribute_id", isBlank link.toAttributeId⟩,
    ⟨path ++ ".cardinality", (Cardinality.fromStr link.cardinality).isNone⟩]

def schemaChecks (payload : SchemaPayload) : List Check :=
  (payload.entities.mapIdx fun index entity =>
    entityChecks (item "entities" index) entity).flatten ++
    (payload.relationships.mapIdx fun index link =>
      relationshipChecks (item "relationships" index) link).flatten

/-- Parameters that do not apply to the kind are dropped. -/
structure KeepsDataType (sent : DataTypePayload) (dataType : DataType) : Prop where
  kind : DataTypeKind.fromStr sent.kind = some dataType.kind
  length : dataType.length = if dataType.kind.takesLength then sent.length else none
  precision : dataType.precision = if dataType.kind.takesPrecision then sent.precision else none
  scale : dataType.scale = if dataType.kind.takesPrecision then sent.scale else none

structure KeepsAttribute (sent : AttributePayload) (attr : Attribute) : Prop where
  id : attr.id = sent.id
  name : attr.name = sent.name
  description : attr.description = sent.description
  dataType : ∃ dataType, sent.dataType = some dataType ∧ KeepsDataType dataType attr.dataType
  nullable : attr.nullable = (sent.nullable && !sent.primaryKey)
  primaryKey : attr.primaryKey = sent.primaryKey
  unique : attr.unique = sent.unique
  foreignKey : attr.foreignKey = sent.foreignKey
  defaultValue : attr.defaultValue = sent.defaultValue

structure KeepsEntity (sent : EntityPayload) (entity : Entity) : Prop where
  id : entity.id = sent.id
  name : entity.name = sent.name
  description : entity.description = sent.description
  attributes : List.Forall₂ KeepsAttribute sent.attributes entity.attributes
  position : entity.position = sent.position.getD .origin

structure KeepsRelationship (sent : RelationshipPayload) (link : Relationship) : Prop where
  id : link.id = sent.id
  name : link.name = sent.name
  description : link.description = sent.description
  fromEntityId : link.fromEntityId = sent.fromEntityId
  fromAttributeId : link.fromAttributeId = sent.fromAttributeId
  toEntityId : link.toEntityId = sent.toEntityId
  toAttributeId : link.toAttributeId = sent.toAttributeId
  cardinality : Cardinality.fromStr sent.cardinality = some link.cardinality

/-- The elements of the draft are those of the payload, one to one and in order. -/
structure Keeps (sent : SchemaPayload) (draft : SchemaDraft) : Prop where
  name : draft.name = sent.name
  description : draft.description = sent.description
  entities : List.Forall₂ KeepsEntity sent.entities draft.entities
  relationships : List.Forall₂ KeepsRelationship sent.relationships draft.relationships

/-- A caller is told every check that fails, and is refused only for these. -/
structure TellsEverything (checks : List Check) (keeps : SchemaDraft → Prop)
    (outcome : Except Error SchemaDraft) : Prop where
  accepts_iff : (∃ draft, outcome = .ok draft) ↔ failing checks = []
  violations : ∀ error, outcome = .error error → ∃ message fields,
    error = .validation message fields ∧
    ∀ path, path ∈ fields.map Prod.fst ↔ path ∈ failing checks
  kept : ∀ draft, outcome = .ok draft → keeps draft

/-- No column has both a type that is not known and a reference that is not complete. -/
def HidesNothing (payload : SchemaPayload) : Prop :=
  ∀ entity ∈ payload.entities, ∀ attr ∈ entity.attributes,
    kindNamed attr.dataType = none → isIncomplete attr.foreignKey = false

theorem item_append_inj {path s t : Str} {i j : Nat} (same : item path i ++ s = item path j ++ t) :
    i = j ∧ s = t := by
  have digits (n : Nat) (s : Str) : (Str.ofNat n ++ ']' :: s).takeWhile Char.isDigit =
      Str.ofNat n := by
    rw [List.takeWhile_append_of_pos fun c mem => Str.isDigit_of_mem_ofNat mem,
      List.takeWhile_cons_of_neg (by decide), List.append_nil]
  have tails : Str.ofNat i ++ ']' :: s = Str.ofNat j ++ ']' :: t := by
    simpa [item] using same
  have numbers : Str.ofNat i = Str.ofNat j := by rw [← digits i s, tails, digits]
  constructor
  · rw [← Str.digitsValue_ofNat i, numbers, Str.digitsValue_ofNat]
  · rw [numbers] at tails
    exact List.tail_eq_of_cons_eq (List.append_cancel_left tails)

theorem map_fst_checkText (value path : Str) :
    (checkText value path).map Prod.fst = failing [⟨path, isBlank value⟩] := by
  unfold checkText failing isBlank
  split
  · rename_i blank
    simp [blank]
  · rename_i solid
    simp [solid]

theorem failing_append (left right : List Check) :
    failing (left ++ right) = failing left ++ failing right := by
  rw [failing, List.filter_append, List.map_append]
  rfl

theorem failing_flatten (checks : List (List Check)) :
    failing checks.flatten = checks.flatMap failing := by
  induction checks with
  | nil => rfl
  | cons first checks ih => rw [List.flatten_cons, failing_append, ih, List.flatMap_cons]

/-- A column whose reference is not looked at, although it is not complete. -/
def hides (attr : AttributePayload) : Bool :=
  (kindNamed attr.dataType).isNone && isIncomplete attr.foreignKey

theorem hidesNothing_iff {payload : SchemaPayload} : HidesNothing payload ↔
    ∀ entity ∈ payload.entities, ∀ attr ∈ entity.attributes, hides attr = false := by
  apply forall₂_congr
  intro entity _
  apply forall₂_congr
  intro attr _
  unfold hides
  cases kindNamed attr.dataType <;> simp

theorem dataTypeFrom_cases (sent : Option DataTypePayload) (path : Str) :
    (kindNamed sent = none ∧ ∃ message, dataTypeFrom sent path = (none, [(path, message)])) ∨
      ∃ dataType mapped, sent = some dataType ∧ KeepsDataType dataType mapped ∧
        dataTypeFrom sent path = (some mapped, []) := by
  cases sent with
  | none =>
      left
      exact ⟨rfl, "field is required", rfl⟩
  | some dataType =>
      cases named : DataTypeKind.fromStr dataType.kind with
      | none =>
          left
          refine ⟨named, "field must name a known data type", ?_⟩
          simp only [dataTypeFrom, named]
      | some kind =>
          right
          refine ⟨dataType, ⟨kind, if kind.takesLength then dataType.length else none,
            if kind.takesPrecision then dataType.precision else none,
            if kind.takesPrecision then dataType.scale else none⟩, rfl, ⟨named, rfl, rfl, rfl⟩, ?_⟩
          simp only [dataTypeFrom, named]

theorem foreignKeyFrom_cases (reference : Option ForeignKeyRef) (path : Str) :
    (isIncomplete reference = true ∧
        ∃ message, foreignKeyFrom reference path = (none, [(path, message)])) ∨
      isIncomplete reference = false ∧ foreignKeyFrom reference path = (reference, []) := by
  rw [foreignKeyFrom_eq]
  change (isIncomplete reference = true ∧ ∃ message,
    (if isIncomplete reference then _ else _) = _) ∨
    isIncomplete reference = false ∧ (if isIncomplete reference then _ else _) = _
  cases isIncomplete reference with
  | true =>
      left
      exact ⟨rfl, _, rfl⟩
  | false =>
      right
      exact ⟨rfl, rfl⟩

theorem failing_attributeChecks (path : Str) (attr : AttributePayload) :
    failing (attributeChecks path attr) = (attributeFrom attr path).2.map Prod.fst ++
      if hides attr then [path ++ ".foreign_key"] else [] := by
  have texts : attributeChecks path attr = [⟨path ++ ".id", isBlank attr.id⟩] ++
      ([⟨path ++ ".name", isBlank attr.name⟩] ++
        [⟨path ++ ".data_type", (kindNamed attr.dataType).isNone⟩,
          ⟨path ++ ".foreign_key", isIncomplete attr.foreignKey⟩]) := rfl
  rw [texts, failing_append, failing_append, ← map_fst_checkText, ← map_fst_checkText, hides]
  rcases dataTypeFrom_cases attr.dataType (path ++ ".data_type") with
    ⟨unnamed, message, mapped⟩ | ⟨dataType, kept, sent, keeps, mapped⟩
  · have reported : (attributeFrom attr path).2 = checkText attr.id (path ++ ".id") ++
        checkText attr.name (path ++ ".name") ++ [(path ++ ".data_type", message)] := by
      simp only [attributeFrom, mapped]
    rw [reported, unnamed]
    cases isIncomplete attr.foreignKey <;> simp [failing]
  · have named : kindNamed attr.dataType = some kept.kind := by
      rw [sent]
      exact keeps.kind
    rcases foreignKeyFrom_cases attr.foreignKey (path ++ ".foreign_key") with
      ⟨incomplete, message, refused⟩ | ⟨complete, carried⟩
    · have reported : (attributeFrom attr path).2 = checkText attr.id (path ++ ".id") ++
          checkText attr.name (path ++ ".name") ++ [] ++ [(path ++ ".foreign_key", message)] := by
        simp only [attributeFrom, mapped, refused]
      rw [reported, named, incomplete]
      simp [failing]
    · have reported : (attributeFrom attr path).2 = checkText attr.id (path ++ ".id") ++
          checkText attr.name (path ++ ".name") ++ [] ++ [] := by
        simp only [attributeFrom, mapped, carried]
      rw [reported, named, complete]
      simp [failing]

theorem failing_relationshipChecks (path : Str) (link : RelationshipPayload) :
    failing (relationshipChecks path link) = (relationshipFrom link path).2.map Prod.fst := by
  have texts : relationshipChecks path link =
      [⟨path ++ ".id", isBlank link.id⟩] ++
      [⟨path ++ ".from_entity_id", isBlank link.fromEntityId⟩] ++
        [⟨path ++ ".from_attribute_id", isBlank link.fromAttributeId⟩] ++
        [⟨path ++ ".to_entity_id", isBlank link.toEntityId⟩] ++
        [⟨path ++ ".to_attribute_id", isBlank link.toAttributeId⟩] ++
        [⟨path ++ ".cardinality", (Cardinality.fromStr link.cardinality).isNone⟩] := rfl
  simp only [texts, failing_append, ← map_fst_checkText]
  unfold relationshipFrom cardinalityFrom
  cases Cardinality.fromStr link.cardinality with
  | none => simp [failing]
  | some cardinality => simp [failing]

theorem mem_flatMap_mapIdx {α β γ : Type} {f : Nat → α → β} {g : β → List γ}
    {items : List α} {c : γ} :
    c ∈ (items.mapIdx f).flatMap g ↔ ∃ index item, items[index]? = some item ∧
      c ∈ g (f index item) := by
  simp only [List.mem_flatMap, List.mem_mapIdx]
  constructor
  · rintro ⟨_, ⟨index, bound, rfl⟩, mem⟩
    exact ⟨index, _, List.getElem?_eq_getElem bound, mem⟩
  · rintro ⟨index, item, found, mem⟩
    rcases List.getElem?_eq_some_iff.mp found with ⟨bound, rfl⟩
    exact ⟨_, ⟨index, bound, rfl⟩, mem⟩

/-- The path of the reference of a column. -/
def referencePath (entity attr : Nat) : Str :=
  item (item "entities" entity ++ ".attributes") attr ++ ".foreign_key"

theorem mem_failing_entityChecks {path p : Str} {entity : EntityPayload} :
    p ∈ failing (entityChecks path entity) ↔ p ∈ (entityFrom entity path).2.map Prod.fst ∨
      ∃ index attr, entity.attributes[index]? = some attr ∧ hides attr = true ∧
        p = item (path ++ ".attributes") index ++ ".foreign_key" := by
  have texts : entityChecks path entity =
      [⟨path ++ ".id", isBlank entity.id⟩] ++ [⟨path ++ ".name", isBlank entity.name⟩] ++
        (entity.attributes.mapIdx fun index attr =>
          attributeChecks (item (path ++ ".attributes") index) attr).flatten := rfl
  rw [texts, failing_append, failing_append, failing_flatten, ← map_fst_checkText,
    ← map_fst_checkText]
  simp only [entityFrom, List.map_append, List.map_flatMap, List.mem_append, mem_flatMap_mapIdx,
    failing_attributeChecks, or_assoc]
  apply or_congr_right
  apply or_congr_right
  constructor
  · rintro ⟨index, attr, found, mem | mem⟩
    · exact Or.inl ⟨index, attr, found, mem⟩
    · right
      refine ⟨index, attr, found, ?_⟩
      split at mem
      · rename_i hidden
        exact ⟨hidden, List.mem_singleton.mp mem⟩
      · cases mem
  · rintro (⟨index, attr, found, mem⟩ | ⟨index, attr, found, hidden, rfl⟩)
    · exact ⟨index, attr, found, Or.inl mem⟩
    · refine ⟨index, attr, found, Or.inr ?_⟩
      rw [if_pos hidden]
      exact List.mem_singleton_self _

theorem mem_failing_schemaChecks {payload : SchemaPayload} {p : Str} :
    p ∈ failing (schemaChecks payload) ↔ p ∈ (draftWith payload).2.map Prod.fst ∨
      ∃ i entity j attr, payload.entities[i]? = some entity ∧ entity.attributes[j]? = some attr ∧
        hides attr = true ∧ p = referencePath i j := by
  rw [schemaChecks, failing_append, failing_flatten, failing_flatten]
  simp only [draftWith, List.map_append, List.map_flatMap, List.mem_append, mem_flatMap_mapIdx,
    failing_relationshipChecks, mem_failing_entityChecks]
  constructor
  · rintro (⟨i, entity, found, mem | ⟨j, attr, listed, hidden, rfl⟩⟩ | ⟨i, link, found, mem⟩)
    · exact Or.inl (Or.inl ⟨i, entity, found, mem⟩)
    · exact Or.inr ⟨i, entity, j, attr, found, listed, hidden, rfl⟩
    · exact Or.inl (Or.inr ⟨i, link, found, mem⟩)
  · rintro ((⟨i, entity, found, mem⟩ | ⟨i, link, found, mem⟩) |
      ⟨i, entity, j, attr, found, listed, hidden, rfl⟩)
    · exact Or.inl ⟨i, entity, found, Or.inl mem⟩
    · exact Or.inr ⟨i, link, found, mem⟩
    · exact Or.inl ⟨i, entity, found, Or.inr ⟨j, attr, listed, hidden, rfl⟩⟩

theorem eq_of_mem_checkText {value path p : Str} (mem : p ∈ (checkText value path).map Prod.fst) :
    p = path := by
  rw [map_fst_checkText] at mem
  rcases List.mem_map.mp mem with ⟨check, checked, rfl⟩
  rw [List.mem_singleton.mp (List.mem_filter.mp checked).1]

theorem mem_attributeFrom {attr : AttributePayload} {path p : Str}
    (mem : p ∈ (attributeFrom attr path).2.map Prod.fst) :
    ∃ field : Str, p = path ++ field ∧ (field = ".foreign_key" → hides attr = false) := by
  rcases dataTypeFrom_cases attr.dataType (path ++ ".data_type") with
    ⟨unnamed, message, mapped⟩ | ⟨dataType, kept, sent, keeps, mapped⟩
  · simp only [attributeFrom, mapped, List.map_append, List.mem_append] at mem
    rcases mem with (mem | mem) | mem
    · exact ⟨".id", eq_of_mem_checkText mem, fun same => absurd same (by decide)⟩
    · exact ⟨".name", eq_of_mem_checkText mem, fun same => absurd same (by decide)⟩
    · exact ⟨".data_type", List.mem_singleton.mp mem, fun same => absurd same (by decide)⟩
  · have shown : hides attr = false := by
      have named : kindNamed (some dataType) = some kept.kind := keeps.kind
      rw [hides, sent, named]
      rfl
    have all : p ∈ failing (attributeChecks path attr) := by
      rw [failing_attributeChecks]
      exact List.mem_append_left _ mem
    rcases List.mem_map.mp all with ⟨check, checked, rfl⟩
    have listed := (List.mem_filter.mp checked).1
    simp only [attributeChecks, columnChecks, List.mem_cons, List.not_mem_nil, or_false] at listed
    rcases listed with rfl | rfl | rfl | rfl <;> exact ⟨_, rfl, fun _ => shown⟩

theorem mem_relationshipFrom {link : RelationshipPayload} {path p : Str}
    (mem : p ∈ (relationshipFrom link path).2.map Prod.fst) : ∃ field : Str, p = path ++ field := by
  rw [← failing_relationshipChecks] at mem
  rcases List.mem_map.mp mem with ⟨check, checked, rfl⟩
  have listed := (List.mem_filter.mp checked).1
  simp only [relationshipChecks, List.mem_cons, List.not_mem_nil, or_false] at listed
  rcases listed with rfl | rfl | rfl | rfl | rfl | rfl <;> exact ⟨_, rfl⟩

/-- The path of a reference, from its table on. -/
theorem referencePath_eq (i j : Nat) :
    referencePath i j = item "entities" i ++ ".attributes[" ++
      (Str.ofNat j ++ "].foreign_key") := by
  simp only [referencePath, item, List.append_assoc]
  rfl

theorem referencePath_notMem {payload : SchemaPayload} {i j : Nat} {entity : EntityPayload}
    {attr : AttributePayload} (found : payload.entities[i]? = some entity)
    (listed : entity.attributes[j]? = some attr) (hidden : hides attr = true) :
    referencePath i j ∉ (draftWith payload).2.map Prod.fst := by
  intro mem
  simp only [draftWith, List.map_append, List.map_flatMap, List.mem_append, mem_flatMap_mapIdx,
    entityFrom] at mem
  have apart {k : Nat} {field : Str} (other : field.take 2 ≠ ".a") :
      referencePath i j ≠ item "entities" k ++ field := by
    intro same
    rw [referencePath_eq, List.append_assoc] at same
    rw [← (item_append_inj same).2] at other
    exact other rfl
  rcases mem with ⟨k, entity', found', (mem | mem) | ⟨l, attr', listed', mem⟩⟩ |
    ⟨k, link, found', mem⟩
  · exact apart (by decide) (eq_of_mem_checkText mem)
  · exact apart (by decide) (eq_of_mem_checkText mem)
  · rcases mem_attributeFrom mem with ⟨field, same, looked⟩
    have table : i = k := by
      have tails : referencePath i j =
          item "entities" k ++ (".attributes[" ++ (Str.ofNat l ++ ("]" ++ field))) := by
        simp only [same, item, List.append_assoc]
        rfl
      rw [referencePath_eq, List.append_assoc] at tails
      exact (item_append_inj tails).1
    subst table
    rcases item_append_inj same with ⟨rfl, rfl⟩
    rw [found] at found'
    cases found'
    rw [listed] at listed'
    cases listed'
    rw [looked rfl] at hidden
    cases hidden
  · rcases mem_relationshipFrom mem with ⟨field, same⟩
    have heads : some 'e' = some 'r' := congrArg List.head? same
    cases heads

theorem mem_insertViolation {field message p : Str} {fields : List (Str × List Str)} :
    p ∈ (Error.insertViolation field message fields).map Prod.fst ↔
      p = field ∨ p ∈ fields.map Prod.fst := by
  induction fields with
  | nil => simp [Error.insertViolation]
  | cons entry fields ih =>
      rcases entry with ⟨key, messages⟩
      rw [Error.insertViolation]
      split
      · rename_i same
        simp [same]
      · split
        · simp
        · rw [List.map_cons, List.mem_cons, ih, List.map_cons, List.mem_cons]
          exact or_left_comm

theorem exists_pushed (violations : Violations) (message : Str) (fields : List (Str × List Str)) :
    ∃ pushed, violations.foldl (fun error violation => error.pushViolation violation.1 violation.2)
        (.validation message fields) = Error.validation message pushed ∧
      ∀ p, p ∈ pushed.map Prod.fst ↔ p ∈ violations.map Prod.fst ∨ p ∈ fields.map Prod.fst := by
  induction violations generalizing fields with
  | nil => exact ⟨fields, rfl, by simp⟩
  | cons violation violations ih =>
      rcases ih (Error.insertViolation violation.1 violation.2 fields) with ⟨pushed, same, keys⟩
      refine ⟨pushed, same, ?_⟩
      intro p
      rw [keys, mem_insertViolation, List.map_cons, List.mem_cons, or_assoc]
      exact or_left_comm

theorem draftFrom_eq_error {payload : SchemaPayload} (refused : (draftWith payload).2 ≠ []) :
    ∃ message fields, draftFrom payload = .error (.validation message fields) ∧
      ∀ p, p ∈ fields.map Prod.fst ↔ p ∈ (draftWith payload).2.map Prod.fst := by
  rcases exists_pushed (draftWith payload).2 "failed payload validation" [] with
    ⟨fields, pushed, keys⟩
  refine ⟨"failed payload validation", fields, ?_, by simpa using keys⟩
  rcases mapped : draftWith payload with ⟨drawn, violations⟩
  rw [mapped] at refused pushed
  cases violations with
  | nil => exact absurd rfl refused
  | cons violation violations =>
      rw [draftFrom, mapped]
      exact congrArg Except.error pushed

theorem keepsAttribute_of_silent {attr : AttributePayload} {path : Str}
    (silent : (attributeFrom attr path).2 = []) :
    ∃ kept, (attributeFrom attr path).1 = some kept ∧ KeepsAttribute attr kept := by
  rcases dataTypeFrom_cases attr.dataType (path ++ ".data_type") with
    ⟨unnamed, message, mapped⟩ | ⟨dataType, kept, sent, keeps, mapped⟩
  · simp only [attributeFrom, mapped] at silent
    simp at silent
  · rcases foreignKeyFrom_cases attr.foreignKey (path ++ ".foreign_key") with
      ⟨incomplete, message, refused⟩ | ⟨complete, carried⟩
    · simp only [attributeFrom, mapped, refused] at silent
      simp at silent
    · simp only [attributeFrom, mapped, carried]
      exact ⟨_, rfl, rfl, rfl, rfl, ⟨dataType, sent, keeps⟩, rfl, rfl, rfl, rfl, rfl⟩

theorem keepsRelationship_of_silent {link : RelationshipPayload} {path : Str}
    (silent : (relationshipFrom link path).2 = []) :
    ∃ kept, (relationshipFrom link path).1 = some kept ∧ KeepsRelationship link kept := by
  cases named : Cardinality.fromStr link.cardinality with
  | none => simp [relationshipFrom, cardinalityFrom, named] at silent
  | some cardinality =>
      simp only [relationshipFrom, cardinalityFrom, named]
      exact ⟨_, rfl, rfl, rfl, rfl, rfl, rfl, rfl, rfl, named⟩

theorem forall₂_map_mapIdx {α β γ : Type} {relates : α → γ → Prop} {f : Nat → α → β} {g : β → γ}
    {items : List α}
    (related : ∀ index item, items[index]? = some item → relates item (g (f index item))) :
    List.Forall₂ relates items ((items.mapIdx f).map g) := by
  induction items generalizing f with
  | nil => exact .nil
  | cons item items ih =>
      rw [List.mapIdx_cons, List.map_cons]
      apply List.Forall₂.cons
      · exact related 0 item rfl
      · exact ih fun index other found => related (index + 1) other found

theorem forall₂_filterMap_mapIdx {α β γ : Type} {relates : α → β → Prop}
    {f : Nat → α → Option β × γ} {items : List α}
    (related : ∀ index item, items[index]? = some item →
      ∃ mapped, (f index item).1 = some mapped ∧ relates item mapped) :
    List.Forall₂ relates items ((items.mapIdx f).filterMap Prod.fst) := by
  induction items generalizing f with
  | nil => exact .nil
  | cons item items ih =>
      rcases related 0 item rfl with ⟨mapped, first, relates⟩
      rw [List.mapIdx_cons, List.filterMap_cons, first]
      apply List.Forall₂.cons
      · exact relates
      · exact ih fun index other found => related (index + 1) other found

theorem eq_nil_of_flatMap_mapIdx {α β γ : Type} {f : Nat → α → β × List γ} {items : List α}
    (silent : (items.mapIdx f).flatMap Prod.snd = []) {index : Nat} {item : α}
    (found : items[index]? = some item) : (f index item).2 = [] := by
  apply List.flatMap_eq_nil_iff.mp silent
  rcases List.getElem?_eq_some_iff.mp found with ⟨bound, rfl⟩
  exact List.mem_mapIdx.mpr ⟨index, bound, rfl⟩

theorem keeps_of_silent {payload : SchemaPayload} (silent : (draftWith payload).2 = []) :
    Keeps payload (draftWith payload).1 := by
  rcases List.append_eq_nil_iff.mp silent with ⟨entities, relationships⟩
  refine ⟨rfl, rfl, forall₂_map_mapIdx ?_, forall₂_filterMap_mapIdx ?_⟩
  · intro index entity found
    have quiet := eq_nil_of_flatMap_mapIdx entities found
    have columns := (List.append_eq_nil_iff.mp quiet).2
    refine ⟨rfl, rfl, rfl, forall₂_filterMap_mapIdx ?_, rfl⟩
    intro index attr found
    exact keepsAttribute_of_silent (eq_nil_of_flatMap_mapIdx columns found)
  · intro index link found
    exact keepsRelationship_of_silent (eq_nil_of_flatMap_mapIdx relationships found)

theorem mem_failing_iff_of_hidesNothing {payload : SchemaPayload}
    (shown : HidesNothing payload) (p : Str) :
    p ∈ failing (schemaChecks payload) ↔ p ∈ (draftWith payload).2.map Prod.fst := by
  rw [hidesNothing_iff] at shown
  rw [mem_failing_schemaChecks]
  apply or_iff_left
  rintro ⟨i, entity, j, attr, found, place, hidden, -⟩
  rw [shown entity (List.mem_of_getElem? found) attr (List.mem_of_getElem? place)] at hidden
  cases hidden

theorem hidesNothing_of_tellsEverything {payload : SchemaPayload} {keeps : SchemaDraft → Prop}
    (told : TellsEverything (schemaChecks payload) keeps (draftFrom payload)) :
    HidesNothing payload := by
  rw [hidesNothing_iff]
  intro entity mem attr listed
  rcases List.getElem?_of_mem mem with ⟨i, found⟩
  rcases List.getElem?_of_mem listed with ⟨j, place⟩
  by_contra hidden
  rw [Bool.not_eq_false] at hidden
  have fails : referencePath i j ∈ failing (schemaChecks payload) :=
    mem_failing_schemaChecks.mpr (Or.inr ⟨i, entity, j, attr, found, place, hidden, rfl⟩)
  have unreported := referencePath_notMem found place hidden
  by_cases silent : (draftWith payload).2 = []
  · have none_fails := told.accepts_iff.mp ⟨_, draftFrom_eq_ok_iff.mpr ⟨rfl, silent⟩⟩
    rw [none_fails] at fails
    cases fails
  · rcases draftFrom_eq_error silent with ⟨message, fields, refused, keys⟩
    rcases told.violations _ refused with ⟨_, _, same, exactly⟩
    cases same
    exact unreported ((keys _).mp ((exactly _).mpr fails))

theorem tellsEverything_of_hidesNothing {payload : SchemaPayload} (shown : HidesNothing payload) :
    TellsEverything (schemaChecks payload) (Keeps payload) (draftFrom payload) := by
  have reported := mem_failing_iff_of_hidesNothing shown
  have silent_iff : (draftWith payload).2 = [] ↔ failing (schemaChecks payload) = [] := by
    rw [← List.map_eq_nil_iff (f := Prod.fst), List.eq_nil_iff_forall_not_mem,
      List.eq_nil_iff_forall_not_mem]
    exact forall_congr' fun p => not_congr (reported p).symm
  constructor
  · rw [← silent_iff]
    constructor
    · rintro ⟨draft, accepted⟩
      exact (draftFrom_eq_ok_iff.mp accepted).2
    · intro silent
      exact ⟨_, draftFrom_eq_ok_iff.mpr ⟨rfl, silent⟩⟩
  · intro error refused
    have loud : (draftWith payload).2 ≠ [] := by
      intro silent
      rw [draftFrom_eq_ok_iff.mpr ⟨rfl, silent⟩] at refused
      cases refused
    rcases draftFrom_eq_error loud with ⟨message, fields, same, keys⟩
    rw [refused] at same
    exact ⟨message, fields, Except.error.inj same, fun p => (keys p).trans (reported p).symm⟩
  · intro draft accepted
    rcases draftFrom_eq_ok_iff.mp accepted with ⟨rfl, silent⟩
    exact keeps_of_silent silent

namespace Rpc

def kindNamed (dataType : Option V1.DataType) : Option DataTypeKind :=
  dataType.bind fun dataType => dataTypeKindFrom dataType.kind

def cardinalityNamed (value : Int32) : Option Cardinality := (cardinalityFrom value []).1

def attributeChecks (path : Str) (attr : V1.Attribute) : List Check :=
  columnChecks path attr.id attr.name (kindNamed attr.dataType) attr.foreignKey

def entityChecks (path : Str) (entity : V1.Entity) : List Check :=
  [⟨path ++ ".id", isBlank entity.id⟩, ⟨path ++ ".name", isBlank entity.name⟩] ++
    (entity.attributes.mapIdx fun index attr =>
      attributeChecks (item (path ++ ".attributes") index) attr).flatten

def relationshipChecks (path : Str) (link : V1.Relationship) : List Check :=
  [⟨path ++ ".id", isBlank link.id⟩, ⟨path ++ ".from_entity_id", isBlank link.fromEntityId⟩,
    ⟨path ++ ".from_attribute_id", isBlank link.fromAttributeId⟩,
    ⟨path ++ ".to_entity_id", isBlank link.toEntityId⟩,
    ⟨path ++ ".to_attribute_id", isBlank link.toAttributeId⟩,
    ⟨path ++ ".cardinality", (cardinalityNamed link.cardinality).isNone⟩]

def schemaChecks (proto : V1.Schema) : List Check :=
  (proto.entities.mapIdx fun index entity => entityChecks (item "entities" index) entity).flatten ++
    (proto.relationships.mapIdx fun index link =>
      relationshipChecks (item "relationships" index) link).flatten

def HidesNothing (proto : V1.Schema) : Prop :=
  ∀ entity ∈ proto.entities, ∀ attr ∈ entity.attributes,
    kindNamed attr.dataType = none → isIncomplete attr.foreignKey = false

theorem kindNamed_spelled (attr : V1.Attribute) :
    Adapter.kindNamed (spelledAttribute attr).dataType = kindNamed attr.dataType := by
  unfold spelledAttribute Adapter.kindNamed kindNamed
  cases attr.dataType with
  | none => rfl
  | some dataType => exact (dataTypeKindFrom_eq (spellsKind_kindName dataType.kind)).symm

theorem cardinalityNamed_spelled (link : V1.Relationship) :
    Cardinality.fromStr (spelledRelationship link).cardinality =
      cardinalityNamed link.cardinality := by
  rw [cardinalityNamed, cardinalityFrom_eq (spellsCardinality_cardinalityName link.cardinality)]
  unfold Adapter.cardinalityFrom spelledRelationship
  split
  · rename_i named
    exact named
  · rename_i unnamed
    exact unnamed

theorem schemaChecks_spelled (proto : V1.Schema) :
    Adapter.schemaChecks (spelledSchema proto) = schemaChecks proto := by
  have columns (path : Str) (attrs : List V1.Attribute) :
      ((attrs.map spelledAttribute).mapIdx fun index attr =>
        Adapter.attributeChecks (item (path ++ ".attributes") index) attr) =
      attrs.mapIdx fun index attr => attributeChecks (item (path ++ ".attributes") index) attr := by
    rw [List.mapIdx_map]
    congr 1
    funext index attr
    unfold Adapter.attributeChecks attributeChecks
    rw [kindNamed_spelled]
    rfl
  unfold Adapter.schemaChecks schemaChecks spelledSchema
  congr 2
  · rw [List.mapIdx_map]
    congr 1
    funext index entity
    exact congrArg (_ ++ List.flatten ·) (columns _ entity.attributes)
  · rw [List.mapIdx_map]
    congr 1
    funext index link
    unfold Adapter.relationshipChecks relationshipChecks
    rw [cardinalityNamed_spelled]
    rfl

theorem hidesNothing_spelled (proto : V1.Schema) :
    Adapter.HidesNothing (spelledSchema proto) ↔ HidesNothing proto := by
  simp only [Adapter.HidesNothing, HidesNothing, spelledSchema, spelledEntity, List.forall_mem_map,
    kindNamed_spelled]
  rfl

end Rpc

/--
A caller is told every problem when no reference is hidden behind a missing type, and only then.
-/
theorem tellsEverything_iff (payload : SchemaPayload) (proto : Rpc.V1.Schema) :
    (TellsEverything (schemaChecks payload) (Keeps payload) (draftFrom payload) ↔
      HidesNothing payload) ∧
      (TellsEverything (Rpc.schemaChecks proto)
          (fun draft => ∃ payload, SameSchema proto payload ∧ Keeps payload draft)
          (Rpc.draftFrom proto.name proto.description proto.entities proto.relationships) ↔
        Rpc.HidesNothing proto) := by
  constructor
  · exact ⟨hidesNothing_of_tellsEverything, tellsEverything_of_hidesNothing⟩
  · rw [draftFrom_eq (sameSchema_spelled proto), ← Rpc.schemaChecks_spelled,
      ← Rpc.hidesNothing_spelled]
    constructor
    · exact hidesNothing_of_tellsEverything
    · intro shown
      have told := tellsEverything_of_hidesNothing shown
      refine ⟨told.accepts_iff, told.violations, ?_⟩
      intro draft accepted
      exact ⟨spelledSchema proto, sameSchema_spelled proto, told.kept draft accepted⟩

/-- A column without a type, whose reference names no table. -/
def untypedPayload : SchemaPayload where
  id := "s1"
  name := "blog"
  description := []
  entities := [{
    id := "e1"
    name := "posts"
    description := []
    attributes := [⟨"a1", "author_id", [], none, true, false, false, some ⟨[], "a9"⟩, none⟩]
    position := none }]
  relationships := []

/-- The refusal does not mention the reference. -/
theorem not_tellsEverything_untypedPayload :
    draftFrom untypedPayload = .error (.validation "failed payload validation"
      [("entities[0].attributes[0].data_type", ["field is required"])]) ∧
    failing (schemaChecks untypedPayload) =
      [("entities[0].attributes[0].data_type" : Str), "entities[0].attributes[0].foreign_key"] ∧
    ¬TellsEverything (schemaChecks untypedPayload) (Keeps untypedPayload)
      (draftFrom untypedPayload) := by
  have refused : draftFrom untypedPayload = .error (.validation "failed payload validation"
      [("entities[0].attributes[0].data_type", ["field is required"])]) := by decide
  have fails : failing (schemaChecks untypedPayload) =
      [("entities[0].attributes[0].data_type" : Str), "entities[0].attributes[0].foreign_key"] := by
    decide
  refine ⟨refused, fails, ?_⟩
  intro told
  rcases told.violations _ refused with ⟨message, fields, same, exactly⟩
  cases same
  have mentioned := (exactly "entities[0].attributes[0].foreign_key").mpr (by rw [fails]; decide)
  revert mentioned
  decide

end Adapter

end SchemaForge
