import SchemaForge.Exchange.Json

/-!
# What a saved file opens as

The reader applied to what the writer wrote has a closed form, `reopened`, when
it succeeds at all. From it follow the exact round trip, and which files can be
opened again.
-/

namespace SchemaForge.Exchange.Json

open SchemaForge.Json

section Reopened

variable (uuid : Element → Str)

/-- The id of an element after a file with this id is read. -/
def readId (element : Element) (id : Str) : Str :=
  if Str.trim id = [] then freshId uuid element else Str.trim id

/-- A type with the parameters its kind takes. -/
def ownParameters (dataType : DataType) : DataType where
  kind := dataType.kind
  length := if dataType.kind.takesLength then dataType.length else none
  precision := if dataType.kind.takesPrecision then dataType.precision else none
  scale := if dataType.kind.takesPrecision then dataType.scale else none

def reopenedAttribute (element : Element) (attr : Attribute) : Attribute :=
  { attr with
    id := readId uuid element attr.id
    dataType := ownParameters attr.dataType
    nullable := attr.nullable && !attr.primaryKey }

/-- A coordinate that no JSON number holds is written as `null`, and read as zero. -/
def reopenedCoordinate (x : F64) : F64 := if x.isFinite then x else .ofInt 0

def reopenedPosition (written wanted : Bool) (index : Nat) (position : Position) : Position :=
  if written && wanted then ⟨reopenedCoordinate position.x, reopenedCoordinate position.y⟩
  else gridSlot index

def reopenedEntity (written wanted : Bool) (index : Nat) (entity : Entity) : Entity where
  id := readId uuid (.entity index) entity.id
  name := entity.name
  description := entity.description
  attributes := entity.attributes.mapIdx fun offset attr =>
    reopenedAttribute uuid (.attr index offset) attr
  position := reopenedPosition written wanted index entity.position

def reopenedRelationship (index : Nat) (link : Relationship) : Relationship :=
  { link with id := readId uuid (.relationship index) link.id }

/-- What a file that can be opened opens as. -/
def reopened (written wanted : Bool) (schema : Schema) : SchemaDraft where
  name := schema.name
  description := schema.description
  entities := schema.entities.mapIdx (reopenedEntity uuid written wanted)
  relationships := schema.relationships.mapIdx (reopenedRelationship uuid)

end Reopened

@[simp]
theorem get_nil (key : Str) : Fields.get [] key = none := rfl

theorem get_cons_of_ne {key other : Str} (value : Value) (fields : Fields)
    (different : other ≠ key) :
    Fields.get ((other, value) :: fields) key = Fields.get fields key := by
  simp [Fields.get, different]

theorem get_append (left right : Fields) (key : Str) :
    Fields.get (left ++ right) key = (Fields.get left key).or (Fields.get right key) := by
  induction left with
  | nil => rfl
  | cons field left ih =>
      obtain ⟨name, value⟩ := field
      by_cases same : name = key
      · simp [Fields.get, same]
      · simp [Fields.get, same, ih]

theorem get_optionalField_self (key : Str) (value : Option Value) :
    Fields.get (optionalField key value) key = value := by
  cases value <;> simp [optionalField, Fields.get]

theorem get_optionalField_of_ne {key other : Str} (value : Option Value) (different : other ≠ key) :
    Fields.get (optionalField other value) key = none := by
  cases value <;> simp [optionalField, Fields.get, different]

theorem identity_of_get {uuid : Element → Str} {source : Fields} {key id : Str}
    (found : source.get key = some (.string id)) (element : Element) :
    identity source key (freshId uuid element) = readId uuid element id := by
  simp only [identity, found, Option.bind_some, Value.asStr, Option.map_some, readId]
  cases Str.trim id <;> simp

theorem required_of_get {source : Fields} {key : Str} {value : Value}
    (found : source.get key = some value) (present : value.isNull = false) (path : Str) :
    required source key path = .ok value := by
  rw [required, found]
  simp [Option.filter, present]

theorem requiredText_of_get {source : Fields} {key value : Str}
    (found : source.get key = some (.string value)) (path : Str) :
    requiredText source key path = .ok value := by
  rw [requiredText, required_of_get found rfl]
  rfl

theorem optionalText_of_get {source : Fields} {key value : Str}
    (found : source.get key = some (.string value)) (path : Str) :
    optionalText source key path = .ok (some value) := by
  simp [optionalText, found, text, Value.asStr, Bind.bind, Except.bind, Pure.pure, Except.pure]

theorem flag_of_get {source : Fields} {key : Str} {value : Bool}
    (found : source.get key = some (.bool value)) (path : Str) (default : Bool) :
    flag source key path default = .ok value := by
  simp [flag, found, Value.asBool]

theorem count_of_get {source : Fields} {key : Str} {value : Option UInt32}
    (found : source.get key = value.map .ofU32) (path : Str) :
    count source key path = .ok value := by
  cases value with
  | none => simp [count, found]
  | some value =>
      have small := value.toNat_lt
      simp [count, found, Value.ofU32, Value.asU64, small]

theorem coordinate_of_get {source : Fields} {key : Str} {x : F64}
    (found : source.get key = some (.ofF64 x)) (path : Str) :
    coordinate source key path = .ok (reopenedCoordinate x) := by
  by_cases finite : x.isFinite = true
  · simp [coordinate, found, Value.ofF64, finite, Value.asF64, reopenedCoordinate]
  · simp [coordinate, found, Value.ofF64, finite, reopenedCoordinate]

theorem dataTypeFrom_dataTypeDoc {source : Fields} {dataType : DataType}
    (found : source.get "dataType" = some (dataTypeDoc dataType)) (path : Str) :
    dataTypeFrom source path = .ok (ownParameters dataType) := by
  have kind : (dataTypeFields dataType).get "kind" = some (.string (kindName dataType.kind)) := rfl
  have length : (dataTypeFields dataType).get "length" = dataType.length.map .ofU32 := by
    rw [dataTypeFields, get_append, get_append, get_append, get_optionalField_self,
      get_optionalField_of_ne _ (by decide), get_optionalField_of_ne _ (by decide),
      get_cons_of_ne _ _ (by decide)]
    simp
  have precision : (dataTypeFields dataType).get "precision" = dataType.precision.map .ofU32 := by
    rw [dataTypeFields, get_append, get_append, get_append, get_optionalField_self,
      get_optionalField_of_ne _ (by decide), get_optionalField_of_ne _ (by decide),
      get_cons_of_ne _ _ (by decide)]
    simp
  have scale : (dataTypeFields dataType).get "scale" = dataType.scale.map .ofU32 := by
    rw [dataTypeFields, get_append, get_append, get_append, get_optionalField_self,
      get_optionalField_of_ne _ (by decide), get_optionalField_of_ne _ (by decide),
      get_cons_of_ne _ _ (by decide)]
    simp
  have opened : object (dataTypeDoc dataType) (path ++ ".dataType") =
    .ok (dataTypeFields dataType) := rfl
  simp only [dataTypeFrom, required_of_get found rfl, opened, Bind.bind, Except.bind,
    requiredText_of_get kind, kindFromName_kindName, count_of_get length, count_of_get precision,
    count_of_get scale]
  rfl

theorem foreignKeyFrom_foreignKeyDoc {source : Fields} {reference : Option ForeignKeyRef}
    (found : source.get "foreignKey" = reference.map foreignKeyDoc) (path : Str) :
    foreignKeyFrom source path = .ok reference := by
  cases reference with
  | none =>
      rw [foreignKeyFrom, found]
      rfl
  | some reference =>
      have present : (source.get "foreignKey").filter (fun value => !value.isNull) =
          some (foreignKeyDoc reference) := by
        rw [found]
        rfl
      have entityId : (foreignKeyFields reference).get "entityId" =
        some (.string reference.entityId) := rfl
      have attributeId : (foreignKeyFields reference).get "attributeId" =
        some (.string reference.attributeId) := rfl
      have opened : object (foreignKeyDoc reference) (path ++ ".foreignKey") =
        .ok (foreignKeyFields reference) := rfl
      simp only [foreignKeyFrom, present, opened, Bind.bind, Except.bind,
        requiredText_of_get entityId, requiredText_of_get attributeId]
      rfl

theorem attributeFrom_attributeDoc (uuid : Element → Str) (element : Element) (attr : Attribute)
    (path : Str) :
    attributeFrom uuid element (attributeDoc attr) path =
      .ok (reopenedAttribute uuid element attr) := by
  have foreignKey : (attributeFields attr).get "foreignKey" =
      attr.foreignKey.map foreignKeyDoc := by
    rw [attributeFields, get_append, get_append, get_optionalField_self,
      get_optionalField_of_ne _ (by decide)]
    simp [Fields.get]
  have defaultValue : (attributeFields attr).get "defaultValue" =
      attr.defaultValue.map .string := by
    rw [attributeFields, get_append, get_append, get_optionalField_self,
      get_optionalField_of_ne _ (by decide)]
    simp [Fields.get]
  have default : optionalText (attributeFields attr) "defaultValue" (path ++ ".defaultValue") =
      .ok attr.defaultValue := by
    cases value : attr.defaultValue with
    | none =>
        rw [value] at defaultValue
        rw [optionalText, defaultValue]
        rfl
    | some value =>
        rw [value] at defaultValue
        exact optionalText_of_get defaultValue _
  have opened : object (attributeDoc attr) path = .ok (attributeFields attr) := rfl
  have name : (attributeFields attr).get "name" = some (.string attr.name) := rfl
  have description : (attributeFields attr).get "description" = some (.string attr.description) :=
    rfl
  have dataType : (attributeFields attr).get "dataType" = some (dataTypeDoc attr.dataType) := rfl
  have nullable : (attributeFields attr).get "nullable" = some (.bool attr.nullable) := rfl
  have primaryKey : (attributeFields attr).get "primaryKey" = some (.bool attr.primaryKey) := rfl
  have unique : (attributeFields attr).get "unique" = some (.bool attr.unique) := rfl
  have id : (attributeFields attr).get "id" = some (.string attr.id) := rfl
  simp only [attributeFrom, opened, Bind.bind, Except.bind, requiredText_of_get name,
    dataTypeFrom_dataTypeDoc dataType, optionalText_of_get description, flag_of_get nullable,
    flag_of_get primaryKey, flag_of_get unique, default, foreignKeyFrom_foreignKeyDoc foreignKey,
    identity_of_get id]
  rfl

/-- What is written element by element is read element by element. -/
theorem readEach_map {α β : Type} {read : Nat → Value → Except Error β} {write : α → Value}
    {result : Nat → α → β} (items : List α) (start : Nat)
    (reads : ∀ index, ∀ item ∈ items, read index (write item) = .ok (result index item)) :
    readEach read start (items.map write) =
      .ok (items.mapIdx fun index => result (start + index)) := by
  induction items generalizing start with
  | nil => rfl
  | cons item items ih =>
      have rest := ih (start + 1) fun index item mem =>
          reads index item (List.mem_cons_of_mem _ mem)
      have shifted : (fun index => result (start + 1 + index)) =
          fun index => result (start + (index + 1)) := by
        funext index
        rw [Nat.add_assoc, Nat.add_comm 1]
      rw [List.map_cons, readEach, reads start item (by simp), rest, shifted, List.mapIdx_cons]
      rfl

/-- An element that is refused refuses the array. -/
theorem readEach_map_error {α β : Type} {read : Nat → Value → Except Error β} {write : α → Value}
    {items : List α} (start : Nat) {item : α} (mem : item ∈ items)
    (refused : ∀ index, ∃ error, read index (write item) = .error error) :
    ∃ error, readEach read start (items.map write) = .error error := by
  induction items generalizing start with
  | nil => simp at mem
  | cons first items ih =>
      rw [List.map_cons, readEach]
      cases head : read start (write first) with
      | error error => exact ⟨error, rfl⟩
      | ok value =>
          rcases List.mem_cons.mp mem with rfl | mem
          · obtain ⟨error, refusal⟩ := refused start
            rw [head] at refusal
            contradiction
          · obtain ⟨error, refusal⟩ := ih (start + 1) mem
            exact ⟨error, by rw [refusal]; rfl⟩

theorem positionFrom_positionDoc {source : Fields} {written : Bool} {position : Position}
    (found : source.get "position" = if written then some (positionDoc position) else none)
    (index : Nat) (wanted : Bool) (path : Str) :
    positionFrom source index wanted path =
      .ok (reopenedPosition written wanted index position) := by
  cases wanted with
  | false => simp [positionFrom, reopenedPosition]
  | true =>
      cases written with
      | false =>
          rw [positionFrom, found]
          simp [reopenedPosition]
      | true =>
          have x : (positionFields position).get "x" = some (.ofF64 position.x) := rfl
          have y : (positionFields position).get "y" = some (.ofF64 position.y) := rfl
          have opened : object (positionDoc position) (path ++ ".position") =
            .ok (positionFields position) := rfl
          have present : (source.get "position").filter (fun value => !value.isNull) =
              some (positionDoc position) := by
            rw [found]
            rfl
          simp only [positionFrom, present, opened, Bind.bind, Except.bind, coordinate_of_get x,
            coordinate_of_get y]
          rfl

theorem entityFrom_entityDoc (uuid : Element → Str) (written wanted : Bool) (index : Nat)
    (entity : Entity) :
    entityFrom uuid wanted index (entityDoc entity written) =
      .ok (reopenedEntity uuid written wanted index entity) := by
  have opened : object (entityDoc entity written) (item "$.entities" index) =
    .ok (entityFields entity written) := rfl
  have name : (entityFields entity written).get "name" = some (.string entity.name) := rfl
  have description : (entityFields entity written).get "description" =
    some (.string entity.description) := rfl
  have id : (entityFields entity written).get "id" = some (.string entity.id) := rfl
  have attributes : (entityFields entity written).get "attributes" =
    some (.array (entity.attributes.map attributeDoc)) := rfl
  have position : (entityFields entity written).get "position" =
      if written then some (positionDoc entity.position) else none := by
    rw [entityFields, get_append, get_optionalField_self]
    simp [Fields.get]
  have columns : attributesFrom uuid (entityFields entity written) index (item "$.entities" index) =
      .ok (entity.attributes.mapIdx fun offset attr =>
        reopenedAttribute uuid (.attr index offset) attr) := by
    have present : ((entityFields entity written).get "attributes").filter
        (fun value => !value.isNull) = some (.array (entity.attributes.map attributeDoc)) := by
      rw [attributes]
      rfl
    rw [attributesFrom, present]
    refine (readEach_map entity.attributes 0 fun offset attr _ =>
      attributeFrom_attributeDoc uuid (.attr index offset) attr _).trans ?_
    simp only [Nat.zero_add]
  simp only [entityFrom, opened, Bind.bind, Except.bind, requiredText_of_get name,
    optionalText_of_get description, positionFrom_positionDoc position, columns,
    identity_of_get id]
  rfl

/-- Both ends of a line are on tables of the list. -/
def EndsAmong (entities : List Entity) (link : Relationship) : Prop :=
  (∃ entity ∈ entities, entity.id = link.fromEntityId) ∧
    ∃ entity ∈ entities, entity.id = link.toEntityId

theorem relationshipFrom_relationshipDoc (uuid : Element → Str) (entities : List Entity)
    (index : Nat) (link : Relationship) :
    relationshipFrom uuid entities index (relationshipDoc link) = (do
      checkEnd entities (item "$.relationships" index) "fromEntityId" link.fromEntityId
      checkEnd entities (item "$.relationships" index) "toEntityId" link.toEntityId
      return reopenedRelationship uuid index link) := by
  have opened : object (relationshipDoc link) (item "$.relationships" index) =
    .ok (relationshipFields link) := rfl
  have id : (relationshipFields link).get "id" = some (.string link.id) := rfl
  have name : (relationshipFields link).get "name" = some (.string link.name) := rfl
  have description : (relationshipFields link).get "description" =
    some (.string link.description) := rfl
  have fromEntityId : (relationshipFields link).get "fromEntityId" =
    some (.string link.fromEntityId) := rfl
  have fromAttributeId : (relationshipFields link).get "fromAttributeId" =
    some (.string link.fromAttributeId) := rfl
  have toEntityId : (relationshipFields link).get "toEntityId" =
    some (.string link.toEntityId) := rfl
  have toAttributeId : (relationshipFields link).get "toAttributeId" =
    some (.string link.toAttributeId) := rfl
  have cardinality : (relationshipFields link).get "cardinality" =
    some (.string (cardinalityName link.cardinality)) := rfl
  simp only [relationshipFrom, opened, Bind.bind, Except.bind, requiredText_of_get fromEntityId,
    requiredText_of_get fromAttributeId, requiredText_of_get toEntityId,
    requiredText_of_get toAttributeId, optionalText_of_get name, optionalText_of_get description,
    optionalText_of_get cardinality, cardinalityFromName_cardinalityName, identity_of_get id]
  rfl

theorem checkEnd_of_exists {entities : List Entity} {id : Str}
    (found : ∃ entity ∈ entities, entity.id = id) (path key : Str) :
    checkEnd entities path key id = .ok () := by
  have some : entities.any (fun entity => entity.id == id) = true := by simpa using found
  rw [checkEnd, if_pos some]

theorem checkEnd_of_not_exists {entities : List Entity} {id : Str}
    (missing : ¬∃ entity ∈ entities, entity.id = id) (path key : Str) :
    ∃ error, checkEnd entities path key id = .error error := by
  have none : ¬entities.any (fun entity => entity.id == id) = true := by simpa using missing
  exact ⟨_, by rw [checkEnd, if_neg none]⟩

theorem relationshipFrom_ok {entities : List Entity} {link : Relationship}
    (drawn : EndsAmong entities link) (uuid : Element → Str) (index : Nat) :
    relationshipFrom uuid entities index (relationshipDoc link) =
      .ok (reopenedRelationship uuid index link) := by
  rw [relationshipFrom_relationshipDoc, checkEnd_of_exists drawn.1, checkEnd_of_exists drawn.2]
  rfl

theorem relationshipFrom_error {entities : List Entity} {link : Relationship}
    (dangling : ¬EndsAmong entities link) (uuid : Element → Str) (index : Nat) :
    ∃ error, relationshipFrom uuid entities index (relationshipDoc link) = .error error := by
  rw [relationshipFrom_relationshipDoc]
  by_cases start : ∃ entity ∈ entities, entity.id = link.fromEntityId
  · obtain ⟨error, refused⟩ := checkEnd_of_not_exists (fun stop => dangling ⟨start, stop⟩)
      (item "$.relationships" index) "toEntityId"
    exact ⟨error, by rw [checkEnd_of_exists start, refused]; rfl⟩
  · obtain ⟨error, refused⟩ := checkEnd_of_not_exists start (item "$.relationships" index)
      "fromEntityId"
    exact ⟨error, by rw [refused]; rfl⟩

/-- Only a dangling line can keep a saved file from being opened. -/
theorem read_write_eq (uuid : Element → Str) (written wanted : Bool) (schema : Schema) :
    read uuid (write schema written) wanted = (do
      let relationships ← readEach
        (relationshipFrom uuid (reopened uuid written wanted schema).entities) 0
        (schema.relationships.map relationshipDoc)
      return { reopened uuid written wanted schema with relationships := relationships }) := by
  have opened : object (write schema written) "$" = .ok (documentFields schema written) := rfl
  have name : (documentFields schema written).get "name" = some (.string schema.name) := rfl
  have description : (documentFields schema written).get "description" =
    some (.string schema.description) := rfl
  have entities : (documentFields schema written).get "entities" =
    some (.array (schema.entities.map fun entity => entityDoc entity written)) := rfl
  have relationships : (documentFields schema written).get "relationships" =
    some (.array (schema.relationships.map relationshipDoc)) := rfl
  have tables : readEach (entityFrom uuid wanted) 0
      (schema.entities.map fun entity => entityDoc entity written) =
        .ok (reopened uuid written wanted schema).entities := by
    refine (readEach_map schema.entities 0 fun index entity _ =>
      entityFrom_entityDoc uuid written wanted index entity).trans ?_
    simp only [Nat.zero_add]
    rfl
  have lines (entities : List Entity) :
      relationshipsFrom uuid (documentFields schema written) entities =
        readEach (relationshipFrom uuid entities) 0 (schema.relationships.map relationshipDoc) := by
    rw [relationshipsFrom, relationships]
    rfl
  have array_ (values : List Value) (path : Str) : array (.array values) path = .ok values := rfl
  simp only [read, opened, Bind.bind, Except.bind, requiredText_of_get name,
    optionalText_of_get description, required_of_get entities rfl, array_, tables, lines]
  rfl

theorem read_write_ok {uuid : Element → Str} {written wanted : Bool} {schema : Schema}
    (drawn : ∀ link ∈ schema.relationships,
      EndsAmong (reopened uuid written wanted schema).entities link) :
    read uuid (write schema written) wanted = .ok (reopened uuid written wanted schema) := by
  have lines := readEach_map schema.relationships 0 fun index link mem =>
    relationshipFrom_ok (drawn link mem) uuid index
  simp only [Nat.zero_add] at lines
  rw [read_write_eq, lines]
  rfl

theorem read_write_error {uuid : Element → Str} {written wanted : Bool} {schema : Schema}
    {link : Relationship} (mem : link ∈ schema.relationships)
    (dangling : ¬EndsAmong (reopened uuid written wanted schema).entities link) :
    ∃ error, read uuid (write schema written) wanted = .error error := by
  obtain ⟨error, refused⟩ := readEach_map_error 0 mem (relationshipFrom_error dangling uuid)
  exact ⟨error, by rw [read_write_eq, refused]; rfl⟩

/-- A saved file can be opened exactly when no line of it dangles. -/
theorem read_write_isOk_iff {uuid : Element → Str} {written wanted : Bool} {schema : Schema} :
    (∃ draft, read uuid (write schema written) wanted = .ok draft) ↔
      ∀ link ∈ schema.relationships,
        EndsAmong (reopened uuid written wanted schema).entities link := by
  constructor
  · rintro ⟨draft, opened⟩ link mem
    by_contra dangling
    obtain ⟨error, refused⟩ := read_write_error mem dangling
    rw [opened] at refused
    contradiction
  · exact fun drawn => ⟨_, read_write_ok drawn⟩

/-- An id that the reader keeps. -/
def IsPlainId (id : Str) : Prop := id ≠ [] ∧ Str.trim id = id

instance (id : Str) : Decidable (IsPlainId id) := inferInstanceAs (Decidable (_ ∧ _))

theorem trim_freshId_ne_nil (uuid : Element → Str) (element : Element) :
    Str.trim (freshId uuid element) ≠ [] := by
  cases element with
  | entity => exact Str.trim_cons_ne_nil _ (by decide)
  | attr => exact Str.trim_cons_ne_nil _ (by decide)
  | relationship => exact Str.trim_cons_ne_nil _ (by decide)

theorem readId_eq_self_iff {uuid : Element → Str} {element : Element} {id : Str} :
    readId uuid element id = id ↔ IsPlainId id := by
  unfold readId IsPlainId
  split
  · rename_i blank
    refine iff_of_false (fun same => ?_) fun plain => plain.1 (plain.2.symm.trans blank)
    exact trim_freshId_ne_nil uuid element (same ▸ blank)
  · rename_i solid
    refine ⟨fun same => ⟨fun empty => solid (by rw [empty]; rfl), same⟩, fun plain => plain.2⟩

theorem ownParameters_eq_self_iff {dataType : DataType} :
    ownParameters dataType = dataType ↔ dataType.carriesOwnParameters = true := by
  obtain ⟨kind, length, precision, scale⟩ := dataType
  cases takesLength : kind.takesLength <;> cases takesPrecision : kind.takesPrecision <;>
    simp [ownParameters, DataType.carriesOwnParameters, takesLength, takesPrecision,
      @eq_comm _ none]

/-- A list is unchanged element by element when being unchanged does not depend on the place. -/
theorem mapIdx_eq_self_iff {α : Type} {f : Nat → α → α} {p : α → Prop} {items : List α}
    (fixed : ∀ index, ∀ item ∈ items, f index item = item ↔ p item) :
    items.mapIdx f = items ↔ ∀ item ∈ items, p item := by
  constructor
  · intro same item mem
    obtain ⟨index, found⟩ := List.mem_iff_getElem?.mp mem
    have changed : (items.mapIdx f)[index]? = some (f index item) := by
      rw [List.getElem?_mapIdx, found, Option.map_some]
    rw [same, found, Option.some.injEq] at changed
    exact (fixed index item mem).mp changed.symm
  · intro all
    apply List.ext_getElem?
    intro index
    rw [List.getElem?_mapIdx]
    cases found : items[index]? with
    | none => rfl
    | some item =>
        have mem := List.mem_iff_getElem?.mpr ⟨index, found⟩
        rw [Option.map_some, (fixed index item mem).mpr (all item mem)]

/-- A column that the reader keeps as it is. -/
def IsKeptAttribute (attr : Attribute) : Prop :=
  IsPlainId attr.id ∧ (attr.primaryKey = true → attr.nullable = false) ∧
    attr.dataType.carriesOwnParameters = true

theorem reopenedAttribute_eq_self_iff {uuid : Element → Str} {element : Element}
    {attr : Attribute} : reopenedAttribute uuid element attr = attr ↔ IsKeptAttribute attr := by
  rw [IsKeptAttribute, ← @readId_eq_self_iff uuid element, ← ownParameters_eq_self_iff]
  obtain ⟨id, name, description, dataType, nullable, primaryKey, unique, foreignKey, default⟩ :=
    attr
  simp only [reopenedAttribute, Attribute.mk.injEq, and_true, true_and]
  cases nullable <;> cases primaryKey <;> simp

theorem reopenedEntity_eq_self_iff {uuid : Element → Str} {index : Nat} {entity : Entity}
    (finite : entity.position.x.isFinite = true ∧ entity.position.y.isFinite = true) :
    reopenedEntity uuid true true index entity = entity ↔
      IsPlainId entity.id ∧ ∀ attr ∈ entity.attributes, IsKeptAttribute attr := by
  have kept : reopenedPosition true true index entity.position = entity.position := by
    simp [reopenedPosition, reopenedCoordinate, finite]
  have columns := @mapIdx_eq_self_iff _ _ _ entity.attributes fun offset attr _ =>
    @reopenedAttribute_eq_self_iff uuid (.attr index offset) attr
  rw [← columns, ← @readId_eq_self_iff uuid (.entity index)]
  obtain ⟨id, name, description, attributes, position⟩ := entity
  simp only [reopenedEntity, Entity.mk.injEq, kept, and_true, true_and]

theorem reopenedRelationship_eq_self_iff {uuid : Element → Str} {index : Nat}
    {link : Relationship} : reopenedRelationship uuid index link = link ↔ IsPlainId link.id := by
  rw [← @readId_eq_self_iff uuid (.relationship index)]
  obtain ⟨id, name, description, fromEntity, fromAttribute, toEntity, toAttribute, cardinality⟩ :=
    link
  simp [reopenedRelationship]

theorem reopened_eq_draft_iff {uuid : Element → Str} {schema : Schema}
    (finite : ∀ entity ∈ schema.entities,
      entity.position.x.isFinite = true ∧ entity.position.y.isFinite = true) :
    reopened uuid true true schema = schema.draft ↔
      (∀ entity ∈ schema.entities, IsPlainId entity.id ∧
        ∀ attr ∈ entity.attributes, IsKeptAttribute attr) ∧
      ∀ link ∈ schema.relationships, IsPlainId link.id := by
  have tables := mapIdx_eq_self_iff fun index entity mem =>
    @reopenedEntity_eq_self_iff uuid index entity (finite entity mem)
  have lines := @mapIdx_eq_self_iff _ _ _ schema.relationships fun index link _ =>
    @reopenedRelationship_eq_self_iff uuid index link
  rw [← tables, ← lines]
  simp [reopened, Schema.draft]

/--
A file gives back the drawing it was saved from, field for field, exactly when every id is one the
reader keeps, every key column is `NOT NULL`, every type carries its own parameters only, and no
line dangles.
-/
theorem read_write_eq_draft_iff {uuid : Element → Str} {schema : Schema}
    (finite : ∀ entity ∈ schema.entities,
      entity.position.x.isFinite = true ∧ entity.position.y.isFinite = true) :
    read uuid (write schema true) true = .ok schema.draft ↔
      (∀ entity ∈ schema.entities, IsPlainId entity.id ∧ ∀ attr ∈ entity.attributes,
        IsPlainId attr.id ∧ (attr.primaryKey = true → attr.nullable = false) ∧
          attr.dataType.carriesOwnParameters = true) ∧
      ∀ link ∈ schema.relationships, IsPlainId link.id ∧
        (∃ entity ∈ schema.entities, entity.id = link.fromEntityId) ∧
          ∃ entity ∈ schema.entities, entity.id = link.toEntityId := by
  constructor
  · intro same
    have drawn := (@read_write_isOk_iff uuid true true schema).mp ⟨_, same⟩
    rw [read_write_ok drawn, Except.ok.injEq] at same
    rw [same] at drawn
    obtain ⟨tables, lines⟩ := (reopened_eq_draft_iff finite).mp same
    exact ⟨tables, fun link mem => ⟨lines link mem, drawn link mem⟩⟩
  · rintro ⟨tables, lines⟩
    have same := (@reopened_eq_draft_iff uuid schema finite).mpr
      ⟨tables, fun link mem => (lines link mem).1⟩
    rw [read_write_ok, same]
    rw [same]
    exact fun link mem => (lines link mem).2

/-- Two tables, a foreign key between them, and a line drawn for it. -/
def librarySchema : Schema where
  id := "s"
  name := "library"
  description := "What is on the shelves"
  entities :=
    [{ Entity.new "t" "authors" with
        attributes :=
          [{ Attribute.new "a" "id" ⟨.uuid, none, none, none⟩ with
            nullable := false, primaryKey := true, unique := true }] },
      { Entity.new "u" "books" with
        attributes :=
          [{ Attribute.new "b" "title" ⟨.varchar, some 80, none, none⟩ with
              defaultValue := some "'Untitled'" },
            { Attribute.new "c" "author" ⟨.uuid, none, none, none⟩ with
              foreignKey := some ⟨"t", "a"⟩ }] }]
  relationships := [.new "r" ("t", "a") ("u", "c") .oneToMany]

theorem read_write_librarySchema :
    read (fun _ => []) (write librarySchema true) true = .ok librarySchema.draft :=
  (read_write_eq_draft_iff (by decide +kernel)).mpr (by decide +kernel)

end SchemaForge.Exchange.Json
