import SchemaForge.Exchange.JsonParts

/-!
# What a refused file is told

The reader stops at the first thing it cannot read and names a path. The path leads
through the file to that thing, and what is said there is true of it. There is one
exception: a length is asked for as a whole number that is not negative, and this is
also said of such a number that is too large for a `u32` or is not written in digits.
-/

namespace SchemaForge.Exchange.Json

open SchemaForge.Json

/-- A path leads through members and elements to what stands there, if anything does. -/
inductive Leads (document : Value) : Str → Option Value → Prop where
  | root : Leads document "$" (some document)
  | member {path : Str} {fields : Fields} (key : Str)
      (there : Leads document path (some (.object fields))) :
      Leads document (path ++ '.' :: key) (fields.get key)
  | element {path : Str} {values : List Value} {index : Nat} {value : Value}
      (there : Leads document path (some (.array values))) (present : values[index]? = some value) :
      Leads document (item path index) (some value)

/-- No table that is read from the document has the id. -/
def IsNoEntity (uuid : Element → Str) (document : Value) (includePositions : Bool)
    (id : Str) : Prop :=
  ∃ values entities, Leads document "$.entities" (some (.array values)) ∧
    readEach (entityFrom uuid includePositions) 0 values = .ok entities ∧
    ∀ entity ∈ entities, entity.id ≠ id

/-- The value is a whole number that is not negative, however it is written. -/
def isWholeNumber : Value → Bool
  | .number (.posInt _) => true
  | .number (.negInt value) => 0 ≤ value.toInt
  | .number (.float ⟨.finite negative magnitude, _⟩) =>
      magnitude.val % F64.unit == 0 && (!negative || magnitude.val == 0)
  | _ => false

/-- What a message says of what stands at a path. -/
inductive Describes (noEntity : Str → Prop) : Str → Option Value → Prop where
  | required {found : Option Value} (empty : ∀ value ∈ found, value.isNull = true) :
      Describes noEntity "field is required" found
  | object {value : Value} (other : value.asObject = none) :
      Describes noEntity "expected an object" (some value)
  | array {value : Value} (other : value.asArray = none) :
      Describes noEntity "expected an array" (some value)
  | text {value : Value} (other : value.asStr = none) :
      Describes noEntity "expected a string" (some value)
  | flag {value : Value} (other : value.asBool = none) :
      Describes noEntity "expected true or false" (some value)
  | count {value : Value} (other : isWholeNumber value = false) :
      Describes noEntity "expected a whole number that is not negative" (some value)
  | coordinate {value : Value} (other : value.asF64 = none) :
      Describes noEntity "expected a number" (some value)
  | kind {name : Str} (unknown : kindFromName name = none) :
      Describes noEntity "field must name a known data type" (some (.string name))
  | cardinality {name : Str} (unknown : cardinalityFromName name = none) :
      Describes noEntity "field must name a known cardinality" (some (.string name))
  | entity {id : Str} (unknown : noEntity id) :
      Describes noEntity "field names an entity that is not in the file" (some (.string id))

/-- A whole number is told to be none. -/
inductive Misdescribes : Str → Option Value → Prop where
  | count {value : Value} (whole : isWholeNumber value = true)
      (unfit : ∀ number ∈ value.asU64, 2 ^ 32 ≤ number.toNat) :
      Misdescribes "expected a whole number that is not negative" (some value)

/--
If a part of the reader refuses the document, what it says is true of the place that it names, or a
whole number stands there that it cannot hold.
-/
def IsHonest {α : Type} (noEntity : Str → Prop) (document : Value) (result : Except Error α) :
    Prop :=
  ∀ error, result = .error error → ∃ path message found, error = refuse path message ∧
    Leads document path found ∧ (Describes noEntity message found ∨ Misdescribes message found)

section Honesty

variable {α β : Type} {noEntity : Str → Prop} {document : Value} {path : Str} {value : Value}
    {fields : Fields}

theorem isHonest_ok (value : α) : IsHonest noEntity document (.ok value) := nofun

theorem isHonest_refuse {message : Str} {found : Option Value} (leads : Leads document path found)
    (describes : Describes noEntity message found) :
    IsHonest noEntity document (.error (refuse path message) : Except Error α) := by
  rintro error same
  cases same
  exact ⟨path, message, found, rfl, leads, Or.inl describes⟩

/-- A value that is not read as a count is no whole number, or one that the reader cannot hold. -/
theorem isHonest_refuseCount (leads : Leads document path (some value))
    (unfit : ∀ number ∈ value.asU64, 2 ^ 32 ≤ number.toNat) :
    IsHonest noEntity document
      (.error (refuse path "expected a whole number that is not negative") : Except Error α) := by
  rintro error same
  cases same
  refine ⟨path, _, _, rfl, leads, ?_⟩
  cases whole : isWholeNumber value with
  | false => exact Or.inl (.count whole)
  | true => exact Or.inr (.count whole unfit)

theorem isHonest_bind {first : Except Error α} {next : α → Except Error β}
    (honest : IsHonest noEntity document first)
    (rest : ∀ value, first = .ok value → IsHonest noEntity document (next value)) :
    IsHonest noEntity document (first >>= next) := by
  cases first with
  | error failure =>
      rintro error same
      cases same
      exact honest failure rfl
  | ok value => exact rest value rfl

theorem isHonest_object (leads : Leads document path (some value)) :
    IsHonest noEntity document (object value path) := by
  unfold object
  split
  · exact isHonest_ok _
  · rename_i other
    exact isHonest_refuse leads (.object other)

theorem object_eq_ok (ok : object value path = .ok fields) : value = .object fields := by
  unfold object at ok
  cases value with
  | object members =>
      cases ok
      rfl
  | null | bool _ | number _ | string _ | array _ => cases ok

theorem isHonest_array (leads : Leads document path (some value)) :
    IsHonest noEntity document (array value path) := by
  unfold array
  split
  · exact isHonest_ok _
  · rename_i other
    exact isHonest_refuse leads (.array other)

theorem array_eq_ok {values : List Value} (ok : array value path = .ok values) :
    value = .array values := by
  unfold array at ok
  cases value with
  | array elements =>
      cases ok
      rfl
  | null | bool _ | number _ | string _ | object _ => cases ok

theorem isHonest_text (leads : Leads document path (some value)) :
    IsHonest noEntity document (text value path) := by
  unfold text
  split
  · exact isHonest_ok _
  · rename_i other
    exact isHonest_refuse leads (.text other)

theorem text_eq_ok {read : Str} (ok : text value path = .ok read) : value = .string read := by
  unfold text at ok
  cases value with
  | string content =>
      cases ok
      rfl
  | null | bool _ | number _ | array _ | object _ => cases ok

variable {key : Str} {parent : Fields}

theorem isHonest_required (leads : Leads document path (parent.get key)) :
    IsHonest noEntity document (required parent key path) := by
  unfold required
  split
  · exact isHonest_ok _
  · rename_i none
    refine isHonest_refuse leads (.required fun value there => ?_)
    rw [Option.mem_def.mp there, Option.filter_eq_none_iff] at none
    simpa using none value rfl

theorem required_eq_ok (ok : required parent key path = .ok value) :
    parent.get key = some value := by
  unfold required at ok
  split at ok
  · rename_i found
    cases ok
    exact (Option.filter_eq_some_iff.mp found).1
  · cases ok

theorem isHonest_requiredText (leads : Leads document path (parent.get key)) :
    IsHonest noEntity document (requiredText parent key path) :=
  isHonest_bind (isHonest_required leads) fun _ ok => isHonest_text (required_eq_ok ok ▸ leads)

theorem requiredText_eq_ok {read : Str} (ok : requiredText parent key path = .ok read) :
    parent.get key = some (.string read) := by
  rcases exists_of_bind_eq_ok ok with ⟨value, found, ok⟩
  rw [required_eq_ok found, text_eq_ok ok]

theorem isHonest_optionalText (leads : Leads document path (parent.get key)) :
    IsHonest noEntity document (optionalText parent key path) := by
  unfold optionalText
  split
  · exact isHonest_ok _
  · exact isHonest_ok _
  · rename_i value found
    rw [found] at leads
    exact isHonest_bind (isHonest_text leads) fun _ _ => isHonest_ok _

theorem optionalText_eq_ok {read : Str} (ok : optionalText parent key path = .ok (some read)) :
    parent.get key = some (.string read) := by
  unfold optionalText at ok
  split at ok
  · cases ok
  · cases ok
  · rename_i value found
    rcases exists_of_bind_eq_ok ok with ⟨_, said, ok⟩
    cases ok
    rw [found, text_eq_ok said]

theorem isHonest_flag {default : Bool} (leads : Leads document path (parent.get key)) :
    IsHonest noEntity document (flag parent key path default) := by
  unfold flag
  split
  · exact isHonest_ok _
  · exact isHonest_ok _
  · rename_i value found
    rw [found] at leads
    split
    · exact isHonest_ok _
    · rename_i other
      exact isHonest_refuse leads (.flag other)

theorem isHonest_count (leads : Leads document path (parent.get key)) :
    IsHonest noEntity document (count parent key path) := by
  unfold count
  split
  · exact isHonest_ok _
  · exact isHonest_ok _
  · rename_i value found
    rw [found] at leads
    split
    · rename_i number spelled
      split
      · exact isHonest_ok _
      · rename_i large
        refine isHonest_refuseCount leads fun other there => ?_
        cases spelled.symm.trans there
        exact Nat.le_of_not_lt large
    · rename_i other
      refine isHonest_refuseCount leads fun number there => ?_
      cases other.symm.trans there

theorem isHonest_coordinate (leads : Leads document path (parent.get key)) :
    IsHonest noEntity document (coordinate parent key path) := by
  unfold coordinate
  split
  · exact isHonest_ok _
  · exact isHonest_ok _
  · rename_i value found
    rw [found] at leads
    split
    · exact isHonest_ok _
    · rename_i other
      exact isHonest_refuse leads (.coordinate other)

/-- The elements of an array are read under their own paths. -/
theorem isHonest_readEach {read : Nat → Value → Except Error α} {values : List Value}
    (leads : Leads document path (some (.array values)))
    (honest : ∀ index value, Leads document (item path index) (some value) →
      IsHonest noEntity document (read index value)) :
    IsHonest noEntity document (readEach read 0 values) := by
  have later (rest : List Value) : ∀ index, rest = values.drop index →
      IsHonest noEntity document (readEach read index rest) := by
    induction rest with
    | nil => exact fun _ _ => isHonest_ok _
    | cons value rest ih =>
        intro index same
        have present : values[index]? = some value := by
          rw [← List.head?_drop, ← same, List.head?_cons]
        refine isHonest_bind (honest index value (leads.element present)) fun _ _ => ?_
        refine isHonest_bind (ih (index + 1) ?_) fun _ _ => isHonest_ok _
        rw [← List.tail_drop, ← same, List.tail_cons]
  exact later values 0 rfl

variable {uuid : Element → Str} {includePositions : Bool}

theorem isHonest_dataTypeFrom (leads : Leads document path (some (.object fields))) :
    IsHonest noEntity document (dataTypeFrom fields path) := by
  have there := leads.member "dataType"
  refine isHonest_bind (isHonest_required there) fun value found => ?_
  rw [required_eq_ok found] at there
  refine isHonest_bind (isHonest_object there) fun members opened => ?_
  rw [object_eq_ok opened] at there
  have kind := there.member "kind"
  refine isHonest_bind (isHonest_requiredText kind) fun name named => ?_
  rw [requiredText_eq_ok named] at kind
  split
  · rename_i unknown
    exact isHonest_refuse kind (.kind unknown)
  · refine isHonest_bind (isHonest_count (there.member "length")) fun _ _ => ?_
    refine isHonest_bind (isHonest_count (there.member "precision")) fun _ _ => ?_
    exact isHonest_bind (isHonest_count (there.member "scale")) fun _ _ => isHonest_ok _

theorem isHonest_foreignKeyFrom (leads : Leads document path (some (.object fields))) :
    IsHonest noEntity document (foreignKeyFrom fields path) := by
  have there := leads.member "foreignKey"
  unfold foreignKeyFrom
  split
  · exact isHonest_ok _
  · rename_i value found
    rw [(Option.filter_eq_some_iff.mp found).1] at there
    refine isHonest_bind (isHonest_object there) fun members opened => ?_
    rw [object_eq_ok opened] at there
    refine isHonest_bind (isHonest_requiredText (there.member "entityId")) fun _ _ => ?_
    exact isHonest_bind (isHonest_requiredText (there.member "attributeId")) fun _ _ =>
      isHonest_ok _

theorem isHonest_attributeFrom {element : Element} (leads : Leads document path (some value)) :
    IsHonest noEntity document (attributeFrom uuid element value path) := by
  refine isHonest_bind (isHonest_object leads) fun source opened => ?_
  rw [object_eq_ok opened] at leads
  refine isHonest_bind (isHonest_requiredText (leads.member "name")) fun _ _ => ?_
  refine isHonest_bind (isHonest_dataTypeFrom leads) fun _ _ => ?_
  refine isHonest_bind (isHonest_optionalText (leads.member "description")) fun _ _ => ?_
  refine isHonest_bind (isHonest_flag (leads.member "nullable")) fun _ _ => ?_
  refine isHonest_bind (isHonest_flag (leads.member "primaryKey")) fun _ _ => ?_
  refine isHonest_bind (isHonest_flag (leads.member "unique")) fun _ _ => ?_
  refine isHonest_bind (isHonest_optionalText (leads.member "defaultValue")) fun _ _ => ?_
  exact isHonest_bind (isHonest_foreignKeyFrom leads) fun _ _ => isHonest_ok _

theorem isHonest_positionFrom {index : Nat} (leads : Leads document path (some (.object fields))) :
    IsHonest noEntity document (positionFrom fields index includePositions path) := by
  have there := leads.member "position"
  unfold positionFrom
  split
  · exact isHonest_ok _
  · split
    · exact isHonest_ok _
    · rename_i value found
      rw [(Option.filter_eq_some_iff.mp found).1] at there
      refine isHonest_bind (isHonest_object there) fun members opened => ?_
      rw [object_eq_ok opened] at there
      refine isHonest_bind (isHonest_coordinate (there.member "x")) fun _ _ => ?_
      exact isHonest_bind (isHonest_coordinate (there.member "y")) fun _ _ => isHonest_ok _

theorem isHonest_attributesFrom {index : Nat}
    (leads : Leads document path (some (.object fields))) :
    IsHonest noEntity document (attributesFrom uuid fields index path) := by
  have there := leads.member "attributes"
  unfold attributesFrom
  split
  · exact isHonest_ok _
  · rename_i value found
    rw [(Option.filter_eq_some_iff.mp found).1] at there
    refine isHonest_bind (isHonest_array there) fun values listed => ?_
    rw [array_eq_ok listed] at there
    exact isHonest_readEach there fun _ _ leads => isHonest_attributeFrom leads

theorem isHonest_entityFrom {index : Nat}
    (leads : Leads document (item "$.entities" index) (some value)) :
    IsHonest noEntity document (entityFrom uuid includePositions index value) := by
  refine isHonest_bind (isHonest_object leads) fun source opened => ?_
  rw [object_eq_ok opened] at leads
  refine isHonest_bind (isHonest_requiredText (leads.member "name")) fun _ _ => ?_
  refine isHonest_bind (isHonest_optionalText (leads.member "description")) fun _ _ => ?_
  refine isHonest_bind (isHonest_positionFrom leads) fun _ _ => ?_
  exact isHonest_bind (isHonest_attributesFrom leads) fun _ _ => isHonest_ok _

theorem isHonest_checkEnd {entities : List Entity} {id : Str}
    (missing : (∀ entity ∈ entities, entity.id ≠ id) → noEntity id)
    (leads : Leads document (path ++ '.' :: key) (some (.string id))) :
    IsHonest noEntity document (checkEnd entities path key id) := by
  have joined : path ++ "." ++ key = path ++ '.' :: key := List.append_assoc _ _ _
  rw [checkEnd, joined]
  split
  · exact isHonest_ok _
  · rename_i unknown
    refine isHonest_refuse leads (.entity (missing fun entity mem same => unknown ?_))
    exact List.any_eq_true.mpr ⟨entity, mem, beq_iff_eq.mpr same⟩

theorem isHonest_cardinalityThen {name : Option Str}
    {rest : Cardinality → Except Error Relationship}
    (leads : Leads document (path ++ ".cardinality") (parent.get key))
    (named : optionalText parent key (path ++ ".cardinality") = .ok name)
    (honest : ∀ cardinality, IsHonest noEntity document (rest cardinality)) :
    IsHonest noEntity document (cardinalityThen path name rest) := by
  cases name with
  | none => exact honest _
  | some name =>
      rw [optionalText_eq_ok named] at leads
      unfold cardinalityThen
      simp only
      split
      · exact honest _
      · rename_i unknown
        exact isHonest_bind (isHonest_refuse leads (.cardinality unknown)) fun _ impossible => by
          cases impossible

theorem isHonest_relationshipFrom {entities : List Entity} {index : Nat}
    (missing : ∀ id, (∀ entity ∈ entities, entity.id ≠ id) → noEntity id)
    (leads : Leads document (item "$.relationships" index) (some value)) :
    IsHonest noEntity document (relationshipFrom uuid entities index value) := by
  refine isHonest_bind (isHonest_object leads) fun source opened => ?_
  rw [object_eq_ok opened] at leads
  have there := leads.member "cardinality"
  refine isHonest_bind (isHonest_optionalText there) fun name named => ?_
  refine isHonest_cardinalityThen there named fun _ => ?_
  have start := leads.member "fromEntityId"
  have stop := leads.member "toEntityId"
  refine isHonest_bind (isHonest_requiredText start) fun fromEntityId startRead => ?_
  rw [requiredText_eq_ok startRead] at start
  refine isHonest_bind (isHonest_requiredText (leads.member "fromAttributeId")) fun _ _ => ?_
  refine isHonest_bind (isHonest_requiredText stop) fun toEntityId stopRead => ?_
  rw [requiredText_eq_ok stopRead] at stop
  refine isHonest_bind (isHonest_requiredText (leads.member "toAttributeId")) fun _ _ => ?_
  refine isHonest_bind (isHonest_optionalText (leads.member "name")) fun _ _ => ?_
  refine isHonest_bind (isHonest_optionalText (leads.member "description")) fun _ _ => ?_
  refine isHonest_bind (isHonest_checkEnd (missing _) start) fun _ _ => ?_
  exact isHonest_bind (isHonest_checkEnd (missing _) stop) fun _ _ => isHonest_ok _

theorem isHonest_relationshipsFrom {entities : List Entity}
    (missing : ∀ id, (∀ entity ∈ entities, entity.id ≠ id) → noEntity id)
    (leads : Leads document "$" (some (.object fields))) :
    IsHonest noEntity document (relationshipsFrom uuid fields entities) := by
  have there := leads.member "relationships"
  unfold relationshipsFrom
  split
  · exact isHonest_ok _
  · rename_i value found
    rw [(Option.filter_eq_some_iff.mp found).1] at there
    refine isHonest_bind (isHonest_array there) fun values listed => ?_
    rw [array_eq_ok listed] at there
    exact isHonest_readEach there fun _ _ leads => isHonest_relationshipFrom missing leads

/-- Nothing true is said of a whole number by saying that one is expected. -/
theorem not_describes_of_isWholeNumber (whole : isWholeNumber value = true) :
    ¬Describes noEntity "expected a whole number that is not negative" (some value) := by
  generalize said : ("expected a whole number that is not negative" : Str) = message
  generalize there : some value = found
  intro describes
  cases describes with
  | count other =>
      cases there
      rw [other] at whole
      cases whole
  | required | object | array | text | flag | coordinate | kind | cardinality | entity =>
      revert said
      decide

end Honesty

theorem isHonest_read (uuid : Element → Str) (document : Value) (includePositions : Bool) :
    IsHonest (IsNoEntity uuid document includePositions) document
      (read uuid document includePositions) := by
  refine isHonest_bind (isHonest_object .root) fun root opened => ?_
  have leads : Leads document "$" (some (.object root)) := by
    rw [← object_eq_ok opened]
    exact .root
  have there := leads.member "entities"
  refine isHonest_bind (isHonest_requiredText (leads.member "name")) fun _ _ => ?_
  refine isHonest_bind (isHonest_optionalText (leads.member "description")) fun _ _ => ?_
  refine isHonest_bind (isHonest_required there) fun listing found => ?_
  rw [required_eq_ok found] at there
  refine isHonest_bind (isHonest_array there) fun values listed => ?_
  rw [array_eq_ok listed] at there
  refine isHonest_bind (isHonest_readEach there fun _ _ leads => isHonest_entityFrom leads)
    fun entities readAll => ?_
  refine isHonest_bind (isHonest_relationshipsFrom ?_ leads) fun _ _ => isHonest_ok _
  exact fun id unknown => ⟨values, entities, there, readAll, unknown⟩

/-- A file with a length that no `u32` holds. -/
def wideDocument : Value :=
  .object [("name", .string "wide"),
    ("entities", .array [.object [("name", .string "a"), ("attributes", .array [
    .object [("name", .string "b"), ("dataType", .object [("kind", .string "varchar"),
      ("length", .number (.posInt (2 ^ 32)))])]])]])]

end SchemaForge.Exchange.Json
