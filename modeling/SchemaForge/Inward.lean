import SchemaForge.Adapter.Codecs
import SchemaForge.Exchange
import SchemaForge.Exchange.JsonParts
import SchemaForge.Sql.OpenKeys

/-!
# Every way into the model

A draft enters through one of two transports or from one of two kinds of file.
Each reader is meant to leave every key closed to nulls and every type with its
own parameters only. Three of them always do; the reader of scripts does unless
a `NULL` stands behind the `PRIMARY KEY` of a column.
-/

namespace SchemaForge

open Exchange

/-- Keys are closed to nulls, and types carry their own parameters only. -/
def IsSound (draft : SchemaDraft) : Prop :=
  ∀ entity ∈ draft.entities, ∀ attr ∈ entity.attributes,
    (attr.primaryKey = true → attr.nullable = false) ∧ attr.dataType.carriesOwnParameters = true

instance (draft : SchemaDraft) : Decidable (IsSound draft) :=
  inferInstanceAs (Decidable (∀ entity ∈ draft.entities, ∀ attr ∈ entity.attributes, _))

section Json

theorem carriesOwnParameters_of_json {source : Json.Fields} {path : Str} {dataType : DataType}
    (read : Exchange.Json.dataTypeFrom source path = .ok dataType) :
    dataType.carriesOwnParameters = true := by
  rcases Exchange.Json.exists_of_dataTypeFrom read with ⟨kind, length, precision, scale, rfl⟩
  cases takesLength : kind.takesLength <;> cases takesPrecision : kind.takesPrecision <;>
    simp [DataType.carriesOwnParameters, takesLength, takesPrecision]

theorem attribute_of_json {uuid : Element → Str} {element : Element}
    {value : Json.Value} {path : Str} {attr : Attribute}
    (read : Exchange.Json.attributeFrom uuid element value path = .ok attr) :
    (attr.primaryKey = true → attr.nullable = false) ∧
      attr.dataType.carriesOwnParameters = true := by
  rcases Exchange.Json.attributeOf_of_attributeFrom read with ⟨source, -, parts⟩
  refine ⟨?_, carriesOwnParameters_of_json parts.dataType⟩
  intro key
  rcases exists_of_map_eq_ok parts.nullable with ⟨nullable, -, closed⟩
  rw [← closed, key, Bool.not_true, Bool.and_false]

theorem isSound_of_json {uuid : Element → Str} {document : Json.Value} {includePositions : Bool}
    {draft : SchemaDraft} (read : Exchange.Json.read uuid document includePositions = .ok draft) :
    IsSound draft := by
  rcases Exchange.Json.draftOf_of_read read with ⟨root, -, parts⟩
  intro entity mem attr attrMem
  rcases parts.exists_of_mem_entities mem with ⟨_, -, _, entityRead⟩
  rcases Exchange.Json.entityOf_of_entityFrom entityRead with ⟨_, -, columns⟩
  rcases Exchange.Json.exists_of_attributesFrom columns.attributes attrMem with ⟨_, _, _, attrRead⟩
  exact attribute_of_json attrRead

end Json

namespace Sql

/-- Whether each column is an open key, with its type. -/
def soundings (draft : SchemaDraft) : List (List (Bool × DataType)) :=
  draft.entities.map fun entity =>
    entity.attributes.map fun attr => (attr.primaryKey && attr.nullable, attr.dataType)

theorem isSound_iff_soundings {draft : SchemaDraft} : IsSound draft ↔
    ∀ table ∈ soundings draft, ∀ column ∈ table,
      column.1 = false ∧ column.2.carriesOwnParameters = true := by
  have flags (attr : Attribute) : (attr.primaryKey = true → attr.nullable = false) ↔
      (attr.primaryKey && attr.nullable) = false := by
    cases attr.primaryKey <;> simp
  simp only [IsSound, soundings, List.forall_mem_map, flags]

variable [Unicode] {uuid : Element → Str} {content : Str} {includePositions : Bool}
  {draft : SchemaDraft} {report : Report}

theorem mem_tablesIn {table : ParsedTable} : table ∈ tablesIn content ↔
    ∃ statement ∈ (scan content).1, parse statement.tokens = some table := by
  rw [tablesIn_eq, List.mem_filterMap]

/-- The passes over a script leave the flags and types of its columns as they were parsed. -/
theorem soundings_of_read (returned : read uuid content includePositions = .ok (draft, report)) :
    soundings draft = (tablesIn content).map fun table =>
      table.columns.map fun column => (column.primaryKey && column.nullable, column.dataType) :=
  columns_of_read (fun _ _ => rfl) (fun _ _ => rfl) (fun _ _ _ => rfl) returned

/-- A script is read soundly exactly when none of its tables leaves a key open. -/
theorem isSound_read_iff (returned : read uuid content includePositions = .ok (draft, report)) :
    IsSound draft ↔ ∀ statement ∈ (scan content).1, ¬LeavesKeyOpen statement.tokens := by
  rw [isSound_iff_soundings, soundings_of_read returned, List.forall_mem_map]
  simp only [List.forall_mem_map]
  constructor
  · intro sound statement mem open_
    rw [leavesKeyOpen_iff] at open_
    rcases parse_eq statement.tokens with ⟨-, nothing⟩ | ⟨table, parsed, same, -⟩
    · simp [nothing] at open_
    · rw [← same] at open_
      rcases open_ with ⟨opening, openingMem, isOpen⟩
      rcases List.mem_map.mp openingMem with ⟨column, columnMem, rfl⟩
      have closed := (sound table (mem_tablesIn.mpr ⟨statement, mem, parsed⟩) column columnMem).1
      rw [closed] at isOpen
      cases isOpen
  · intro closed table mem column columnMem
    rcases mem_tablesIn.mp mem with ⟨statement, statementMem, parsed⟩
    rcases parse_eq statement.tokens with ⟨missing, -⟩ | ⟨table', parsed', same, own⟩
    · rw [missing] at parsed
      cases parsed
    · rw [parsed', Option.some.injEq] at parsed
      subst parsed
      refine ⟨?_, own _ (List.mem_map_of_mem columnMem)⟩
      rw [Bool.eq_false_iff]
      intro isOpen
      apply closed statement statementMem
      rw [leavesKeyOpen_iff, ← same]
      exact ⟨_, List.mem_map_of_mem columnMem, isOpen⟩

end Sql

/-- What a draft is read from. -/
inductive Inward where
  | http (payload : Adapter.SchemaPayload)
  | rpc (proto : Adapter.Rpc.V1.Schema)
  | json (parsed : Except Str Json.Value) (includePositions : Bool)
  | sql (script : Str) (includePositions : Bool)

namespace Inward

variable [Unicode]

def draft (uuid : Element → Str) : Inward → Except Error SchemaDraft
  | http payload => Adapter.draftFrom payload
  | rpc proto =>
      Adapter.Rpc.draftFrom proto.name proto.description proto.entities proto.relationships
  | json parsed includePositions =>
      (importDraft uuid (.json parsed) includePositions).map Prod.fst
  | sql script includePositions => (importDraft uuid (.sql script) includePositions).map Prod.fst

/-- No table of a script leaves a key open; other inputs cannot. -/
def ClosesKeys : Inward → Prop
  | sql script _ => ∀ statement ∈ (Sql.scan script).1, ¬Sql.LeavesKeyOpen statement.tokens
  | _ => True

end Inward

theorem eq_ok_of_map_eq_ok {ε α β : Type} {result : Except ε (α × β)} {value : α}
    (ok : result.map Prod.fst = .ok value) : ∃ other, result = .ok (value, other) := by
  cases result with
  | error error => cases ok
  | ok both =>
      rcases Except.ok.inj ok
      exact ⟨both.2, rfl⟩

theorem isSound_of_normal {draft : SchemaDraft} (normal : Adapter.IsNormal draft) :
    IsSound draft := by
  intro entity mem attr attrMem
  have column := normal.attributes entity mem attr attrMem
  exact ⟨column.nullable, column.dataType⟩

/-- A key of its own words, and a key that the table closes again behind it. -/
def closedKeysScript : Str :=
  "CREATE TABLE users (id int PRIMARY KEY, code text PRIMARY KEY NULL, PRIMARY KEY (code));"

/-- A key that takes nulls by the word behind it. -/
def openKeyScript : Str := "CREATE TABLE users (id int PRIMARY KEY NULL);"

end SchemaForge
