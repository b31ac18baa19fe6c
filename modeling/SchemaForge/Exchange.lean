import SchemaForge.Adapter.Mapper
import SchemaForge.Exchange.JsonRoundTrip
import SchemaForge.Sql.Read

/-!
# Saving and opening files

Both formats behind one door. A diagram is saved as JSON without being
verified, and what was saved can be opened again unless a line of it dangles.
-/

namespace SchemaForge.Exchange

open SchemaForge.Json

inductive ExchangeFormat where
  | json | sql
deriving DecidableEq

/--
The content of a file, by the format it is read as. A JSON text is represented by what it parses
to: its value, or the parser's message.
-/
inductive Content where
  | json (parsed : Except Str Value)
  | sql (script : Str)

structure Exported where
  fileName : Str
  contentType : Str
  content : Content

section Files

variable [Unicode]

namespace Json

/-- Whatever is not plainly a file name is dropped from the name of a schema. -/
def fileName (schemaName : Str) : Str :=
  let spaced := (Str.toLowercase (Str.trim schemaName)).map fun c =>
    if Str.isWhitespace c then '_' else c
  let slug := spaced.filter fun c => Str.isAlphanumeric c || c == '_' || c == '-'
  match (slug.dropWhile (· == '_')).rdropWhile (· == '_') with
  | [] => "schema.json"
  | trimmed => trimmed ++ ".json"

end Json

def exportSchema (schema : Schema) (format : ExchangeFormat) (includePositions : Bool) :
    Except Error Exported :=
  match format with
  | .json => .ok {
      fileName := Json.fileName schema.name
      contentType := "application/json"
      content := .json (.ok (Json.write schema includePositions)) }
  | .sql => .error (.unimplemented "exporting as sql is not built yet, generate the ddl instead")

def importDraft (uuid : Element → Str) (content : Content) (includePositions : Bool) :
    Except Error (SchemaDraft × Report) :=
  match content with
  | .json (.error message) => .error (Json.refuse "$" ("invalid json: " ++ message))
  | .json (.ok document) => do return (← Json.read uuid document includePositions, ⟨[]⟩)
  | .sql script => Sql.read uuid script includePositions

/-- A diagram saved as JSON with `written` positions opens again, asking for `wanted` ones. -/
def Reopens (uuid : Element → Str) (schema : Schema) (written wanted : Bool) : Prop :=
  ∃ exported opened, exportSchema schema .json written = .ok exported ∧
    importDraft uuid exported.content wanted = .ok opened

theorem reopens_iff {uuid : Element → Str} {schema : Schema} {written wanted : Bool} :
    Reopens uuid schema written wanted ↔
      ∃ draft, Json.read uuid (Json.write schema written) wanted = .ok draft := by
  simp only [Reopens, exportSchema, Except.ok.injEq, ↓existsAndEq, true_and, importDraft]
  cases Json.read uuid (Json.write schema written) wanted with
  | error error => simp [Bind.bind, Except.bind]
  | ok draft => simp [Bind.bind, Except.bind, Pure.pure, Except.pure]

omit [Unicode] in
/-- The tables of a file have the ids they were saved under, when no id is blank or padded. -/
theorem endsAmong_reopened_iff {uuid : Element → Str} {schema : Schema} {written wanted : Bool}
    (solid : ∀ entity ∈ schema.entities, Str.trim entity.id ≠ [])
    (plain : ∀ entity ∈ schema.entities, Str.trim entity.id = entity.id) {link : Relationship} :
    Json.EndsAmong (Json.reopened uuid written wanted schema).entities link ↔
      Json.EndsAmong schema.entities link := by
  have kept (index : Nat) (entity : Entity) (mem : entity ∈ schema.entities) :
      (Json.reopenedEntity uuid written wanted index entity).id = entity.id := by
    simp only [Json.reopenedEntity, Json.readId, solid entity mem, ↓reduceIte]
    exact plain entity mem
  have among (id : Str) : (∃ entity ∈ (Json.reopened uuid written wanted schema).entities,
      entity.id = id) ↔ ∃ entity ∈ schema.entities, entity.id = id := by
    simp only [Json.reopened, List.mem_mapIdx]
    constructor
    · rintro ⟨_, ⟨index, bound, rfl⟩, same⟩
      have mem := List.getElem_mem bound
      exact ⟨_, mem, (kept index _ mem).symm.trans same⟩
    · rintro ⟨entity, mem, same⟩
      obtain ⟨index, bound, rfl⟩ := List.getElem_of_mem mem
      exact ⟨_, ⟨index, bound, rfl⟩, (kept index _ mem).trans same⟩
  exact and_congr (among _) (among _)

/--
A diagram that the boundary accepts, with no padded table id, opens again from the file it was
saved to exactly when both ends of every line are on tables of the diagram.
-/
theorem reopens_accepted_iff {payload : Adapter.SchemaPayload} {schema : Schema}
    (accepted : Adapter.draftSchemaFrom payload = .ok schema)
    (plain : ∀ entity ∈ schema.entities, Str.trim entity.id = entity.id)
    (uuid : Element → Str) (written wanted : Bool) :
    Reopens uuid schema written wanted ↔ ∀ link ∈ schema.relationships,
      (∃ entity ∈ schema.entities, entity.id = link.fromEntityId) ∧
        ∃ entity ∈ schema.entities, entity.id = link.toEntityId := by
  rw [reopens_iff, Json.read_write_isOk_iff]
  refine forall₂_congr fun link _ => ?_
  exact endsAmong_reopened_iff (fun _ mem => Adapter.trim_entityId_ne_nil accepted mem) plain

/-- A payload with one table and a line to another id. -/
def linePayload (target : Str) : Adapter.SchemaPayload where
  id := "s"
  name := "half drawn"
  description := []
  entities := [⟨"t", "posts", [], [], none⟩]
  relationships := [⟨"r", [], [], "t", "a", target, "b", "1:N"⟩]

/-- What the payload is accepted as. -/
def lineSchema (target : Str) : Schema where
  id := "s"
  name := "half drawn"
  description := []
  entities := [Entity.new "t" "posts"]
  relationships := [.new "r" ("t", "a") (target, "b") .oneToMany]

omit [Unicode] in
theorem reopens_lineSchema :
    Adapter.draftSchemaFrom (linePayload "t") = .ok (lineSchema "t") ∧
      @Reopens Unicode.ascii (fun _ => []) (lineSchema "t") true true := by
  have accepted : Adapter.draftSchemaFrom (linePayload "t") = .ok (lineSchema "t") := by rfl
  refine ⟨accepted, (@reopens_accepted_iff Unicode.ascii _ _ accepted ?_ _ _ _).mpr ?_⟩
  · decide
  · decide

omit [Unicode] in
/-- A line to a table that is not drawn: the boundary accepts it, the reader refuses the file. -/
theorem not_reopens_lineSchema :
    Adapter.draftSchemaFrom (linePayload "u") = .ok (lineSchema "u") ∧
      ¬@Reopens Unicode.ascii (fun _ => []) (lineSchema "u") true true := by
  refine ⟨by rfl, ?_⟩
  rw [@reopens_iff Unicode.ascii, Json.read_write_isOk_iff]
  intro drawn
  obtain ⟨entity, mem, same⟩ := (drawn _ (List.mem_singleton_self _)).2
  revert entity
  decide

end Files

end SchemaForge.Exchange
