import SchemaForge.Repository.Serial
import SchemaForge.Service.Owners

/-!
# A read answers the last write

The service as a collection of registers, one for each schema of each user. After
any run, a schema is read as the last call that wrote it answered it, with its
times, and is not found if that call deleted it. What was answered is all that
counts: refused calls, reads and calls of other users leave every register alone.
-/

namespace SchemaForge.Service

open Repository Tables

section Registers

variable [Unicode] [Postgres]

def notFound : Error := .app 1001 "schema does not exist"

/-- What a read of the owner's schema answers after a call, from what the call answered and from
what a read answered before it. -/
def Call.rewrites (call : Call) (owner id : Uuid) (answer : Except Error Answer)
    (before : Except Error StoredSchema) : Except Error StoredSchema :=
  if call.caller = owner then
    match call.operation, answer with
    | .create _, .ok (.schema written) =>
        if written.schema.id = Postgres.uuidText id then .ok written else before
    | .replace text _, .ok (.schema written) =>
        if Postgres.parseUuid text = some id then .ok written else before
    | .delete text, .ok .deleted =>
        if Postgres.parseUuid text = some id then .error notFound else before
    | _, _ => before
  else before

/-- What a read answers after a run, from the answers of the run. -/
def lastWrite (owner id : Uuid) (history : List (Call × Except Error Answer))
    (before : Except Error StoredSchema) : Except Error StoredSchema :=
  history.foldl (fun before event => event.1.rewrites owner id event.2 before) before

/-- What the row of a schema is answered as. -/
def readRow : Option SchemaRow → Except Error StoredSchema
  | none => .error notFound
  | some row => (mapSchema row).mapError toError

omit [Unicode] [Postgres]

theorem select_id {tables : Tables} {owner id : Uuid} {row : SchemaRow}
    (found : tables.select owner id = some row) : row.id = id := by
  have accepted := List.find?_some found
  exact beq_iff_eq.mp accepted

theorem select_insertBoth {tables tables' : Tables} {row : SchemaRow} {link : LinkRow}
    (inserted : tables.insertBoth row link = some tables') (own : link.schemaId = row.id)
    (owner id : Uuid) :
    tables'.select owner id = if link.userId = owner ∧ row.id = id then some row
      else tables.select owner id := by
  have fresh := (insertBoth_eq_some inserted).1
  rw [select, owned_insertBoth inserted own, List.find?_append, ← select]
  by_cases mine : link.userId = owner
  · rw [if_pos mine]
    by_cases same : row.id = id
    · have gone : tables.select owner id = none := by
        refine List.find?_eq_none.mpr fun other mem found => fresh ?_
        rw [same, ← beq_iff_eq.mp found]
        exact List.mem_map_of_mem (mem_owned.mp mem).1
      rw [gone, if_pos ⟨mine, same⟩, Option.none_or, List.find?_singleton,
        if_pos (beq_iff_eq.mpr same)]
    · rw [if_neg fun both => same both.2, List.find?_singleton, if_neg (by simpa using same),
        Option.or_none]
  · rw [if_neg mine, if_neg fun both => mine both.1, List.find?_nil, Option.or_none]

theorem select_updateSchema (tables : Tables) (owner id other target : Uuid) (draft : SchemaDraft)
    (now : Time) :
    (tables.updateSchema owner id draft now).select other target =
      if owner = other ∧ id = target then (tables.select other target).map (replaceRow draft now)
      else tables.select other target := by
  rw [select, owned_updateSchema, select]
  by_cases mine : owner = other
  · subst mine
    rw [if_pos rfl, List.find?_map]
    have kept : ((fun row : SchemaRow => row.id == target) ∘ fun row =>
        if row.id = id then replaceRow draft now row else row) = fun row => row.id == target := by
      funext row
      rw [Function.comp_apply]
      split <;> rfl
    rw [kept]
    by_cases same : id = target
    · subst same
      rw [if_pos ⟨rfl, rfl⟩]
      refine Option.map_congr fun row found => ?_
      rw [if_pos (select_id found)]
    · rw [if_neg fun both => same both.2]
      refine Eq.trans (Option.map_congr fun row found => ?_) Option.map_id'
      rw [if_neg fun there => same (there.symm.trans (select_id found))]
  · rw [if_neg (Ne.symm mine), if_neg fun both => mine both.1]

theorem select_deleteSchema (tables : Tables) (owner id other target : Uuid) :
    (tables.deleteSchema owner id).select other target =
      if owner = other ∧ id = target then none else tables.select other target := by
  rw [select, owned_deleteSchema, select]
  by_cases mine : owner = other
  · subst mine
    rw [if_pos rfl, List.find?_filter]
    by_cases same : id = target
    · subst same
      rw [if_pos ⟨rfl, rfl⟩]
      simp
    · rw [if_neg fun both => same both.2]
      congr 1
      funext row
      rw [Bool.eq_iff_iff]
      simp only [bne_iff_ne, decide_eq_true_eq, beq_iff_eq]
      exact ⟨fun both => both.2, fun there => ⟨fun here => same (here.symm.trans there), there⟩⟩
  · rw [if_neg (Ne.symm mine), if_neg fun both => mine both.1]

variable [Unicode] [Postgres]

omit [Unicode] in
theorem create_eq_ok {tables tables' : Tables} {caller drawn : Uuid}
    {draft : SchemaDraft} {now : Time} {written : StoredSchema}
    (ok : create tables caller draft drawn now = .ok (tables', written)) :
    tables.insertBoth (newRow draft drawn now) ⟨caller, drawn, now⟩ = some tables' ∧
      mapSchema (newRow draft drawn now) = .ok written := by
  rcases exists_of_bind_eq_ok ok with ⟨_, -, ok⟩
  rcases exists_of_bind_eq_ok (eq_ok_of_mapError_eq_ok ok) with ⟨_, -, ok⟩
  rcases exists_of_bind_eq_ok ok with ⟨_, -, ok⟩
  rcases exists_of_bind_eq_ok ok with ⟨schema, mapped, ok⟩
  split at ok
  · cases ok
  · rename_i inserted
    cases ok
    exact ⟨inserted, mapped⟩

omit [Unicode] in
theorem replace_eq_ok {tables tables' : Tables} {caller : Uuid} {id : Str}
    {draft : SchemaDraft} {now : Time} {written : StoredSchema}
    (ok : replace tables caller id draft now = .ok (tables', written)) :
    ∃ uuid row, Postgres.parseUuid id = some uuid ∧ tables.select caller uuid = some row ∧
      tables' = tables.updateSchema caller uuid draft now ∧
      mapSchema (replaceRow draft now row) = .ok written := by
  rcases exists_of_bind_eq_ok ok with ⟨_, -, ok⟩
  replace ok := eq_ok_of_mapError_eq_ok ok
  unfold Tables.replace at ok
  split at ok
  · cases ok
  · rename_i uuid parsed
    rcases exists_of_bind_eq_ok ok with ⟨_, -, ok⟩
    rcases exists_of_bind_eq_ok ok with ⟨_, -, ok⟩
    split at ok
    · cases ok
    · rename_i row found
      rcases exists_of_bind_eq_ok ok with ⟨schema, mapped, ok⟩
      cases ok
      exact ⟨uuid, row, parsed, found, rfl, mapped⟩

omit [Unicode] in
theorem delete_eq_ok {tables tables' : Tables} {caller : Uuid} {id : Str}
    (ok : delete tables caller id = .ok (tables', ())) :
    ∃ uuid, Postgres.parseUuid id = some uuid ∧ tables' = tables.deleteSchema caller uuid := by
  replace ok := eq_ok_of_mapError_eq_ok ok
  unfold Tables.delete at ok
  split at ok
  · cases ok
  · rename_i uuid parsed
    split at ok
    · cases ok
      exact ⟨uuid, parsed, rfl⟩
    · cases ok

omit [Unicode] [Postgres] in
theorem writing_eq_answer {α : Type} {tables' : Tables} {answer : α → Answer}
    {written : Except Error (Tables × α)} {value : Answer}
    (ok : writing answer written = .ok (tables', value)) :
    ∃ result, written = .ok (tables', result) ∧ value = answer result := by
  cases written with
  | error failure => cases ok
  | ok result =>
      cases ok
      exact ⟨result.2, rfl, rfl⟩

variable [UuidText]

omit [Unicode] in
theorem uuidText_inj {left right : Uuid} : Postgres.uuidText left = Postgres.uuidText right ↔
    left = right := by
  constructor
  · intro same
    have read := congrArg Postgres.parseUuid same
    rw [UuidText.parse_text, UuidText.parse_text] at read
    exact Option.some.inj read
  · exact congrArg Postgres.uuidText

omit [Unicode] in
theorem findById_eq_readRow (tables : Tables) (owner id : Uuid) :
    findById tables owner (Postgres.uuidText id) = readRow (tables.select owner id) := by
  rw [findById, Tables.findById, UuidText.parse_text]
  simp only
  cases tables.select owner id with
  | none => rfl
  | some row =>
      dsimp only [readRow]
      cases mapSchema row with
      | error failure => rfl
      | ok schema => rfl

omit [Unicode] [UuidText] in
theorem rewrites_error (call : Call) (owner id : Uuid) (failure : Error)
    (before : Except Error StoredSchema) :
    call.rewrites owner id (.error failure) before = before := by
  rcases call with ⟨caller, operation, drawn, now⟩
  cases operation <;> exact ite_self _

omit [UuidText] in
theorem step_of_error {tables : Tables} {call : Call} {failure : Error}
    (refused : perform tables call = .error failure) :
    service.step tables call = (tables, .error failure) := by
  change conclude tables (perform tables call) = _
  rw [refused]
  rfl

omit [UuidText] in
theorem step_of_ok {tables tables' : Tables} {call : Call} {answer : Answer}
    (made : perform tables call = .ok (tables', answer)) :
    service.step tables call = (tables', .ok answer) := by
  change conclude tables (perform tables call) = _
  rw [made]
  rfl

/-- A call rewrites the registers that its answer says it wrote. -/
theorem readRow_step (tables : Tables) (call : Call) (owner id : Uuid) :
    readRow ((service.step tables call).1.select owner id) =
      call.rewrites owner id (service.step tables call).2 (readRow (tables.select owner id)) := by
  cases outcome : perform tables call with
  | error failure => rw [step_of_error outcome, rewrites_error]
  | ok result =>
      rcases result with ⟨tables', answer⟩
      rw [step_of_ok outcome]
      rcases call with ⟨caller, operation, drawn, now⟩
      cases operation with
      | index _ | findById _ | validate _ | generateDdl _ _ _ | exportSchema _ _ _
      | compare _ _ _ =>
          rw [reading_eq_ok outcome]
          exact (ite_self _).symm
      | create draft =>
          obtain ⟨written, made, rfl⟩ := writing_eq_answer outcome
          rcases create_eq_ok made with ⟨inserted, mapped⟩
          change _ = if caller = owner then
            (if written.schema.id = Postgres.uuidText id then .ok written
              else readRow (tables.select owner id))
              else readRow (tables.select owner id)
          have named : written.schema.id = Postgres.uuidText id ↔ drawn = id := by
            rw [mapSchema_newRow] at mapped
            cases mapped
            exact uuidText_inj
          rw [select_insertBoth inserted rfl]
          change readRow
            (if caller = owner ∧ drawn = id then some (newRow draft drawn now) else _) = _
          by_cases mine : caller = owner
          · by_cases same : drawn = id
            · rw [if_pos ⟨mine, same⟩, if_pos mine, if_pos (named.mpr same)]
              exact congrArg (Except.mapError toError) mapped
            · rw [if_neg fun both => same both.2, if_pos mine, if_neg fun there =>
                same (named.mp there)]
          · rw [if_neg fun both => mine both.1, if_neg mine]
      | replace text draft =>
          obtain ⟨written, made, rfl⟩ := writing_eq_answer outcome
          rcases replace_eq_ok made with ⟨uuid, row, parsed, found, rfl, mapped⟩
          change _ = if caller = owner then
            (if Postgres.parseUuid text = some id then .ok written
              else readRow (tables.select owner id))
              else readRow (tables.select owner id)
          have named : Postgres.parseUuid text = some id ↔ uuid = id := by
            rw [parsed, Option.some.injEq]
          rw [select_updateSchema]
          change readRow (if caller = owner ∧ uuid = id then _ else _) = _
          by_cases mine : caller = owner
          · by_cases same : uuid = id
            · rw [if_pos ⟨mine, same⟩, if_pos mine, if_pos (named.mpr same)]
              subst mine same
              rw [found]
              exact congrArg (Except.mapError toError) mapped
            · rw [if_neg fun both => same both.2, if_pos mine, if_neg fun there =>
                same (named.mp there)]
          · rw [if_neg fun both => mine both.1, if_neg mine]
      | delete text =>
          obtain ⟨written, made, rfl⟩ := @writing_eq_answer Unit _ (fun _ => .deleted) _ _ outcome
          rcases delete_eq_ok made with ⟨uuid, parsed, rfl⟩
          change _ = if caller = owner then
            (if Postgres.parseUuid text = some id then .error notFound
              else readRow (tables.select owner id))
              else readRow (tables.select owner id)
          have named : Postgres.parseUuid text = some id ↔ uuid = id := by
            rw [parsed, Option.some.injEq]
          rw [select_deleteSchema]
          change readRow (if caller = owner ∧ uuid = id then _ else _) = _
          by_cases mine : caller = owner
          · by_cases same : uuid = id
            · rw [if_pos ⟨mine, same⟩, if_pos mine, if_pos (named.mpr same)]
              rfl
            · rw [if_neg fun both => same both.2, if_pos mine, if_neg fun there =>
                same (named.mp there)]
          · rw [if_neg fun both => mine both.1, if_neg mine]

/-- After any run a schema is read as its last write was answered. -/
theorem findById_run (tables : Tables) (calls : List Call) (owner id : Uuid) :
    findById (service.final tables calls) owner (Postgres.uuidText id) =
      lastWrite owner id (calls.zip (service.answers tables calls))
        (findById tables owner (Postgres.uuidText id)) := by
  induction calls generalizing tables with
  | nil => rfl
  | cons call rest ih =>
      rw [Machine.final, ih, findById_eq_readRow, readRow_step, ← findById_eq_readRow]
      rfl

end Registers

theorem findById_run_twoUsers : letI := Unicode.ascii
    letI := asciiDatabase
    findById (service.final Tables.empty twoUsers) firstUser (Postgres.uuidText firstSchema) =
      lastWrite firstUser firstSchema (twoUsers.zip (service.answers Tables.empty twoUsers))
        (findById Tables.empty firstUser (Postgres.uuidText firstSchema)) :=
  @findById_run Unicode.ascii asciiDatabase asciiUuidText Tables.empty twoUsers
    firstUser firstSchema

end SchemaForge.Service
