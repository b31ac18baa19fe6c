import SchemaForge.Service

/-!
# Owners do not see each other

What an operation answers, and what it leaves of the caller's rows, depends on
the caller's rows alone; and it leaves the rows of everybody else as they are.
-/

namespace SchemaForge.Service

open Repository Tables

/-- The id that the call draws. -/
def Call.draws (call : Call) : Option Uuid :=
  match call.operation with
  | .create _ => some call.drawn
  | _ => none

/-- No id is drawn twice, or drawn again for a schema that is stored. -/
structure FreshIds (tables : Tables) (calls : List Call) : Prop where
  distinct : (calls.filterMap Call.draws).Nodup
  unstored : ∀ id ∈ calls.filterMap Call.draws, id ∉ tables.schemas.map SchemaRow.id

def ValidationTarget.rename (other : Str → Str) : ValidationTarget → ValidationTarget
  | stored id => stored (other id)
  | draft schema => draft schema

/-- The operation with other ids in the place of those it names. -/
def Operation.rename (other : Str → Str) : Operation → Operation
  | index request => index request
  | create draft => create draft
  | findById id => findById (other id)
  | replace id draft => replace (other id) draft
  | delete id => delete (other id)
  | validate target => validate (target.rename other)
  | generateDdl target dialect options => generateDdl (target.rename other) dialect options
  | exportSchema target format includePositions =>
      exportSchema (target.rename other) format includePositions
  | compare expected actual includePositions =>
      compare (expected.rename other) (actual.rename other) includePositions

theorem alike_mapError {ε ε' α : Type} {owner : Uuid} {left right : Except ε (Tables × α)}
    (alike : Alike owner left right) (f : ε → ε') :
    Alike owner (left.mapError f) (right.mapError f) := by
  cases alike with
  | error failure => exact .error (f failure)
  | ok same answer => exact .ok same answer

theorem alike_writing {α : Type} {owner : Uuid} {left right : Except Error (Tables × α)}
    (alike : Alike owner left right) (answer : α → Answer) :
    Alike owner (writing answer left) (writing answer right) := by
  cases alike with
  | error failure => exact .error failure
  | ok same value => exact .ok same (answer value)

theorem alike_reading {α : Type} {owner : Uuid} {left right : Tables}
    (same : SameFor owner left right) (answer : α → Answer) {readLeft readRight : Except Error α}
    (alike : readLeft = readRight) :
    Alike owner (reading left answer readLeft) (reading right answer readRight) := by
  subst alike
  cases readLeft with
  | error failure => exact .error failure
  | ok value => exact .ok same (answer value)

theorem checked_alike {α : Type} {caller : Uuid} {left right : Except Error (Tables × α)}
    (alike : Alike caller left right) (draft : SchemaDraft) :
    Alike caller (do checkDraft draft; left) (do checkDraft draft; right) := by
  cases checkDraft draft with
  | error failure => exact .error failure
  | ok _ => exact alike

theorem conclude_alike {owner : Uuid} {left right : Tables} (same : SameFor owner left right)
    {outcome outcome' : Except Error (Tables × Answer)} (alike : Alike owner outcome outcome') :
    (conclude left outcome).2 = (conclude right outcome').2 ∧
      SameFor owner (conclude left outcome).1 (conclude right outcome').1 := by
  cases alike with
  | error failure => exact ⟨rfl, same⟩
  | ok same' answer => exact ⟨rfl, same'⟩

theorem reading_eq_ok {α : Type} {tables tables' : Tables} {answer : α → Answer}
    {read : Except Error α} {value : Answer}
    (ok : reading tables answer read = .ok (tables', value)) : tables' = tables := by
  cases read with
  | error failure => cases ok
  | ok _ =>
      cases ok
      rfl

theorem writing_eq_ok {α : Type} {tables' : Tables} {answer : α → Answer}
    {written : Except Error (Tables × α)} {value : Answer}
    (ok : writing answer written = .ok (tables', value)) :
    ∃ result, written = .ok (tables', result) := by
  cases written with
  | error failure => cases ok
  | ok result =>
      cases ok
      exact ⟨result.2, rfl⟩

/-- The tables after a call are those before it, or one statement on rows of the caller apart. -/
inductive Written (tables : Tables) (call : Call) : Tables → Prop
  | unchanged : Written tables call tables
  | created {draft : SchemaDraft} {tables' : Tables} (drawn : call.draws = some call.drawn)
      (inserted : tables.insertBoth (newRow draft call.drawn call.now)
        ⟨call.caller, call.drawn, call.now⟩ = some tables') : Written tables call tables'
  | updated (id : Uuid) (draft : SchemaDraft) :
      Written tables call (tables.updateSchema call.caller id draft call.now)
  | deleted (id : Uuid) : Written tables call (tables.deleteSchema call.caller id)

/-- Nobody else's rows change. -/
theorem Written.sameFor {tables tables' : Tables} {call : Call}
    (written : Written tables call tables') {other : Uuid} (foreign : call.caller ≠ other) :
    SameFor other tables' tables := by
  cases written with
  | unchanged => exact ⟨rfl, rfl⟩
  | created drawn inserted =>
      constructor
      · rw [linksOf_insertBoth inserted, if_neg foreign, List.append_nil]
      · rw [owned_insertBoth inserted rfl, if_neg foreign, List.append_nil]
  | updated id draft =>
      refine ⟨rfl, ?_⟩
      rw [owned_updateSchema, if_neg (Ne.symm foreign)]
  | deleted id =>
      constructor
      · rw [linksOf_deleteSchema, if_neg (Ne.symm foreign)]
      · rw [owned_deleteSchema, if_neg (Ne.symm foreign)]

/-- A stored id was stored before the call, or the call drew it. -/
theorem Written.stored {tables tables' : Tables} {call : Call}
    (written : Written tables call tables') {id : Uuid}
    (stored : id ∈ tables'.schemas.map SchemaRow.id) :
    id ∈ tables.schemas.map SchemaRow.id ∨ call.draws = some id := by
  cases written with
  | unchanged => exact .inl stored
  | created drawn inserted =>
      rw [(insertBoth_eq_some inserted).2.1, List.map_append] at stored
      rcases List.mem_append.mp stored with before | last
      · exact .inl before
      · rw [List.mem_singleton.mp last]
        exact .inr drawn
  | updated id' draft =>
      rcases List.mem_map.mp stored with ⟨row, mem, rfl⟩
      rcases List.mem_map.mp mem with ⟨before, memBefore, rfl⟩
      refine .inl (List.mem_map.mpr ⟨before, memBefore, ?_⟩)
      split <;> rfl
  | deleted id' =>
      rcases List.mem_map.mp stored with ⟨row, mem, rfl⟩
      exact .inl (List.mem_map_of_mem (List.mem_of_mem_filter mem))

theorem FreshIds.head {tables : Tables} {call : Call} {calls : List Call}
    (fresh : FreshIds tables (call :: calls)) :
    ∀ id ∈ call.draws, id ∉ tables.schemas.map SchemaRow.id := by
  intro id drawn
  exact fresh.unstored id (List.mem_filterMap.mpr ⟨call, List.mem_cons_self, drawn⟩)

theorem FreshIds.tail {tables : Tables} {call : Call} {calls : List Call}
    (fresh : FreshIds tables (call :: calls)) : FreshIds tables calls := by
  constructor
  · exact ((List.sublist_cons_self call calls).filterMap Call.draws).nodup fresh.distinct
  · intro id mem
    exact fresh.unstored id (((List.sublist_cons_self call calls).filterMap Call.draws).subset mem)

theorem FreshIds.step {tables tables' : Tables} {call : Call} {calls : List Call}
    (fresh : FreshIds tables (call :: calls)) (written : Written tables call tables') :
    FreshIds tables' calls := by
  refine ⟨fresh.tail.distinct, ?_⟩
  intro id mem stored
  rcases written.stored stored with before | drawn
  · exact fresh.tail.unstored id mem before
  · have distinct := fresh.distinct
    rw [List.filterMap_cons_some drawn] at distinct
    exact (List.nodup_cons.mp distinct).1 mem

section Operations

variable [Postgres]

/-- The schema is another user's. -/
def Foreign (tables : Tables) (caller : Uuid) (id : Str) : Prop :=
  ∃ uuid owner, Postgres.parseUuid id = some uuid ∧ owner ≠ caller ∧ tables.owns owner uuid = true

/-- A well-formed id, of no schema. -/
def Missing (tables : Tables) (id : Str) : Prop :=
  ∃ uuid, Postgres.parseUuid id = some uuid ∧ uuid ∉ tables.schemas.map SchemaRow.id

/-- A well-formed id of no schema of the caller. -/
def Unseen (tables : Tables) (caller : Uuid) (id : Str) : Prop :=
  ∃ uuid, Postgres.parseUuid id = some uuid ∧ tables.owns caller uuid = false

theorem unseen_of_foreign {tables : Tables} {caller : Uuid} {id : Str}
    (foreign : Foreign tables caller id) : Unseen tables caller id := by
  rcases foreign with ⟨uuid, owner, parsed, ne, owned⟩
  refine ⟨uuid, parsed, ?_⟩
  rw [Bool.eq_false_iff]
  intro mine
  exact ne (owner_unique owned mine)

theorem unseen_of_missing {tables : Tables} {caller : Uuid} {id : Str}
    (missing : Missing tables id) :
    Unseen tables caller id := by
  rcases missing with ⟨uuid, parsed, unstored⟩
  refine ⟨uuid, parsed, ?_⟩
  rw [Bool.eq_false_iff]
  intro mine
  rcases owns_iff.mp mine with ⟨link, mem, same, -⟩
  exact unstored (same ▸ tables.references link mem)

section Unseen

variable {tables : Tables} {caller : Uuid} {id id' : Str}

omit [Postgres] in
theorem select_of_unowned {uuid : Uuid} (unowned : tables.owns caller uuid = false) :
    tables.select caller uuid = none := by
  rw [Tables.select, List.find?_eq_none]
  intro row mem same
  rw [beq_iff_eq] at same
  rw [← same, (mem_owned.mp mem).2] at unowned
  cases unowned

theorem findById_unseen (unseen : Unseen tables caller id) :
    findById tables caller id = .error (.app 1001 "schema does not exist") := by
  rcases unseen with ⟨uuid, parsed, unowned⟩
  rw [findById, Tables.findById, parsed]
  simp only [select_of_unowned unowned]
  rfl

theorem delete_unseen (unseen : Unseen tables caller id) :
    delete tables caller id = .error (.app 1001 "schema does not exist") := by
  rcases unseen with ⟨uuid, parsed, unowned⟩
  rw [delete, Tables.delete, parsed]
  simp only [unowned]
  rfl

/-- The name is checked first, against all of the caller's schemas, whichever the id is. -/
theorem nameTaken_unowned {uuid : Uuid} (unowned : tables.owns caller uuid = false) (name : Str) :
    tables.nameTaken caller name (some uuid) = tables.nameTaken caller name none := by
  rw [Bool.eq_iff_iff, nameTaken, nameTaken, List.any_eq_true, List.any_eq_true]
  refine exists_congr fun row => and_congr_right fun mem => ?_
  have other : row.id ≠ uuid := by
    rintro rfl
    rw [(mem_owned.mp mem).2] at unowned
    cases unowned
  simp [other]

theorem replace_unseen (unseen : Unseen tables caller id) (unseen' : Unseen tables caller id')
    (draft : SchemaDraft) (now : Time) :
    replace tables caller id draft now = replace tables caller id' draft now := by
  have uniform {id : Str} (unseen : Unseen tables caller id) : tables.replace caller id draft now =
      (do tables.reserveName caller draft.name none
          refusal (refusesRow draft)
          .error .schemaNotFound) := by
    rcases unseen with ⟨uuid, parsed, unowned⟩
    rw [Tables.replace, parsed]
    simp only [select_of_unowned unowned, Tables.reserveName, nameTaken_unowned unowned]
  rw [replace, replace, uniform unseen, uniform unseen']

end Unseen

theorem findById_rename {tables : Tables} {caller : Uuid} {other : Str → Str}
    (alike : ∀ id, other id = id ∨ (Foreign tables caller id ∧ Missing tables (other id)))
    (id : Str) :
    findById tables caller (other id) = findById tables caller id := by
  rcases alike id with same | ⟨foreign, missing⟩
  · rw [same]
  · rw [findById_unseen (unseen_of_foreign foreign), findById_unseen (unseen_of_missing missing)]

theorem resolve_rename {tables : Tables} {caller : Uuid} {other : Str → Str}
    (alike : ∀ id, other id = id ∨ (Foreign tables caller id ∧ Missing tables (other id)))
    (target : ValidationTarget) :
    resolve tables caller (target.rename other) = resolve tables caller target := by
  cases target with
  | stored id =>
      change (findById tables caller (other id)).map _ = (findById tables caller id).map _
      rw [findById_rename alike]
  | draft schema => rfl

theorem resolve_alike {caller : Uuid} {left right : Tables} (same : SameFor caller left right)
    (target : ValidationTarget) : resolve left caller target = resolve right caller target := by
  cases target with
  | stored id => rw [resolve, resolve, findById, findById, same.findById]
  | draft schema => rfl

theorem written_create {call : Call} {tables tables' : Tables} {draft : SchemaDraft}
    {schema : StoredSchema} (drawn : call.draws = some call.drawn)
    (ok : tables.create call.caller draft call.drawn call.now = .ok (tables', schema)) :
    Written tables call tables' := by
  rcases exists_of_bind_eq_ok ok with ⟨_, -, ok⟩
  rcases exists_of_bind_eq_ok ok with ⟨_, -, ok⟩
  rcases exists_of_bind_eq_ok ok with ⟨_, -, ok⟩
  split at ok
  · cases ok
  · rename_i inserted
    cases ok
    exact .created drawn inserted

theorem written_replace {call : Call} {tables tables' : Tables} {id : Str} {draft : SchemaDraft}
    {schema : StoredSchema}
    (ok : tables.replace call.caller id draft call.now = .ok (tables', schema)) :
    Written tables call tables' := by
  unfold Tables.replace at ok
  split at ok
  · cases ok
  · rcases exists_of_bind_eq_ok ok with ⟨_, -, ok⟩
    rcases exists_of_bind_eq_ok ok with ⟨_, -, ok⟩
    split at ok
    · cases ok
    · rcases exists_of_bind_eq_ok ok with ⟨_, -, ok⟩
      cases ok
      exact .updated _ _

theorem written_delete {call : Call} {tables tables' : Tables} {id : Str}
    (ok : tables.delete call.caller id = .ok (tables', ())) : Written tables call tables' := by
  unfold Tables.delete at ok
  split at ok
  · cases ok
  · split at ok
    · cases ok
      exact .deleted _
    · cases ok

variable [Unicode]

theorem perform_alike {call : Call} {left right : Tables} (same : SameFor call.caller left right)
    (freshLeft : ∀ id ∈ call.draws, id ∉ left.schemas.map SchemaRow.id)
    (freshRight : ∀ id ∈ call.draws, id ∉ right.schemas.map SchemaRow.id) :
    Alike call.caller (perform left call) (perform right call) := by
  rcases call with ⟨caller, operation, drawn, now⟩
  have resolved := resolve_alike same
  cases operation with
  | index request =>
      refine alike_reading same _ ?_
      rw [index, index, same.index]
  | create draft =>
      refine alike_writing (checked_alike (alike_mapError ?_ _) draft) _
      exact same.create draft now (freshLeft drawn rfl) (freshRight drawn rfl)
  | findById id =>
      refine alike_reading same _ ?_
      rw [findById, findById, same.findById]
  | replace id draft =>
      exact alike_writing (checked_alike (alike_mapError (same.replace id draft now) _) draft) _
  | delete id => exact alike_writing (alike_mapError (same.delete id) toError) fun _ => .deleted
  | validate target =>
      refine alike_reading same _ ?_
      rw [validate, validate, resolved]
  | generateDdl target dialect options =>
      refine alike_reading same _ ?_
      rw [generateDdl, generateDdl, resolved]
  | exportSchema target format includePositions =>
      refine alike_reading same _ ?_
      rw [exportSchema, exportSchema, resolved]
  | compare expected actual includePositions =>
      refine alike_reading same _ ?_
      rw [compare, compare, resolved, resolved]

theorem written_perform {call : Call} {tables tables' : Tables} {answer : Answer}
    (ok : perform tables call = .ok (tables', answer)) : Written tables call tables' := by
  rcases call with ⟨caller, operation, drawn, now⟩
  cases operation with
  | create draft =>
      rcases writing_eq_ok ok with ⟨schema, ok⟩
      rcases exists_of_bind_eq_ok ok with ⟨_, -, ok⟩
      exact written_create rfl (eq_ok_of_mapError_eq_ok ok)
  | replace id draft =>
      rcases writing_eq_ok ok with ⟨schema, ok⟩
      rcases exists_of_bind_eq_ok ok with ⟨_, -, ok⟩
      exact written_replace (eq_ok_of_mapError_eq_ok ok)
  | delete id =>
      rcases @writing_eq_ok Unit _ (fun _ => .deleted) _ _ ok with ⟨_, ok⟩
      exact written_delete (eq_ok_of_mapError_eq_ok ok)
  | index _ | findById _ | validate _ | generateDdl _ _ _ | exportSchema _ _ _ | compare _ _ _ =>
      rw [reading_eq_ok ok]
      exact .unchanged

theorem written_step (tables : Tables) (call : Call) :
    Written tables call (service.step tables call).1 := by
  change Written tables call (conclude tables (perform tables call)).1
  cases outcome : perform tables call with
  | error failure => exact .unchanged
  | ok result => exact written_perform outcome

/-- A run, and the same run without the operations of others: the caller is
answered alike and is left with the same rows. -/
theorem run_alike (caller : Uuid) (tables : Tables) (calls : List Call)
    (fresh : FreshIds tables calls) :
    service.answersTo (fun call => call.caller == caller) tables calls =
        service.answers tables (calls.filter fun call => call.caller == caller) ∧
      SameFor caller (service.final tables calls)
        (service.final tables (calls.filter fun call => call.caller == caller)) := by
  let related (rest : List Call) (left right : Tables) :=
    SameFor caller left right ∧ FreshIds left rest ∧ FreshIds right rest
  have start : related calls tables tables := ⟨⟨rfl, rfl⟩, fresh, fresh⟩
  refine (service.unwinding (fun call => call.caller == caller) related ?_ ?_ start).imp_right
    And.left
  · rintro call rest left right mine ⟨same, freshLeft, freshRight⟩
    rw [beq_iff_eq] at mine
    subst mine
    have alike := conclude_alike same (perform_alike same freshLeft.head freshRight.head)
    exact ⟨alike.1, alike.2, freshLeft.step (written_step left call),
      freshRight.step (written_step right call)⟩
  · rintro call rest left right others ⟨same, freshLeft, freshRight⟩
    have written := written_step left call
    rw [beq_eq_false_iff_ne] at others
    exact ⟨(written.sameFor others).trans same, freshLeft.step written, freshRight.tail⟩

theorem perform_rename {tables : Tables} {call : Call} {other : Str → Str}
    (alike : ∀ id, other id = id ∨ (Foreign tables call.caller id ∧ Missing tables (other id))) :
    perform tables { call with operation := call.operation.rename other } =
      perform tables call := by
  rcases call with ⟨caller, operation, drawn, now⟩
  have resolved := resolve_rename alike
  have found := findById_rename alike
  dsimp only at resolved found
  unfold perform
  cases operation with
  | index _ | create _ => rfl
  | findById id => simp only [Operation.rename, found]
  | replace id draft =>
      simp only [Operation.rename]
      rcases alike id with same | ⟨foreign, missing⟩
      · rw [same]
      · rw [replace_unseen (unseen_of_foreign foreign) (unseen_of_missing missing)]
  | delete id =>
      simp only [Operation.rename]
      rcases alike id with same | ⟨foreign, missing⟩
      · rw [same]
      · rw [delete_unseen (unseen_of_foreign foreign), delete_unseen (unseen_of_missing missing)]
  | validate target => simp only [Operation.rename, validate, resolved]
  | generateDdl target dialect options => simp only [Operation.rename, generateDdl, resolved]
  | exportSchema target format includePositions =>
      simp only [Operation.rename, exportSchema, resolved]
  | compare expected actual includePositions => simp only [Operation.rename, compare, resolved]

/-- A caller's answers and rows are those of the run without the operations of
everybody else, and the id of another user's schema is answered as a well-formed id of none. -/
theorem owners_apart (caller : Uuid) (tables : Tables) (calls : List Call)
    (fresh : FreshIds tables calls) :
    let mine := fun call : Call => call.caller == caller
    service.answersTo mine tables calls = service.answers tables (calls.filter mine) ∧
      (service.final tables calls).owned caller =
      (service.final tables (calls.filter mine)).owned caller ∧
      (service.final tables calls).linksOf caller =
        (service.final tables (calls.filter mine)).linksOf caller ∧
      ∀ (tables : Tables) (call : Call) (other : Str → Str),
        (∀ id, other id = id ∨ (Foreign tables call.caller id ∧ Missing tables (other id))) →
        service.step tables { call with operation := call.operation.rename other } =
          service.step tables call := by
  intro mine
  rcases run_alike caller tables calls fresh with ⟨answers, same⟩
  refine ⟨answers, same.owned, same.links, ?_⟩
  intro tables call other alike
  change conclude tables (perform tables _) = conclude tables (perform tables call)
  rw [perform_rename alike]

end Operations

def secondUser : Uuid := 0x00000000000040008000000000000002

/--
Both users want the same name, the first looks for the second's schema, and the second deletes it.
-/
def twoUsers : List Call := [
  ⟨secondUser, .create (named "Orders"), 1, 3⟩,
  ⟨firstUser, .create (named "orders"), 2, 5⟩,
  ⟨firstUser, .findById (hyphenated 1), 0, 6⟩,
  ⟨secondUser, .delete (hyphenated 1), 0, 7⟩]

abbrev asciiService : Machine Tables Call (Except Error Answer) :=
  @service Unicode.ascii asciiDatabase

theorem owners_apart_two_users :
    (asciiService.final .empty twoUsers).owned firstUser =
        (asciiService.final .empty (twoUsers.filter fun call => call.caller == firstUser)).owned
          firstUser ∧
      ((asciiService.final .empty twoUsers).owned firstUser).length = 1 := by
  have fresh : FreshIds .empty twoUsers := ⟨by decide, by simp [Tables.empty]⟩
  exact ⟨(@owners_apart asciiDatabase Unicode.ascii firstUser .empty twoUsers fresh).2.1, by
    decide⟩

/-- A draft with the name of a schema of the caller is refused for the name under the id of another
user's schema, and for the id under one that is no UUID. -/
theorem replace_two_users :
    let tables := asciiService.final .empty (twoUsers.take 2)
    let answer (id : Str) :=
  (asciiService.step tables ⟨firstUser, .replace id (named "Orders"), 0, 6⟩).2
    @Foreign asciiDatabase tables firstUser (hyphenated 1) ∧
      asciiDatabase.parseUuid "orders" = none ∧
      answer (hyphenated 1) = .error (toError (.duplicateSchemaName "Orders")) ∧
      answer "orders" = .error (toError .schemaNotFound) := by
  refine ⟨⟨1, secondUser, ?_, ?_, ?_⟩, ?_, rfl, rfl⟩
  all_goals decide

end SchemaForge.Service
