import SchemaForge.Foundation.Machine
import SchemaForge.Repository.Store
import SchemaForge.Repository.UuidText

/-!
# Interleaved transactions, one after another

However the statements of `create`, `replace` and `delete` transactions are
interleaved, the rows are those that the calls of the repository leave when they
are made one at a time, in the order in which the transactions commit.
-/

namespace SchemaForge.Repository

/-- A transaction whose statements are all behind it. -/
inductive Write where
  | create (owner : Uuid) (draft : SchemaDraft) (id : Uuid) (now : Time)
  | replace (owner id : Uuid) (draft : SchemaDraft) (now : Time)
  | delete (owner id : Uuid)

/-- What a session is about to commit. -/
def Session.write : Session → Option Write
  | ⟨.create owner draft, .linked id now⟩ => some (.create owner draft id now)
  | ⟨.replace owner id draft, .updated now⟩ => some (.replace owner id draft now)
  | ⟨.delete owner id, .deleted⟩ => some (.delete owner id)
  | _ => none

namespace Write

/-- The schema of the write is not the owner's, or no longer. -/
def IsGone (tables : Tables) : Write → Prop
  | create _ _ _ _ => False
  | replace owner id _ _ => tables.owns owner id = false
  | delete owner id => tables.owns owner id = false

section Calls

variable [Postgres]

/-- The call of the repository that makes the write, for the rows it leaves. -/
def call (tables : Tables) : Write → Except DomainError Tables
  | create owner draft id now => (tables.create owner draft id now).map Prod.fst
  | replace owner id draft now =>
      (tables.replace owner (Postgres.uuidText id) draft now).map Prod.fst
  | delete owner id => (tables.delete owner (Postgres.uuidText id)).map Prod.fst

end Calls

end Write

section Serial

variable [Postgres]

/-- The repository, one write at a time. -/
def store : Machine Tables Write (Except DomainError Unit) where
  step tables write :=
    match write.call tables with
    | .ok tables' => (tables', .ok ())
    | .error failure => (tables, .error failure)

/-- The write is made, or its schema is gone. -/
def IsAnswered (tables : Tables) (write : Write) : Prop :=
  (store.step tables write).2 = .ok () ∨
    (write.IsGone tables ∧ (store.step tables write).2 = .error .schemaNotFound)

/-- The runs from a store of transactions whose names the column keeps, each with what it commits in
the order of the commits. -/
inductive Commits (start : World) : List Write → World → Prop
  | start : Commits start [] start
  | pending {writes : List Write} {world : World} (before : Commits start writes world)
      (connection : Nat) {session : Option Session} {tables : Tables}
      (run : Statement world.tables (world.free connection)
        (world.sessions connection) session tables)
      (keeps : World.KeepsNames
        { tables, sessions := Function.update world.sessions connection session })
      (uncommitted : ∀ after, session = some after → after.phase ≠ .committed) :
      Commits start writes { tables, sessions := Function.update world.sessions connection session }
  | commit {writes : List Write} {world : World} (before : Commits start writes world)
      (connection : Nat) {session : Session} {write : Write} {tables : Tables}
      (here : world.sessions connection = some session) (ready : session.write = some write)
      (run : Statement world.tables (world.free connection) (some session)
        (some ⟨session.request, .committed⟩) tables)
      (keeps : World.KeepsNames
        { tables
          sessions := Function.update world.sessions connection
            (some ⟨session.request, .committed⟩) }) :
      Commits start (writes ++ [write])
        { tables
          sessions := Function.update world.sessions connection
            (some ⟨session.request, .committed⟩) }

/-- A statement that commits ends a session that was ready to; the others leave the rows alone. -/
theorem Statement.commits {tables tables' : Tables} {free : Int32 → Prop}
    {session session' : Option Session} (run : Statement tables free session session' tables') :
    (tables' = tables ∧ ∀ after, session' = some after → after.phase ≠ .committed) ∨
      ∃ before write, session = some before ∧ before.write = some write ∧
        session' = some ⟨before.request, .committed⟩ := by
  cases run with
  | commitCreate _ => exact .inr ⟨_, _, rfl, rfl, rfl⟩
  | commitReplace => exact .inr ⟨_, _, rfl, rfl, rfl⟩
  | commitDelete => exact .inr ⟨_, _, rfl, rfl, rfl⟩
  | begin _ | lock _ _ _ | reserve _ _ | insertSchema _ _ _ _ | insertLink _
  | update _ _ _ | delete _ =>
      refine .inl ⟨rfl, ?_⟩
      rintro after ⟨⟩ ⟨⟩
  | release | rollback _ =>
      refine .inl ⟨rfl, ?_⟩
      rintro after ⟨⟩

theorem Commits.run {start world : World} {writes : List Write}
    (commits : Commits start writes world) :
    Relation.ReflTransGen WholeStep start world := by
  induction commits with
  | start => exact .refl
  | pending _ connection run keeps _ ih => exact ih.tail ⟨.statement connection run, keeps⟩
  | commit _ connection here _ run keeps ih =>
      exact ih.tail ⟨.statement connection (here ▸ run), keeps⟩

theorem exists_commits {start world : World} (run : Relation.ReflTransGen WholeStep start world) :
    ∃ writes, Commits start writes world := by
  induction run with
  | refl => exact ⟨[], .start⟩
  | tail _ step ih =>
      rcases ih with ⟨writes, before⟩
      rcases step with ⟨⟨connection, run⟩, keeps⟩
      rcases run.commits with ⟨-, uncommitted⟩ | ⟨session, write, here, ready, rfl⟩
      · exact ⟨writes, before.pending connection run keeps uncommitted⟩
      · exact ⟨writes ++ [write], before.commit connection here ready (here ▸ run) keeps⟩

end Serial

namespace Tables

theorem eq_of_rows {left right : Tables} (schemas : left.schemas = right.schemas)
    (links : left.links = right.links) :
    left = right := by
  cases left
  cases right
  cases schemas
  cases links
  rfl

theorem select_isSome {tables : Tables} {owner id : Uuid} (owned : tables.owns owner id = true) :
    ∃ row, tables.select owner id = some row := by
  rcases owns_iff.mp owned with ⟨link, mem, rfl, -⟩
  rcases List.mem_map.mp (tables.references link mem) with ⟨row, rowMem, same⟩
  apply Option.isSome_iff_exists.mp
  rw [select, List.find?_isSome]
  exact ⟨row, mem_owned.mpr ⟨rowMem, same ▸ owned⟩, by simpa using same⟩

theorem select_eq_none {tables : Tables} {owner id : Uuid} (gone : tables.owns owner id = false) :
    tables.select owner id = none := by
  rw [select, List.find?_eq_none]
  intro row mem same
  rw [beq_iff_eq] at same
  rw [← same, (mem_owned.mp mem).2] at gone
  cases gone

theorem updateSchema_of_gone {tables : Tables} {owner id : Uuid}
    (gone : tables.owns owner id = false) (draft : SchemaDraft) (now : Time) :
    tables.updateSchema owner id draft now = tables := by
  refine eq_of_rows ?_ rfl
  refine Eq.trans (List.map_congr_left ?_) (List.map_id _)
  intro row _
  refine if_neg ?_
  rintro ⟨rfl, owned⟩
  rw [gone] at owned
  cases owned

theorem deleteSchema_of_gone {tables : Tables} {owner id : Uuid}
    (gone : tables.owns owner id = false) :
    tables.deleteSchema owner id = tables := by
  have keeps (other : Uuid) : (!(other == id && tables.owns owner other)) = true := by
    by_cases same : other = id
    · rw [same, gone, Bool.and_false, Bool.not_false]
    · simp [same]
  exact eq_of_rows (List.filter_eq_self.mpr fun row _ => keeps row.id)
    (List.filter_eq_self.mpr fun link _ => keeps link.schemaId)

end Tables

section Calls

variable [Postgres]

/-- The draft as its row keeps it. -/
def kept (draft : SchemaDraft) : SchemaDraft :=
  { draft with name := Varchar.stored nameWidth draft.name }

theorem mapSchema_newRow (draft : SchemaDraft) (id : Uuid) (now : Time) :
    mapSchema (newRow draft id now) = .ok ⟨.new (Postgres.uuidText id) (kept draft), now, now⟩ := by
  have drawn : draftOfRow (newRow draft id now).name (newRow draft id now).description
      (newRow draft id now).entities (newRow draft id now).relationships = .ok (kept draft) :=
    draftOfRow_drawing (kept draft)
  rw [mapSchema, drawn]
  rfl

theorem mapSchema_replaceRow (draft : SchemaDraft) (now : Time) (row : SchemaRow) :
    mapSchema (Tables.replaceRow draft now row) =
      .ok ⟨.new (Postgres.uuidText row.id) (kept draft), row.createdAt, now⟩ := by
  have drawn : draftOfRow (Tables.replaceRow draft now row).name
      (Tables.replaceRow draft now row).description
      (Tables.replaceRow draft now row).entities (Tables.replaceRow draft now row).relationships =
        .ok (kept draft) :=
    draftOfRow_drawing (kept draft)
  rw [mapSchema, drawn]
  rfl

theorem reserveName_of_free {tables : Tables} {owner : Uuid} {name : Str} {except : Option Uuid}
    (storable : Postgres.refusesText name = none)
    (free : tables.nameTaken owner name except = false) :
    tables.reserveName owner name except = .ok () := by
  rw [Tables.reserveName, storable, free]
  rfl

theorem step_store_of_ok {tables tables' : Tables} {write : Write}
    (made : write.call tables = .ok tables') :
    store.step tables write = (tables', .ok ()) := by
  simp only [store, made]

theorem step_store_of_error {tables : Tables} {write : Write} {failure : DomainError}
    (refused : write.call tables = .error failure) :
    store.step tables write = (tables, .error failure) := by
  simp only [store, refused]

variable [UuidText]

/-- A session that commits leaves the rows that its call leaves. -/
theorem Statement.step_store {tables tables' : Tables} {free : Int32 → Prop} {session : Session}
    {write : Write}
    (run : Statement tables free (some session) (some ⟨session.request, .committed⟩) tables')
    (ready : session.write = some write) (taken : session.IsTaken)
    (untaken : ∀ reservation, session.reserved = some reservation →
      reservation.taken tables = false) :
    (store.step tables write).1 = tables' ∧ IsAnswered tables write := by
  cases run with
  | @commitCreate owner draft id now _ accepted =>
      cases ready
      have made : (Write.create owner draft id now).call tables = .ok tables' := by
        have reserved := reserveName_of_free (taken.name (by rintro ⟨⟩) draft rfl) (untaken _ rfl)
        rw [Write.call, Tables.create, reserved, taken.row rfl draft rfl, mapSchema_newRow]
        simp only [accepted]
        rfl
      rw [IsAnswered, step_store_of_ok made]
      exact ⟨rfl, .inl rfl⟩
  | @commitReplace owner id draft now =>
      cases ready
      have reserved := reserveName_of_free (taken.name (by rintro ⟨⟩) draft rfl) (untaken _ rfl)
      cases owned : tables.owns owner id with
      | true =>
          rcases Tables.select_isSome owned with ⟨row, found⟩
          have made : (Write.replace owner id draft now).call tables =
              .ok (tables.updateSchema owner id draft now) := by
            rw [Write.call, Tables.replace, UuidText.parse_text]
            simp only [reserved, taken.row rfl draft rfl, found, mapSchema_replaceRow]
            rfl
          rw [IsAnswered, step_store_of_ok made]
          exact ⟨rfl, .inl rfl⟩
      | false =>
          have refused : (Write.replace owner id draft now).call tables =
              .error .schemaNotFound := by
            rw [Write.call, Tables.replace, UuidText.parse_text]
            simp only [reserved, taken.row rfl draft rfl, Tables.select_eq_none owned]
            rfl
          rw [IsAnswered, step_store_of_error refused]
          exact ⟨(Tables.updateSchema_of_gone owned draft now).symm, .inr ⟨owned, rfl⟩⟩
  | @commitDelete owner id =>
      cases ready
      cases owned : tables.owns owner id with
      | true =>
          have made : (Write.delete owner id).call tables = .ok (tables.deleteSchema owner id) := by
            rw [Write.call, Tables.delete, UuidText.parse_text]
            simp only [owned]
            rfl
          rw [IsAnswered, step_store_of_ok made]
          exact ⟨rfl, .inl rfl⟩
      | false =>
          have refused : (Write.delete owner id).call tables = .error .schemaNotFound := by
            rw [Write.call, Tables.delete, UuidText.parse_text]
            simp only [owned]
            rfl
          rw [IsAnswered, step_store_of_error refused]
          exact ⟨(Tables.deleteSchema_of_gone owned).symm, .inr ⟨owned, rfl⟩⟩

/-- What a run commits, called one at a time, leaves the rows of the run. -/
theorem Commits.store_final {start world : World} {writes : List Write} (orderly : Orderly start)
    (commits : Commits start writes world) :
    world.tables = store.final start.tables writes ∧
      store.Along IsAnswered start.tables writes := by
  induction commits with
  | start => exact ⟨rfl, trivial⟩
  | @pending writes world before connection session tables run keeps uncommitted ih =>
      have same : tables = world.tables := by
        rcases run.commits with ⟨same, -⟩ | ⟨_, _, -, -, rfl⟩
        · exact same
        · exact absurd rfl (uncommitted _ rfl)
      rw [same]
      exact ih
  | @commit writes world before connection session write tables here ready run keeps ih =>
      rcases ih with ⟨same, along⟩
      have there := orderly_run orderly before.run
      have made := run.step_store ready (there.taken connection session here)
        fun reservation => there.untaken connection session reservation here
      rw [same] at made
      rw [Machine.final_append]
      exact ⟨made.1.symm, Machine.along_append.mpr ⟨along, made.2, trivial⟩⟩

/-- Every interleaving of any number of transactions whose names the column keeps has the outcome of
its committed calls, made one at a time in the order of their commits; a call then fails only if its
schema was deleted in front of it. -/
theorem exists_serial {tables : Tables} {world : World}
    (run : Relation.ReflTransGen WholeStep (World.idle tables) world) :
    ∃ writes, Commits (World.idle tables) writes world ∧
      world.tables = store.final tables writes ∧ store.Along IsAnswered tables writes := by
  rcases exists_commits run with ⟨writes, commits⟩
  exact ⟨writes, commits, commits.store_final (orderly_idle tables)⟩

end Calls

/-- A schema is created on the only connection. -/
theorem exists_serial_orders : letI := asciiDatabase
    ∃ writes, Commits (World.idle Tables.empty) writes (World.alone oneSchema none) ∧
      oneSchema = store.final Tables.empty writes ∧ store.Along IsAnswered Tables.empty writes := by
  let _ := asciiDatabase
  have _ := asciiUuidText
  exact exists_serial created_orders

end SchemaForge.Repository
