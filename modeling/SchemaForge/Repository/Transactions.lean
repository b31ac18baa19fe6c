import Mathlib.Logic.Relation
import SchemaForge.Repository.Tables

/-!
# Transactions of the schema store

Any number of `create`, `replace` and `delete` transactions, one SQL statement
at a time. The database runs them under `READ COMMITTED`: a statement sees the
rows that are committed when it starts, and the writes of its own transaction.
An advisory lock has one holder and lasts until the end of the transaction,
where the rows become visible first and the lock goes afterwards.

Row locks are left out. They only take interleavings away.
-/

namespace SchemaForge.Repository

/-- A name that one of the owner's schemas is about to have. -/
structure Reservation where
  owner : Uuid
  name : Str
  except : Option Uuid

/-- A call of the repository that writes. -/
inductive Request where
  | create (owner : Uuid) (draft : SchemaDraft)
  | replace (owner id : Uuid) (draft : SchemaDraft)
  | delete (owner id : Uuid)

/-- The statements of a transaction that are behind it. -/
inductive Phase where
  | begun
  | locked
  | reserved
  | inserted (id : Uuid) (now : Time)
  | linked (id : Uuid) (now : Time)
  | updated (now : Time)
  | deleted
  /-- The rows are visible, the locks are still held. -/
  | committed

structure Session where
  request : Request
  phase : Phase

/-- What `INSERT INTO schemas` stores, with the defaults of the table. -/
def newRow (draft : SchemaDraft) (id : Uuid) (now : Time) : SchemaRow where
  id := id
  name := Varchar.stored nameWidth draft.name
  description := draft.description
  entities := (drawing draft).1
  relationships := (drawing draft).2
  createdAt := now
  updatedAt := now

section Steps

variable [Postgres]

def lockKey (owner : Uuid) (name : Str) : Int32 :=
  Postgres.hashtext (Postgres.uuidText owner ++ ":".toList ++ Postgres.lower name)

/-- What `reserve_name` is called with. -/
def Request.reservation : Request → Option Reservation
  | create owner draft => some { owner, name := draft.name, except := none }
  | replace owner id draft => some { owner, name := draft.name, except := some id }
  | delete _ _ => none

/-- What the call writes. -/
def Request.draft : Request → Option SchemaDraft
  | create _ draft => some draft
  | replace _ _ draft => some draft
  | delete _ _ => none

def Reservation.key (reservation : Reservation) : Int32 :=
  lockKey reservation.owner reservation.name

def Reservation.taken (reservation : Reservation) (tables : Tables) : Bool :=
  tables.nameTaken reservation.owner reservation.name reservation.except

/-- The advisory lock of a transaction. -/
def Session.holds : Session → Option Int32
  | { phase := .begun, .. } => none
  | { request, .. } => request.reservation.map Reservation.key

/-- The name that a transaction has found free and not yet committed. -/
def Session.reserved : Session → Option Reservation
  | { phase := .begun, .. } => none
  | { phase := .locked, .. } => none
  | { phase := .committed, .. } => none
  | { request, .. } => request.reservation

/-- The committed rows and the open transactions, each on a connection of its own. -/
structure World where
  tables : Tables
  sessions : Nat → Option Session

/-- One statement on one connection, from the committed rows. A key is `free` if
no other connection holds it. -/
inductive Statement (tables : Tables) (free : Int32 → Prop) :
    Option Session → Option Session → Tables → Prop
  | begin (request : Request) : Statement tables free none (some ⟨request, .begun⟩) tables
  | lock {request : Request} {reservation : Reservation}
      (asked : request.reservation = some reservation)
      (accepted : Postgres.refusesText reservation.name = none) (unheld : free reservation.key) :
      Statement tables free (some ⟨request, .begun⟩) (some ⟨request, .locked⟩) tables
  | reserve {request : Request} {reservation : Reservation}
      (asked : request.reservation = some reservation)
      (untaken : reservation.taken tables = false) :
      Statement tables free (some ⟨request, .locked⟩) (some ⟨request, .reserved⟩) tables
  | insertSchema {owner : Uuid} {draft : SchemaDraft} (id : Uuid) (now : Time)
      (storable : refusesRow draft = none)
      (accepted : (tables.insertSchema (newRow draft id now)).isSome) :
      Statement tables free (some ⟨.create owner draft, .reserved⟩)
        (some ⟨.create owner draft, .inserted id now⟩) tables
  | insertLink {owner : Uuid} {draft : SchemaDraft} {id : Uuid} {now : Time}
      (accepted : (tables.insertBoth (newRow draft id now) ⟨owner, id, now⟩).isSome) :
      Statement tables free (some ⟨.create owner draft, .inserted id now⟩)
        (some ⟨.create owner draft, .linked id now⟩) tables
  | commitCreate {owner : Uuid} {draft : SchemaDraft} {id : Uuid} {now : Time} {tables' : Tables}
      (accepted : tables.insertBoth (newRow draft id now) ⟨owner, id, now⟩ = some tables') :
      Statement tables free (some ⟨.create owner draft, .linked id now⟩)
        (some ⟨.create owner draft, .committed⟩) tables'
  | update {owner id : Uuid} {draft : SchemaDraft} (now : Time) (storable : refusesRow draft = none)
      (found : tables.owns owner id = true) :
      Statement tables free (some ⟨.replace owner id draft, .reserved⟩)
        (some ⟨.replace owner id draft, .updated now⟩) tables
  | commitReplace {owner id : Uuid} {draft : SchemaDraft} {now : Time} :
      Statement tables free (some ⟨.replace owner id draft, .updated now⟩)
        (some ⟨.replace owner id draft, .committed⟩) (tables.updateSchema owner id draft now)
  | delete {owner id : Uuid} (found : tables.owns owner id = true) :
      Statement tables free (some ⟨.delete owner id, .begun⟩)
        (some ⟨.delete owner id, .deleted⟩) tables
  | commitDelete {owner id : Uuid} :
      Statement tables free (some ⟨.delete owner id, .deleted⟩)
        (some ⟨.delete owner id, .committed⟩) (tables.deleteSchema owner id)
  | release {request : Request} : Statement tables free (some ⟨request, .committed⟩) none tables
  /-- A refused statement, a lost connection or a dropped call. -/
  | rollback {session : Session} (pending : session.phase ≠ .committed) :
      Statement tables free (some session) none tables

/-- No connection but `connection` holds the key. -/
def World.free (world : World) (connection : Nat) (key : Int32) : Prop :=
  ∀ other session, other ≠ connection → world.sessions other = some session →
    session.holds ≠ some key

inductive Step (world : World) : World → Prop
  | statement (connection : Nat) {session : Option Session} {tables : Tables}
      (run : Statement world.tables (world.free connection)
        (world.sessions connection) session tables) :
      Step world { tables, sessions := Function.update world.sessions connection session }

/-- The column keeps the name of the call. -/
def Request.KeepsName (request : Request) : Prop :=
  ∀ draft ∈ request.draft, Varchar.cuts nameWidth draft.name = false

/-- No open transaction has a name that the column cuts. -/
def World.KeepsNames (world : World) : Prop :=
  ∀ connection session, world.sessions connection = some session → session.request.KeepsName

/-- A statement in a run of transactions whose names the column keeps. -/
def WholeStep (world world' : World) : Prop := Step world world' ∧ world'.KeepsNames

/-- Each user has at most one schema of each name, whatever the case of its letters. -/
def OneOfEachName (tables : Tables) : Prop :=
  ∀ user, ∀ row ∈ tables.owned user, ∀ row' ∈ tables.owned user,
    Postgres.lower row.name = Postgres.lower row'.name → row = row'

namespace Statement

variable {tables tables' : Tables} {free : Int32 → Prop} {session session' : Option Session}

/-- A lock is held before the statement, or it was free. -/
theorem holds (run : Statement tables free session session' tables') {after : Session} {key : Int32}
    (later : session' = some after) (held : after.holds = some key) :
    (∃ before, session = some before ∧ before.holds = some key) ∨ free key := by
  cases run with
  | begin request =>
      cases later
      cases held
  | lock asked _ unheld =>
      cases later
      change Option.map _ (Request.reservation _) = some key at held
      rw [asked, Option.map_some, Option.some.injEq] at held
      exact .inr (held ▸ unheld)
  | release => cases later
  | rollback pending => cases later
  | delete found =>
      cases later
      cases held
  | reserve _ _ | insertSchema _ _ _ _ | insertLink _ | commitCreate _ | update _ _ _
  | commitReplace
  | commitDelete =>
      cases later
      exact .inl ⟨_, rfl, held⟩

/-- A reserved name was reserved before the statement, or it is free in the rows. -/
theorem reserved (run : Statement tables free session session' tables') {after : Session}
    {reservation : Reservation} (later : session' = some after)
    (kept : after.reserved = some reservation) :
    tables' = tables ∧ ((∃ before, session = some before ∧ before.reserved = some reservation) ∨
      reservation.taken tables = false) := by
  cases run with
  | reserve asked untaken =>
      cases later
      cases Option.some.inj (asked.symm.trans kept)
      exact ⟨rfl, .inr untaken⟩
  | release => cases later
  | rollback pending => cases later
  | begin _ | lock _ _ _ | commitCreate _ | commitReplace | delete _ | commitDelete =>
      cases later
      cases kept
  | insertSchema _ _ _ _ | insertLink _ | update _ _ _ =>
      cases later
      exact ⟨rfl, .inl ⟨_, rfl, kept⟩⟩

end Statement

def Phase.isWritten : Phase → Bool
  | inserted _ _ | linked _ _ | updated _ => true
  | _ => false

/-- The statements behind a session took what they were given. -/
structure Session.IsTaken (session : Session) : Prop where
  name : session.phase ≠ .begun → ∀ draft ∈ session.request.draft,
    Postgres.refusesText draft.name = none
  row : session.phase.isWritten = true → ∀ draft ∈ session.request.draft, refusesRow draft = none

omit [Postgres] in
theorem Request.exists_draft {request : Request} {reservation : Reservation}
    (asked : request.reservation = some reservation) :
    ∃ draft, request.draft = some draft ∧ reservation.name = draft.name := by
  cases request with
  | create owner draft =>
      cases asked
      exact ⟨draft, rfl, rfl⟩
  | replace owner id draft =>
      cases asked
      exact ⟨draft, rfl, rfl⟩
  | delete owner id => cases asked

theorem Statement.isTaken {tables tables' : Tables} {free : Int32 → Prop}
    {session session' : Option Session} (run : Statement tables free session session' tables')
    (before : ∀ earlier, session = some earlier → earlier.IsTaken) {after : Session}
    (later : session' = some after) : after.IsTaken := by
  cases run with
  | begin request =>
      cases later
      exact ⟨fun begun => absurd rfl begun, fun written => by cases written⟩
  | lock asked accepted unheld =>
      cases later
      rcases Request.exists_draft asked with ⟨draft, found, named⟩
      refine ⟨fun _ other mem => ?_, fun written => by cases written⟩
      rw [found] at mem
      cases mem
      exact named ▸ accepted
  | reserve asked untaken =>
      cases later
      exact ⟨fun _ => (before _ rfl).name (by rintro ⟨⟩), fun written => by cases written⟩
  | insertSchema id now storable accepted =>
      cases later
      refine ⟨fun _ => (before _ rfl).name (by rintro ⟨⟩), fun _ other mem => ?_⟩
      cases mem
      exact storable
  | insertLink accepted =>
      cases later
      exact ⟨fun _ => (before _ rfl).name (by rintro ⟨⟩), fun _ => (before _ rfl).row rfl⟩
  | update now storable found =>
      cases later
      refine ⟨fun _ => (before _ rfl).name (by rintro ⟨⟩), fun _ other mem => ?_⟩
      cases mem
      exact storable
  | commitCreate _ | commitReplace =>
      cases later
      exact ⟨fun _ => (before _ rfl).name (by rintro ⟨⟩), fun written => by cases written⟩
  | delete _ | commitDelete =>
      cases later
      refine ⟨fun _ draft mem => ?_, fun written => by cases written⟩
      cases mem
  | release | rollback _ => cases later

theorem Session.holds_of_reserved {session : Session} {reservation : Reservation}
    (reserved : session.reserved = some reservation) : session.holds = some reservation.key := by
  rcases session with ⟨request, phase⟩
  cases phase with
  | begun | locked | committed => cases reserved
  | reserved | inserted _ _ | linked _ _ | updated _ | deleted =>
      change request.reservation = some reservation at reserved
      change request.reservation.map Reservation.key = _
      rw [reserved, Option.map_some]

/-- The two names are one name of one user. -/
def Reservation.clash (first second : Reservation) : Prop :=
  first.owner = second.owner ∧ Postgres.lower first.name = Postgres.lower second.name

theorem Reservation.key_of_clash {first second : Reservation} (same : first.clash second) :
    first.key = second.key := by
  rw [Reservation.key, Reservation.key, lockKey, lockKey, same.1, same.2]

theorem Reservation.taken_eq_false {reservation : Reservation} {tables : Tables} :
    reservation.taken tables = false ↔ ∀ row ∈ tables.owned reservation.owner,
      Postgres.lower row.name = Postgres.lower reservation.name →
        some row.id = reservation.except := by
  simp [Reservation.taken, Tables.nameTaken]

/-- What a commit of the session leaves of the rows of each user. -/
structure Commit (session : Session) (tables tables' : Tables) : Prop where
  /-- A row either is as it was, or has the name that the session reserved. -/
  rows : ∀ user, ∀ row ∈ tables'.owned user, row ∈ tables.owned user ∨
    ∃ reservation, session.reserved = some reservation ∧ reservation.owner = user ∧
      row.name = reservation.name
  /--
  Of the rows that have the name of the session, none was there before, but the one it renames.
  -/
  once : ∀ reservation, session.reserved = some reservation → reservation.taken tables = false →
    ∀ row ∈ tables'.owned reservation.owner, ∀ row' ∈ tables'.owned reservation.owner,
      Postgres.lower row.name = Postgres.lower reservation.name →
      Postgres.lower row'.name = Postgres.lower reservation.name → row = row'

theorem commit_create {tables tables' : Tables} {owner : Uuid} {draft : SchemaDraft} {id : Uuid}
    {now : Time}
    (accepted : tables.insertBoth (newRow draft id now) ⟨owner, id, now⟩ = some tables')
    (kept : Varchar.stored nameWidth draft.name = draft.name) :
    Commit ⟨.create owner draft, .linked id now⟩ tables tables' := by
  have owned (user : Uuid) := Tables.owned_insertBoth accepted rfl user
  constructor
  · intro user row mem
    rw [owned] at mem
    rcases List.mem_append.mp mem with before | last
    · exact .inl before
    · split at last
      · rename_i mine
        rw [List.mem_singleton.mp last]
        exact .inr ⟨_, rfl, mine, kept⟩
      · cases last
  · intro reservation reserved untaken
    cases reserved
    rw [Reservation.taken_eq_false] at untaken
    have new {row : SchemaRow} (mem : row ∈ tables'.owned owner)
        (named : Postgres.lower row.name = Postgres.lower draft.name) :
        row = newRow draft id now := by
      rw [owned, if_pos rfl] at mem
      rcases List.mem_append.mp mem with before | last
      · cases untaken row before named
      · exact List.mem_singleton.mp last
    intro row mem row' mem' named named'
    exact (new mem named).trans (new mem' named').symm

theorem commit_replace (tables : Tables) (owner id : Uuid) {draft : SchemaDraft} (now : Time)
    (kept : Varchar.stored nameWidth draft.name = draft.name) :
    Commit ⟨.replace owner id draft, .updated now⟩ tables
      (tables.updateSchema owner id draft now) := by
  have owned (user : Uuid) := tables.owned_updateSchema owner id draft now user
  constructor
  · intro user row mem
    rw [owned] at mem
    split at mem
    · rename_i mine
      rcases List.mem_map.mp mem with ⟨before, memBefore, rfl⟩
      split
      · exact .inr ⟨_, rfl, mine.symm, kept⟩
      · exact .inl memBefore
    · exact .inl mem
  · intro reservation reserved untaken
    cases reserved
    rw [Reservation.taken_eq_false] at untaken
    -- a row of the name is the renamed one
    have renamed {row : SchemaRow}
        (mem : row ∈ (tables.updateSchema owner id draft now).owned owner)
        (named : Postgres.lower row.name = Postgres.lower draft.name) : row.id = id := by
      rw [owned, if_pos rfl] at mem
      rcases List.mem_map.mp mem with ⟨before, memBefore, rfl⟩
      by_cases this : before.id = id
      · rw [if_pos this]
        exact this
      · rw [if_neg this] at named ⊢
        exact Option.some.inj (untaken before memBefore named)
    intro row mem row' mem' named named'
    exact Tables.row_unique (Tables.mem_owned.mp mem).1 (Tables.mem_owned.mp mem').1
      ((renamed mem named).trans (renamed mem' named').symm)

theorem commit_delete (tables : Tables) (owner id : Uuid) :
    Commit ⟨.delete owner id, .deleted⟩ tables (tables.deleteSchema owner id) := by
  constructor
  · intro user row mem
    rw [tables.owned_deleteSchema] at mem
    split at mem
    · exact .inl (List.mem_of_mem_filter mem)
    · exact .inl mem
  · intro reservation reserved
    cases reserved

/-- A statement changes the committed rows only as a commit of its session. -/
theorem Statement.commit {tables tables' : Tables} {free : Int32 → Prop}
    {session session' : Option Session} (run : Statement tables free session session' tables')
    (whole : ∀ before, session = some before → before.request.KeepsName) :
    tables' = tables ∨ ∃ before, session = some before ∧ Commit before tables tables' := by
  cases run with
  | commitCreate accepted =>
      have kept := Varchar.stored_of_not_cuts (whole _ rfl _ rfl)
      exact .inr ⟨_, rfl, commit_create accepted kept⟩
  | commitReplace =>
      have kept := Varchar.stored_of_not_cuts (whole _ rfl _ rfl)
      exact .inr ⟨_, rfl, commit_replace _ _ _ _ kept⟩
  | commitDelete => exact .inr ⟨_, rfl, commit_delete _ _ _⟩
  | begin _ | lock _ _ _ | reserve _ _ | insertSchema _ _ _ _ | insertLink _ | update _ _ _
  | delete _ | release
  | rollback _ => exact .inl rfl

/-- A name that is free stays free, unless the session commits that very name. -/
theorem Commit.untaken {session : Session} {tables tables' : Tables}
    (commit : Commit session tables tables') {reservation : Reservation}
    (apart : ∀ own, session.reserved = some own → ¬ own.clash reservation)
    (untaken : reservation.taken tables = false) : reservation.taken tables' = false := by
  rw [Reservation.taken_eq_false] at untaken ⊢
  intro row mem named
  rcases commit.rows _ row mem with before | ⟨own, reserved, owner, name⟩
  · exact untaken row before named
  · exact absurd ⟨owner, name ▸ named⟩ (apart own reserved)

theorem Commit.oneOfEachName {session : Session} {tables tables' : Tables}
    (commit : Commit session tables tables') (distinct : OneOfEachName tables)
    (untaken : ∀ own, session.reserved = some own → own.taken tables = false) :
    OneOfEachName tables' := by
  intro user row mem row' mem' named
  rcases commit.rows user row mem with before | ⟨own, reserved, rfl, name⟩
  · rcases commit.rows user row' mem' with before' | ⟨own, reserved, rfl, name⟩
    · exact distinct user row before row' before' named
    · exact commit.once own reserved (untaken own reserved) row mem row' mem'
        (name ▸ named) (name ▸ rfl)
  · exact commit.once own reserved (untaken own reserved) row mem row' mem' (name ▸ rfl)
      (name ▸ named.symm)

/-- What holds between the statements of all transactions. -/
structure Orderly (world : World) : Prop where
  exclusive : ∀ first second session session' key, world.sessions first = some session →
    world.sessions second = some session' → session.holds = some key → session'.holds = some key →
    first = second
  untaken : ∀ connection session reservation, world.sessions connection = some session →
    session.reserved = some reservation → reservation.taken world.tables = false
  taken : ∀ connection session, world.sessions connection = some session → session.IsTaken
  whole : world.KeepsNames

/-- A step leaves the rows alone, or it commits a session whose name is free. -/
theorem Orderly.commit {world world' : World} (orderly : Orderly world) (step : Step world world') :
    world'.tables = world.tables ∨ ∃ session, Commit session world.tables world'.tables ∧
      ∀ own, session.reserved = some own → own.taken world.tables = false := by
  rcases step with ⟨connection, run⟩
  rcases run.commit (orderly.whole connection) with unchanged | ⟨session, here, commit⟩
  · exact .inl unchanged
  · exact .inr ⟨session, commit, fun own => orderly.untaken connection session own here⟩

theorem orderly_step {world world' : World} (step : WholeStep world world')
    (orderly : Orderly world) :
    Orderly world' := by
  rcases step with ⟨⟨connection, run⟩, keeps⟩
  rename_i session' tables'
  -- a connection either ran the statement or is as it was
  have sessions {other : Nat} {session : Session}
      (here : Function.update world.sessions connection session' other = some session) :
      (other = connection ∧ session' = some session) ∨
        (other ≠ connection ∧ world.sessions other = some session) := by
    by_cases same : other = connection
    · subst same
      rw [Function.update_self] at here
      exact .inl ⟨rfl, here⟩
    · rw [Function.update_of_ne same] at here
      exact .inr ⟨same, here⟩
  -- a key held after the statement is held by no other connection
  have alone {other : Nat} {after session : Session} {key : Int32} (later : session' = some after)
      (held : after.holds = some key) (ne : other ≠ connection)
      (here : world.sessions other = some session) : session.holds ≠ some key := by
    rcases run.holds later held with ⟨before, earlier, held'⟩ | free
    · intro clash
      exact ne (orderly.exclusive _ _ _ _ _ here earlier clash held')
    · exact free other session ne here
  constructor
  · intro first second session session'' key here here' held held'
    rcases sessions here with ⟨rfl, later⟩ | ⟨ne, same⟩
    · rcases sessions here' with ⟨rfl, later'⟩ | ⟨ne', same'⟩
      · rfl
      · exact absurd held' (alone later held ne' same')
    · rcases sessions here' with ⟨rfl, later'⟩ | ⟨ne', same'⟩
      · exact absurd held (alone later' held' ne same)
      · exact orderly.exclusive _ _ _ _ _ same same' held held'
  · intro other session reservation here reserved
    rcases sessions here with ⟨rfl, later⟩ | ⟨ne, same⟩
    · rcases run.reserved later reserved with ⟨unchanged, ⟨before, earlier, kept⟩ | free⟩
      · change reservation.taken tables' = false
        rw [unchanged]
        exact orderly.untaken _ _ _ earlier kept
      · change reservation.taken tables' = false
        rw [unchanged]
        exact free
    · have untaken := orderly.untaken _ _ _ same reserved
      rcases run.commit (orderly.whole connection) with
        unchanged | ⟨before, earlier, commit⟩
      · change reservation.taken tables' = false
        rw [unchanged]
        exact untaken
      · refine commit.untaken ?_ untaken
        intro own ownReserved clash
        have held := Session.holds_of_reserved ownReserved
        rw [Reservation.key_of_clash clash] at held
        exact ne (orderly.exclusive _ _ _ _ _ same earlier
          (Session.holds_of_reserved reserved) held)
  · intro other session here
    rcases sessions here with ⟨rfl, later⟩ | ⟨ne, same⟩
    · exact run.isTaken (orderly.taken other) later
    · exact orderly.taken other session same
  · exact keeps

/-- A store on which no transaction is open. -/
def World.idle (tables : Tables) : World where
  tables := tables
  sessions := fun _ => none

theorem orderly_idle (tables : Tables) : Orderly (World.idle tables) := by
  constructor
  · intro _ _ _ _ _ here
    cases here
  · intro _ _ _ here
    cases here
  · intro _ _ here
    cases here
  · intro _ _ here
    cases here

theorem orderly_run {start world : World} (orderly : Orderly start)
    (run : Relation.ReflTransGen WholeStep start world) : Orderly world := by
  induction run with
  | refl => exact orderly
  | tail _ step ih => exact orderly_step step ih

/-- From any store that has each name once, every interleaving of any number of transactions whose
names the column keeps leaves each user at one schema of each name. -/
theorem oneOfEachName_run {tables : Tables} {world : World} (distinct : OneOfEachName tables)
    (run : Relation.ReflTransGen WholeStep (World.idle tables) world) :
    OneOfEachName world.tables := by
  induction run with
  | refl => exact distinct
  | tail before step ih =>
      rcases (orderly_run (orderly_idle tables) before).commit step.1 with
        unchanged | ⟨session, commit, untaken⟩
      · rw [unchanged]
        exact ih
      · exact commit.oneOfEachName ih untaken

end Steps

/-- A store whose only connection is the first one. -/
def World.alone (tables : Tables) (session : Option Session) : World where
  tables := tables
  sessions := Function.update (fun _ => none) 0 session

section Alone

variable [Postgres]

theorem step_alone {tables tables' : Tables} {session session' : Option Session}
    (run : Statement tables (fun _ => True) session session' tables') :
    Step (World.alone tables session) (World.alone tables' session') := by
  have free : (World.alone tables session).free 0 = fun _ => True := by
    funext key
    refine eq_true ?_
    intro other held ne here
    change Function.update (fun _ => none) 0 session other = some held at here
    rw [Function.update_of_ne ne] at here
    cases here
  rw [← free] at run
  have step : Step (World.alone tables session) _ := Step.statement 0 run
  rw [World.alone, Function.update_idem] at step
  exact step

omit [Postgres] in
theorem idle_eq_alone (tables : Tables) : World.idle tables = World.alone tables none := by
  rw [World.idle, World.alone, Function.update_eq_self_iff.mpr rfl]

omit [Postgres] in
theorem keepsNames_alone {tables : Tables} {session : Option Session}
    (keeps : ∀ here, session = some here → here.request.KeepsName) :
    (World.alone tables session).KeepsNames := by
  intro connection here found
  change Function.update (fun _ => none) 0 session connection = some here at found
  by_cases same : connection = 0
  · subst same
    rw [Function.update_self] at found
    exact keeps here found
  · rw [Function.update_of_ne same] at found
    cases found

/-- A call whose statements all go through, from one committed store to the next. -/
theorem run_create (allowed : World → Prop) {tables tables' : Tables} {owner id : Uuid}
    {draft : SchemaDraft} {now : Time} (sent : Postgres.refusesText draft.name = none)
    (untaken : tables.nameTaken owner draft.name none = false) (storable : refusesRow draft = none)
    (accepted : tables.insertBoth (newRow draft id now) ⟨owner, id, now⟩ = some tables')
    (within : ∀ tables phase, allowed (World.alone tables (some ⟨.create owner draft, phase⟩)))
    (closed : allowed (World.alone tables' none)) :
    Relation.ReflTransGen (fun world world' => Step world world' ∧ allowed world')
      (World.alone tables none) (World.alone tables' none) := by
  have inserted : (tables.insertSchema (newRow draft id now)).isSome := by
    rcases Option.bind_eq_some_iff.mp accepted with ⟨_, first, -⟩
    rw [first]
    rfl
  refine .head ⟨step_alone (.begin (.create owner draft)), within _ _⟩ ?_
  refine .head ⟨step_alone (.lock rfl sent trivial), within _ _⟩ ?_
  refine .head ⟨step_alone (.reserve rfl untaken), within _ _⟩ ?_
  refine .head ⟨step_alone (.insertSchema id now storable inserted), within _ _⟩ ?_
  refine .head ⟨step_alone (.insertLink (by rw [accepted, Option.isSome_some])), within _ _⟩ ?_
  refine .head ⟨step_alone (.commitCreate accepted), within _ _⟩ ?_
  exact .single ⟨step_alone .release, closed⟩

/-- A name that the column cuts is no obstacle to a second schema of the name that is left of it. -/
theorem exists_second_of_cut {draft whole : SchemaDraft} (owner : Uuid)
    (named : whole.name = Varchar.stored nameWidth draft.name)
    (apart : Postgres.lower whole.name ≠ Postgres.lower draft.name)
    (sent : Postgres.refusesText whole.name = none ∧ Postgres.refusesText draft.name = none)
    (storable : refusesRow whole = none ∧ refusesRow draft = none) :
    ∃ world, Relation.ReflTransGen Step (World.idle Tables.empty) world ∧
      ¬OneOfEachName world.tables := by
  have unstored : (1 : Uuid) ∉ Tables.empty.schemas.map SchemaRow.id := by simp [Tables.empty]
  obtain ⟨tables, first⟩ :
      ∃ tables, Tables.empty.insertBoth (newRow whole 1 0) ⟨owner, 1, 0⟩ = some tables :=
    Tables.insertBoth_of_fresh unstored rfl
  have only : tables.owned owner = [newRow whole 1 0] := by
    rw [Tables.owned_insertBoth first rfl, if_pos rfl]
    rfl
  have fresh : (2 : Uuid) ∉ tables.schemas.map SchemaRow.id := by
    rw [(Tables.insertBoth_eq_some first).2.1]
    simp [Tables.empty, newRow]
  obtain ⟨tables', second⟩ :
      ∃ tables', tables.insertBoth (newRow draft 2 0) ⟨owner, 2, 0⟩ = some tables' :=
    Tables.insertBoth_of_fresh fresh rfl
  have both : tables'.owned owner = [newRow whole 1 0, newRow draft 2 0] := by
    rw [Tables.owned_insertBoth second rfl, if_pos rfl, only]
    rfl
  have width : (newRow whole 1 0).name = (newRow draft 2 0).name := by
    change Varchar.stored nameWidth whole.name = Varchar.stored nameWidth draft.name
    rw [named, Varchar.stored_stored]
  have untaken : tables.nameTaken owner draft.name none = false := by
    have kept : (newRow whole 1 0).name = whole.name := width.trans named.symm
    rw [Tables.nameTaken, only, List.any_cons, List.any_nil, kept, beq_eq_false_iff_ne.mpr apart]
    rfl
  refine ⟨World.alone tables' none, ?_, ?_⟩
  · rw [idle_eq_alone]
    have created :=
      run_create (fun _ => True) sent.1 rfl storable.1 first (fun _ _ => trivial) trivial
    have again :=
      run_create (fun _ => True) sent.2 untaken storable.2 second (fun _ _ => trivial) trivial
    exact (created.trans again).lift id fun _ _ step => step.1
  · intro distinct
    have same := distinct owner (newRow whole 1 0) (by rw [World.alone, both]; simp)
      (newRow draft 2 0) (by rw [World.alone, both]; simp) (congrArg Postgres.lower width)
    exact absurd (congrArg SchemaRow.id same) (by simp [newRow])

end Alone

/-- The 32 digits in their five groups. -/
def hyphenated (uuid : Uuid) : Str :=
  let digits := (List.range 32).map fun place => Nat.digitChar (uuid.toNat / 16 ^ (31 - place) % 16)
  digits.take 8 ++ '-' :: (digits.drop 8).take 4 ++ '-' :: (digits.drop 12).take 4 ++
    '-' :: (digits.drop 16).take 4 ++ '-' :: digits.drop 20

/-- A database of ASCII text, with the hash that PostgreSQL gives to the one key used below. -/
abbrev asciiDatabase : Postgres where
  lower := List.map Char.toLower
  hashtext text :=
    if text = "00000000-0000-4000-8000-000000000001:orders".toList then -1919164289 else 0
  uuidText := hyphenated
  parseUuid text :=
    let value (digit : Char) := ((List.range 16).find? (Nat.digitChar · == digit.toLower)).getD 0
    let uuid :=
  BitVec.ofNat 128 ((text.filter (· != '-')).foldl (fun total digit => 16 * total + value digit) 0)
    if hyphenated uuid = text.map Char.toLower then some uuid else none
  refusesText _ := none
  refusesDrawing _ := none

def named (name : String) : SchemaDraft where
  name := name.toList
  description := []
  entities := []
  relationships := []

def firstUser : Uuid := 0x00000000000040008000000000000001

def firstSchema : Uuid := 0x10000000000040008000000000000001

/-- The store after a `create`. -/
def oneSchema : Tables where
  schemas := [newRow (named "Orders") firstSchema 5]
  links := [⟨firstUser, firstSchema, 5⟩]
  schemaKey := List.nodup_singleton _
  linkKey := List.nodup_singleton _
  references := by simp [newRow]

theorem keepsNames_orders (tables : Tables) (session : Option Session)
    (orders : ∀ here, session = some here → ∃ draft, here.request.draft = some draft ∧
      draft.name.length = 6) :
    (World.alone tables session).KeepsNames := by
  refine keepsNames_alone fun here found draft mem => ?_
  rcases orders here found with ⟨only, same, length⟩
  cases same.symm.trans mem
  exact Varchar.cuts_of_length_le (by rw [length]; decide)

/-- A schema is created on the only connection. -/
theorem created_orders : letI := asciiDatabase
    Relation.ReflTransGen WholeStep (World.idle Tables.empty) (World.alone oneSchema none) := by
  let _ := asciiDatabase
  have inserted : Tables.empty.insertBoth (newRow (named "Orders") firstSchema 5)
      ⟨firstUser, firstSchema, 5⟩ = some oneSchema := rfl
  rw [idle_eq_alone]
  refine run_create World.KeepsNames rfl rfl rfl inserted (fun tables phase => ?_)
    (keepsNames_orders _ _ (by rintro _ ⟨⟩))
  exact keepsNames_orders _ _ (by rintro _ ⟨⟩; exact ⟨_, rfl, rfl⟩)

/-- A schema is created and then renamed to its own name in other letters. -/
theorem oneOfEachName_run_orders :
    @OneOfEachName asciiDatabase
      (oneSchema.updateSchema firstUser firstSchema (named "orders") 8) := by
  let _ := asciiDatabase
  have distinct : OneOfEachName Tables.empty := by
    intro user row mem
    cases mem
  have renamed : Relation.ReflTransGen WholeStep (World.alone oneSchema none)
      (World.alone (oneSchema.updateSchema firstUser firstSchema (named "orders") 8) none) := by
    have keeps (tables : Tables) (phase : Phase) : (World.alone tables
        (some ⟨.replace firstUser firstSchema (named "orders"), phase⟩)).KeepsNames :=
      keepsNames_orders _ _ (by rintro _ ⟨⟩; exact ⟨_, rfl, rfl⟩)
    refine .head ⟨step_alone (.begin (.replace firstUser firstSchema (named "orders"))), keeps _ _⟩
      ?_
    refine .head ⟨step_alone (.lock rfl rfl trivial), keeps _ _⟩ ?_
    refine .head ⟨step_alone (.reserve rfl rfl), keeps _ _⟩ ?_
    refine .head ⟨step_alone (.update 8 rfl rfl), keeps _ _⟩ ?_
    refine .head ⟨step_alone .commitReplace, keeps _ _⟩ ?_
    exact .single ⟨step_alone .release, keepsNames_orders _ _ (by rintro _ ⟨⟩)⟩
  exact oneOfEachName_run distinct (created_orders.trans renamed)

/-- A name of the width of its column, and the same name with a blank behind it. -/
def wideName : String := "".pushn 'n' 120

/-- One owner creates two schemas, the second with a blank that the column drops. -/
theorem not_oneOfEachName_blank :
    ∃ world, Relation.ReflTransGen (@Step asciiDatabase) (World.idle Tables.empty) world ∧
      ¬@OneOfEachName asciiDatabase world.tables := by
  let _ := asciiDatabase
  have width : (named wideName).name = Varchar.stored nameWidth (named (wideName ++ " ")).name := by
    decide +kernel
  have apart : Postgres.lower (named wideName).name ≠
      Postgres.lower (named (wideName ++ " ")).name := by
    decide +kernel
  have storable : refusesRow (named wideName) = none ∧
      refusesRow (named (wideName ++ " ")) = none := by
    decide +kernel
  exact exists_second_of_cut firstUser width apart ⟨rfl, rfl⟩ storable

end SchemaForge.Repository
