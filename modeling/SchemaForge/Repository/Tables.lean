import SchemaForge.Foundation.Varchar
import SchemaForge.Repository.Stored

/-!
# The tables of the schema store

The two tables behind the repository, with the constraints that the database
keeps, and the statements that the repository runs on them. A statement is a
function of the rows it sees. A schema belongs to the user of its one row in
`user_schemas`.
-/

namespace SchemaForge.Repository

/-- 128 bits, which the database compares as it compares numbers. -/
abbrev Uuid := BitVec 128

/-- A `TIMESTAMPTZ`, in microseconds. -/
abbrev Time := Int

/-- What the statements use of the database and of the `uuid` crate. -/
class Postgres where
  /-- `LOWER`, which depends on the collation of the database. -/
  lower : Str → Str
  hashtext : Str → Int32
  uuidText : Uuid → Str
  parseUuid : Str → Option Uuid
  /-- Why a statement fails on a text, as it does on one with a NUL in it. -/
  refusesText : Str → Option Str
  /-- Why a statement fails on the columns of a draft, the width of its name aside. -/
  refusesDrawing : SchemaDraft → Option Str

/-- The width of `schemas.name`. -/
def nameWidth : Nat := 120

/-- Why a statement that writes a draft fails. -/
def refusesRow [Postgres] (draft : SchemaDraft) : Option Str :=
  (Postgres.refusesDrawing draft).or
    (if Varchar.refuses nameWidth draft.name then
      some "value too long for type character varying(120)" else none)

/-- A row of `schemas`. -/
structure SchemaRow where
  id : Uuid
  name : Str
  description : Str
  entities : List StoredEntity
  relationships : List StoredRelationship
  createdAt : Time
  updatedAt : Time
deriving DecidableEq

/-- A row of `user_schemas`. -/
structure LinkRow where
  userId : Uuid
  schemaId : Uuid
  createdAt : Time
deriving DecidableEq

/-- Both tables, under their primary keys and the reference between them. -/
structure Tables where
  schemas : List SchemaRow
  links : List LinkRow
  schemaKey : (schemas.map SchemaRow.id).Nodup
  linkKey : (links.map LinkRow.schemaId).Nodup
  references : ∀ link ∈ links, link.schemaId ∈ schemas.map SchemaRow.id

namespace Tables

def empty : Tables where
  schemas := []
  links := []
  schemaKey := List.nodup_nil
  linkKey := List.nodup_nil
  references := by simp

/-- The schema is the user's. -/
def owns (tables : Tables) (owner id : Uuid) : Bool :=
  tables.links.any fun link => link.schemaId == id && link.userId == owner

/-- The rows of `user_schemas` that are the user's. -/
def linksOf (tables : Tables) (owner : Uuid) : List LinkRow :=
  tables.links.filter fun link => link.userId == owner

/-- The schemas of a user. -/
def owned (tables : Tables) (owner : Uuid) : List SchemaRow :=
  tables.schemas.filter fun row => tables.owns owner row.id

/-- The owner's schema of an id. -/
def select (tables : Tables) (owner id : Uuid) : Option SchemaRow :=
  (tables.owned owner).find? fun row => row.id == id

/-- The inner join of the two tables, where the user is `owner`. -/
def joined (tables : Tables) (owner : Uuid) : List (LinkRow × SchemaRow) :=
  (tables.linksOf owner).flatMap fun link =>
    (tables.schemas.filter fun row => row.id == link.schemaId).map fun row => (link, row)

/-- Another schema of the owner has the name. -/
def nameTaken [Postgres] (tables : Tables) (owner : Uuid) (name : Str) (except : Option Uuid) :
    Bool :=
  (tables.owned owner).any fun row =>
    Postgres.lower row.name == Postgres.lower name && some row.id != except

def insertSchema (tables : Tables) (row : SchemaRow) : Option Tables :=
  if fresh : row.id ∈ tables.schemas.map SchemaRow.id then none
  else some {
    schemas := tables.schemas ++ [row]
    links := tables.links
    schemaKey := by
      rw [List.map_append, List.map_singleton]
      exact List.nodup_append_comm.mp (List.nodup_cons.mpr ⟨fresh, tables.schemaKey⟩)
    linkKey := tables.linkKey
    references := by
      intro link mem
      rw [List.map_append]
      exact List.mem_append_left _ (tables.references link mem) }

def insertLink (tables : Tables) (link : LinkRow) : Option Tables :=
  if linked : link.schemaId ∈ tables.links.map LinkRow.schemaId then none
  else if stored : link.schemaId ∈ tables.schemas.map SchemaRow.id then some {
    schemas := tables.schemas
    links := tables.links ++ [link]
    schemaKey := tables.schemaKey
    linkKey := by
      rw [List.map_append, List.map_singleton]
      exact List.nodup_append_comm.mp (List.nodup_cons.mpr ⟨linked, tables.linkKey⟩)
    references := by
      intro other mem
      rcases List.mem_append.mp mem with before | last
      · exact tables.references other before
      · rw [List.mem_singleton.mp last]
        exact stored }
  else none

/-- What an `UPDATE` of the store sets. -/
def replaceRow (draft : SchemaDraft) (now : Time) (row : SchemaRow) : SchemaRow :=
  { row with
    name := Varchar.stored nameWidth draft.name
    description := draft.description
    entities := (drawing draft).1
    relationships := (drawing draft).2
    updatedAt := now }

def updateSchema (tables : Tables) (owner id : Uuid) (draft : SchemaDraft)
    (now : Time) : Tables where
  schemas := tables.schemas.map fun row =>
    if row.id = id ∧ tables.owns owner row.id = true then replaceRow draft now row else row
  links := tables.links
  schemaKey := by
    rw [List.map_map]
    refine Eq.mp (congrArg List.Nodup (List.map_congr_left ?_)) tables.schemaKey
    intro row _
    rw [Function.comp_apply]
    split <;> rfl
  linkKey := tables.linkKey
  references := by
    intro link mem
    rw [List.map_map]
    have kept := tables.references link mem
    refine Eq.mp (congrArg (link.schemaId ∈ ·) (List.map_congr_left ?_)) kept
    intro row _
    rw [Function.comp_apply]
    split <;> rfl

/-- A deleted schema takes its row in `user_schemas` with it. -/
def deleteSchema (tables : Tables) (owner id : Uuid) : Tables where
  schemas := tables.schemas.filter fun row => !(row.id == id && tables.owns owner row.id)
  links := tables.links.filter fun link => !(link.schemaId == id && tables.owns owner link.schemaId)
  schemaKey := (List.filter_sublist.map SchemaRow.id).nodup tables.schemaKey
  linkKey := (List.filter_sublist.map LinkRow.schemaId).nodup tables.linkKey
  references := by
    intro link mem
    rcases List.mem_filter.mp mem with ⟨before, kept⟩
    rcases List.mem_map.mp (tables.references link before) with ⟨row, rowMem, same⟩
    refine List.mem_map.mpr ⟨row, List.mem_filter.mpr ⟨rowMem, ?_⟩, same⟩
    rw [same]
    exact kept

theorem owns_iff {tables : Tables} {owner id : Uuid} : tables.owns owner id = true ↔
    ∃ link ∈ tables.links, link.schemaId = id ∧ link.userId = owner := by
  simp [owns]

/-- A schema is one user's only. -/
theorem owner_unique {tables : Tables} {owner other id : Uuid}
    (first : tables.owns owner id = true) (second : tables.owns other id = true) :
    owner = other := by
  rcases owns_iff.mp first with ⟨link, mem, rfl, rfl⟩
  rcases owns_iff.mp second with ⟨link', mem', same, rfl⟩
  rw [List.inj_on_of_nodup_map tables.linkKey mem mem' same.symm]

theorem row_unique {tables : Tables} {row row' : SchemaRow} (mem : row ∈ tables.schemas)
    (mem' : row' ∈ tables.schemas) (same : row.id = row'.id) : row = row' :=
  List.inj_on_of_nodup_map tables.schemaKey mem mem' same

theorem mem_owned {tables : Tables} {owner : Uuid} {row : SchemaRow} :
    row ∈ tables.owned owner ↔ row ∈ tables.schemas ∧ tables.owns owner row.id = true :=
  List.mem_filter

/-- A schema that is stored together with its row in `user_schemas`. -/
def insertBoth (tables : Tables) (row : SchemaRow) (link : LinkRow) : Option Tables :=
  (tables.insertSchema row).bind fun tables => tables.insertLink link

theorem insertBoth_eq_some {tables tables' : Tables} {row : SchemaRow} {link : LinkRow}
    (inserted : tables.insertBoth row link = some tables') :
    row.id ∉ tables.schemas.map SchemaRow.id ∧ tables'.schemas = tables.schemas ++ [row] ∧
      tables'.links = tables.links ++ [link] := by
  unfold insertBoth insertSchema at inserted
  split at inserted
  · cases inserted
  · rename_i fresh
    rw [Option.bind_some] at inserted
    unfold insertLink at inserted
    split at inserted
    · cases inserted
    · split at inserted
      · rcases Option.some.inj inserted
        exact ⟨fresh, rfl, rfl⟩
      · cases inserted

theorem owned_insertBoth {tables tables' : Tables} {row : SchemaRow} {link : LinkRow}
    (inserted : tables.insertBoth row link = some tables') (own : link.schemaId = row.id)
    (owner : Uuid) : tables'.owned owner =
      tables.owned owner ++ if link.userId = owner then [row] else [] := by
  rcases insertBoth_eq_some inserted with ⟨fresh, schemas, links⟩
  have owns (id : Uuid) : tables'.owns owner id =
      (tables.owns owner id || (link.schemaId == id && link.userId == owner)) := by
    simp [Tables.owns, links]
  have before : (tables.schemas.filter fun other => tables'.owns owner other.id) =
      tables.owned owner := by
    apply List.filter_congr
    intro other mem
    have different : (link.schemaId == other.id) = false := by
      rw [own, beq_eq_false_iff_ne]
      intro same
      exact fresh (same ▸ List.mem_map_of_mem mem)
    rw [owns, different, Bool.false_and, Bool.or_false]
  have unowned : tables.owns owner row.id = false := by
    rw [Bool.eq_false_iff]
    intro taken
    rcases owns_iff.mp taken with ⟨other, mem, same, -⟩
    exact fresh (same ▸ tables.references other mem)
  have last : ([row].filter fun other => tables'.owns owner other.id) =
      if link.userId = owner then [row] else [] := by
    by_cases mine : link.userId = owner
    · simp [owns, own, mine]
    · simp [owns, unowned, mine]
  rw [owned, schemas, List.filter_append, before, last]

theorem owned_updateSchema (tables : Tables) (owner id : Uuid) (draft : SchemaDraft) (now : Time)
    (other : Uuid) : (tables.updateSchema owner id draft now).owned other =
      if other = owner then
        (tables.owned other).map fun row => if row.id = id then replaceRow draft now row else row
      else tables.owned other := by
  have sameId (row : SchemaRow) : (if row.id = id ∧ tables.owns owner row.id = true then
      replaceRow draft now row else row).id = row.id := by
    split <;> rfl
  have filtered : (tables.updateSchema owner id draft now).owned other =
      (tables.owned other).map fun row =>
        if row.id = id ∧ tables.owns owner row.id = true then replaceRow draft now row
          else row := by
    rw [owned, updateSchema, List.filter_map, owned]
    refine congrArg _ (List.filter_congr ?_)
    intro row _
    rw [Function.comp_apply, sameId]
    rfl
  rw [filtered]
  split
  · rename_i mine
    apply List.map_congr_left
    intro row mem
    have owns := (mem_owned.mp mem).2
    rw [mine] at owns
    simp [owns]
  · rename_i foreign
    refine Eq.trans (List.map_congr_left ?_) (List.map_id _)
    intro row mem
    have owns := (mem_owned.mp mem).2
    refine if_neg ?_
    rintro ⟨-, owns'⟩
    exact foreign (owner_unique owns owns')

theorem owned_deleteSchema (tables : Tables) (owner id other : Uuid) :
    (tables.deleteSchema owner id).owned other =
      if other = owner then (tables.owned other).filter fun row => row.id != id
      else tables.owned other := by
  have owns (row : SchemaRow) : (tables.deleteSchema owner id).owns other row.id =
      (tables.owns other row.id && !(row.id == id && tables.owns owner row.id)) := by
    rw [Bool.eq_iff_iff, Bool.and_eq_true, owns_iff, owns_iff]
    constructor
    · rintro ⟨link, mem, same, user⟩
      rcases List.mem_filter.mp mem with ⟨before, kept⟩
      rw [same] at kept
      exact ⟨⟨link, before, same, user⟩, kept⟩
    · rintro ⟨⟨link, before, same, user⟩, kept⟩
      refine ⟨link, List.mem_filter.mpr ⟨before, ?_⟩, same, user⟩
      rw [same]
      exact kept
  have filtered : (tables.deleteSchema owner id).owned other =
      (tables.owned other).filter fun row => !(row.id == id && tables.owns owner row.id) := by
    rw [owned, owned, deleteSchema, List.filter_filter, List.filter_filter]
    apply List.filter_congr
    intro row _
    have here := owns row
    rw [deleteSchema] at here
    rw [here]
    cases tables.owns other row.id <;> cases (row.id == id && tables.owns owner row.id) <;> rfl
  rw [filtered]
  split
  · rename_i mine
    apply List.filter_congr
    intro row mem
    have owns := (mem_owned.mp mem).2
    rw [mine] at owns
    rw [owns, Bool.and_true]
    rfl
  · rename_i foreign
    apply List.filter_eq_self.mpr
    intro row mem
    have owns := (mem_owned.mp mem).2
    cases owns' : tables.owns owner row.id with
    | false => simp
    | true => exact absurd (owner_unique owns owns') foreign

theorem linksOf_insertBoth {tables tables' : Tables} {row : SchemaRow} {link : LinkRow}
    (inserted : tables.insertBoth row link = some tables') (owner : Uuid) :
    tables'.linksOf owner = tables.linksOf owner ++ if link.userId = owner then [link] else [] := by
  rw [linksOf, (insertBoth_eq_some inserted).2.2, List.filter_append, linksOf]
  by_cases mine : link.userId = owner <;> simp [mine]

theorem linksOf_deleteSchema (tables : Tables) (owner id other : Uuid) :
    (tables.deleteSchema owner id).linksOf other =
      if other = owner then (tables.linksOf other).filter fun link => link.schemaId != id
      else tables.linksOf other := by
  have filtered : (tables.deleteSchema owner id).linksOf other =
      (tables.linksOf other).filter fun link =>
        !(link.schemaId == id && tables.owns owner link.schemaId) := by
    rw [linksOf, deleteSchema, List.filter_comm, linksOf]
  rw [filtered]
  split
  · rename_i mine
    apply List.filter_congr
    intro link mem
    rcases List.mem_filter.mp mem with ⟨memAll, user⟩
    have own : tables.owns owner link.schemaId = true :=
      owns_iff.mpr ⟨link, memAll, rfl, mine ▸ beq_iff_eq.mp user⟩
    rw [own, Bool.and_true]
    rfl
  · rename_i foreign
    apply List.filter_eq_self.mpr
    intro link mem
    rcases List.mem_filter.mp mem with ⟨memAll, user⟩
    have own : tables.owns other link.schemaId = true :=
      owns_iff.mpr ⟨link, memAll, rfl, beq_iff_eq.mp user⟩
    cases owns' : tables.owns owner link.schemaId with
    | false => simp
    | true => exact absurd (owner_unique own owns') foreign

/-- An id that no schema has can be inserted. -/
theorem insertBoth_of_fresh {tables : Tables} {row : SchemaRow} {link : LinkRow}
    (fresh : row.id ∉ tables.schemas.map SchemaRow.id) (own : link.schemaId = row.id) :
    ∃ tables', tables.insertBoth row link = some tables' := by
  have unlinked : link.schemaId ∉ tables.links.map LinkRow.schemaId := by
    intro linked
    rcases List.mem_map.mp linked with ⟨other, mem, same⟩
    exact fresh (own ▸ same ▸ tables.references other mem)
  have stored : link.schemaId ∈ (tables.schemas ++ [row]).map SchemaRow.id := by
    rw [own]
    exact List.mem_map_of_mem (List.mem_append_right _ (List.mem_singleton_self row))
  rw [insertBoth, insertSchema, dif_neg fresh, Option.bind_some, insertLink, dif_neg unlinked,
    dif_pos stored]
  exact ⟨_, rfl⟩

theorem owns_eq (tables : Tables) (owner id : Uuid) :
    tables.owns owner id = (tables.linksOf owner).any fun link => link.schemaId == id := by
  rw [owns, linksOf, List.any_filter]
  congr 1
  funext link
  exact Bool.and_comm _ _

theorem joined_eq (tables : Tables) (owner : Uuid) :
    tables.joined owner = (tables.linksOf owner).flatMap fun link =>
      ((tables.owned owner).filter fun row => row.id == link.schemaId).map fun row =>
        (link, row) := by
  rw [joined]
  refine List.flatMap_congr ?_
  intro link mem
  rw [owned, List.filter_filter]
  congr 1
  apply List.filter_congr
  intro row _
  cases same : row.id == link.schemaId with
  | false => rfl
  | true =>
      rw [Bool.true_and, owns_eq, eq_comm, List.any_eq_true]
      exact ⟨link, mem, by rw [beq_iff_eq] at same ⊢; exact same.symm⟩

/-- The two stores hold the same rows of the user. -/
structure SameFor (owner : Uuid) (left right : Tables) : Prop where
  links : left.linksOf owner = right.linksOf owner
  owned : left.owned owner = right.owned owner

namespace SameFor

variable {owner : Uuid} {left right : Tables}

theorem symm (same : SameFor owner left right) : SameFor owner right left :=
  ⟨same.links.symm, same.owned.symm⟩

theorem trans {other : Tables} (same : SameFor owner left right)
    (same' : SameFor owner right other) :
    SameFor owner left other :=
  ⟨same.links.trans same'.links, same.owned.trans same'.owned⟩

theorem owns (same : SameFor owner left right) (id : Uuid) :
    left.owns owner id = right.owns owner id := by
  rw [owns_eq, owns_eq, same.links]

theorem select (same : SameFor owner left right) (id : Uuid) :
    left.select owner id = right.select owner id := by
  rw [Tables.select, Tables.select, same.owned]

theorem insertBoth (same : SameFor owner left right) {row : SchemaRow} {link : LinkRow}
    (own : link.schemaId = row.id) {left' right' : Tables}
    (insertedLeft : left.insertBoth row link = some left')
    (insertedRight : right.insertBoth row link = some right') : SameFor owner left' right' := by
  constructor
  · rw [linksOf_insertBoth insertedLeft, linksOf_insertBoth insertedRight, same.links]
  · rw [owned_insertBoth insertedLeft own, owned_insertBoth insertedRight own, same.owned]

theorem updateSchema (same : SameFor owner left right) (user id : Uuid) (draft : SchemaDraft)
    (now : Time) : SameFor owner (left.updateSchema user id draft now)
      (right.updateSchema user id draft now) := by
  constructor
  · exact same.links
  · rw [owned_updateSchema, owned_updateSchema, same.owned]

theorem deleteSchema (same : SameFor owner left right) (user id : Uuid) :
    SameFor owner (left.deleteSchema user id) (right.deleteSchema user id) := by
  constructor
  · rw [linksOf_deleteSchema, linksOf_deleteSchema, same.links]
  · rw [owned_deleteSchema, owned_deleteSchema, same.owned]

end SameFor

end Tables

end SchemaForge.Repository
