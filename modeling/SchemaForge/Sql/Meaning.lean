import SchemaForge.Sql.CommentPlaces
import SchemaForge.Sql.KeysAndLines

/-!
# What a script means

The reader goes over a drawing in passes, and every pass finds its way by the names that
are in the drawing by then. What comes out can be said without passes: each table and
column of the script with the last reference that names lead to it and the last comment
that lands on it, a line for every reference that leads somewhere, and a warning for
everything else that was written.
-/

namespace SchemaForge.Sql

open Exchange

section Stripped

/-- A table without descriptions. -/
def stripped (entity : Entity) : Entity :=
  { entity with
    description := []
    attributes := entity.attributes.map fun attr => { attr with description := [] } }

theorem attribute_eq_of_stripped {left right : Attribute}
    (rest : { left with description := [] } = { right with description := [] })
    (note : left.description = right.description) : left = right := by
  rcases left with
    ⟨id, name, description, dataType, nullable, primaryKey, unique, foreignKey, default⟩
  rcases right with
    ⟨id', name', description', dataType', nullable', primaryKey', unique', foreignKey', default'⟩
  cases note
  cases rest
  rfl

/-- Tables that differ in descriptions only are the same if no description differs. -/
theorem entities_eq_of_stripped {draft : SchemaDraft} {entities : List Entity}
    (rest : draft.entities.map stripped = entities.map stripped)
    (tables : ∀ i entity, entities[i]? = some entity →
      noteAt draft (i, none) = some entity.description)
    (columns : ∀ i entity, entities[i]? = some entity →
      ∀ j attr, entity.attributes[j]? = some attr →
      noteAt draft (i, some j) = some attr.description) : draft.entities = entities := by
  apply List.ext_getElem?
  intro i
  have here := congrArg (·[i]?) rest
  simp only [List.getElem?_map] at here
  cases found : entities[i]? with
  | none =>
      rw [found, Option.map_none, Option.map_eq_none_iff] at here
      exact here
  | some entity =>
      rw [found, Option.map_some, Option.map_eq_some_iff] at here
      rcases here with ⟨other, otherAt, same⟩
      have table := tables i entity found
      rw [noteAt, otherAt, Option.map_some, Option.some.injEq] at table
      have attributes : other.attributes = entity.attributes := by
        apply List.ext_getElem?
        intro j
        have cell := congrArg (fun entity => entity.attributes[j]?) same
        simp only [stripped, List.getElem?_map] at cell
        cases attrAt : entity.attributes[j]? with
        | none =>
            rw [attrAt, Option.map_none, Option.map_eq_none_iff] at cell
            exact cell
        | some attr =>
            rw [attrAt, Option.map_some, Option.map_eq_some_iff] at cell
            rcases cell with ⟨otherAttr, otherAttrAt, sameAttr⟩
            have column := columns i entity found j attr attrAt
            rw [noteAt, otherAt, Option.bind_some, otherAttrAt, Option.map_some,
              Option.some.injEq] at column
            rw [otherAttrAt, attribute_eq_of_stripped sameAttr column]
      rw [otherAt]
      rcases other with ⟨id, name, description, otherAttributes, position⟩
      cases table
      cases attributes
      simp only [stripped, Entity.mk.injEq, true_and] at same
      rw [same.1, same.2.1, same.2.2]

theorem stripped_foldWith_describe (draft : SchemaDraft) (comments : List Comment) :
    (foldWith describe draft comments).1.entities.map stripped = draft.entities.map stripped := by
  refine @foldWith_kept _ _ describe (fun draft => draft.entities.map stripped)
    (fun draft comment => ?_) draft comments
  apply map_describe
  · exact fun _ _ => rfl
  · intro entity test text
    have kept : (entity.attributes.updateFirst test fun attr =>
        { attr with description := text }).map
        (fun attr => { attr with description := [] }) =
          entity.attributes.map fun attr => { attr with description := [] } :=
      List.map_updateFirst_of_kept fun _ => rfl
    exact congrArg (fun attributes =>
      { entity with description := [], attributes := attributes }) kept

end Stripped

section Last

variable {tables : List ParsedTable}

/-- The text of the last comment that lands on a spot. -/
def lastNote (tables : List ParsedTable) (comments : List Comment) (spot : Spot) : Option Str :=
  (comments.reverse.find? fun comment => landing tables comment == some spot).map Comment.text

theorem foldl_noted (comments : List Comment) (spot : Spot) (note : Str) :
    comments.foldl (noted tables spot)
      (some note) = some ((lastNote tables comments spot).getD note) := by
  induction comments using List.reverseRecOn with
  | nil => rfl
  | append_singleton comments comment ih =>
      rw [List.foldl_concat, ih, noted, lastNote, lastNote, List.reverse_append,
        List.reverse_singleton, List.singleton_append]
      by_cases here : landing tables comment = some spot
      · rw [if_pos here, List.find?_cons_of_pos (by simp [here])]
        rfl
      · rw [if_neg here, List.find?_cons_of_neg (by simp [here])]

end Last

section Meaning

variable (uuid : Element → Str)

/-- A comment on what is not in the file. -/
def strayNote (tables : List ParsedTable) (comment : Comment) : Diagnostic :=
  let named : Str := match tableFor tables comment.table, comment.column with
    | some _, some column => comment.table ++ "." ++ column
    | _, _ => comment.table
  .warning .importSkipped ("a comment on `" ++ named ++ "`, which is not in the file")

def columnMeant (tables : List ParsedTable) (links : List (ColumnPlace × ColumnPlace))
    (comments : List Comment) (i j : Nat) (column : ParsedColumn) : Attribute :=
  { attributeFrom uuid i j column with
    description := (lastNote tables comments (i, some j)).getD []
    foreignKey := keyMarked uuid links (i, j) }

def tableMeant (tables : List ParsedTable) (links : List (ColumnPlace × ColumnPlace))
    (comments : List Comment) (position : Position) (i : Nat) (table : ParsedTable) : Entity where
  id := freshId uuid (.entity i)
  name := table.name
  description := (lastNote tables comments (i, none)).getD []
  attributes := table.columns.mapIdx (columnMeant uuid tables links comments i)
  position := position

variable [Unicode]

/-- The references of a script that lead somewhere, each with the columns it joins. -/
def linksIn (content : Str) : List (ColumnPlace × ColumnPlace) :=
  placesOf (tablesIn content) (referencesOf (scan content).1)

/-- The drawing that a script means. -/
def meaning (content : Str) (includePositions : Bool) : SchemaDraft where
  name := []
  description := []
  entities := (tablesIn content).mapIdx fun i table =>
    tableMeant uuid (tablesIn content) (linksIn content) (commentsOf (scan content).1)
      (placeAt (scan content).2 ((tablesOf (scan content).1).map Prod.fst)[i]? table.name i
        includePositions) i table
  relationships := (linksIn content).mapIdx (lineAt uuid)

/--
What of a script the drawing does not hold: statements, parts of tables, references, comments.
-/
def leftOut (content : Str) : List Diagnostic :=
  skippedOf (scan content).1 ++ (tablesIn content).flatMap notesOf ++
    ((referencesOf (scan content).1).filter fun reference =>
      (columnsJoined (tablesIn content) reference.1 reference.2).isNone).map
        (fun reference => unlinkedNote reference.1 reference.2) ++
    ((commentsOf (scan content).1).filter fun comment =>
      (landing (tablesIn content) comment).isNone).map
      (strayNote (tablesIn content))

end Meaning

section Passes

variable {uuid : Element → Str} {tables : List ParsedTable}
    {links : List (ColumnPlace × ColumnPlace)}

/-- Linking warns of the references that lead nowhere, in their order. -/
theorem warnings_foldWith_link (ids : HasDistinctIds (created uuid tables))
    (references : List (Str × ParsedForeignKey)) :
    (foldWith (fun draft reference => link uuid draft reference.1 reference.2)
      (linkedBy uuid tables links) references).2 =
        (references.filter fun reference =>
          (columnsJoined tables reference.1 reference.2).isNone).map
          fun reference => unlinkedNote reference.1 reference.2 := by
  induction references generalizing links with
  | nil => rfl
  | cons reference references ih =>
      rw [foldWith, List.filter_cons]
      cases found : columnsJoined tables reference.1 reference.2 with
      | none =>
          have missing :
              linkedPlaces (linkedBy uuid tables links) reference.1 reference.2 = none := by
            rw [linkedPlaces_eq namePlates_linkedBy, found]
          simp only [link_of_linkedPlaces_eq_none missing, ih]
          rfl
      | some places =>
          have silent :
              (link uuid (linkedBy uuid tables links) reference.1 reference.2).2 = [] := by
            rw [← linkedPlaces_eq (@namePlates_created uuid tables)] at found
            rcases linksAt_of_linkedPlaces found with ⟨_, _, _, _, at_⟩
            rw [linkedBy, link_of_linkedPlaces ids at_]
          simp only [link_linkedBy ids found, silent, ih]
          rfl

theorem warnings_describe {draft : SchemaDraft} (plates : namePlates draft = tables.map plateOf)
    (comment : Comment) : (describe draft comment).2 =
      if (landing tables comment).isNone then [strayNote tables comment] else [] := by
  have silent := (noteAt_describe plates comment).1
  cases lands : landing tables comment with
  | some spot => exact silent.mpr (by rw [lands]; rfl)
  | none =>
      have loud : (describe draft comment).2 ≠ [] :=
        fun nothing => by simpa [lands] using silent.mp nothing
      unfold strayNote
      unfold describe at loud ⊢
      rw [find_eq plates] at loud ⊢
      cases reached : tableFor tables comment.table with
      | none => rfl
      | some index =>
          rw [reached] at loud
          dsimp only at loud ⊢
          cases about : comment.column with
          | none =>
              rw [about] at loud
              exact absurd rfl loud
          | some column =>
              rw [about] at loud
              dsimp only at loud ⊢
              split at loud
              · exact absurd rfl loud
              · rename_i missing
                rw [if_neg missing]
                rfl

theorem warnings_foldWith_describe {draft : SchemaDraft}
    (plates : namePlates draft = tables.map plateOf) (comments : List Comment) :
    (foldWith describe draft comments).2 =
      (comments.filter fun comment => (landing tables comment).isNone).map (strayNote tables) := by
  induction comments generalizing draft with
  | nil => rfl
  | cons comment comments ih =>
      rw [foldWith, List.filter_cons]
      simp only [warnings_describe plates, ih ((namePlates_describe draft comment).trans plates)]
      split <;> rfl

/-- A drawing whose references are linked, after comments. -/
theorem entities_foldWith_describe (comments : List Comment) :
    (foldWith describe (linkedBy uuid tables links) comments).1.entities =
      tables.mapIdx fun i table =>
      tableMeant uuid tables links comments (entityFrom uuid i table).position i table := by
  have written := (noteAt_foldWith_describe (@namePlates_linkedBy uuid tables links) comments).2
  refine entities_eq_of_stripped ?_ ?_ ?_
  · rw [stripped_foldWith_describe]
    apply List.ext_getElem?
    intro i
    rw [List.getElem?_map, List.getElem?_map, linkedBy, getElem?_marked, getElem?_created,
      List.getElem?_mapIdx]
    cases tables[i]? with
    | none => rfl
    | some table =>
        refine congrArg some ?_
        simp only [stripped, markEntity, entityFrom, tableMeant, Entity.new, Entity.mk.injEq,
          true_and, and_true]
        rw [List.mapIdx_mapIdx, List.map_mapIdx, List.map_mapIdx]
        rfl
  · intro i entity found
    rw [List.getElem?_mapIdx] at found
    rcases Option.map_eq_some_iff.mp found with ⟨table, tableAt, rfl⟩
    have blank : noteAt (linkedBy uuid tables links) (i, none) = some [] := by
      rw [noteAt, linkedBy, getElem?_marked, getElem?_created, tableAt]
      rfl
    rw [written, blank, foldl_noted]
    rfl
  · intro i entity found j attr attrAt
    rw [List.getElem?_mapIdx] at found
    rcases Option.map_eq_some_iff.mp found with ⟨table, tableAt, rfl⟩
    rw [tableMeant, List.getElem?_mapIdx] at attrAt
    rcases Option.map_eq_some_iff.mp attrAt with ⟨column, columnAt, rfl⟩
    have blank : noteAt (linkedBy uuid tables links) (i, some j) = some [] := by
      rw [noteAt, linkedBy, getElem?_marked, getElem?_created, tableAt, Option.map_some,
        Option.map_some, Option.bind_some, getElem?_markEntity, entityFrom,
        List.getElem?_mapIdx, columnAt]
      rfl
    rw [written, blank, foldl_noted]
    rfl

/-- A comment leaves everything of a drawing but its tables. -/
theorem frame_describe (draft : SchemaDraft) (comment : Comment) :
    ((describe draft comment).1.name, (describe draft comment).1.description,
      (describe draft comment).1.relationships) =
        (draft.name, draft.description, draft.relationships) := by
  unfold describe
  split
  · rfl
  · split
    · rfl
    · dsimp only
      split <;> rfl

theorem foldWith_describe_linkedBy (comments : List Comment) :
    (foldWith describe (linkedBy uuid tables links) comments).1 =
      ⟨[], [], tables.mapIdx fun i table =>
        tableMeant uuid tables links comments (entityFrom uuid i table).position i table,
        links.mapIdx (lineAt uuid)⟩ := by
  have entities := @entities_foldWith_describe uuid tables links comments
  have frame :=
    @foldWith_kept _ _ describe (fun draft => (draft.name, draft.description, draft.relationships))
    frame_describe (linkedBy uuid tables links) comments
  generalize (foldWith describe (linkedBy uuid tables links) comments).1 = reached at entities frame
  rcases reached with ⟨name, description, entities', relationships⟩
  cases entities
  cases frame
  rfl

theorem place_tablesMeant {comments : List Comment} {hints : List LayoutHint} {tableAt : List Nat}
    {includePositions : Bool} :
    place ⟨[], [], tables.mapIdx fun i table =>
        tableMeant uuid tables links comments (entityFrom uuid i table).position i table,
        links.mapIdx (lineAt uuid)⟩ hints tableAt includePositions =
      ⟨[], [], tables.mapIdx fun i table =>
        tableMeant uuid tables links comments
          (placeAt hints tableAt[i]? table.name i includePositions) i table,
        links.mapIdx (lineAt uuid)⟩ := by
  rw [place, List.mapIdx_mapIdx]
  rfl

end Passes

section Read

variable [Unicode] {uuid : Element → Str}

/--
The reader's passes come to what the script means, and warn of what that leaves out; a script that
makes no table is refused.
-/
theorem read_eq_meaning (content : Str) (includePositions : Bool)
    (fresh : IsFresh uuid (Schema.new [] (created uuid (tablesIn content)))) :
    read uuid content includePositions =
      if (tablesIn content).isEmpty then
        .error (.validation "the file holds no table the canvas could draw"
          [("content", ["expected at least one CREATE TABLE statement"])])
      else .ok (meaning uuid content includePositions, ⟨leftOut content⟩) := by
  have ids := hasDistinctIds_created fresh
  have linked :=
    @foldWith_link_linkedBy uuid (tablesIn content) [] ids (referencesOf (scan content).1)
  have unlinked :=
    @warnings_foldWith_link uuid (tablesIn content) [] ids (referencesOf (scan content).1)
  have described := @foldWith_describe_linkedBy uuid (tablesIn content) (linksIn content)
      (commentsOf (scan content).1)
  have unplaced :=
    @warnings_foldWith_describe (tablesIn content)
      (linkedBy uuid (tablesIn content) (linksIn content))
    namePlates_linkedBy (commentsOf (scan content).1)
  rw [linkedBy_nil] at linked unlinked
  rw [List.nil_append, show placesOf _ _ = linksIn content from rfl] at linked
  have passes : read uuid content includePositions =
      if (tablesIn content).isEmpty then
        .error (.validation "the file holds no table the canvas could draw"
          [("content", ["expected at least one CREATE TABLE statement"])])
      else
        let linked := foldWith (fun draft reference => link uuid draft reference.1 reference.2)
          (created uuid (tablesIn content)) (referencesOf (scan content).1)
        let described := foldWith describe linked.1 (commentsOf (scan content).1)
        .ok (place described.1 (scan content).2 ((tablesOf (scan content).1).map Prod.fst)
          includePositions, ⟨skippedOf (scan content).1 ++ (tablesIn content).flatMap notesOf ++
            linked.2 ++ described.2⟩) := rfl
  rw [passes]
  dsimp only
  rw [linked, unlinked, described, unplaced, place_tablesMeant]
  rfl

end Read

/-- What is said of the tables stands before them. -/
def forwardScript : Str :=
  "COMMENT ON COLUMN y.b IS 'what x is meant';
ALTER TABLE y ADD FOREIGN KEY (b) REFERENCES x (id);
CREATE TABLE x (id int PRIMARY KEY);
CREATE TABLE y (b int);"

theorem read_eq_meaning_forwardScript :
    @read shelfUuid Unicode.ascii forwardScript false =
      .ok (@meaning shelfUuid Unicode.ascii forwardScript false,
        ⟨@leftOut Unicode.ascii forwardScript⟩) := by
  have both : IsFresh shelfUuid
      (Schema.new [] (created shelfUuid (@tablesIn Unicode.ascii forwardScript))) ∧
      (@tablesIn Unicode.ascii forwardScript).isEmpty = false := by
    decide +kernel
  rw [@read_eq_meaning Unicode.ascii shelfUuid forwardScript false both.1, both.2]
  rfl

example : ((@meaning shelfUuid Unicode.ascii forwardScript false).entities.map fun table =>
    table.attributes.map Attribute.description) = [[[]], ["what x is meant"]] := by
  decide +kernel

end SchemaForge.Sql
