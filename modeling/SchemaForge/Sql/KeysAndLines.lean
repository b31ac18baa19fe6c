import SchemaForge.Sql.Linking
import SchemaForge.Sql.RoundTrip

/-!
# Keys and lines

A reference that is linked puts a foreign key on its column and draws a line.
The key of an earlier reference on the same column is overwritten, while its
line stays. Lines and keys of an imported drawing therefore match one to one
exactly when the script links no column twice.
-/

namespace SchemaForge.Sql

open Exchange

section Script

variable (uuid : Element → Str)

/-- The tables of a script as they are created, with nothing linked yet. -/
def created (tables : List ParsedTable) : SchemaDraft :=
  ⟨[], [], tables.mapIdx (entityFrom uuid), []⟩

/-- The references that a script makes: those of its tables, and then those it adds later. -/
def referencesOf (statements : List Statement) : List (Str × ParsedForeignKey) :=
  (((tablesOf statements).map Prod.snd).flatMap fun parsed =>
    parsed.foreignKeys.map fun key => (parsed.name, key)) ++ lateKeysOf statements

/-- The columns that references join, leaving out those that lead nowhere. -/
def placesOf (tables : List ParsedTable) (references : List (Str × ParsedForeignKey)) :
    List (ColumnPlace × ColumnPlace) :=
  references.filterMap fun reference => columnsJoined tables reference.1 reference.2

def referenceAt (place : ColumnPlace) : ForeignKeyRef :=
  ⟨freshId uuid (.entity place.1), freshId uuid (.attr place.1 place.2)⟩

def lineAt (index : Nat) (places : ColumnPlace × ColumnPlace) : Relationship :=
  Relationship.new (freshId uuid (.relationship index))
    (freshId uuid (.entity places.2.1), freshId uuid (.attr places.2.1 places.2.2))
    (freshId uuid (.entity places.1.1), freshId uuid (.attr places.1.1 places.1.2)) .oneToMany

/-- The foreign key of a column after some links: the last one that was put there. -/
def keyMarked (links : List (ColumnPlace × ColumnPlace)) (place : ColumnPlace) :
    Option ForeignKeyRef :=
  (links.reverse.find? fun places => places.1 == place).map fun places =>
    referenceAt uuid places.2

/-- The draft after some links. -/
def linkedBy (tables : List ParsedTable) (links : List (ColumnPlace × ColumnPlace)) : SchemaDraft :=
  marked (created uuid tables) (keyMarked uuid links) (links.mapIdx (lineAt uuid))

variable {uuid} {tables : List ParsedTable} {links : List (ColumnPlace × ColumnPlace)}

theorem getElem?_created (index : Nat) :
    (created uuid tables).entities[index]? = tables[index]?.map (entityFrom uuid index) := by
  rw [created, List.getElem?_mapIdx]

theorem namePlates_created : namePlates (created uuid tables) = tables.map plateOf := by
  apply List.map_mapIdx_of_same
  intro index parsed
  exact congrArg (Prod.mk parsed.name) (List.map_mapIdx_of_same fun _ _ => rfl)

theorem namePlates_linkedBy : namePlates (linkedBy uuid tables links) = tables.map plateOf := by
  rw [← @namePlates_created uuid]
  apply List.map_mapIdx_of_same
  intro index entity
  exact congrArg (Prod.mk entity.name) (List.map_mapIdx_of_same fun _ _ => rfl)

theorem id_of_created {i : Nat} {entity : Entity}
    (found : (created uuid tables).entities[i]? = some entity) :
    entity.id = freshId uuid (.entity i) := by
  rw [getElem?_created] at found
  rcases Option.map_eq_some_iff.mp found with ⟨parsed, -, rfl⟩
  rfl

theorem column_of_created {i j : Nat} {entity : Entity} {column : Attribute}
    (found : (created uuid tables).entities[i]? = some entity)
    (columnAt : entity.attributes[j]? = some column) :
    column.id = freshId uuid (.attr i j) ∧ column.foreignKey = none := by
  rw [getElem?_created] at found
  rcases Option.map_eq_some_iff.mp found with ⟨parsed, -, rfl⟩
  rw [entityFrom, List.getElem?_mapIdx] at columnAt
  rcases Option.map_eq_some_iff.mp columnAt with ⟨parsedColumn, -, rfl⟩
  exact ⟨rfl, rfl⟩

theorem linkedBy_nil : linkedBy uuid tables [] = created uuid tables := by
  suffices entities : (linkedBy uuid tables []).entities = (created uuid tables).entities from
    congrArg (fun entities => (⟨[], [], entities, []⟩ : SchemaDraft)) entities
  apply List.ext_getElem?
  intro i
  rw [linkedBy, getElem?_marked]
  cases found : (created uuid tables).entities[i]? with
  | none => rfl
  | some entity =>
      refine congrArg some ?_
      refine congrArg (fun attributes => { entity with attributes := attributes }) ?_
      apply List.ext_getElem?
      intro j
      rw [List.getElem?_mapIdx]
      cases columnAt : entity.attributes[j]? with
      | none => rfl
      | some column =>
          refine congrArg some ?_
          change { column with foreignKey := none } = column
          rw [← (column_of_created found columnAt).2]

theorem keyMarked_append (links : List (ColumnPlace × ColumnPlace))
    (places : ColumnPlace × ColumnPlace) : keyMarked uuid (links ++ [places]) =
      mark (keyMarked uuid links) places.1 (referenceAt uuid places.2) := by
  funext place
  rw [keyMarked, List.reverse_append, List.reverse_singleton, List.singleton_append, mark]
  by_cases here : place = places.1
  · rw [if_pos here, List.find?_cons_of_pos (by simp [here]), Option.map_some]
  · rw [if_neg here, List.find?_cons_of_neg, keyMarked]
    intro same
    exact here (beq_iff_eq.mp same).symm

theorem link_linkedBy (ids : HasDistinctIds (created uuid tables)) {holder : Str}
    {key : ParsedForeignKey} {places : ColumnPlace × ColumnPlace}
    (joined : columnsJoined tables holder key = some places) :
    (link uuid (linkedBy uuid tables links) holder key).1 =
      linkedBy uuid tables (links ++ [places]) := by
  rw [← linkedPlaces_eq namePlates_created] at joined
  rcases linksAt_of_linkedPlaces joined with ⟨holderEntity, targetEntity, column, target, at_⟩
  have reference : (⟨targetEntity.id, target.id⟩ : ForeignKeyRef) = referenceAt uuid places.2 := by
    rw [id_of_created at_.tableAt, (column_of_created at_.tableAt at_.targetAt).1, referenceAt]
  have line : Relationship.new (freshId uuid (.relationship (links.mapIdx (lineAt uuid)).length))
      (targetEntity.id, target.id) (holderEntity.id, column.id) .oneToMany =
        lineAt uuid links.length places := by
    rw [id_of_created at_.tableAt, (column_of_created at_.tableAt at_.targetAt).1,
      id_of_created at_.holderAt, (column_of_created at_.holderAt at_.columnAt).1,
      List.length_mapIdx, lineAt]
  rw [linkedBy, link_of_linkedPlaces ids at_, line, reference, linkedBy, keyMarked_append,
    List.mapIdx_append, List.mapIdx_singleton, Nat.zero_add]

/-- Linking the references of a script links the places that they are found at, in their order. -/
theorem foldWith_link_linkedBy (ids : HasDistinctIds (created uuid tables))
    (references : List (Str × ParsedForeignKey)) :
    (foldWith (fun draft reference => link uuid draft reference.1 reference.2)
      (linkedBy uuid tables links) references).1 =
        linkedBy uuid tables (links ++ placesOf tables references) := by
  induction references generalizing links with
  | nil => rw [foldWith, placesOf, List.filterMap_nil, List.append_nil]
  | cons reference references ih =>
      rw [foldWith, placesOf, List.filterMap_cons]
      cases found : columnsJoined tables reference.1 reference.2 with
      | none =>
          have missing :
              linkedPlaces (linkedBy uuid tables links) reference.1 reference.2 = none := by
            rw [linkedPlaces_eq namePlates_linkedBy, found]
          simp only [link_of_linkedPlaces_eq_none missing]
          exact ih
      | some places =>
          simp only [link_linkedBy ids found]
          rw [ih, List.append_assoc, List.singleton_append]
          rfl

/-- The references that lead nowhere are noted. -/
theorem unlinkedNote_mem_foldWith_link (ids : HasDistinctIds (created uuid tables))
    {references : List (Str × ParsedForeignKey)} {reference : Str × ParsedForeignKey}
    (mem : reference ∈ references)
    (unlinked : columnsJoined tables reference.1 reference.2 = none) :
    unlinkedNote reference.1 reference.2 ∈
      (foldWith (fun draft reference => link uuid draft reference.1 reference.2)
        (linkedBy uuid tables links) references).2 := by
  induction references generalizing links with
  | nil => cases mem
  | cons first references ih =>
      rw [foldWith]
      rcases List.mem_cons.mp mem with rfl | mem
      · have missing :
            linkedPlaces (linkedBy uuid tables links) reference.1 reference.2 = none := by
          rw [linkedPlaces_eq namePlates_linkedBy, unlinked]
        rw [link_of_linkedPlaces_eq_none missing]
        exact List.mem_append_left _ (List.mem_singleton_self _)
      · apply List.mem_append_right
        cases found : columnsJoined tables first.1 first.2 with
        | none =>
            have missing : linkedPlaces (linkedBy uuid tables links) first.1 first.2 = none := by
              rw [linkedPlaces_eq namePlates_linkedBy, found]
            rw [link_of_linkedPlaces_eq_none missing]
            exact ih mem
        | some places =>
            rw [link_linkedBy ids found]
            exact ih mem

end Script

section Outline

/-- The ids of a draft, with the foreign keys of its columns. -/
def outline (draft : SchemaDraft) : List (Str × List (Str × Option ForeignKeyRef)) :=
  draft.entities.map fun entity =>
    (entity.id, entity.attributes.map fun attr => (attr.id, attr.foreignKey))

variable {uuid : Element → Str}

theorem outline_describe (draft : SchemaDraft) (comment : Comment) :
    outline (describe draft comment).1 = outline draft := by
  apply map_describe
  · exact fun _ _ => rfl
  · intro entity test text
    exact congrArg (Prod.mk entity.id) (List.map_updateFirst_of_kept fun _ => rfl)

theorem outline_place (draft : SchemaDraft) (hints : List LayoutHint) (tableAt : List Nat)
    (includePositions : Bool) : outline (place draft hints tableAt includePositions) =
      outline draft :=
  map_place (fun _ _ => rfl) draft hints tableAt includePositions

/-- The ids and the foreign key that an outline has at a place. -/
def cellAt (outlined : List (Str × List (Str × Option ForeignKeyRef))) (place : ColumnPlace) :
    Option (Str × Str × Option ForeignKeyRef) :=
  outlined[place.1]?.bind fun table => table.2[place.2]?.map fun column => (table.1, column)

theorem cellAt_outline (draft : SchemaDraft) (place : ColumnPlace) :
    cellAt (outline draft) place = draft.entities[place.1]?.bind fun entity =>
      entity.attributes[place.2]?.map fun attr => (entity.id, attr.id, attr.foreignKey) := by
  rw [cellAt, outline, List.getElem?_map]
  cases draft.entities[place.1]? with
  | none => rfl
  | some entity =>
      rw [Option.map_some, Option.bind_some, Option.bind_some, List.getElem?_map, Option.map_map]
      rfl

theorem cellAt_place {draft : SchemaDraft} (place : Place draft) :
    cellAt (outline draft) (place.1, place.2) =
      some (place.entity.id, place.attr.id, place.attr.foreignKey) := by
  have entityAt : draft.entities[place.1.val]? = some place.entity :=
    List.getElem?_eq_getElem place.1.isLt
  have columnAt : place.entity.attributes[place.2.val]? = some place.attr :=
    List.getElem?_eq_getElem place.2.isLt
  rw [cellAt_outline, entityAt, Option.bind_some, columnAt, Option.map_some]

theorem exists_place_of_cellAt {draft : SchemaDraft} {i j : Nat}
    (filled : (cellAt (outline draft) (i, j)).isSome = true) :
    ∃ place : Place draft, place.1.val = i ∧ place.2.val = j := by
  rcases Option.isSome_iff_exists.mp filled with ⟨cell, found⟩
  rw [cellAt_outline] at found
  rcases Option.bind_eq_some_iff.mp found with ⟨entity, entityAt, columnFound⟩
  rcases Option.map_eq_some_iff.mp columnFound with ⟨column, columnAt, -⟩
  rcases List.getElem?_eq_some_iff.mp entityAt with ⟨entityBound, rfl⟩
  rcases List.getElem?_eq_some_iff.mp columnAt with ⟨columnBound, -⟩
  exact ⟨⟨⟨i, entityBound⟩, ⟨j, columnBound⟩⟩, rfl, rfl⟩

theorem cellAt_linkedBy {tables : List ParsedTable} {links : List (ColumnPlace × ColumnPlace)}
    {i j : Nat} {entity : Entity} {column : Attribute}
    (found : (created uuid tables).entities[i]? = some entity)
    (columnAt : entity.attributes[j]? = some column) :
    cellAt (outline (linkedBy uuid tables links)) (i, j) =
      some (freshId uuid (.entity i), freshId uuid (.attr i j), keyMarked uuid links (i, j)) := by
  rw [cellAt_outline, linkedBy, getElem?_marked, found, Option.map_some, Option.bind_some,
    getElem?_markEntity, columnAt, Option.map_some, Option.map_some, ← id_of_created found,
    ← (column_of_created found columnAt).1]
  rfl

/-- A cell of a linked draft is a column that was created. -/
theorem created_of_cellAt {tables : List ParsedTable} {links : List (ColumnPlace × ColumnPlace)}
    {i j : Nat} (filled : (cellAt (outline (linkedBy uuid tables links)) (i, j)).isSome = true) :
    ∃ entity column, (created uuid tables).entities[i]? = some entity ∧
      entity.attributes[j]? = some column := by
  rw [cellAt_outline, linkedBy, getElem?_marked] at filled
  cases found : (created uuid tables).entities[i]? with
  | none => simp [found] at filled
  | some entity =>
      rw [found, Option.map_some, Option.bind_some, getElem?_markEntity] at filled
      cases columnAt : entity.attributes[j]? with
      | none => simp [columnAt] at filled
      | some column => exact ⟨entity, column, rfl, columnAt⟩

/-- The columns of a draft whose outline is a linked one. -/
theorem place_of_outline {draft : SchemaDraft} {tables : List ParsedTable}
    {links : List (ColumnPlace × ColumnPlace)}
    (kept : outline draft = outline (linkedBy uuid tables links)) (place : Place draft) :
    place.entity.id = freshId uuid (.entity place.1) ∧
      place.attr.id = freshId uuid (.attr place.1 place.2) ∧
      place.attr.foreignKey = keyMarked uuid links (place.1, place.2) := by
  have cell := cellAt_place place
  rw [kept] at cell
  rcases created_of_cellAt (Option.isSome_of_eq_some cell) with ⟨entity, column, found, columnAt⟩
  rw [cellAt_linkedBy found columnAt, Option.some.injEq, Prod.mk.injEq, Prod.mk.injEq] at cell
  exact ⟨cell.1.symm, cell.2.1.symm, cell.2.2.symm⟩

end Outline

/-- The columns that hold a foreign key. -/
abbrev KeyHolder (draft : SchemaDraft) : Type :=
  {place : Place draft // place.attr.foreignKey.isSome = true}

/-- The line leads from what the foreign key of a column points at to the column. -/
def DrawnFor (line : Relationship) {draft : SchemaDraft} (place : Place draft) : Prop :=
  place.HasIds line.toEntityId line.toAttributeId ∧
    place.attr.foreignKey = some ⟨line.fromEntityId, line.fromAttributeId⟩ ∧
    line.cardinality = .oneToMany

/-- Keys and lines resolve, and there is one line for each column that holds a key. -/
def KeysMatchLines (draft : SchemaDraft) : Prop :=
  KeysResolve draft ∧ LinksResolve draft ∧
    ∃ pairing : Fin draft.relationships.length ≃ KeyHolder draft,
      ∀ n, DrawnFor (draft.relationships.get n) (pairing n).1

section Matching

variable {uuid : Element → Str} {draft : SchemaDraft} {tables : List ParsedTable}
  {links : List (ColumnPlace × ColumnPlace)}

/-- The draft has a column at the place. -/
def HasColumn (draft : SchemaDraft) (place : ColumnPlace) : Prop :=
  ∃ entity column, draft.entities[place.1]? = some entity ∧
    entity.attributes[place.2]? = some column

theorem hasColumn_of_mem_placesOf {references : List (Str × ParsedForeignKey)}
    {places : ColumnPlace × ColumnPlace} (mem : places ∈ placesOf tables references) :
    HasColumn (created uuid tables) places.1 ∧ HasColumn (created uuid tables) places.2 := by
  rcases List.mem_filterMap.mp mem with ⟨reference, -, joined⟩
  rw [← linkedPlaces_eq (@namePlates_created uuid tables)] at joined
  rcases linksAt_of_linkedPlaces joined with ⟨holderEntity, targetEntity, column, target, at_⟩
  exact ⟨⟨holderEntity, column, at_.holderAt, at_.columnAt⟩,
    ⟨targetEntity, target, at_.tableAt, at_.targetAt⟩⟩

theorem exists_place (kept : outline draft = outline (linkedBy uuid tables links))
    {place : ColumnPlace} (has : HasColumn (created uuid tables) place) :
    ∃ here : Place draft, (here.1.val, here.2.val) = place ∧
      here.HasIds (freshId uuid (.entity place.1)) (freshId uuid (.attr place.1 place.2)) := by
  rcases has with ⟨entity, column, found, columnAt⟩
  have filled : (cellAt (outline draft) (place.1, place.2)).isSome = true := by
    rw [kept, cellAt_linkedBy found columnAt, Option.isSome_some]
  rcases exists_place_of_cellAt filled with ⟨here, sameTable, sameColumn⟩
  rcases place_of_outline kept here with ⟨tableId, columnId, -⟩
  rw [sameTable] at tableId columnId
  rw [sameColumn] at columnId
  exact ⟨here, Prod.ext sameTable sameColumn, tableId, columnId⟩

theorem keyMarked_eq_some {place : ColumnPlace} {reference : ForeignKeyRef}
    (points : keyMarked uuid links place = some reference) :
    ∃ places ∈ links, places.1 = place ∧ reference = referenceAt uuid places.2 := by
  rcases Option.map_eq_some_iff.mp points with ⟨places, found, rfl⟩
  have mem := List.mem_reverse.mp (List.mem_of_find?_eq_some found)
  have here := List.find?_some found
  exact ⟨places, mem, beq_iff_eq.mp here, rfl⟩

theorem keysResolve_of_outline (kept : outline draft = outline (linkedBy uuid tables links))
    (placed : ∀ places ∈ links, HasColumn (created uuid tables) places.2) : KeysResolve draft := by
  intro place reference points
  rw [(place_of_outline kept place).2.2] at points
  rcases keyMarked_eq_some points with ⟨places, mem, -, rfl⟩
  rcases exists_place kept (placed places mem) with ⟨here, -, ids⟩
  exact ⟨here, ids⟩

theorem linksResolve_of_outline (kept : outline draft = outline (linkedBy uuid tables links))
    (lines : draft.relationships = links.mapIdx (lineAt uuid))
    (placed : ∀ places ∈ links,
      HasColumn (created uuid tables) places.1 ∧ HasColumn (created uuid tables) places.2) :
    LinksResolve draft := by
  intro line mem
  rw [lines] at mem
  rcases List.mem_mapIdx.mp mem with ⟨index, bound, rfl⟩
  rcases placed _ (List.getElem_mem bound) with ⟨holder, target⟩
  rcases exists_place kept holder with ⟨holderPlace, -, holderIds⟩
  rcases exists_place kept target with ⟨targetPlace, -, targetIds⟩
  exact ⟨⟨targetPlace, targetIds⟩, ⟨holderPlace, holderIds⟩⟩

/-- A column that is linked once holds the key of its only link. -/
theorem keyMarked_of_nodup (once : (links.map Prod.fst).Nodup) {places : ColumnPlace × ColumnPlace}
    (mem : places ∈ links) : keyMarked uuid links places.1 = some (referenceAt uuid places.2) := by
  have found : (links.reverse.find? fun other => other.1 == places.1) = some places := by
    apply List.find?_eq_some_of_unique (List.mem_reverse.mpr mem) (by simp)
    intro other otherMem same
    exact List.inj_on_of_nodup_map once (List.mem_reverse.mp otherMem) mem (beq_iff_eq.mp same)
  rw [keyMarked, found, Option.map_some]

theorem keysMatchLines_of_nodup (ids : HasDistinctIds draft)
    (kept : outline draft = outline (linkedBy uuid tables links))
    (lines : draft.relationships = links.mapIdx (lineAt uuid))
    (placed : ∀ places ∈ links,
      HasColumn (created uuid tables) places.1 ∧ HasColumn (created uuid tables) places.2)
    (once : (links.map Prod.fst).Nodup) : KeysMatchLines draft := by
  refine ⟨keysResolve_of_outline kept fun places mem => (placed places mem).2,
    linksResolve_of_outline kept lines placed, ?_⟩
  have sameLength : draft.relationships.length = links.length := by
    rw [lines, List.length_mapIdx]
  have lineOf (n : Fin draft.relationships.length) :
      draft.relationships.get n = lineAt uuid n (links.get (n.cast sameLength)) := by
    simp [lines]
  -- Every line is drawn for the column that it leads to.
  have drawn (n : Fin draft.relationships.length) : ∃ place : Place draft,
      (place.1.val, place.2.val) = (links.get (n.cast sameLength)).1 ∧
        DrawnFor (draft.relationships.get n) place := by
    have mem : links.get (n.cast sameLength) ∈ links := List.get_mem ..
    rcases exists_place kept (placed _ mem).1 with ⟨place, here, hasIds⟩
    refine ⟨place, here, ?_⟩
    rw [lineOf]
    refine ⟨hasIds, ?_, rfl⟩
    rw [(place_of_outline kept place).2.2, here, keyMarked_of_nodup once mem]
    rfl
  choose holder isAt isDrawn using drawn
  let pairing (n : Fin draft.relationships.length) : KeyHolder draft :=
    ⟨holder n, by rw [(isDrawn n).2.1]; rfl⟩
  have injective : Function.Injective pairing := by
    intro m n same
    have holders : holder m = holder n := congrArg Subtype.val same
    have samePlace := (isAt m).symm.trans ((congrArg (fun place : Place draft =>
      (place.1.val, place.2.val)) holders).trans (isAt n))
    exact Fin.cast_injective sameLength (List.injective_get_of_nodup_map once samePlace)
  have surjective : Function.Surjective pairing := by
    rintro ⟨place, keyed⟩
    rcases Option.isSome_iff_exists.mp keyed with ⟨reference, points⟩
    rw [(place_of_outline kept place).2.2] at points
    rcases keyMarked_eq_some points with ⟨places, mem, here, -⟩
    rcases List.get_of_mem mem with ⟨index, rfl⟩
    refine ⟨index.cast sameLength.symm, Subtype.ext ?_⟩
    have samePlace := (isAt (index.cast sameLength.symm)).trans here
    have holderIds := place_of_outline kept (holder (index.cast sameLength.symm))
    have placeIds := place_of_outline kept place
    rw [Prod.mk.injEq] at samePlace
    apply ids_unique ids ⟨rfl, rfl⟩
    exact ⟨by rw [placeIds.1, holderIds.1, samePlace.1],
      by rw [placeIds.2.1, holderIds.2.1, samePlace.1, samePlace.2]⟩
  exact ⟨Equiv.ofBijective pairing ⟨injective, surjective⟩, isDrawn⟩

/-- Lines that are drawn for different columns lead to different columns. -/
theorem nodup_ends_of_keysMatchLines (ids : HasDistinctIds draft) (matched : KeysMatchLines draft) :
    (draft.relationships.map fun line => (line.toEntityId, line.toAttributeId)).Nodup := by
  rcases matched with ⟨-, -, pairing, drawn⟩
  apply List.nodup_map_of_getElem?
  intro m n first second firstAt secondAt same
  rcases List.getElem?_eq_some_iff.mp firstAt with ⟨firstBound, rfl⟩
  rcases List.getElem?_eq_some_iff.mp secondAt with ⟨secondBound, rfl⟩
  have firstDrawn := (drawn ⟨m, firstBound⟩).1
  have secondDrawn := (drawn ⟨n, secondBound⟩).1
  rw [Prod.mk.injEq] at same
  rw [List.get_eq_getElem, same.1, same.2] at firstDrawn
  have samePlace := ids_unique ids firstDrawn secondDrawn
  exact Fin.mk.inj (pairing.injective (Subtype.ext samePlace))

theorem nodup_of_keysMatchLines (ids : HasDistinctIds draft)
    (lines : draft.relationships = links.mapIdx (lineAt uuid)) (matched : KeysMatchLines draft) :
    (links.map Prod.fst).Nodup := by
  have ends := nodup_ends_of_keysMatchLines ids matched
  have spelled : (draft.relationships.map fun line => (line.toEntityId, line.toAttributeId)) =
      (links.map Prod.fst).map fun place =>
        (freshId uuid (.entity place.1), freshId uuid (.attr place.1 place.2)) := by
    rw [lines, List.map_map]
    exact List.map_mapIdx_of_same fun _ _ => rfl
  rw [spelled] at ends
  exact List.Nodup.of_map _ ends

end Matching

section Fresh

variable {uuid : Element → Str} {draft : SchemaDraft} {tables : List ParsedTable}
  {links : List (ColumnPlace × ColumnPlace)}

theorem entity_mem_elements_new {i : Nat} {entity : Entity}
    (found : draft.entities[i]? = some entity) :
    .entity i ∈ elements (Schema.new [] draft) := by
  have placed : (entity, i) ∈ draft.entities.zipIdx := List.mem_zipIdx_iff_getElem?.mpr found
  exact List.mem_flatMap.mpr ⟨_, placed, List.mem_cons_self ..⟩

theorem attr_mem_elements_new {i j : Nat} {entity : Entity} {column : Attribute}
    (found : draft.entities[i]? = some entity) (columnAt : entity.attributes[j]? = some column) :
    .attr i j ∈ elements (Schema.new [] draft) := by
  rcases List.getElem?_eq_some_iff.mp columnAt with ⟨bound, -⟩
  have placed : (entity, i) ∈ draft.entities.zipIdx := List.mem_zipIdx_iff_getElem?.mpr found
  exact List.mem_flatMap.mpr ⟨_, placed,
    List.mem_cons_of_mem _ (List.mem_map_of_mem (List.mem_range.mpr bound))⟩

/-- Fresh uuids give distinct ids to the tables and columns of a script. -/
theorem hasDistinctIds_created (fresh : IsFresh uuid (Schema.new [] (created uuid tables))) :
    HasDistinctIds (created uuid tables) := by
  constructor
  · apply List.nodup_map_of_getElem?
    intro i j first second firstAt secondAt same
    rw [id_of_created firstAt, id_of_created secondAt] at same
    have drawn := fresh _ (entity_mem_elements_new firstAt) _ (entity_mem_elements_new secondAt)
      (List.append_cancel_left same)
    exact Element.entity.inj drawn
  · intro entity mem
    rcases List.mem_iff_getElem?.mp mem with ⟨index, entityAt⟩
    apply List.nodup_map_of_getElem?
    intro i j first second firstAt secondAt same
    rw [(column_of_created entityAt firstAt).1, (column_of_created entityAt secondAt).1] at same
    have drawn := fresh _ (attr_mem_elements_new entityAt firstAt) _
      (attr_mem_elements_new entityAt secondAt) (List.append_cancel_left same)
    exact (Element.attr.inj drawn).2

theorem hasDistinctIds_iff_outline : HasDistinctIds draft ↔
    ((outline draft).map Prod.fst).Nodup ∧
      ∀ table ∈ outline draft, (table.2.map Prod.fst).Nodup := by
  rw [HasDistinctIds, outline, List.map_map, List.forall_mem_map]
  simp only [List.map_map]
  rfl

/-- Linking keeps the ids of the created tables and columns. -/
theorem hasDistinctIds_linkedBy (ids : HasDistinctIds (created uuid tables)) :
    HasDistinctIds (linkedBy uuid tables links) := by
  have tableIds : (linkedBy uuid tables links).entities.map Entity.id =
      (created uuid tables).entities.map Entity.id := List.map_mapIdx_of_same fun _ _ => rfl
  refine ⟨by rw [tableIds]; exact ids.1, ?_⟩
  intro entity mem
  rcases List.mem_mapIdx.mp mem with ⟨index, bound, rfl⟩
  have columnIds : (markEntity (keyMarked uuid links) index
      ((created uuid tables).entities.get ⟨index, bound⟩)).attributes.map Attribute.id =
        ((created uuid tables).entities.get ⟨index, bound⟩).attributes.map Attribute.id :=
    List.map_mapIdx_of_same fun _ _ => rfl
  exact columnIds ▸ ids.2 _ (List.get_mem ..)

end Fresh

section Read

variable [Unicode] {uuid : Element → Str} {content : Str} {includePositions : Bool}
  {draft : SchemaDraft} {report : Report}

/-- The tables of a script, in the order of their statements. -/
def tablesIn (content : Str) : List ParsedTable := (tablesOf (scan content).1).map Prod.snd

omit [Unicode] in
theorem asTable_classify (tokens : List Token) : (classify tokens).asTable = parse tokens := by
  unfold classify
  split
  · cases parse tokens with
    | none => rfl
    | some table => rfl
  · rename_i elsewhere
    have nothing : parse tokens = none := by
      have missing : Cursor.eatWord tokens "create" = none := if_neg elsewhere
      simp only [parse, missing, Option.bind_eq_bind, Option.bind_none]
    rw [nothing]
    split
    · cases alter tokens <;> rfl
    · split
      · cases comment tokens <;> rfl
      · rfl

theorem tablesIn_eq (content : Str) :
    tablesIn content = (scan content).1.filterMap fun statement => parse statement.tokens := by
  have kept :=
    List.map_snd_filterMap_zipIdx (fun statement : Statement => (classify statement.tokens).asTable)
    (scan content).1 0
  simp only [asTable_classify] at kept
  rw [← kept]
  simp only [tablesIn, tablesOf, asTable_classify]

/-- No column holds two of the references that the script can link. -/
def LinksColumnsOnce (content : Str) : Prop :=
  ((placesOf (tablesIn content) (referencesOf (scan content).1)).map Prod.fst).Nodup

instance (content : Str) : Decidable (LinksColumnsOnce content) :=
  inferInstanceAs (Decidable (List.Nodup _))

/-- The draft that a script is read as, pass by pass. -/
theorem draft_of_read (returned : read uuid content includePositions = .ok (draft, report)) :
    draft = place (foldWith describe
      (foldWith (fun draft reference => link uuid draft reference.1 reference.2)
        (created uuid (tablesIn content)) (referencesOf (scan content).1)).1
      (commentsOf (scan content).1)).1 (scan content).2 ((tablesOf (scan content).1).map Prod.fst)
      includePositions := by
  rw [read] at returned
  dsimp only at returned
  split at returned
  · cases returned
  · exact (Prod.mk.inj (Except.ok.inj returned)).1.symm

/-- What each column of a draft has. -/
def columnsOf {α : Type} (get : Attribute → α) (draft : SchemaDraft) : List (List α) :=
  draft.entities.map fun entity => entity.attributes.map get

/-- What the passes over a draft leave alone in its columns is as the tables were parsed. -/
theorem columns_of_read {α : Type} {get : Attribute → α} {parsed : ParsedColumn → α}
    (keyed : ∀ attr reference, get { attr with foreignKey := some reference } = get attr)
    (described : ∀ attr text, get { attr with description := text } = get attr)
    (made : ∀ entity index column, get (attributeFrom uuid entity index column) = parsed column)
    (returned : read uuid content includePositions = .ok (draft, report)) :
    columnsOf get draft = (tablesIn content).map fun table => table.columns.map parsed := by
  have keptByLink (draft : SchemaDraft) (reference : Str × ParsedForeignKey) :
      columnsOf get (link uuid draft reference.1 reference.2).1 = columnsOf get draft := by
    apply map_link
    intro entity test key
    exact List.map_updateFirst_of_kept fun attr => keyed attr key
  have keptByDescribe (draft : SchemaDraft) (comment : Comment) :
      columnsOf get (describe draft comment).1 = columnsOf get draft := by
    apply map_describe
    · exact fun _ _ => rfl
    · intro entity test text
      exact List.map_updateFirst_of_kept fun attr => described attr text
  have linked :=
    foldWith_kept keptByLink (created uuid (tablesIn content)) (referencesOf (scan content).1)
  have commented := foldWith_kept keptByDescribe
    (foldWith (fun draft reference => link uuid draft reference.1 reference.2)
      (created uuid (tablesIn content)) (referencesOf (scan content).1)).1
    (commentsOf (scan content).1)
  rw [draft_of_read returned]
  refine (map_place (fun _ _ => rfl) _ _ _ _).trans (commented.trans (linked.trans ?_))
  apply List.map_mapIdx_of_same
  intro index table
  exact List.map_mapIdx_of_same fun _ _ => made _ _ _

/-- The lines of a script are drawn between the columns that its references join. -/
theorem relationships_of_read
    (fresh : IsFresh uuid (Schema.new [] (created uuid (tablesIn content))))
    (returned : read uuid content includePositions = .ok (draft, report)) :
    draft.relationships =
      (placesOf (tablesIn content) (referencesOf (scan content).1)).mapIdx (lineAt uuid) := by
  have linked := @foldWith_link_linkedBy uuid (tablesIn content) [] (hasDistinctIds_created fresh)
    (referencesOf (scan content).1)
  rw [linkedBy_nil, List.nil_append] at linked
  have passes := draft_of_read returned
  rw [linked] at passes
  rw [passes]
  exact foldWith_kept relationships_describe (linkedBy uuid (tablesIn content)
    (placesOf (tablesIn content) (referencesOf (scan content).1))) (commentsOf (scan content).1)

/-- Lines and keys match one to one exactly when the script links no column twice. -/
theorem keysMatchLines_iff
    (fresh : IsFresh uuid (Schema.new [] (created uuid (tablesIn content))))
    (returned : read uuid content includePositions = .ok (draft, report)) :
    KeysMatchLines draft ↔ LinksColumnsOnce content := by
  have createdIds := hasDistinctIds_created fresh
  have linked := @foldWith_link_linkedBy uuid (tablesIn content) [] createdIds
    (referencesOf (scan content).1)
  rw [linkedBy_nil, List.nil_append] at linked
  have passes := draft_of_read returned
  rw [linked] at passes
  have describedOutline := foldWith_kept outline_describe (linkedBy uuid (tablesIn content)
    (placesOf (tablesIn content) (referencesOf (scan content).1))) (commentsOf (scan content).1)
  have kept : outline draft = outline (linkedBy uuid (tablesIn content) (placesOf (tablesIn content)
      (referencesOf (scan content).1))) := by
    rw [passes, outline_place, describedOutline]
  have sameLines := relationships_of_read fresh returned
  have ids : HasDistinctIds draft := by
    rw [hasDistinctIds_iff_outline, kept, ← hasDistinctIds_iff_outline]
    exact hasDistinctIds_linkedBy createdIds
  constructor
  · exact nodup_of_keysMatchLines ids sameLines
  · apply keysMatchLines_of_nodup ids kept sameLines
    intro places mem
    exact hasColumn_of_mem_placesOf mem

end Read

/-- A column that is linked in its table, and a column that is linked later. -/
def linkedOnceScript : Str :=
  "CREATE TABLE x (id int PRIMARY KEY, a int REFERENCES x);
CREATE TABLE y (b int);
ALTER TABLE y ADD FOREIGN KEY (b) REFERENCES x (id);"

theorem keysMatchLines_linkedOnceScript : ∃ draft report,
    @read shelfUuid Unicode.ascii linkedOnceScript false = .ok (draft, report) ∧
      KeysMatchLines draft := by
  have fresh : IsFresh shelfUuid
      (Schema.new [] (created shelfUuid (@tablesIn Unicode.ascii linkedOnceScript))) := by
    decide +kernel
  have once : @LinksColumnsOnce Unicode.ascii linkedOnceScript := by decide +kernel
  have read_ : (@read shelfUuid Unicode.ascii linkedOnceScript false).isOk = true := by
    decide +kernel
  cases returned : @read shelfUuid Unicode.ascii linkedOnceScript false with
  | error error => simp [returned, Except.isOk, Except.toBool] at read_
  | ok result =>
      exact ⟨result.1, result.2, rfl,
        (@keysMatchLines_iff Unicode.ascii _ _ _ _ _ fresh returned).mpr once⟩

/-- A column that is linked in its own item, and again by a constraint of its table. -/
def linkedTwiceScript : Str :=
  "CREATE TABLE x (id int PRIMARY KEY);
CREATE TABLE y (id int PRIMARY KEY);
CREATE TABLE z (a int REFERENCES x, FOREIGN KEY (a) REFERENCES y);"

/-- The line to the first target stays when the key points at the second. -/
theorem not_keysMatchLines_linkedTwiceScript : ∃ draft report,
    @read shelfUuid Unicode.ascii linkedTwiceScript false = .ok (draft, report) ∧
      ¬KeysMatchLines draft := by
  have evaluated :
      ((@read shelfUuid Unicode.ascii linkedTwiceScript false).toOption.map fun result =>
      decide (HasDistinctIds result.1) && !decide (result.1.relationships.map fun line =>
        (line.toEntityId, line.toAttributeId)).Nodup) = some true := by
    decide +kernel
  cases returned : @read shelfUuid Unicode.ascii linkedTwiceScript false with
  | error error => simp [returned, Except.toOption] at evaluated
  | ok result =>
      rw [returned] at evaluated
      simp only [Except.toOption, Option.map_some, Option.some.injEq, Bool.and_eq_true,
        decide_eq_true_eq, Bool.not_eq_true', decide_eq_false_iff_not] at evaluated
      refine ⟨result.1, result.2, rfl, ?_⟩
      intro matched
      exact evaluated.2 (nodup_ends_of_keysMatchLines evaluated.1 matched)

end SchemaForge.Sql
