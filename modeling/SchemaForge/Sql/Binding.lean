import SchemaForge.Sql.KeysAndLines

/-!
# Names bound to tables

A foreign key, a comment and a position line each name a table. The name is
looked up as it stands first, and by its last part if no table is named so. The
second lookup does not compare schemas, so a name `s.t` can be bound to a table
of another schema. This file says when it is.
-/

namespace SchemaForge.Sql

open Exchange

/-- The name carries a schema. -/
def isQualified (name : Str) : Bool := name.contains '.'

/-- A name `s.t` is bound to a table of this name, or to a table `t` that has no schema. -/
def BindsInSchema (name table : Str) : Prop :=
  isQualified name = true → Str.eqIgnoreAsciiCase table name = true ∨
    isQualified table = false ∧ Str.eqIgnoreAsciiCase table (Str.rsplitFirst '.' name) = true

instance (name table : Str) : Decidable (BindsInSchema name table) :=
  inferInstanceAs (Decidable (_ → _ ∨ _ ∧ _))

section Attached

/-- The drafts that the steps of a pass find, each with what its step is about. -/
def along {α : Type} (step : SchemaDraft → α → SchemaDraft × List Diagnostic) :
    SchemaDraft → List α → List (SchemaDraft × α)
  | _, [] => []
  | draft, item :: items => (draft, item) :: along step (step draft item).1 items

/-- The names of the tables with an id. -/
def namesOf (draft : SchemaDraft) (id : Str) : List Str :=
  (draft.entities.filter fun entity => entity.id == id).map Entity.name

/--
The names of a reference, each with the names of the tables at that end of the lines drawn for it.
-/
def endsDrawn (before after : SchemaDraft) (reference : Str × ParsedForeignKey) :
    List (Str × Str) :=
  (after.relationships.drop before.relationships.length).flatMap fun line =>
    (namesOf after line.toEntityId).map (Prod.mk reference.1) ++
      (namesOf after line.fromEntityId).map (Prod.mk reference.2.table)

/--
The names of a reference, each with the tables that the foreign keys changed for it are in and point
at.
-/
def keysChanged (before after : SchemaDraft) (reference : Str × ParsedForeignKey) :
    List (Str × Str) :=
  (before.entities.zip after.entities).flatMap fun tables =>
    (tables.1.attributes.zip tables.2.attributes).flatMap fun columns =>
      if columns.1.foreignKey = columns.2.foreignKey then []
      else (reference.1, tables.2.name) :: columns.2.foreignKey.toList.flatMap fun key =>
        (namesOf after key.entityId).map (Prod.mk reference.2.table)

/-- For some text the comment would change the table. -/
def IsDescribedBy (draft : SchemaDraft) (comment : Comment) (index : Nat) : Prop :=
  ∃ text, (describe draft { comment with text := text }).1.entities[index]? ≠ draft.entities[index]?

/-- Somewhere else the position line would put the table somewhere else. -/
def IsPlacedBy (draft : SchemaDraft) (hints : List LayoutHint) (tableAt : List Nat)
    (includePositions : Bool) (line index : Nat) : Prop :=
  ∃ hint x y, hints[line]? = some hint ∧
    (place draft (hints.set line { hint with x := x, y := y }) tableAt
      includePositions).entities[index]? ≠
      (place draft hints tableAt includePositions).entities[index]?

/-- What a comment is written to is a table of the schema that it names. -/
def DescribesInSchema (draft : SchemaDraft) (comment : Comment) : Prop :=
  ∀ (index : Nat) (entity : Entity), draft.entities[index]? = some entity →
    IsDescribedBy draft comment index → BindsInSchema comment.table entity.name

variable (uuid : Element → Str)

/-- The steps that link the references of a script. -/
def linking (draft : SchemaDraft) (reference : Str × ParsedForeignKey) :
    SchemaDraft × List Diagnostic :=
  link uuid draft reference.1 reference.2

/-- The lines and keys for a reference are at tables of the schemas that it names. -/
def LinksInSchema (draft : SchemaDraft) (reference : Str × ParsedForeignKey) : Prop :=
  ∀ pair ∈ endsDrawn draft (linking uuid draft reference).1 reference ++
    keysChanged draft (linking uuid draft reference).1 reference, BindsInSchema pair.1 pair.2

instance (draft : SchemaDraft) (reference : Str × ParsedForeignKey) :
    Decidable (LinksInSchema uuid draft reference) :=
  inferInstanceAs (Decidable (∀ pair ∈ _ ++ _, BindsInSchema _ _))

variable [Unicode]

/-- The draft with every reference of a script linked. -/
def linked (content : Str) : SchemaDraft :=
  (foldWith (linking uuid) (created uuid (tablesIn content)) (referencesOf (scan content).1)).1

/-- The same with every comment written. -/
def described (content : Str) : SchemaDraft :=
  (foldWith describe (linked uuid content) (commentsOf (scan content).1)).1

/--
Whatever the reading of a script writes for a name it writes to a table of the name's schema: the
lines and keys of a reference, the text of a comment, and the place that a position line gives.
-/
structure AttachesInSchema (content : Str) (includePositions : Bool) : Prop where
  references :
    ∀ found ∈ along (linking uuid) (created uuid (tablesIn content))
      (referencesOf (scan content).1),
    LinksInSchema uuid found.1 found.2
  comments : ∀ found ∈ along describe (linked uuid content) (commentsOf (scan content).1),
    DescribesInSchema found.1 found.2
  positions : ∀ (line : Nat) (hint : LayoutHint), (scan content).2[line]? = some hint →
    ∀ (index : Nat) (entity : Entity), (described uuid content).entities[index]? = some entity →
      IsPlacedBy (described uuid content) (scan content).2
        ((tablesOf (scan content).1).map Prod.fst)
        includePositions line index → BindsInSchema hint.table entity.name

end Attached

section Passes

theorem namePlates_link {uuid : Element → Str} (draft : SchemaDraft) (holder : Str)
    (key : ParsedForeignKey) : namePlates (link uuid draft holder key).1 = namePlates draft := by
  apply map_link
  intro entity test reference
  exact congrArg (Prod.mk entity.name) (List.map_updateFirst_of_kept fun _ => rfl)

theorem namePlates_describe (draft : SchemaDraft) (comment : Comment) :
    namePlates (describe draft comment).1 = namePlates draft := by
  apply map_describe
  · exact fun _ _ => rfl
  · intro entity test text
    exact congrArg (Prod.mk entity.name) (List.map_updateFirst_of_kept fun _ => rfl)

/-- What holds of every draft that a pass finds is kept by its steps. -/
theorem forall_along {α : Type} {step : SchemaDraft → α → SchemaDraft × List Diagnostic}
    {P : SchemaDraft → Prop} (kept : ∀ draft item, P draft → P (step draft item).1)
    {draft : SchemaDraft} (first : P draft) {items : List α} :
    ∀ found ∈ along step draft items, P found.1 := by
  induction items generalizing draft with
  | nil => exact List.forall_mem_nil _
  | cons item items ih => exact List.forall_mem_cons.mpr ⟨first, ih (kept draft item first)⟩

theorem map_snd_along {α : Type} {step : SchemaDraft → α → SchemaDraft × List Diagnostic}
    (draft : SchemaDraft) (items : List α) : (along step draft items).map Prod.snd = items := by
  induction items generalizing draft with
  | nil => rfl
  | cons item items ih => exact congrArg (List.cons item) (ih (step draft item).1)

/-- What the steps of a pass do is said item by item, if it does not depend on the draft found. -/
theorem forall_along_iff {α : Type} {step : SchemaDraft → α → SchemaDraft × List Diagnostic}
    {P : SchemaDraft → Prop} {Q : SchemaDraft → α → Prop} {R : α → Prop}
    (kept : ∀ draft item, P draft → P (step draft item).1)
    (same : ∀ draft item, P draft → (Q draft item ↔ R item)) {draft : SchemaDraft} (first : P draft)
    (items : List α) :
    (∀ found ∈ along step draft items, Q found.1 found.2) ↔ ∀ item ∈ items, R item := by
  have each := @forall_along _ step P kept draft first items
  constructor
  · intro all item mem
    rw [← @map_snd_along _ step draft items] at mem
    rcases List.mem_map.mp mem with ⟨found, foundMem, rfl⟩
    exact (same found.1 found.2 (each found foundMem)).mp (all found foundMem)
  · intro all found mem
    refine (same found.1 found.2 (each found mem)).mpr (all found.2 ?_)
    rw [← @map_snd_along _ step draft items]
    exact List.mem_map_of_mem mem

end Passes

section Strays

/-- No table is named so, and the first whose last part fits lies in another schema. -/
def Strays (tables : List ParsedTable) (name : Str) : Prop :=
  isQualified name = true ∧
    (tables.any fun table => Str.eqIgnoreAsciiCase table.name name) = false ∧
    (tables.find? fun table => sameTable table.name name).any (fun table =>
      isQualified table.name) = true

instance (tables : List ParsedTable) (name : Str) : Decidable (Strays tables name) :=
  inferInstanceAs (Decidable (_ ∧ _ ∧ _))

theorem rsplitFirst_of_not_isQualified {name : Str} (plain : isQualified name = false) :
    Str.rsplitFirst '.' name = name := by
  rw [Str.rsplitFirst, List.rtakeWhile_eq_self_iff]
  intro c mem
  have different : c ≠ '.' := by
    rintro rfl
    rw [isQualified, List.contains_iff_mem.mpr mem] at plain
    cases plain
  simpa using different

/-- Among names that fit by their last part, only two schemas can be in the way. -/
theorem bindsInSchema_iff_of_sameTable {name table : Str} (fits : sameTable table name = true) :
    BindsInSchema name table ↔ (isQualified name = true → isQualified table = true →
      Str.eqIgnoreAsciiCase table name = true) := by
  constructor
  · intro binds qualified tableQualified
    rcases binds qualified with same | ⟨plain, -⟩
    · exact same
    · rw [tableQualified] at plain
      cases plain
  · intro agree qualified
    cases tableQualified : isQualified table with
    | true => exact Or.inl (agree qualified tableQualified)
    | false =>
        rw [sameTable, Bool.or_eq_true, rsplitFirst_of_not_isQualified tableQualified] at fits
        rcases fits with same | tails
        · exact Or.inl same
        · exact Or.inr ⟨rfl, tails⟩

theorem bindsInSchema_iff_not_strays {tables : List ParsedTable} {name : Str} {index : Nat}
    {table : ParsedTable} (found : tableFor tables name = some index)
    (tableAt : tables[index]? = some table) :
    BindsInSchema name table.name ↔ ¬Strays tables name := by
  rw [tableFor] at found
  cases named : tables.findIdx? fun table => Str.eqIgnoreAsciiCase table.name name with
  | some first =>
      rw [named, Option.some_or, Option.some.injEq] at found
      subst found
      have mem := List.mem_of_getElem? tableAt
      have same := List.of_findIdx?_eq_some named
      rw [tableAt] at same
      constructor
      · rintro - ⟨-, unnamed, -⟩
        rw [List.any_eq_false] at unnamed
        exact unnamed table mem same
      · intro _ _
        exact Or.inl same
  | none =>
      rw [named, Option.none_or] at found
      have fits := List.of_findIdx?_eq_some found
      rw [tableAt] at fits
      have first : (tables.find? fun table => sameTable table.name name) = some table := by
        rw [List.find?_eq_bind_findIdx?_getElem?, found, Option.bind_some, tableAt]
      have unnamed := List.findIdx?_eq_none_iff.mp named
      have differs := unnamed table (List.mem_of_getElem? tableAt)
      rw [bindsInSchema_iff_of_sameTable fits, Strays, first, differs, List.any_eq_false]
      simp only [Option.any_some, Bool.false_eq_true, imp_false]
      constructor
      · rintro agree ⟨qualified, -, tableQualified⟩
        exact agree qualified tableQualified
      · intro stays qualified tableQualified
        refine stays ⟨qualified, ?_, tableQualified⟩
        intro other mem same
        rw [unnamed other mem] at same
        cases same

end Strays

section References

variable {uuid : Element → Str} {tables : List ParsedTable}
    {links : List (ColumnPlace × ColumnPlace)}
  {places : ColumnPlace × ColumnPlace} {holder target : ParsedTable} {name : Str}

/-- The tables that a reference joins are those that its two names are looked up as. -/
theorem tables_of_columnsJoined {reference : Str × ParsedForeignKey}
    (joined : columnsJoined tables reference.1 reference.2 = some places) :
    ∃ holder target, tableFor tables reference.1 = some places.1.1 ∧
      tables[places.1.1]? = some holder ∧
      tableFor tables reference.2.table = some places.2.1 ∧ tables[places.2.1]? = some target := by
  simp only [columnsJoined, Option.bind_eq_bind, Option.bind_eq_some_iff, Option.pure_def,
    Option.some.injEq] at joined
  rcases joined with ⟨holderIndex, foundHolder, tableIndex, foundTable, holder, holderAt,
    target, targetAt, _, _, _, _, rfl⟩
  exact ⟨holder, target, foundHolder, holderAt, foundTable, targetAt⟩

/-- One table has the id that the table at an index is created with. -/
theorem mem_namesOf_linkedBy (ids : HasDistinctIds (created uuid tables)) {index : Nat}
    {table : ParsedTable} (tableAt : tables[index]? = some table) :
    name ∈ namesOf (linkedBy uuid tables links) (freshId uuid (.entity index)) ↔
      name = table.name := by
  have createdAt : (created uuid tables).entities[index]? = some (entityFrom uuid index table) := by
    rw [getElem?_created, tableAt, Option.map_some]
  have linkedAt : (linkedBy uuid tables links).entities[index]? =
      some (markEntity (keyMarked uuid links) index (entityFrom uuid index table)) := by
    rw [linkedBy, getElem?_marked, createdAt, Option.map_some]
  have distinct := (hasDistinctIds_linkedBy ids : HasDistinctIds (linkedBy uuid tables links)).1
  have mem := List.mem_of_getElem? linkedAt
  simp only [namesOf, List.mem_map, List.mem_filter, beq_iff_eq]
  constructor
  · rintro ⟨entity, ⟨entityMem, same⟩, rfl⟩
    rw [List.inj_on_of_nodup_map distinct entityMem mem same]
    rfl
  · rintro rfl
    exact ⟨_, ⟨mem, rfl⟩, rfl⟩

/-- The line for a reference ends at the two tables that it joins. -/
theorem mem_endsDrawn_linkedBy (ids : HasDistinctIds (created uuid tables))
    (holderAt : tables[places.1.1]? = some holder) (targetAt : tables[places.2.1]? = some target)
    {reference : Str × ParsedForeignKey} {pair : Str × Str} :
    pair ∈ endsDrawn (linkedBy uuid tables links)
      (linkedBy uuid tables (links ++ [places])) reference ↔
      pair = (reference.1, holder.name) ∨ pair = (reference.2.table, target.name) := by
  have added : (linkedBy uuid tables (links ++ [places])).relationships.drop
      (linkedBy uuid tables links).relationships.length = [lineAt uuid links.length places] := by
    change ((links ++ [places]).mapIdx (lineAt uuid)).drop (links.mapIdx (lineAt uuid)).length = _
    rw [List.mapIdx_append, List.drop_left, List.mapIdx_singleton, Nat.zero_add]
  have holderEnd {name : Str} :=
    @mem_namesOf_linkedBy uuid tables (links ++ [places]) name ids _ _ holderAt
  have targetEnd {name : Str} :=
    @mem_namesOf_linkedBy uuid tables (links ++ [places]) name ids _ _ targetAt
  rw [endsDrawn, added, List.flatMap_singleton, List.mem_append, List.mem_map, List.mem_map]
  constructor
  · rintro (⟨name, mem, rfl⟩ | ⟨name, mem, rfl⟩)
    · exact Or.inl (congrArg (Prod.mk reference.1) (holderEnd.mp mem))
    · exact Or.inr (congrArg (Prod.mk reference.2.table) (targetEnd.mp mem))
  · rintro (rfl | rfl)
    · exact Or.inl ⟨_, holderEnd.mpr rfl, rfl⟩
    · exact Or.inr ⟨_, targetEnd.mpr rfl, rfl⟩

/-- The foreign key for a reference is in the one table and points at the other. -/
theorem of_mem_keysChanged_linkedBy (ids : HasDistinctIds (created uuid tables))
    (holderAt : tables[places.1.1]? = some holder) (targetAt : tables[places.2.1]? = some target)
    {reference : Str × ParsedForeignKey} {pair : Str × Str}
    (changed : pair ∈ keysChanged (linkedBy uuid tables links)
      (linkedBy uuid tables (links ++ [places])) reference) :
    pair = (reference.1, holder.name) ∨ pair = (reference.2.table, target.name) := by
  rw [keysChanged, List.mem_flatMap] at changed
  rcases changed with ⟨⟨before, after⟩, tablesMem, changed⟩
  rcases List.mem_iff_getElem?.mp tablesMem with ⟨i, tablesAt⟩
  rcases List.getElem?_zip_eq_some.mp tablesAt with ⟨beforeAt, afterAt⟩
  rw [linkedBy, getElem?_marked, Option.map_eq_some_iff] at beforeAt afterAt
  rcases beforeAt with ⟨entity, entityAt, rfl⟩
  rcases afterAt with ⟨_, sameAt, rfl⟩
  rcases Option.some.inj (entityAt.symm.trans sameAt)
  rcases List.mem_flatMap.mp changed with ⟨⟨first, second⟩, columnsMem, changed⟩
  rcases List.mem_iff_getElem?.mp columnsMem with ⟨j, columnsAt⟩
  rcases List.getElem?_zip_eq_some.mp columnsAt with ⟨firstAt, secondAt⟩
  rw [getElem?_markEntity, Option.map_eq_some_iff] at firstAt secondAt
  rcases firstAt with ⟨_, -, rfl⟩
  rcases secondAt with ⟨_, -, rfl⟩
  dsimp only at changed
  -- Only the column that holds the reference has a new foreign key.
  by_cases here : (i, j) = places.1
  · have placed : i = places.1.1 := congrArg Prod.fst here
    have held : (markEntity (keyMarked uuid (links ++ [places])) i entity).name = holder.name := by
      rw [placed, getElem?_created, holderAt, Option.map_some, Option.some.injEq] at entityAt
      rw [← entityAt]
      rfl
    have key : keyMarked uuid (links ++ [places]) (i, j) = some (referenceAt uuid places.2) := by
      rw [keyMarked_append, mark, if_pos here]
    rw [key] at changed
    split at changed
    · cases changed
    · rw [List.mem_cons, Option.toList_some, List.flatMap_singleton, List.mem_map] at changed
      rcases changed with rfl | ⟨name, mem, rfl⟩
      · exact Or.inl (congrArg (Prod.mk reference.1) held)
      · exact Or.inr
          (congrArg (Prod.mk reference.2.table) ((mem_namesOf_linkedBy ids targetAt).mp mem))
  · rw [keyMarked_append, mark, if_neg here, if_pos rfl] at changed
    cases changed

theorem endsDrawn_self (draft : SchemaDraft) (reference : Str × ParsedForeignKey) :
    endsDrawn draft draft reference = [] := by
  rw [endsDrawn, List.drop_length, List.flatMap_nil]

theorem keysChanged_self (draft : SchemaDraft) (reference : Str × ParsedForeignKey) :
    keysChanged draft draft reference = [] := by
  rw [keysChanged, List.flatMap_eq_nil_iff]
  intro tables tablesMem
  rw [List.flatMap_eq_nil_iff]
  intro columns columnsMem
  rw [List.fst_eq_snd_of_mem_zip_self tablesMem] at columnsMem
  rw [if_pos (congrArg Attribute.foreignKey (List.fst_eq_snd_of_mem_zip_self columnsMem))]

/--
What a step writes for a reference lies in the schemas of its names unless one of them strays.
-/
theorem linksInSchema_iff (ids : HasDistinctIds (created uuid tables))
    (reference : Str × ParsedForeignKey) :
    LinksInSchema uuid (linkedBy uuid tables links) reference ↔
      ((columnsJoined tables reference.1 reference.2).isSome = true →
        ¬Strays tables reference.1 ∧ ¬Strays tables reference.2.table) := by
  cases joined : columnsJoined tables reference.1 reference.2 with
  | none =>
      have missing : linkedPlaces (linkedBy uuid tables links) reference.1 reference.2 = none := by
        rw [linkedPlaces_eq namePlates_linkedBy, joined]
      simp [LinksInSchema, linking, link_of_linkedPlaces_eq_none missing, endsDrawn_self,
        keysChanged_self]
  | some places =>
      rcases tables_of_columnsJoined joined with
        ⟨holder, target, foundHolder, holderAt, foundTarget, targetAt⟩
      have ends {pair : Str × Str} :=
        @mem_endsDrawn_linkedBy uuid tables links places holder target ids holderAt
        targetAt reference pair
      have keys {pair : Str × Str} :=
        @of_mem_keysChanged_linkedBy uuid tables links places holder target ids
        holderAt targetAt reference pair
      rw [LinksInSchema, linking, link_linkedBy ids joined,
        ← bindsInSchema_iff_not_strays foundHolder holderAt,
        ← bindsInSchema_iff_not_strays foundTarget targetAt]
      constructor
      · intro all _
        exact ⟨all _ (List.mem_append_left _ (ends.mpr (Or.inl rfl))),
          all _ (List.mem_append_left _ (ends.mpr (Or.inr rfl)))⟩
      · intro both pair mem
        rcases (List.mem_append.mp mem).elim ends.mp keys with rfl | rfl
        · exact (both rfl).1
        · exact (both rfl).2

end References

section Comments

variable {tables : List ParsedTable} {draft : SchemaDraft} {comment : Comment} {index : Nat}

/-- The comment is about a table of the script, and about a column of it if it names one. -/
def isAboutTable (tables : List ParsedTable) (comment : Comment) : Bool :=
  ((tableFor tables comment.table).bind fun index => tables[index]?).any fun table =>
    comment.column.all fun column => (columnFor table column).isSome

theorem exists_table_of_entity (plates : namePlates draft = tables.map plateOf) {entity : Entity}
    (entityAt : draft.entities[index]? = some entity) : ∃ table, tables[index]? = some table ∧
      entity.name = table.name ∧ ∀ column, columnIndex entity column = columnFor table column := by
  have plate := plates_at plates index
  rw [entityAt, Option.map_some, eq_comm, Option.map_eq_some_iff] at plate
  rcases plate with ⟨table, tableAt, same⟩
  exact ⟨table, tableAt, (Prod.mk.inj same).1.symm, columnIndex_eq (Prod.mk.inj same).2.symm⟩

theorem attributeByName_isSome (entity : Entity) (column : Str) :
    (entity.attributeByName column).isSome = (columnIndex entity column).isSome := by
  rw [Entity.attributeByName, columnIndex, List.findIdx?_isSome, List.isSome_find?]

/-- A comment leaves every table alone but the one that its name is looked up as. -/
theorem getElem?_describe_of_ne (plates : namePlates draft = tables.map plateOf)
    (elsewhere : tableFor tables comment.table ≠ some index) :
    (describe draft comment).1.entities[index]? = draft.entities[index]? := by
  rw [← find_eq plates] at elsewhere
  unfold describe
  split
  · rfl
  · rename_i found lookedUp
    have different : found ≠ index := by
      rintro rfl
      exact elsewhere lookedUp
    split
    · exact List.getElem?_modify_ne _ _ different
    · dsimp only
      split
      · exact List.getElem?_modify_ne _ _ different
      · rfl

theorem isDescribedBy_iff (plates : namePlates draft = tables.map plateOf) {entity : Entity}
    (entityAt : draft.entities[index]? = some entity) : IsDescribedBy draft comment index ↔
      isAboutTable tables comment = true ∧ tableFor tables comment.table = some index := by
  rcases exists_table_of_entity plates entityAt with ⟨table, tableAt, -, columns⟩
  by_cases here : tableFor tables comment.table = some index
  · have lookedUp (text : Str) : find draft { comment with text := text }.table = some index := by
      rw [find_eq plates, here]
    rw [isAboutTable, here, Option.bind_some, tableAt, Option.any_some, and_iff_left rfl]
    cases about : comment.column with
    | none =>
        refine iff_of_true ⟨'x' :: entity.description, ?_⟩ rfl
        simp only [describe, lookedUp, about, List.getElem?_modify_eq, entityAt, Option.map_eq_map,
          Option.map_some, ne_eq, Option.some.injEq]
        intro same
        exact List.cons_ne_self _ _ (congrArg Entity.description same)
    | some column =>
        rw [Option.all_some, ← columns]
        cases placed : columnIndex entity column with
        | none =>
            refine iff_of_false ?_ (by simp)
            rintro ⟨text, changed⟩
            simp [describe, lookedUp, about, entityAt, attributeByName_isSome, placed] at changed
        | some place =>
            refine iff_of_true ?_ rfl
            rcases exists_getElem?_of_findIdx? placed with ⟨attr, attrAt⟩
            refine ⟨'x' :: attr.description, ?_⟩
            simp only [describe, lookedUp, about, entityAt, Option.bind_some,
              attributeByName_isSome, placed, Option.isSome_some, if_true, List.getElem?_modify_eq,
              Option.map_eq_map, Option.map_some, ne_eq, Option.some.injEq]
            intro same
            have written :=
              congrArg (fun entity : Entity =>
                entity.attributes[place]?.map Attribute.description) same
            simp only [List.updateFirst_eq_modify _ placed, List.getElem?_modify_eq, attrAt,
              Option.map_eq_map, Option.map_some, Option.some.injEq] at written
            exact List.cons_ne_self _ _ written
  · refine iff_of_false ?_ fun both => here both.2
    rintro ⟨text, changed⟩
    exact changed
      (@getElem?_describe_of_ne tables draft { comment with text := text } index plates here)

theorem describesInSchema_iff (plates : namePlates draft = tables.map plateOf) (comment : Comment) :
    DescribesInSchema draft comment ↔
      (isAboutTable tables comment = true → ¬Strays tables comment.table) := by
  constructor
  · intro all about
    have found := about
    rw [isAboutTable, Option.any_eq_true] at found
    rcases found with ⟨table, foundTable, -⟩
    rcases Option.bind_eq_some_iff.mp foundTable with ⟨index, lookedUp, tableAt⟩
    have plate := plates_at plates index
    rw [tableAt, Option.map_some, Option.map_eq_some_iff] at plate
    rcases plate with ⟨entity, entityAt, same⟩
    have binds :=
      all index entity entityAt ((isDescribedBy_iff plates entityAt).mpr ⟨about, lookedUp⟩)
    rw [(Prod.mk.inj same).1] at binds
    exact (bindsInSchema_iff_not_strays lookedUp tableAt).mp binds
  · intro keeps index entity entityAt written
    rcases (isDescribedBy_iff plates entityAt).mp written with ⟨about, lookedUp⟩
    rcases exists_table_of_entity plates entityAt with ⟨table, tableAt, same, -⟩
    rw [same]
    exact (bindsInSchema_iff_not_strays lookedUp tableAt).mpr (keeps about)

end Comments

section Lines

variable {hints : List LayoutHint} {tableAt : Option Nat} {name : Str} {includePositions : Bool}

/-- The position line that places a table, if there is one. -/
def chosenHint (hints : List LayoutHint) (tableAt : Option Nat) (name : Str)
    (includePositions : Bool) : Option LayoutHint :=
  if includePositions then
    (hints.find? fun hint => hint.above == tableAt && sameTable hint.table name).or
      (hints.find? fun hint => sameTable hint.table name)
  else none

/-- The same by its place among the lines. -/
def chosenIndex (hints : List LayoutHint) (tableAt : Option Nat) (name : Str)
    (includePositions : Bool) : Option Nat :=
  if includePositions then
    (hints.findIdx? fun hint => hint.above == tableAt && sameTable hint.table name).or
      (hints.findIdx? fun hint => sameTable hint.table name)
  else none

theorem chosenHint_eq : chosenHint hints tableAt name includePositions =
    (chosenIndex hints tableAt name includePositions).bind (hints[·]?) := by
  rw [chosenHint, chosenIndex]
  split
  · rw [List.find?_eq_bind_findIdx?_getElem?, List.find?_eq_bind_findIdx?_getElem?]
    cases above : hints.findIdx? fun hint => hint.above == tableAt && sameTable hint.table name with
    | none => rw [Option.bind_none, Option.none_or, Option.none_or]
    | some index =>
        rcases exists_getElem?_of_findIdx? above with ⟨hint, hintAt⟩
        rw [Option.bind_some, Option.some_or, Option.bind_some, hintAt, Option.some_or]
  · rfl

theorem exists_of_chosenIndex {line : Nat}
    (chosen : chosenIndex hints tableAt name includePositions = some line) :
    ∃ hint, hints[line]? = some hint ∧ sameTable hint.table name = true := by
  rw [chosenIndex] at chosen
  split at chosen
  · rcases Option.or_eq_some_iff.mp chosen with above | ⟨-, anywhere⟩
    · rcases exists_getElem?_of_findIdx? above with ⟨hint, hintAt⟩
      have fits := List.of_findIdx?_eq_some above
      rw [hintAt] at fits
      exact ⟨hint, hintAt, (Bool.and_eq_true_iff.mp fits).2⟩
    · rcases exists_getElem?_of_findIdx? anywhere with ⟨hint, hintAt⟩
      have fits := List.of_findIdx?_eq_some anywhere
      rw [hintAt] at fits
      exact ⟨hint, hintAt, fits⟩
  · cases chosen

theorem placeAt_eq (index : Nat) : placeAt hints tableAt name index includePositions =
    (chosenHint hints tableAt name includePositions).elim (gridSlot index) fun hint =>
      ⟨hint.x, hint.y⟩ := by
  rw [placeAt, ← chosenHint]
  cases chosenHint hints tableAt name includePositions <;> rfl

/-- Where a position line puts its table has no say in which line is chosen. -/
theorem chosenIndex_set {line : Nat} {hint : LayoutHint}
    (hintAt : hints[line]? = some hint) (x y : F64) :
    chosenIndex (hints.set line { hint with x := x, y := y }) tableAt name includePositions =
      chosenIndex hints tableAt name includePositions := by
  have same (test : LayoutHint → Bool) (fits : test { hint with x := x, y := y } = test hint) :=
    List.findIdx?_set_of_same hintAt fits
  rw [chosenIndex, chosenIndex,
    same (fun hint => hint.above == tableAt && sameTable hint.table name) rfl,
    same (fun hint => sameTable hint.table name) rfl]

theorem exists_ne_coordinate (x : F64) : ∃ other, other ≠ x := by
  by_cases unordered : x = .nan
  · rw [unordered]
    exact ⟨.infinite false, F64.noConfusion⟩
  · exact ⟨.nan, fun same => unordered same.symm⟩

theorem isPlacedBy_iff {draft : SchemaDraft} {tableAt : List Nat} {line index : Nat}
    {entity : Entity} (entityAt : draft.entities[index]? = some entity) :
    IsPlacedBy draft hints tableAt includePositions line index ↔
      chosenIndex hints tableAt[index]? entity.name includePositions = some line := by
  have placed (hints : List LayoutHint) :
      (place draft hints tableAt includePositions).entities[index]? =
      some { entity with
        position := placeAt hints tableAt[index]? entity.name index includePositions } := by
    rw [place, List.getElem?_mapIdx, entityAt, Option.map_some]
  constructor
  · rintro ⟨hint, x, y, hintAt, moved⟩
    by_contra other
    apply moved
    rw [placed, placed, placeAt_eq, placeAt_eq, chosenHint_eq, chosenHint_eq,
      chosenIndex_set hintAt]
    cases chosen : chosenIndex hints tableAt[index]? entity.name includePositions with
    | none => rfl
    | some first =>
        have different : line ≠ first := by
          rintro rfl
          exact other chosen
        rw [Option.bind_some, Option.bind_some, List.getElem?_set_ne different]
  · intro chosen
    rcases exists_of_chosenIndex chosen with ⟨hint, hintAt, -⟩
    rcases exists_ne_coordinate hint.x with ⟨x, elsewhere⟩
    refine ⟨hint, x, hint.y, hintAt, ?_⟩
    have bound := (List.getElem?_eq_some_iff.mp hintAt).1
    rw [placed, placed, placeAt_eq, placeAt_eq, chosenHint_eq, chosenHint_eq,
      chosenIndex_set hintAt, chosen, Option.bind_some, Option.bind_some, hintAt,
      List.getElem?_set_self bound]
    intro same
    exact elsewhere (congrArg (fun entity : Entity => entity.position.x) (Option.some.inj same))

theorem sameTable_comm (left right : Str) : sameTable left right = sameTable right left := by
  rw [sameTable, sameTable, Str.eqIgnoreAsciiCase_comm left,
    Str.eqIgnoreAsciiCase_comm (Str.rsplitFirst '.' left)]

end Lines

section Script

variable [Unicode] {uuid : Element → Str} {content : Str} {includePositions : Bool}
    {draft : SchemaDraft}

/--
A script that names no table across schemas: a name with a schema that is looked up for a reference,
a comment or a position line is not left to a table of another schema.
-/
structure KeepsToSchemas (content : Str) (includePositions : Bool) : Prop where
  references : ∀ reference ∈ referencesOf (scan content).1,
    (columnsJoined (tablesIn content) reference.1 reference.2).isSome = true →
      ¬Strays (tablesIn content) reference.1 ∧ ¬Strays (tablesIn content) reference.2.table
  comments : ∀ comment ∈ commentsOf (scan content).1,
    isAboutTable (tablesIn content) comment = true → ¬Strays (tablesIn content) comment.table
  lines : ∀ table ∈ tablesOf (scan content).1,
    ∀ hint ∈ chosenHint (scan content).2 (some table.1) table.2.name includePositions,
      isQualified hint.table = true → isQualified table.2.name = true →
        Str.eqIgnoreAsciiCase table.2.name hint.table = true

theorem namePlates_linked : namePlates (linked uuid content) = (tablesIn content).map plateOf := by
  have kept := fun draft (reference : Str × ParsedForeignKey) =>
    @namePlates_link uuid draft reference.1 reference.2
  exact (foldWith_kept kept (created uuid (tablesIn content)) _).trans namePlates_created

theorem namePlates_described :
    namePlates (described uuid content) = (tablesIn content).map plateOf :=
  (foldWith_kept namePlates_describe _ _).trans namePlates_linked

/-- A table of the draft is the table of a statement of the script, and the other way round. -/
theorem entity_iff_tablesOf (plates : namePlates draft = (tablesIn content).map plateOf)
    (index : Nat) :
    (draft.entities[index]?.map Entity.name) =
      (tablesOf (scan content).1)[index]?.map fun table => table.2.name := by
  have names := congrArg (Option.map Prod.fst) (plates_at plates index)
  rw [Option.map_map, Option.map_map, tablesIn, List.getElem?_map, Option.map_map] at names
  exact names

theorem lines_iff (plates : namePlates draft = (tablesIn content).map plateOf) :
    (∀ (line : Nat) (hint : LayoutHint), (scan content).2[line]? = some hint →
      ∀ (index : Nat) (entity : Entity), draft.entities[index]? = some entity →
        IsPlacedBy draft (scan content).2 ((tablesOf (scan content).1).map Prod.fst)
          includePositions line index →
          BindsInSchema hint.table entity.name) ↔
      ∀ table ∈ tablesOf (scan content).1,
        ∀ hint ∈ chosenHint (scan content).2 (some table.1) table.2.name includePositions,
          isQualified hint.table = true → isQualified table.2.name = true →
            Str.eqIgnoreAsciiCase table.2.name hint.table = true := by
  constructor
  · intro all table mem hint chosen
    rcases List.mem_iff_getElem?.mp mem with ⟨index, tableAt⟩
    have named := entity_iff_tablesOf plates index
    rw [tableAt, Option.map_some, Option.map_eq_some_iff] at named
    rcases named with ⟨entity, entityAt, same⟩
    rw [Option.mem_def, chosenHint_eq, Option.bind_eq_some_iff] at chosen
    rcases chosen with ⟨line, chosen, hintAt⟩
    have fits := exists_of_chosenIndex chosen
    rw [hintAt] at fits
    rcases fits with ⟨_, ⟨rfl⟩, fits⟩
    rw [sameTable_comm] at fits
    apply (bindsInSchema_iff_of_sameTable fits).mp
    rw [← same] at chosen ⊢
    apply all line hint hintAt index entity entityAt
    rw [isPlacedBy_iff entityAt, List.getElem?_map, tableAt, Option.map_some]
    exact chosen
  · intro keeps line hint hintAt index entity entityAt placed
    have named := entity_iff_tablesOf plates index
    rw [entityAt, Option.map_some, eq_comm, Option.map_eq_some_iff] at named
    rcases named with ⟨table, tableAt, same⟩
    rw [isPlacedBy_iff entityAt, List.getElem?_map, tableAt, Option.map_some, ← same] at placed
    have chosen :
        chosenHint (scan content).2 (some table.1) table.2.name includePositions = some hint := by
      rw [chosenHint_eq, placed, Option.bind_some, hintAt]
    have fits := exists_of_chosenIndex placed
    rw [hintAt] at fits
    rcases fits with ⟨_, ⟨rfl⟩, fits⟩
    rw [sameTable_comm] at fits
    rw [← same]
    exact (bindsInSchema_iff_of_sameTable fits).mpr
      (keeps table (List.mem_of_getElem? tableAt) hint chosen)

omit [Unicode] in
theorem linking_linkedBy {tables : List ParsedTable} (ids : HasDistinctIds (created uuid tables))
    (draft : SchemaDraft) (reference : Str × ParsedForeignKey)
    (before : ∃ links, draft = linkedBy uuid tables links) :
    ∃ links, (linking uuid draft reference).1 = linkedBy uuid tables links := by
  rcases before with ⟨links, rfl⟩
  cases joined : columnsJoined tables reference.1 reference.2 with
  | none =>
      have missing : linkedPlaces (linkedBy uuid tables links) reference.1 reference.2 = none := by
        rw [linkedPlaces_eq namePlates_linkedBy, joined]
      exact ⟨links, congrArg Prod.fst (link_of_linkedPlaces_eq_none missing)⟩
  | some places => exact ⟨links ++ [places], link_linkedBy ids joined⟩

/--
The draft is what the passes write, one after the other. What they write for a name goes to a table
of the name's schema exactly when the script names no table across schemas.
-/
theorem attachesInSchema_iff {report : Report}
    (fresh : IsFresh uuid (Schema.new [] (created uuid (tablesIn content))))
    (returned : read uuid content includePositions = .ok (draft, report)) :
    draft = place (described uuid content) (scan content).2
      ((tablesOf (scan content).1).map Prod.fst)
        includePositions ∧
      (AttachesInSchema uuid content includePositions ↔
        KeepsToSchemas content includePositions) := by
  refine ⟨draft_of_read returned, ?_⟩
  have ids := hasDistinctIds_created fresh
  have linkedFirst : ∃ links, created uuid (tablesIn content) =
      linkedBy uuid (tablesIn content) links :=
    ⟨[], linkedBy_nil.symm⟩
  have links (draft : SchemaDraft) (reference : Str × ParsedForeignKey)
      (before : ∃ links, draft = linkedBy uuid (tablesIn content) links) :=
    before.elim fun _ same => same ▸ linksInSchema_iff ids reference
  have references :=
    forall_along_iff (linking_linkedBy ids) links linkedFirst (referencesOf (scan content).1)
  have comments := forall_along_iff
    (fun draft comment before => (namePlates_describe draft comment).trans before)
    (fun draft comment before => describesInSchema_iff before comment)
    (@namePlates_linked _ uuid content) (commentsOf (scan content).1)
  have lines := @lines_iff _ content includePositions (described uuid content) namePlates_described
  constructor
  · intro attaches
    exact ⟨references.mp attaches.references, comments.mp attaches.comments,
      lines.mp attaches.positions⟩
  · intro keeps
    exact ⟨references.mpr keeps.references, comments.mpr keeps.comments, lines.mpr keeps.lines⟩

end Script

/-- A table named in two schemas, and whatever is attached names the one it is meant for. -/
def schemasScript : Str :=
  "-- @table \"s.t\" 120 340
CREATE TABLE s.t (id int PRIMARY KEY);
-- @table \"r.t\" 480 340
CREATE TABLE r.t (a int REFERENCES s.t (id));
COMMENT ON COLUMN r.t.a IS 'not the key';"

theorem attachesInSchema_schemasScript : ∃ draft report,
    @read shelfUuid Unicode.ascii schemasScript true = .ok (draft, report) ∧
      @AttachesInSchema shelfUuid Unicode.ascii schemasScript true := by
  have fresh : IsFresh shelfUuid
      (Schema.new [] (created shelfUuid (@tablesIn Unicode.ascii schemasScript))) := by
    decide +kernel
  have keeps : @KeepsToSchemas Unicode.ascii schemasScript true := by
    refine @KeepsToSchemas.mk Unicode.ascii _ _ ?_ ?_ ?_
    · decide +kernel
    · decide +kernel
    · decide +kernel
  have read_ : (@read shelfUuid Unicode.ascii schemasScript true).isOk = true := by
    decide +kernel
  cases returned : @read shelfUuid Unicode.ascii schemasScript true with
  | error error => simp [returned, Except.isOk, Except.toBool] at read_
  | ok result =>
      exact ⟨result.1, result.2, rfl,
        (@attachesInSchema_iff Unicode.ascii _ _ _ _ _ fresh returned).2.mpr keeps⟩

/-- A reference to a table of a schema that the script does not create. -/
def strayingScript : Str :=
  "CREATE TABLE r.t (id int PRIMARY KEY);
CREATE TABLE u (a int REFERENCES s.t (id));"

/-- The tables of a draft, each with the names of the tables that its foreign keys point at. -/
def pointsAt (draft : SchemaDraft) : List (Str × List (Option Str)) :=
  draft.entities.map fun entity =>
    (entity.name, (entity.attributes.filterMap Attribute.foreignKey).map fun reference =>
      ((Schema.new [] draft).entity reference.entityId).map Entity.name)

/-- The key of `u.a`, which names `s.t`, points at `r.t`. -/
theorem strayingScript_attaches_across_schemas :
    ((@read shelfUuid Unicode.ascii strayingScript false).toOption.map fun result =>
      pointsAt result.1) =
      some [("r.t".toList, []), ("u".toList, [some "r.t".toList])] ∧
      ¬@AttachesInSchema shelfUuid Unicode.ascii strayingScript false := by
  constructor
  · decide
  · intro attaches
    have binds := @AttachesInSchema.references _ Unicode.ascii _ _ attaches
    revert binds
    decide

end SchemaForge.Sql
