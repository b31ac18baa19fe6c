import SchemaForge.Exchange.CompareLaws

/-!
# Corresponding drawings are equal

The converse of soundness. Tables and columns that correspond have the same names, so where
names tell tables apart, and the columns of a table, the comparison pairs each element
with the one it corresponds to. Lines between the same columns are paired by their order, so
they have to say the same.
-/

namespace SchemaForge.Exchange

/-- No two tables share a name. -/
def TablesApart (draft : SchemaDraft) : Prop :=
  ∀ i j : Fin draft.entities.length, same (draft.entities.get i).name
    (draft.entities.get j).name = true → i = j

/-- No two columns of a table share a name. -/
def ColumnsApart (draft : SchemaDraft) : Prop :=
  ∀ first second : Place draft, first.1 = second.1 → same first.attr.name second.attr.name = true →
    first = second

/-- Lines between columns that are spelled alike say the same. -/
def LinesAgree (draft : SchemaDraft) : Prop :=
  ∀ link ∈ draft.relationships, ∀ other ∈ draft.relationships, same (ends draft link)
    (ends draft other) = true →
    other.cardinality = link.cardinality ∧ Str.trim link.description = Str.trim other.description

instance (draft : SchemaDraft) : Decidable (LinesAgree draft) :=
  inferInstanceAs
    (Decidable (∀ link ∈ draft.relationships, ∀ other ∈ draft.relationships, _ → _ ∧ _))

section Completeness

variable {left right : SchemaDraft} {pairing : Correspondence left right}

theorem isComplete_entityMatching (kept : pairing.KeepsElements) :
    IsComplete (entityMatching left right) := by
  refine isComplete_of_perm (same_eq_decide Entity.name)
    (perm_map_of_equiv pairing.table fun i => ?_)
  exact Str.eqIgnoreAsciiCase_iff.mp (kept.tableName i)

theorem isComplete_columnMatching (kept : pairing.KeepsElements) (i : Fin left.entities.length) :
    IsComplete (columnMatching (left.entities.get i) (right.entities.get (pairing.table i))) := by
  refine isComplete_of_perm (same_eq_decide Attribute.name)
    (perm_map_of_equiv (pairing.column i) fun j => ?_)
  exact Str.eqIgnoreAsciiCase_iff.mp (kept.columnName ⟨i, j⟩)

/-- Columns that are matched are the columns that correspond. -/
theorem sameColumn_of_mem (kept : pairing.KeepsElements) (columns : ColumnsApart left)
    {i : Fin left.entities.length} {attr other : Attribute}
    (mem : (attr, some other) ∈
      (columnMatching (left.entities.get i) (right.entities.get (pairing.table i))).1) :
        SameColumn attr other := by
  have fit := fits_of_mem_matchUp mem
  change same other.name attr.name = true at fit
  rcases mem_of_isComplete (isComplete_columnMatching kept i) mem with ⟨attrMem, otherMem⟩
  rcases List.get_of_mem attrMem with ⟨j, rfl⟩
  rcases List.get_of_mem otherMem with ⟨j', rfl⟩
  rcases (pairing.column i).surjective j' with ⟨source, rfl⟩
  have names : same (Place.attr ⟨i, source⟩).name (Place.attr ⟨i, j⟩).name = true :=
    Str.eqIgnoreAsciiCase_trans (kept.columnName ⟨i, source⟩) fit
  cases columns ⟨i, source⟩ ⟨i, j⟩ rfl names
  exact kept.column ⟨i, j⟩

theorem sameTable_of_mem (kept : pairing.KeepsElements) (columns : ColumnsApart left)
    (tables : TablesApart left) {entity other : Entity}
    (mem : (entity, some other) ∈ (entityMatching left right).1) :
    SameTable true entity other := by
  have fit := fits_of_mem_matchUp mem
  change same other.name entity.name = true at fit
  rcases mem_of_isComplete (isComplete_entityMatching kept) mem with ⟨entityMem, otherMem⟩
  rcases List.get_of_mem entityMem with ⟨i, rfl⟩
  rcases List.get_of_mem otherMem with ⟨i', rfl⟩
  rcases pairing.table.surjective i' with ⟨source, rfl⟩
  cases tables source i (Str.eqIgnoreAsciiCase_trans (kept.tableName source) fit)
  exact ⟨kept.tableDescription i, fun _ => kept.position i, isComplete_columnMatching kept i,
    fun _ _ => sameColumn_of_mem kept columns⟩

theorem sameKeys_of_keepsForeignKeys (kept : pairing.KeepsElements)
    (keys : pairing.KeepsForeignKeys) (apart : SpellsApart left) (leftIds : HasDistinctIds left)
    (rightIds : HasDistinctIds right) (resolve : KeysResolve left) : SameKeys left right := by
  constructor
  · intro key mem
    rcases Place.mem_references.mp mem with ⟨place, reference, points, rfl⟩
    rcases resolve place reference points with ⟨target, ids⟩
    rcases keys.target place reference target points ids with ⟨other, answers, otherIds⟩
    have listed := exists_of_mem_references answers
    have some_ : ((references right).find? fun other => same other.1 place.spell).isSome = true :=
      List.find?_isSome.mpr ⟨_, listed, same_symm (kept.spell place)⟩
    rcases Option.isSome_iff_exists.mp some_ with ⟨answer, found⟩
    refine ⟨answer, found, ?_⟩
    have holder : same answer.1 place.spell = true := by simpa using List.find?_some found
    rcases Place.mem_references.mp (List.mem_of_find?_eq_some found) with
      ⟨image, reference', points', rfl⟩
    cases eq_place_of_same kept apart (isEnd_of_foreignKey points) holder
    cases points'.symm.trans answers
    rw [Place.pointAt_eq_spell rightIds otherIds, Place.pointAt_eq_spell leftIds ids]
    exact same_symm (kept.spell target)
  · intro other mem
    rcases Place.mem_references.mp mem with ⟨image, reference, points, rfl⟩
    rcases pairing.place.surjective image with ⟨place, rfl⟩
    rcases Option.isSome_iff_exists.mp ((keys.keyed place).mpr (by rw [points]; rfl)) with
      ⟨source, held⟩
    exact ⟨_, exists_of_mem_references held, kept.spell place⟩

theorem same_ends_of_keepsLink (kept : pairing.KeepsElements) (leftIds : HasDistinctIds left)
    (rightIds : HasDistinctIds right) {link other : Relationship}
    (keeps : pairing.KeepsLink link other)
    (resolves : Resolves left link.fromEntityId link.fromAttributeId ∧
      Resolves left link.toEntityId link.toAttributeId) :
        same (ends left link) (ends right other) = true := by
  rcases resolves with ⟨⟨start, startIds⟩, stop, stopIds⟩
  rw [ends, ends, Place.pointAt_eq_spell leftIds startIds, Place.pointAt_eq_spell leftIds stopIds,
    Place.pointAt_eq_spell rightIds (keeps.start start startIds),
    Place.pointAt_eq_spell rightIds (keeps.stop stop stopIds)]
  exact same_append " -> " (kept.spell start) (kept.spell stop)

theorem sameLinks_of_keepsLinks (kept : pairing.KeepsElements) (drawn : pairing.KeepsLinks)
    (leftIds : HasDistinctIds left) (rightIds : HasDistinctIds right) (resolve : LinksResolve left)
    (agree : LinesAgree left) : SameLinks left right := by
  rcases drawn with ⟨lines, keeps⟩
  have alike (i : Fin left.relationships.length) :
      same (ends left (left.relationships.get i))
        (ends right (right.relationships.get (lines i))) = true :=
    same_ends_of_keepsLink kept leftIds rightIds (keeps i) (resolve _ (List.get_mem ..))
  have complete : IsComplete (linkMatching left right) := by
    refine isComplete_of_perm (same_eq_decide Prod.snd) ?_
    rw [links, links, List.map_map, List.map_map]
    exact perm_map_of_equiv lines fun i => Str.eqIgnoreAsciiCase_iff.mp (alike i)
  refine ⟨complete, fun link other mem => ?_⟩
  have fit := fits_of_mem_matchUp mem
  change same other.2 link.2 = true at fit
  rcases mem_of_isComplete complete mem with ⟨linkMem, otherMem⟩
  rcases List.mem_map.mp linkMem with ⟨taker, takerMem, rfl⟩
  rcases List.mem_map.mp otherMem with ⟨found, foundMem, rfl⟩
  rcases List.get_of_mem foundMem with ⟨i', rfl⟩
  -- The line it corresponds to is drawn between the same columns as the one that takes it.
  rcases lines.surjective i' with ⟨i, rfl⟩
  rcases agree taker takerMem _ (List.get_mem ..)
    (same_symm (Str.eqIgnoreAsciiCase_trans (alike i) fit)) with ⟨cardinality, description⟩
  exact ⟨(keeps i).cardinality.trans cardinality, description.trans (keeps i).description⟩

end Completeness

section Valid

variable [Unicode] {schema : Schema}

omit [Unicode] in
theorem resolves_of_isSome {entityId attributeId : Str}
    (found : (schema.resolve entityId attributeId).isSome = true) :
    Resolves schema.draft entityId attributeId := by
  rcases Option.isSome_iff_exists.mp found with ⟨⟨entity, attr⟩, resolved⟩
  rcases Schema.mem_of_resolve resolved with ⟨mem, attrMem, rfl, rfl⟩
  rcases @Place.exists_of_mem schema.draft entity attr mem attrMem with ⟨place, rfl, rfl⟩
  exact ⟨place, rfl, rfl⟩

theorem keysResolve_of_isValid (valid : Verifier.IsValid schema) : KeysResolve schema.draft := by
  intro place reference points
  rcases valid.foreignKey_resolves place.entity_mem place.attr_mem points with
    ⟨target, column, resolved, -⟩
  exact resolves_of_isSome (by rw [resolved]; rfl)

theorem linksResolve_of_isValid (valid : Verifier.IsValid schema) :
    LinksResolve schema.draft := fun _ mem =>
  ⟨resolves_of_isSome (valid.relationship_resolves mem).1,
    resolves_of_isSome (valid.relationship_resolves mem).2⟩

theorem tablesApart_of_isValid (valid : Verifier.IsValid schema) : TablesApart schema.draft :=
  fun _ _ alike =>
  List.injective_get_of_nodup_map valid.nodup_entityKeys
    (Verifier.nameKey_eq_of_eqIgnoreAsciiCase alike)

theorem columnsApart_of_isValid (valid : Verifier.IsValid schema) : ColumnsApart schema.draft := by
  rintro ⟨table, column⟩ ⟨table', column'⟩ sameTable alike
  cases sameTable
  have distinct := valid.nodup_attributeKeys (List.get_mem schema.draft.entities table)
  have columns : column = column' :=
    List.injective_get_of_nodup_map distinct (Verifier.nameKey_eq_of_eqIgnoreAsciiCase alike)
  rw [columns]

/--
The comparison of two valid schemas is equal exactly when they say the same up to names' case, ids
and order, if spellings tell the ends of the first's foreign keys and relationships apart from other
columns and its lines between the same columns say the same.
-/
theorem compare_isEqual_iff_corresponds {left right : Schema} (valid : Verifier.IsValid left)
    (valid' : Verifier.IsValid right) (leftIds : HasDistinctIds left.draft)
    (rightIds : HasDistinctIds right.draft) (apart : SpellsApart left.draft)
    (agree : LinesAgree left.draft) :
    (compare left.draft right.draft true).isEqual = true ↔ Corresponds left.draft right.draft := by
  rw [compare_isEqual_iff]
  constructor
  · intro equal
    rcases exists_keepsElements equal with ⟨pairing, kept⟩
    exact ⟨pairing, kept,
      keepsForeignKeys kept apart equal.keys leftIds rightIds (keysResolve_of_isValid valid'),
      keepsLinks kept apart equal.links leftIds rightIds (linksResolve_of_isValid valid)
        (linksResolve_of_isValid valid')⟩
  · rintro ⟨pairing, kept, keys, drawn⟩
    exact ⟨isComplete_entityMatching kept,
      fun _ _ => sameTable_of_mem kept (columnsApart_of_isValid valid)
        (tablesApart_of_isValid valid),
      sameKeys_of_keepsForeignKeys kept keys apart leftIds rightIds (keysResolve_of_isValid valid),
      sameLinks_of_keepsLinks kept drawn leftIds rightIds (linksResolve_of_isValid valid) agree⟩

end Valid

/-- The schema of a blog, whose table of users is called as given. -/
def blogSchema (users : Str) : Schema := .new "s" (postsDraft users ⟨"t", "k"⟩)

theorem compare_isEqual_iff_corresponds_blogSchema :
    Corresponds (blogSchema "users").draft (blogSchema "Users").draft := by
  have valid : @Verifier.IsValid Unicode.ascii (blogSchema "users") := rfl
  have valid' : @Verifier.IsValid Unicode.ascii (blogSchema "Users") := rfl
  have leftIds : HasDistinctIds (blogSchema "users").draft := by decide
  have rightIds : HasDistinctIds (blogSchema "Users").draft := by decide
  have apart : SpellsApart (blogSchema "users").draft := by decide
  have agree : LinesAgree (blogSchema "users").draft := by decide
  refine (@compare_isEqual_iff_corresponds Unicode.ascii _ _ valid valid' leftIds rightIds
    apart agree).mp ?_
  decide +kernel

end SchemaForge.Exchange
