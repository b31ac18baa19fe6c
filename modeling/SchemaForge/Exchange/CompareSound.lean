import SchemaForge.Exchange.CompareEqual
import SchemaForge.Foundation.Lists

/-!
# Equal drawings correspond

Tables and columns are compared in pairs, but foreign keys and relationships
are compared by how their columns are spelled. Where spellings tell columns
apart and ends resolve, two drawings that compare equal correspond: there is a
bijection of their tables, columns and relationships that keeps everything the
comparison looks at, and carries ends to ends.
-/

namespace SchemaForge.Exchange

/-- The ids of a drawing's tables, and of each table's columns, are distinct. -/
def HasDistinctIds (draft : SchemaDraft) : Prop :=
  (draft.entities.map Entity.id).Nodup ∧
    ∀ entity ∈ draft.entities, (entity.attributes.map Attribute.id).Nodup

instance (draft : SchemaDraft) : Decidable (HasDistinctIds draft) :=
  inferInstanceAs (Decidable (_ ∧ _))

/-- Where ids are distinct, the ids of a column are written as the column. -/
theorem pointAt_of_mem {draft : SchemaDraft} (ids : HasDistinctIds draft) {entity : Entity}
    (mem : entity ∈ draft.entities) {attr : Attribute} (attrMem : attr ∈ entity.attributes) :
    pointAt draft entity.id attr.id = spellColumn entity attr := by
  have table := List.find?_eq_some_of_nodup ids.1 mem
  have column : entity.attributeById attr.id = some attr :=
    List.find?_eq_some_of_nodup (ids.2 entity mem) attrMem
  simp only [pointAt, table, column]

/-- The place of a column: its table's, and its own among the columns of the table. -/
abbrev Place (draft : SchemaDraft) : Type :=
  (table : Fin draft.entities.length) × Fin (draft.entities.get table).attributes.length

namespace Place

variable {draft : SchemaDraft}

def entity (place : Place draft) : Entity := draft.entities.get place.1

def attr (place : Place draft) : Attribute := place.entity.attributes.get place.2

def spell (place : Place draft) : Str := spellColumn place.entity place.attr

/-- The ids resolve to the column of this place. -/
def HasIds (place : Place draft) (entityId attributeId : Str) : Prop :=
  place.entity.id = entityId ∧ place.attr.id = attributeId

instance (place : Place draft) (entityId attributeId : Str) :
    Decidable (place.HasIds entityId attributeId) :=
  inferInstanceAs (Decidable (_ ∧ _))

theorem exists_of_mem {entity : Entity} {attr : Attribute} (mem : entity ∈ draft.entities)
    (attrMem : attr ∈ entity.attributes) :
    ∃ place : Place draft, place.entity = entity ∧ place.attr = attr := by
  obtain ⟨i, rfl⟩ := List.get_of_mem mem
  obtain ⟨j, rfl⟩ := List.get_of_mem attrMem
  exact ⟨⟨i, j⟩, rfl, rfl⟩

theorem entity_mem (place : Place draft) : place.entity ∈ draft.entities := List.get_mem ..

theorem attr_mem (place : Place draft) : place.attr ∈ place.entity.attributes := List.get_mem ..

/-- An end that resolves is written as the column it resolves to. -/
theorem pointAt_eq_spell (ids : HasDistinctIds draft) {place : Place draft}
    {entityId attributeId : Str} (resolves : place.HasIds entityId attributeId) :
    pointAt draft entityId attributeId = place.spell := by
  obtain ⟨rfl, rfl⟩ := resolves
  exact pointAt_of_mem ids place.entity_mem place.attr_mem

theorem mem_references {key : Str × Str} : key ∈ references draft ↔
    ∃ (place : Place draft) (reference : ForeignKeyRef), place.attr.foreignKey = some reference ∧
      key = (place.spell, pointAt draft reference.entityId reference.attributeId) := by
  rw [Exchange.mem_references]
  constructor
  · rintro ⟨entity, mem, attr, attrMem, reference, points, rfl⟩
    obtain ⟨place, rfl, rfl⟩ := exists_of_mem mem attrMem
    exact ⟨place, reference, points, rfl⟩
  · rintro ⟨place, reference, points, rfl⟩
    exact ⟨_, place.entity_mem, _, place.attr_mem, reference, points, rfl⟩

end Place

/-- A bijection of tables and, in each pair of tables, of columns. -/
structure Correspondence (left right : SchemaDraft) where
  table : Fin left.entities.length ≃ Fin right.entities.length
  column : ∀ i, Fin (left.entities.get i).attributes.length ≃
    Fin (right.entities.get (table i)).attributes.length

namespace Correspondence

variable {left right : SchemaDraft}

/-- The bijection of all columns. -/
def place (pairing : Correspondence left right) : Place left ≃ Place right :=
  Equiv.sigmaCongr pairing.table pairing.column

/-- Tables and columns keep what a comparison looks at in pairs. -/
structure KeepsElements (pairing : Correspondence left right) : Prop where
  tableName :
    ∀ i, same (left.entities.get i).name (right.entities.get (pairing.table i)).name = true
  tableDescription : ∀ i, Str.trim (left.entities.get i).description =
    Str.trim (right.entities.get (pairing.table i)).description
  position : ∀ i, (left.entities.get i).position.eq
    (right.entities.get (pairing.table i)).position = true
  columnName : ∀ place, same place.attr.name (pairing.place place).attr.name = true
  column : ∀ place, SameColumn place.attr (pairing.place place).attr

/-- Foreign keys are carried along, and so are the columns they resolve to. -/
structure KeepsForeignKeys (pairing : Correspondence left right) : Prop where
  keyed : ∀ place,
    place.attr.foreignKey.isSome = true ↔ (pairing.place place).attr.foreignKey.isSome = true
  target : ∀ (place : Place left) (reference : ForeignKeyRef) (target : Place left),
    place.attr.foreignKey = some reference →
      target.HasIds reference.entityId reference.attributeId →
        ∃ other, (pairing.place place).attr.foreignKey = some other ∧
          (pairing.place target).HasIds other.entityId other.attributeId

/-- A relationship is drawn between the images of the ends of another, and says the same. -/
structure KeepsLink (pairing : Correspondence left right) (link other : Relationship) : Prop where
  start : ∀ place : Place left, place.HasIds link.fromEntityId link.fromAttributeId →
    (pairing.place place).HasIds other.fromEntityId other.fromAttributeId
  stop : ∀ place : Place left, place.HasIds link.toEntityId link.toAttributeId →
    (pairing.place place).HasIds other.toEntityId other.toAttributeId
  cardinality : other.cardinality = link.cardinality
  description : Str.trim link.description = Str.trim other.description

/-- There is a bijection of the relationships that keeps them. -/
def KeepsLinks (pairing : Correspondence left right) : Prop :=
  ∃ links : Fin left.relationships.length ≃ Fin right.relationships.length,
    ∀ i, pairing.KeepsLink (left.relationships.get i) (right.relationships.get (links i))

end Correspondence

/-- Two drawings say the same, up to names' case, ids and order. -/
def Corresponds (left right : SchemaDraft) : Prop :=
  ∃ pairing : Correspondence left right,
    pairing.KeepsElements ∧ pairing.KeepsForeignKeys ∧ pairing.KeepsLinks

/-- A foreign key or a relationship starts or ends at the column. -/
def Place.IsEnd {draft : SchemaDraft} (place : Place draft) : Prop :=
  place.attr.foreignKey.isSome = true ∨
    (∃ holder : Place draft, ∃ reference ∈ holder.attr.foreignKey,
      place.HasIds reference.entityId reference.attributeId) ∨
    ∃ link ∈ draft.relationships, place.HasIds link.fromEntityId link.fromAttributeId ∨
      place.HasIds link.toEntityId link.toAttributeId

instance {draft : SchemaDraft} (place : Place draft) : Decidable place.IsEnd :=
  inferInstanceAs (Decidable (_ ∨ (∃ holder : Place draft, ∃ reference ∈ holder.attr.foreignKey,
    place.HasIds _ _) ∨ ∃ link ∈ draft.relationships, _ ∨ _))

/-- The spelling of a pair of ends tells which columns they are. -/
def SpellsApart (draft : SchemaDraft) : Prop :=
  ∀ first second : Place draft, first.IsEnd → second.IsEnd → ∀ first' second' : Place draft,
    same (first'.spell ++ " -> " ++ second'.spell) (first.spell ++ " -> " ++ second.spell) = true →
      first' = first ∧ second' = second

instance (draft : SchemaDraft) : Decidable (SpellsApart draft) :=
  inferInstanceAs (Decidable (∀ first second : Place draft, first.IsEnd → second.IsEnd →
    ∀ _ _ : Place draft, _ → _ ∧ _))

/-- The ids resolve to some column. -/
def Resolves (draft : SchemaDraft) (entityId attributeId : Str) : Prop :=
  ∃ place : Place draft, place.HasIds entityId attributeId

instance (draft : SchemaDraft) (entityId attributeId : Str) :
    Decidable (Resolves draft entityId attributeId) :=
  inferInstanceAs (Decidable (∃ _ : Place draft, _))

/-- Every foreign key resolves. -/
def KeysResolve (draft : SchemaDraft) : Prop :=
  ∀ place : Place draft, ∀ reference ∈ place.attr.foreignKey,
    Resolves draft reference.entityId reference.attributeId

/-- Both ends of every relationship resolve. -/
def LinksResolve (draft : SchemaDraft) : Prop :=
  ∀ link ∈ draft.relationships, Resolves draft link.fromEntityId link.fromAttributeId ∧
    Resolves draft link.toEntityId link.toAttributeId

instance (draft : SchemaDraft) : Decidable (LinksResolve draft) :=
  inferInstanceAs (Decidable (∀ link ∈ draft.relationships, _))

instance (draft : SchemaDraft) : Decidable (KeysResolve draft) :=
  inferInstanceAs (Decidable (∀ place : Place draft, ∀ reference ∈ place.attr.foreignKey, _))

section Soundness

variable {left right : SchemaDraft}

theorem same_symm {first second : Str} (alike : same first second = true) :
    same second first = true :=
  (Str.eqIgnoreAsciiCase_comm second first).trans alike

theorem same_append {first second first' second' : Str} (middle : Str)
    (alike : same first first' = true) (alike' : same second second' = true) :
    same (first ++ middle ++ second) (first' ++ middle ++ second') = true := by
  rw [same, Str.eqIgnoreAsciiCase_iff] at alike alike' ⊢
  simp only [Str.toAsciiLowercase_append, alike, alike']

/-- Tables that were matched completely are paired, with their columns. -/
theorem exists_keepsElements (equal : SameDraft true left right) :
    ∃ pairing : Correspondence left right, pairing.KeepsElements := by
  obtain ⟨table, tables⟩ := exists_equiv_of_isComplete equal.complete equal.tables
  have columns (i : Fin left.entities.length) :=
    exists_equiv_of_isComplete (tables i).2.complete (tables i).2.columns
  choose column kept using columns
  refine ⟨⟨table, column⟩, ?_, ?_, ?_, ?_, ?_⟩
  · exact fun i => same_symm (tables i).1
  · exact fun i => (tables i).2.description
  · exact fun i => (tables i).2.position rfl
  · exact fun place => same_symm (kept place.1 place.2).1
  · exact fun place => (kept place.1 place.2).2

theorem Correspondence.KeepsElements.spell {pairing : Correspondence left right}
    (kept : pairing.KeepsElements) (place : Place left) :
    same place.spell (pairing.place place).spell = true :=
  same_append "." (kept.tableName place.1) (kept.columnName place)

/-- A pair of columns that is spelled like a pair of ends is its image. -/
theorem eq_place_of_same_pair {pairing : Correspondence left right} (kept : pairing.KeepsElements)
    (apart : SpellsApart left) {first second : Place left} (firstEnd : first.IsEnd)
    (secondEnd : second.IsEnd) {first' second' : Place right}
    (alike : same (first'.spell ++ " -> " ++ second'.spell)
      (first.spell ++ " -> " ++ second.spell) = true) :
    first' = pairing.place first ∧ second' = pairing.place second := by
  obtain ⟨source, rfl⟩ := pairing.place.surjective first'
  obtain ⟨source', rfl⟩ := pairing.place.surjective second'
  have images := same_append " -> " (kept.spell source) (kept.spell source')
  obtain ⟨rfl, rfl⟩ := apart _ _ firstEnd secondEnd _ _ (Str.eqIgnoreAsciiCase_trans images alike)
  exact ⟨rfl, rfl⟩

/-- A column that is spelled like an end is its image. -/
theorem eq_place_of_same {pairing : Correspondence left right} (kept : pairing.KeepsElements)
    (apart : SpellsApart left) {place : Place left} (placeEnd : place.IsEnd) {other : Place right}
    (alike : same other.spell place.spell = true) : other = pairing.place place :=
  (eq_place_of_same_pair kept apart placeEnd placeEnd (same_append " -> " alike alike)).1

theorem isEnd_of_foreignKey {place : Place left} {reference : ForeignKeyRef}
    (points : place.attr.foreignKey = some reference) : place.IsEnd :=
  Or.inl (Option.isSome_of_eq_some points)

theorem isEnd_of_target {holder place : Place left} {reference : ForeignKeyRef}
    (points : holder.attr.foreignKey = some reference)
    (resolves : place.HasIds reference.entityId reference.attributeId) : place.IsEnd :=
  Or.inr (Or.inl ⟨holder, reference, points, resolves⟩)

theorem exists_of_mem_references {place : Place left} {reference : ForeignKeyRef}
    (points : place.attr.foreignKey = some reference) :
    (place.spell, pointAt left reference.entityId reference.attributeId) ∈ references left :=
  Place.mem_references.mpr ⟨place, reference, points, rfl⟩

/-- The foreign key of a column is answered by the foreign key of its image. -/
theorem exists_foreignKey_of_sameKeys {pairing : Correspondence left right}
    (kept : pairing.KeepsElements) (apart : SpellsApart left) (keys : SameKeys left right)
    {place : Place left} {reference : ForeignKeyRef}
    (points : place.attr.foreignKey = some reference) :
    ∃ other, (pairing.place place).attr.foreignKey = some other ∧
      same (pointAt right other.entityId other.attributeId)
        (pointAt left reference.entityId reference.attributeId) = true := by
  obtain ⟨answer, found, target⟩ := keys.found _ (exists_of_mem_references points)
  have holder : same answer.1 place.spell = true := by simpa using List.find?_some found
  obtain ⟨image, other, answers, rfl⟩ :=
    Place.mem_references.mp (List.mem_of_find?_eq_some found)
  obtain rfl := eq_place_of_same kept apart (isEnd_of_foreignKey points) holder
  exact ⟨other, answers, target⟩

theorem keepsForeignKeys {pairing : Correspondence left right} (kept : pairing.KeepsElements)
    (apart : SpellsApart left) (keys : SameKeys left right) (leftIds : HasDistinctIds left)
    (rightIds : HasDistinctIds right) (resolve : KeysResolve right) :
    pairing.KeepsForeignKeys := by
  constructor
  · intro place
    constructor
    · intro keyed
      obtain ⟨reference, points⟩ := Option.isSome_iff_exists.mp keyed
      obtain ⟨other, answers, -⟩ := exists_foreignKey_of_sameKeys kept apart keys points
      exact Option.isSome_iff_exists.mpr ⟨other, answers⟩
    · intro keyed
      obtain ⟨other, answers⟩ := Option.isSome_iff_exists.mp keyed
      obtain ⟨_, mem, holder⟩ := keys.known _ (exists_of_mem_references answers)
      obtain ⟨source, reference, points, rfl⟩ := Place.mem_references.mp mem
      -- The column that was found is spelled like the image of this one, so it is this one.
      have alike := eq_place_of_same kept apart (isEnd_of_foreignKey points) (same_symm holder)
      rw [pairing.place.injective alike]
      exact Option.isSome_iff_exists.mpr ⟨reference, points⟩
  · intro place reference target points resolves
    obtain ⟨other, answers, alike⟩ := exists_foreignKey_of_sameKeys kept apart keys points
    obtain ⟨image, ids⟩ := resolve _ other answers
    rw [Place.pointAt_eq_spell rightIds ids, Place.pointAt_eq_spell leftIds resolves] at alike
    obtain rfl := eq_place_of_same kept apart (isEnd_of_target points resolves) alike
    exact ⟨other, answers, ids⟩

theorem ids_unique {draft : SchemaDraft} (ids : HasDistinctIds draft) {place other : Place draft}
    {entityId attributeId : Str} (first : place.HasIds entityId attributeId)
    (second : other.HasIds entityId attributeId) : place = other := by
  obtain ⟨table, column⟩ := place
  obtain ⟨table', column'⟩ := other
  have tables : table = table' :=
    List.injective_get_of_nodup_map ids.1 (first.1.trans second.1.symm)
  subst tables
  have columns : column = column' :=
    List.injective_get_of_nodup_map (ids.2 _ (List.get_mem draft.entities table))
      (first.2.trans second.2.symm)
  rw [columns]

/-- A relationship and the one it is matched with are drawn between corresponding columns. -/
theorem keepsLink_of_same_ends {pairing : Correspondence left right} (kept : pairing.KeepsElements)
    (apart : SpellsApart left) (leftIds : HasDistinctIds left) (rightIds : HasDistinctIds right)
    {link other : Relationship} (drawn : link ∈ left.relationships)
    (resolves : Resolves left link.fromEntityId link.fromAttributeId ∧
      Resolves left link.toEntityId link.toAttributeId)
    (resolves' : Resolves right other.fromEntityId other.fromAttributeId ∧
      Resolves right other.toEntityId other.toAttributeId)
    (alike : same (ends right other) (ends left link) = true)
    (agree : other.cardinality = link.cardinality ∧
      Str.trim link.description = Str.trim other.description) :
    pairing.KeepsLink link other := by
  obtain ⟨⟨start, startIds⟩, stop, stopIds⟩ := resolves
  obtain ⟨⟨start', startIds'⟩, stop', stopIds'⟩ := resolves'
  rw [ends, ends, Place.pointAt_eq_spell leftIds startIds, Place.pointAt_eq_spell leftIds stopIds,
    Place.pointAt_eq_spell rightIds startIds', Place.pointAt_eq_spell rightIds stopIds'] at alike
  have startEnd : start.IsEnd := Or.inr (Or.inr ⟨link, drawn, Or.inl startIds⟩)
  have stopEnd : stop.IsEnd := Or.inr (Or.inr ⟨link, drawn, Or.inr stopIds⟩)
  obtain ⟨rfl, rfl⟩ := eq_place_of_same_pair kept apart startEnd stopEnd alike
  refine ⟨fun place ids => ?_, fun place ids => ?_, agree.1, agree.2⟩
  · rwa [ids_unique leftIds ids startIds]
  · rwa [ids_unique leftIds ids stopIds]

theorem keepsLinks {pairing : Correspondence left right} (kept : pairing.KeepsElements)
    (apart : SpellsApart left) (matched : SameLinks left right) (leftIds : HasDistinctIds left)
    (rightIds : HasDistinctIds right) (leftResolve : LinksResolve left)
    (rightResolve : LinksResolve right) : pairing.KeepsLinks := by
  have answered : ∃ image : List (Relationship × Str), image.Perm (links right) ∧
      List.Forall₂ (fun link other => pairing.KeepsLink link.1 other.1) (links left) image := by
    refine exists_forall₂_of_isComplete matched.complete ?_
    intro pair mem pair' mem' alike found
    obtain ⟨link, linkMem, rfl⟩ := List.mem_map.mp mem
    obtain ⟨other, otherMem, rfl⟩ := List.mem_map.mp mem'
    exact keepsLink_of_same_ends kept apart leftIds rightIds linkMem (leftResolve link linkMem)
      (rightResolve other otherMem) alike (matched.links _ _ found)
  obtain ⟨image, perm, related⟩ := answered
  have images : List.Forall₂ pairing.KeepsLink left.relationships (image.map Prod.fst) := by
    rw [List.forall₂_map_right_iff]
    exact List.forall₂_map_left_iff.mp related
  have drawn : (image.map Prod.fst).Perm right.relationships := by
    have mapped := perm.map Prod.fst
    rwa [links, List.map_map, show (Prod.fst ∘ fun link => (link, ends right link)) = id from rfl,
      List.map_id] at mapped
  exact exists_equiv_of_forall₂ images drawn

/--
Two drawings that compare equal correspond, when the ends of the second's foreign keys and of both
drawings' relationships resolve, and no pair of the first's columns is spelled like a pair of others
that its foreign keys or relationships end at.
-/
theorem corresponds_of_compare_isEqual (leftIds : HasDistinctIds left)
    (rightIds : HasDistinctIds right) (apart : SpellsApart left) (keys : KeysResolve right)
    (leftLinks : LinksResolve left) (rightLinks : LinksResolve right)
    (equal : (compare left right true).isEqual = true) : Corresponds left right := by
  have agree := compare_isEqual_iff.mp equal
  obtain ⟨pairing, kept⟩ := exists_keepsElements agree
  refine ⟨pairing, kept, ?_, ?_⟩
  · exact keepsForeignKeys kept apart agree.keys leftIds rightIds keys
  · exact keepsLinks kept apart agree.links leftIds rightIds leftLinks rightLinks

/-- Users and their posts, with a foreign key to `target` and a line drawn for it. -/
def postsDraft (users : Str) (target : ForeignKeyRef) : SchemaDraft :=
  let integer : DataType := ⟨.integer, none, none, none⟩
  let key : Attribute := { Attribute.new "k" "id" integer with
    nullable := false, primaryKey := true, unique := true }
  { name := "blog"
    description := []
    entities :=
      [{ Entity.new "t" users with attributes := [key] },
        { Entity.new "u" "posts" with
          attributes := [key, { Attribute.new "f" "author" integer with
            foreignKey := some target }] }]
    relationships := [.new "r" ("t", "k") ("u", "f") .oneToMany] }

theorem corresponds_postsDraft :
    Corresponds (postsDraft "users" ⟨"t", "k"⟩) (postsDraft "Users" ⟨"t", "k"⟩) :=
  corresponds_of_compare_isEqual (by decide) (by decide) (by decide)
    (by decide +kernel) (by decide +kernel) (by decide +kernel) (by decide +kernel)

/-- Ids that nothing resolves are compared as they stand, and may spell a column. -/
theorem not_corresponds_postsDraft :
    HasDistinctIds (postsDraft "users" ⟨"t", "k"⟩) ∧
      HasDistinctIds (postsDraft "users" ⟨"users", "id"⟩) ∧
      (compare (postsDraft "users" ⟨"t", "k"⟩) (postsDraft "users" ⟨"users", "id"⟩) true).isEqual =
        true ∧
      ¬Corresponds (postsDraft "users" ⟨"t", "k"⟩) (postsDraft "users" ⟨"users", "id"⟩) := by
  refine ⟨by decide +kernel, by decide +kernel, by decide +kernel, ?_⟩
  rintro ⟨pairing, -, keys, -⟩
  obtain ⟨other, answers, ids⟩ := keys.target ⟨⟨1, by decide⟩, ⟨1, by decide⟩⟩ ⟨"t", "k"⟩
    ⟨⟨0, by decide⟩, ⟨0, by decide⟩⟩ rfl ⟨rfl, rfl⟩
  have dangling : ∀ place : Place (postsDraft "users" ⟨"users", "id"⟩),
      ∀ reference ∈ place.attr.foreignKey,
        ¬Resolves (postsDraft "users" ⟨"users", "id"⟩) reference.entityId
          reference.attributeId := by
    decide
  exact dangling _ other answers ⟨_, ids⟩

end Soundness

end SchemaForge.Exchange
