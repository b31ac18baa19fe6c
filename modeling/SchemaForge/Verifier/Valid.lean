import SchemaForge.Verifier

/-!
# What a valid schema satisfies

Each lemma says what the silence of one check means for the schema. Later
developments use these facts and never unfold a check.
-/

namespace SchemaForge.Verifier

section Groups

variable {α : Type}

/-- The members of the group under a key. -/
def groupOf (key : Str) : List (Str × List α) → List α
  | [] => []
  | (existing, members) :: groups => if existing = key then members else groupOf key groups

theorem groupOf_addToGroup (key other : Str) (item : α) (groups : List (Str × List α)) :
    groupOf other (addToGroup key item groups) =
      if other = key then groupOf other groups ++ [item] else groupOf other groups := by
  induction groups with
  | nil =>
      by_cases same : key = other
      · simp [addToGroup, groupOf, same]
      · simp [addToGroup, groupOf, same, Ne.symm same]
  | cons group groups ih =>
      obtain ⟨existing, members⟩ := group
      by_cases found : existing = key
      · subst found
        by_cases same : existing = other
        · simp [addToGroup, groupOf, same]
        · simp [addToGroup, groupOf, same, Ne.symm same]
      · by_cases first : existing = other
        · subst first
          simp [addToGroup, groupOf, found]
        · simp [addToGroup, groupOf, found, first, ih]

theorem groupOf_mem {key : Str} {groups : List (Str × List α)}
    (nonempty : groupOf key groups ≠ []) :
    groupOf key groups ∈ groups.map Prod.snd := by
  induction groups with
  | nil => exact absurd rfl nonempty
  | cons group groups ih =>
      obtain ⟨existing, members⟩ := group
      by_cases first : existing = key
      · simp [groupOf, first]
      · simp only [groupOf, first, if_false] at nonempty ⊢
        exact List.mem_cons_of_mem _ (ih nonempty)

variable [Unicode]

/-- The key under which the check for duplicates files a name. -/
def nameKey (name : Str) : Str := Str.toLowercase (Str.trim name)

theorem groupOf_foldl {key : Str} (nonempty : key ≠ []) (items : List α) (name : α → Str)
    (groups : List (Str × List α)) :
    groupOf key (items.foldl (fun groups item =>
        let key := Str.toLowercase (Str.trim (name item))
        if key.isEmpty then groups else addToGroup key item groups) groups) =
      groupOf key groups ++ items.filter fun item => nameKey (name item) = key := by
  induction items generalizing groups with
  | nil => simp
  | cons item items ih =>
      rw [List.foldl_cons, ih]
      by_cases blank : Str.toLowercase (Str.trim (name item)) = []
      · have other : nameKey (name item) ≠ key := by
          intro same
          exact nonempty (same.symm.trans blank)
        simp [blank, other]
      · by_cases same : nameKey (name item) = key
        · have key' : Str.toLowercase (Str.trim (name item)) = key := same
          simp [key', nonempty, groupOf_addToGroup, same]
        · have key' : key ≠ Str.toLowercase (Str.trim (name item)) := Ne.symm same
          simp [blank, groupOf_addToGroup, key', same]

/-- Without a group of two, all names have different keys. -/
theorem nodup_of_sameNameGroups {items : List α} {name : α → Str}
    (none : sameNameGroups items name = []) (named : ∀ item ∈ items, Str.trim (name item) ≠ []) :
    (items.map fun item => nameKey (name item)).Nodup := by
  rw [List.nodup_iff_count_le_one]
  intro key
  by_contra several
  have counted : (items.map fun item => nameKey (name item)).count key =
      (items.filter fun item => nameKey (name item) = key).length := by
    rw [List.count, List.countP_map, List.countP_eq_length_filter]
    congr 2
    funext item
    simp [Bool.beq_eq_decide_eq]
  have nonempty : key ≠ [] := by
    have positive : 0 < (items.map fun item => nameKey (name item)).count key := by omega
    obtain ⟨item, mem, rfl⟩ := List.mem_map.mp (List.count_pos_iff.mp positive)
    simpa [nameKey] using named item mem
  have group : groupOf key (nameGroups items name) =
      items.filter fun item => nameKey (name item) = key := groupOf_foldl nonempty items name []
  have found : (items.filter fun item => nameKey (name item) = key) ∈
      (nameGroups items name).map Prod.snd := by
    rw [← group]
    refine groupOf_mem ?_
    rw [group]
    intro empty
    rw [empty, List.length_nil] at counted
    omega
  have large : (items.filter fun item => nameKey (name item) = key) ∈
      sameNameGroups items name := by
    rw [sameNameGroups, List.mem_filter, decide_eq_true_eq]
    exact ⟨found, by omega⟩
  simp [none] at large

/-- Names that agree up to ASCII case have one key. -/
theorem nameKey_eq_of_eqIgnoreAsciiCase {left right : Str}
    (same : Str.eqIgnoreAsciiCase left right = true) : nameKey left = nameKey right := by
  refine Str.toLowercase_eq_of_eqIgnoreAsciiCase ?_
  rw [Str.eqIgnoreAsciiCase_iff] at same ⊢
  rw [Str.toAsciiLowercase_trim, Str.toAsciiLowercase_trim, same]

end Groups

section Valid

variable [Unicode] {schema : Schema}

namespace IsValid

/-- No check pushes an error. -/
theorem silent (valid : IsValid schema) (check : Schema → List Diagnostic) (mem : check ∈ checks) :
    ∀ diagnostic ∈ check schema, diagnostic.isError = false :=
  isValid_iff.mp valid check mem

theorem entityName_ne_nil (valid : IsValid schema) {entity : Entity}
    (mem : entity ∈ schema.entities) : Str.trim entity.name ≠ [] := by
  have silent := valid.silent checkNames (by simp [checks])
  simp only [checkNames, List.forall_mem_flatMap, List.forall_mem_append] at silent
  intro blank
  simpa [blank] using (silent entity mem).1

theorem attributeName_ne_nil (valid : IsValid schema) {entity : Entity}
    (mem : entity ∈ schema.entities) {attr : Attribute} (attrMem : attr ∈ entity.attributes) :
    Str.trim attr.name ≠ [] := by
  have silent := valid.silent checkNames (by simp [checks])
  simp only [checkNames, List.forall_mem_flatMap, List.forall_mem_append] at silent
  intro blank
  simpa [blank] using (silent entity mem).2 attr attrMem

theorem parameterProblem_eq_none (valid : IsValid schema) {entity : Entity}
    (mem : entity ∈ schema.entities) {attr : Attribute} (attrMem : attr ∈ entity.attributes) :
    parameterProblem attr.dataType = none := by
  have silent := valid.silent checkTypeParameters (by simp [checks])
  simp only [checkTypeParameters, List.forall_mem_flatMap] at silent
  have here := silent entity mem attr attrMem
  cases problem : parameterProblem attr.dataType with
  | none => rfl
  | some problem => simp_all

/-- Both ends of every relationship exist. -/
theorem relationship_resolves (valid : IsValid schema) {link : Relationship}
    (mem : link ∈ schema.relationships) :
    (schema.resolve link.fromEntityId link.fromAttributeId).isSome = true ∧
      (schema.resolve link.toEntityId link.toAttributeId).isSome = true := by
  have silent := valid.silent checkRelationshipEnds (by simp [checks])
  simp only [checkRelationshipEnds, List.forall_mem_flatMap] at silent
  have here := silent link mem
  split at here
  · rename_i both
    simpa using both
  · split at here <;> simp at here

omit [Unicode] in
theorem isError_foldl_about {α : Type} (items : List α) (id : α → Str) (diagnostic : Diagnostic) :
    (items.foldl (fun diagnostic item => diagnostic.about (id item)) diagnostic).isError =
      diagnostic.isError := by
  induction items generalizing diagnostic with
  | nil => rfl
  | cons item items ih => rw [List.foldl_cons, ih, Diagnostic.isError_about]

theorem sameNameGroups_ne_nil {α : Type} {items : List α} {name : α → Str} {group : List α}
    (mem : group ∈ sameNameGroups items name) : group ≠ [] := by
  rw [sameNameGroups, List.mem_filter, decide_eq_true_eq] at mem
  rintro rfl
  exact absurd mem.2 (by simp)

/-- No two tables have one name, whatever the case it is written in. -/
theorem nodup_entityKeys (valid : IsValid schema) :
    (schema.entities.map fun entity => nameKey entity.name).Nodup := by
  refine nodup_of_sameNameGroups ?_ fun entity mem => valid.entityName_ne_nil mem
  have silent := valid.silent checkDuplicateNames (by simp [checks])
  simp only [checkDuplicateNames, List.forall_mem_append, List.forall_mem_flatMap] at silent
  rw [List.eq_nil_iff_forall_not_mem]
  intro group mem
  have here := silent.1 group mem
  cases group with
  | nil => exact sameNameGroups_ne_nil mem rfl
  | cons first rest => simp [isError_foldl_about] at here

/-- No two columns of a table have one name, whatever the case it is written in. -/
theorem nodup_attributeKeys (valid : IsValid schema) {entity : Entity}
    (mem : entity ∈ schema.entities) :
    (entity.attributes.map fun attr => nameKey attr.name).Nodup := by
  refine nodup_of_sameNameGroups ?_ fun attr attrMem => valid.attributeName_ne_nil mem attrMem
  have silent := valid.silent checkDuplicateNames (by simp [checks])
  simp only [checkDuplicateNames, List.forall_mem_append, List.forall_mem_flatMap] at silent
  rw [List.eq_nil_iff_forall_not_mem]
  intro group groupMem
  have here := silent.2 entity mem group groupMem
  cases group with
  | nil => exact sameNameGroups_ne_nil groupMem rfl
  | cons first rest => simp [isError_foldl_about] at here

theorem hasPrimaryKey (valid : IsValid schema) {entity : Entity} (mem : entity ∈ schema.entities) :
    entity.hasPrimaryKey = true := by
  have silent := valid.silent checkPrimaryKeys (by simp [checks])
  simp only [checkPrimaryKeys, List.forall_mem_flatMap] at silent
  have here := silent entity mem
  by_contra keyless
  simp [keyless] at here

/-- Every foreign key points at a column that exists and is a key of its own. -/
theorem foreignKey_resolves (valid : IsValid schema) {entity : Entity}
    (mem : entity ∈ schema.entities) {attr : Attribute} (attrMem : attr ∈ entity.attributes)
    {reference : ForeignKeyRef} (key : attr.foreignKey = some reference) :
    ∃ target column,
    schema.resolve reference.entityId reference.attributeId = some (target, column) ∧
      isUniqueKey target column = true := by
  have silent := valid.silent checkForeignKeys (by simp [checks])
  simp only [checkForeignKeys, List.forall_mem_flatMap] at silent
  have here := silent entity mem attr attrMem
  simp only [key] at here
  cases found : schema.resolve reference.entityId reference.attributeId with
  | none => simp [found] at here
  | some pair =>
      obtain ⟨target, column⟩ := pair
      refine ⟨target, column, rfl, ?_⟩
      simp only [found, List.forall_mem_append] at here
      by_contra notUnique
      simp [notUnique] at here

end IsValid

end Valid

end SchemaForge.Verifier
