import SchemaForge.Sql.Read
import SchemaForge.Sql.ScriptReading
import SchemaForge.Sql.TableReading

/-!
# The statements of a generated script

How the reader classifies what the generator writes: the tables first, then a
foreign key for every reference that resolves, then the comments. Nothing is
skipped.
-/

namespace SchemaForge.Sql

variable [Unicode]

open Generator

theorem classify_createTableTokens {entity : Entity} (readable : IsReadableTable entity) :
    classify (createTableTokens entity) = .table (parsedTable entity) := by
  have created : Cursor.atWord (createTableTokens entity) "create" = true := rfl
  rw [classify, if_pos created, parse_createTableTokens readable]

omit [Unicode] in
theorem classify_alterTableTokens (resolved : ResolvedKey) :
    classify (alterTableTokens resolved) = .foreignKey (Str.trim resolved.entity.name)
      ⟨Str.trim resolved.attr.name, Str.trim resolved.target.name,
        some (Str.trim resolved.key.name)⟩ :=
  rfl

omit [Unicode] in
theorem classify_commentOnTableTokens (entity : Entity) :
    classify (commentOnTableTokens entity) =
      .comment ⟨Str.trim entity.name, none, Str.trim entity.description⟩ :=
  rfl

omit [Unicode] in
theorem classify_commentOnColumnTokens_of_split {entity : Entity} {attr : Attribute}
    {table column : Str}
    (split : Str.rsplitOnce '.' (Str.trim entity.name ++ "." ++ Str.trim attr.name) =
      some (table, column)) :
    classify (commentOnColumnTokens entity attr) =
      .comment ⟨table, some column, Str.trim attr.description⟩ := by
  have read : comment (commentOnColumnTokens entity attr) =
      (Str.rsplitOnce '.' (Str.trim entity.name ++ "." ++ Str.trim attr.name)).bind fun named =>
        some ⟨named.1, some named.2, Str.trim attr.description⟩ :=
    rfl
  rw [split] at read
  have create : Cursor.atWord (commentOnColumnTokens entity attr) "create" = false := rfl
  have alter : Cursor.atWord (commentOnColumnTokens entity attr) "alter" = false := rfl
  have start : Cursor.atWord (commentOnColumnTokens entity attr) "comment" = true := rfl
  simp only [classify, create, alter, start, Bool.false_eq_true, if_false, if_true, read,
    Option.bind_some]

omit [Unicode] in
/-- A column is told from its table by the last point, so its own name may hold none. -/
theorem classify_commentOnColumnTokens {entity : Entity} {attr : Attribute}
    (plain : '.' ∉ Str.trim attr.name) :
    classify (commentOnColumnTokens entity attr) =
      .comment ⟨Str.trim entity.name, some (Str.trim attr.name), Str.trim attr.description⟩ := by
  apply classify_commentOnColumnTokens_of_split
  have named : Str.trim entity.name ++ "." ++ Str.trim attr.name =
      Str.trim entity.name ++ '.' :: Str.trim attr.name := by
    simp
  rw [named]
  exact Str.rsplitOnce_append plain

/-- A schema whose tables are written so that the reader gives them back. -/
structure IsReadableSchema (schema : Schema) : Prop where
  tables : ∀ entity ∈ schema.entities, IsReadableTable entity
  points : ∀ entity ∈ schema.entities, ∀ attr ∈ entity.attributes, '.' ∉ attr.name

/-- A foreign key as the reader takes it from its statement. -/
def keyOf (resolved : ResolvedKey) : Str × ParsedForeignKey :=
  (resolved.entity.name, ⟨resolved.attr.name, resolved.target.name, some resolved.key.name⟩)

/-- What the comments of a script are about: a table, or a column of it. -/
def documented (schema : Schema) : List (Entity × Option Attribute) :=
  schema.entities.flatMap fun entity =>
    (if entity.isDocumented then [(entity, none)] else []) ++
      (entity.attributes.filter Attribute.isDocumented).map fun attr => (entity, some attr)

/-- A comment as the reader takes it from its statement. -/
def commentOf : Entity × Option Attribute → Comment
  | (entity, none) => ⟨entity.name, none, Str.trim entity.description⟩
  | (entity, some attr) => ⟨entity.name, some attr.name, Str.trim attr.description⟩

omit [Unicode] in
theorem mem_documented {schema : Schema} {entity : Entity} {attr : Option Attribute} :
    (entity, attr) ∈ documented schema ↔ entity ∈ schema.entities ∧
      match attr with
      | none => entity.isDocumented = true
      | some attr => attr ∈ entity.attributes ∧ attr.isDocumented = true := by
  simp only [documented, List.mem_flatMap, List.mem_append, List.mem_map, List.mem_filter,
    Prod.mk.injEq]
  constructor
  · rintro ⟨other, mem, table | ⟨column, ⟨columnMem, documented⟩, rfl, rfl⟩⟩
    · split at table
      · rename_i isDocumented
        obtain ⟨rfl, rfl⟩ := Prod.mk.injEq .. ▸ List.mem_singleton.mp table
        exact ⟨mem, isDocumented⟩
      · contradiction
    · exact ⟨mem, columnMem, documented⟩
  · rintro ⟨mem, found⟩
    refine ⟨entity, mem, ?_⟩
    cases attr with
    | none => exact .inl (by simp [found])
    | some attr => exact .inr ⟨attr, found, rfl, rfl⟩

theorem map_classify_tables {schema : Schema} (readable : IsReadableSchema schema) :
    (schema.entities.map createTableTokens).map classify =
      schema.entities.map fun entity => .table (parsedTable entity) := by
  rw [List.map_map]
  exact List.map_congr_left fun entity mem =>
    classify_createTableTokens (readable.tables entity mem)

omit [Unicode] in
theorem map_classify_keys {schema : Schema} (readable : IsReadableSchema schema) :
    ((resolvedKeys schema).map alterTableTokens).map classify =
      (resolvedKeys schema).map fun resolved =>
        .foreignKey (keyOf resolved).1 (keyOf resolved).2 := by
  rw [List.map_map]
  refine List.map_congr_left fun resolved mem => ?_
  obtain ⟨entityMem, attrMem, reference, _, resolves⟩ := mem_resolvedKeys.mp mem
  obtain ⟨targetMem, keyMem, _, _⟩ := Schema.mem_of_resolve resolves
  have holder := readable.tables _ entityMem
  have target := readable.tables _ targetMem
  rw [Function.comp_apply, classify_alterTableTokens, holder.name, target.name,
    (holder.columns _ attrMem).name, (target.columns _ keyMem).name]
  rfl

omit [Unicode] in
theorem map_classify_comments {schema : Schema} (readable : IsReadableSchema schema) :
    (commentTokens schema).map classify =
      (documented schema).map fun about => .comment (commentOf about) := by
  rw [commentTokens, documented, List.map_flatMap, List.map_flatMap]
  refine List.flatMap_congr fun entity mem => ?_
  have table := readable.tables entity mem
  rw [List.map_append, List.map_append, List.map_map, List.map_map]
  refine congrArg₂ (· ++ ·) ?_ ?_
  · split
    · rw [List.map_singleton, List.map_singleton, classify_commentOnTableTokens, table.name]
      rfl
    · rfl
  · refine List.map_congr_left fun attr attrMem => ?_
    have listed := List.mem_of_mem_filter attrMem
    have name := (table.columns attr listed).name
    have plain : '.' ∉ Str.trim attr.name := by
      rw [name]
      exact readable.points entity mem attr listed
    rw [Function.comp_apply, classify_commentOnColumnTokens plain, table.name, name]
    rfl

/-- The tables, keys and comments that the reader takes from a script. -/
theorem map_classify_scriptTokens {schema : Schema} (readable : IsReadableSchema schema) :
    (scriptTokens schema true).map classify =
      (schema.entities.map fun entity => .table (parsedTable entity)) ++
        ((resolvedKeys schema).map fun resolved =>
          .foreignKey (keyOf resolved).1 (keyOf resolved).2) ++
        (documented schema).map fun about => .comment (commentOf about) := by
  rw [scriptTokens, List.map_append, List.map_append, map_classify_tables readable,
    map_classify_keys readable, if_pos rfl, map_classify_comments readable]

section Collected

variable {schema : Schema} {statements : List Statement}

/-- The statements read as those of the generated script. -/
def ReadsAsScript (schema : Schema) (statements : List Statement) : Prop :=
  (statements.map fun statement => classify statement.tokens) =
    (schema.entities.map fun entity => .table (parsedTable entity)) ++
      ((resolvedKeys schema).map fun resolved =>
        .foreignKey (keyOf resolved).1 (keyOf resolved).2) ++
      (documented schema).map fun about => .comment (commentOf about)

omit [Unicode] in
theorem filterMap_classify {α : Type} (script : ReadsAsScript schema statements)
    (pick : Read → Option α) :
    (statements.filterMap fun statement => pick (classify statement.tokens)) =
      (schema.entities.filterMap fun entity => pick (.table (parsedTable entity))) ++
        ((resolvedKeys schema).filterMap fun resolved =>
          pick (.foreignKey (keyOf resolved).1 (keyOf resolved).2)) ++
        (documented schema).filterMap fun about => pick (.comment (commentOf about)) := by
  have mapped : (statements.filterMap fun statement => pick (classify statement.tokens)) =
      (statements.map fun statement => classify statement.tokens).filterMap pick := by
    rw [List.filterMap_map]
    rfl
  rw [mapped, script]
  simp only [List.filterMap_append, List.filterMap_map]
  rfl

omit [Unicode] in
theorem filterMap_none {α β : Type} (items : List α) :
    (items.filterMap fun _ => (none : Option β)) = [] :=
  List.filterMap_eq_nil_iff.mpr fun _ _ => rfl

omit [Unicode] in
theorem tablesOf_script (script : ReadsAsScript schema statements) :
    tablesOf statements = schema.entities.zipIdx.map fun (entity, index) =>
      (index, parsedTable entity) := by
  have classified : tablesOf statements =
      (statements.map fun statement => classify statement.tokens).zipIdx.filterMap
        fun (read, index) => read.asTable.map fun parsed => (index, parsed) := by
    rw [tablesOf, List.zipIdx_map, List.filterMap_map]
    rfl
  have tail (offset : Nat) : ((((resolvedKeys schema).map fun resolved =>
        Read.foreignKey (keyOf resolved).1 (keyOf resolved).2) ++
      (documented schema).map fun about => Read.comment (commentOf about)).zipIdx offset).filterMap
        (fun (read, index) => read.asTable.map fun parsed => (index, parsed)) = [] := by
    refine List.filterMap_eq_nil_iff.mpr fun (read, index) mem => ?_
    have listed := List.fst_mem_of_mem_zipIdx mem
    rcases List.mem_append.mp listed with key | comment
    · obtain ⟨_, _, rfl⟩ := List.mem_map.mp key
      rfl
    · obtain ⟨_, _, rfl⟩ := List.mem_map.mp comment
      rfl
  rw [classified, script, List.append_assoc, List.zipIdx_append, List.filterMap_append, tail,
    List.append_nil, List.zipIdx_map, List.filterMap_map]
  exact congrFun (@List.filterMap_eq_map (Entity × Nat) (Nat × ParsedTable)
    fun (entity, index) => (index, parsedTable entity)) schema.entities.zipIdx

omit [Unicode] in
theorem lateKeysOf_script (script : ReadsAsScript schema statements) :
    lateKeysOf statements = (resolvedKeys schema).map keyOf := by
  have collected := filterMap_classify script Read.asForeignKey
  simp only [Read.asForeignKey, filterMap_none, List.nil_append, List.append_nil] at collected
  exact collected.trans (congrFun (@List.filterMap_eq_map _ _ keyOf) _)

omit [Unicode] in
theorem commentsOf_script (script : ReadsAsScript schema statements) :
    commentsOf statements = (documented schema).map commentOf := by
  have collected := filterMap_classify script Read.asComment
  simp only [Read.asComment, filterMap_none, List.nil_append] at collected
  exact collected.trans (congrFun (@List.filterMap_eq_map _ _ commentOf) _)

omit [Unicode] in
theorem skippedOf_script (script : ReadsAsScript schema statements) :
    skippedOf statements = [] := by
  have kept : ∀ statement ∈ statements, (classify statement.tokens).isSkipped = false := by
    intro statement mem
    have listed : classify statement.tokens ∈ statements.map fun statement =>
        classify statement.tokens := List.mem_map_of_mem mem
    rw [script, List.append_assoc] at listed
    rcases List.mem_append.mp listed with table | later
    · obtain ⟨_, _, same⟩ := List.mem_map.mp table
      rw [← same]
      rfl
    · rcases List.mem_append.mp later with key | comment
      · obtain ⟨_, _, same⟩ := List.mem_map.mp key
        rw [← same]
        rfl
      · obtain ⟨_, _, same⟩ := List.mem_map.mp comment
        rw [← same]
        rfl
  rw [skippedOf, List.filter_eq_nil_iff.mpr fun statement mem => by simp [kept statement mem]]
  rfl

end Collected

end SchemaForge.Sql
