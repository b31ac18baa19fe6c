import SchemaForge.Sql.Script

/-!
# What the scanner reads from a generated script

A script is a sequence of blocks, and every block is read by itself: a statement
ends in its own semicolon, so nothing that a name or a description holds can move
the boundary. Position lines are the exception. They end at the first line feed,
which the quoting of a name does not escape.
-/

namespace SchemaForge.Sql

variable [Unicode]

open Generator

/-- The text is read as these events, whatever comes after it. -/
def Yields (s : Str) (events : List Event) : Prop := ∀ rest, lex (s ++ rest) = events ++ lex rest

/-- The events of one statement. -/
def statementEvents (tokens : List Token) : List Event := tokens.map .token ++ [.finish]

/-- Blocks with blank text between them are read one after another. -/
theorem Yields.join {blocks : List Str} {events : List (List Event)}
    (yields : List.Forall₂ Yields blocks events) {separator : Str}
    (blank : ∀ rest, lex (separator ++ rest) = lex rest) :
    Yields (Str.join separator blocks) events.flatten := by
  induction yields with
  | nil => exact fun _ => rfl
  | @cons block list blocks lists blockYields tailYields ih =>
      cases tailYields with
      | nil => simpa [Str.join, List.intercalate] using blockYields
      | @cons second secondList blocks lists secondYields tailYields =>
          intro rest
          have joined := ih rest
          simp only [Str.join, List.intercalate, List.intersperse, List.flatten_cons] at joined ⊢
          rw [List.append_assoc, blockYields]
          simp only [List.append_assoc] at joined ⊢
          rw [blank, joined]

theorem Yields.map {α : Type} {write : α → Str} {expect : α → List Event} (items : List α)
    (yields : ∀ item ∈ items, Yields (write item) (expect item)) :
    List.Forall₂ Yields (items.map write) (items.map expect) := by
  rw [List.forall₂_map_left_iff, List.forall₂_map_right_iff, List.forall₂_same]
  exact yields

/-- The tokens of the comments of a schema, one list for each statement. -/
def commentTokens (schema : Schema) : List (List Token) :=
  schema.entities.flatMap fun entity =>
    (if entity.isDocumented then [commentOnTableTokens entity] else []) ++
      (entity.attributes.filter Attribute.isDocumented).map (commentOnColumnTokens entity)

/-- The tokens of a script, one list for each statement. -/
def scriptTokens (schema : Schema) (includeComments : Bool) : List (List Token) :=
  schema.entities.map createTableTokens ++ (resolvedKeys schema).map alterTableTokens ++
    if includeComments then commentTokens schema else []

theorem yields_comments (schema : Schema) :
    List.Forall₂ Yields (comments schema) ((commentTokens schema).map statementEvents) := by
  unfold comments commentTokens
  induction schema.entities with
  | nil => exact .nil
  | cons entity entities ih =>
      simp only [List.flatMap_cons, List.map_append]
      refine List.rel_append (List.rel_append ?_ ?_) ih
      · split
        · refine .cons (fun rest => ?_) .nil
          rw [lex_commentOnTable, statementEvents]
          simp
        · exact .nil
      · rw [List.map_map]
        refine Yields.map _ fun attr _ rest => ?_
        rw [lex_commentOnColumn, Function.comp_apply, statementEvents]
        simp

/-- What is read above a table: its position line, when there is one. -/
def tableEvents (includePositions : Bool) (entity : Entity) : List Event :=
  (if includePositions then [.line (position entity)] else []) ++
    statementEvents (createTableTokens entity)

/-- No position line is broken by a name. -/
def NamesOnOneLine (schema : Schema) : Prop :=
  ∀ entity ∈ schema.entities, '\n' ∉ Str.trim entity.name

omit [Unicode] in
theorem newline_notMem_ofInt (n : Int) : '\n' ∉ Str.ofInt n := by
  have digits (m : Nat) : '\n' ∉ Str.ofNat m := fun mem =>
    absurd (Str.isDigit_of_mem_ofNat mem) (by decide)
  unfold Str.ofInt
  split
  · simp [digits]
  · exact digits _

omit [Unicode] in
theorem mem_double {c d : Char} {s : Str} : d ∈ Str.double c s ↔ d ∈ s := by
  simp only [Str.double, List.mem_flatMap]
  constructor
  · rintro ⟨e, mem, found⟩
    split at found
    · simp_all
    · simp_all
  · intro mem
    refine ⟨d, mem, ?_⟩
    split <;> simp_all

theorem lex_position {entity : Entity} (single : '\n' ∉ Str.trim entity.name) (rest : Str) :
    lex (position entity ++ "\n" ++ rest) = .line (position entity) :: lex rest := by
  have left := newline_notMem_ofInt entity.position.x.round.toI64
  have right := newline_notMem_ofInt entity.position.y.round.toI64
  unfold position
  generalize Str.ofInt entity.position.x.round.toI64 = x at left
  generalize Str.ofInt entity.position.y.round.toI64 = y at right
  have inside : '\n' ∉ " @table " ++ quote entity.name ++ " " ++ x ++ " " ++ y := by
    simp [quote, mem_double, single, left, right]
  have line := @lex_line _ _ rest inside
  simpa using line

theorem yields_table {entity : Entity} {includePositions : Bool}
    (defaults : DefaultsSelfContained entity)
    (single : includePositions = true → '\n' ∉ Str.trim entity.name) :
    Yields (if includePositions then position entity ++ "\n" ++ createTable entity
      else createTable entity) (tableEvents includePositions entity) := by
  intro rest
  cases includePositions with
  | true =>
      rw [if_pos rfl, List.append_assoc, lex_position (single rfl), lex_createTable defaults]
      simp [tableEvents, statementEvents]
  | false =>
      rw [if_neg (by decide), lex_createTable defaults]
      simp [tableEvents, statementEvents]

/-- The events of a whole script. -/
theorem lex_generate {schema : Schema} {options : GenerateOptions}
    (defaults : ∀ entity ∈ schema.entities, DefaultsSelfContained entity)
    (single : options.includePositions = true → NamesOnOneLine schema) :
    lex (generate schema options) =
      schema.entities.flatMap (tableEvents options.includePositions) ++
        ((resolvedKeys schema).map alterTableTokens ++
          if options.includeComments then commentTokens schema else []).flatMap
            statementEvents := by
  have tables : List.Forall₂ Yields
      (schema.entities.map fun entity =>
        if options.includePositions then position entity ++ "\n" ++ createTable entity
        else createTable entity)
      (schema.entities.map (tableEvents options.includePositions)) :=
    Yields.map _ fun entity mem =>
      yields_table (defaults entity mem) fun included => single included entity mem
  have keys : List.Forall₂ Yields ((resolvedKeys schema).map alterTable)
      ((resolvedKeys schema).map fun resolved => statementEvents (alterTableTokens resolved)) := by
    refine Yields.map _ fun resolved _ rest => ?_
    rw [lex_alterTable, statementEvents]
    simp
  have notes : List.Forall₂ Yields
      (if options.includeComments && !(comments schema).isEmpty
        then [Str.join "\n" (comments schema)] else [])
      (if options.includeComments && !(comments schema).isEmpty
        then [((commentTokens schema).map statementEvents).flatten] else []) := by
    split
    · exact .cons (Yields.join (yields_comments schema) lex_newline) .nil
    · exact .nil
  have blank (rest : Str) : lex ("\n\n" ++ rest) = lex rest := by
    rw [show ("\n\n" : Str) = ['\n', '\n'] from rfl]
    simp
  have script := Yields.join (List.rel_append (List.rel_append tables keys) notes) blank []
  rw [List.append_nil, lex_nil, List.append_nil] at script
  have noted : (if options.includeComments && !(comments schema).isEmpty
      then [((commentTokens schema).map statementEvents).flatten] else []).flatten =
      (if options.includeComments then commentTokens schema else []).flatMap statementEvents := by
    have counted := (yields_comments schema).length_eq
    cases options.includeComments with
    | false => simp
    | true =>
        cases written : comments schema with
        | nil =>
            rw [written, List.length_nil, List.length_map, eq_comm, List.length_eq_zero_iff]
              at counted
            simp [counted]
        | cons => simp [List.flatMap_def]
  rw [generate]
  refine script.trans ?_
  simp only [List.flatten_append, noted, List.flatMap_append, List.append_assoc]
  simp [List.flatMap_def, Function.comp_def]

omit [Unicode] in
theorem feed_statement {tokens : List Token} (nonempty : tokens ≠ [])
    (statements : List (List Token)) (hints : List LayoutHint) :
    (statementEvents tokens).foldl Reading.feed ⟨statements, hints, []⟩ =
      ⟨statements ++ [tokens], hints, []⟩ := by
  simp [statementEvents, foldl_feed_tokens, Reading.feed, nonempty]

omit [Unicode] in
theorem feed_statements {lists : List (List Token)} (nonempty : ∀ tokens ∈ lists, tokens ≠ [])
    (statements : List (List Token)) (hints : List LayoutHint) :
    (lists.flatMap statementEvents).foldl Reading.feed ⟨statements, hints, []⟩ =
      ⟨statements ++ lists, hints, []⟩ := by
  induction lists generalizing statements with
  | nil => simp
  | cons tokens lists ih =>
      rw [List.flatMap_cons, List.foldl_append, feed_statement (nonempty tokens (by simp)),
        ih fun tokens mem => nonempty tokens (List.mem_cons_of_mem _ mem)]
      simp

theorem createTableTokens_ne_nil (entity : Entity) : createTableTokens entity ≠ [] := by
  simp [createTableTokens]

omit [Unicode] in
theorem commentTokens_ne_nil {schema : Schema} {tokens : List Token}
    (mem : tokens ∈ commentTokens schema) : tokens ≠ [] := by
  simp only [commentTokens, List.mem_flatMap, List.mem_append, List.mem_map] at mem
  obtain ⟨entity, _, table | ⟨attr, _, rfl⟩⟩ := mem
  · split at table
    · rw [List.mem_singleton] at table
      simp [table, commentOnTableTokens]
    · simp at table
  · simp [commentOnColumnTokens]

omit [Unicode] in
/-- The statements after the tables hold no empty token list. -/
theorem tail_ne_nil {schema : Schema} {includeComments : Bool} {tokens : List Token}
    (mem : tokens ∈ (resolvedKeys schema).map alterTableTokens ++
      if includeComments then commentTokens schema else []) : tokens ≠ [] := by
  rw [List.mem_append, List.mem_map] at mem
  obtain ⟨resolved, _, rfl⟩ | comment := mem
  · simp [alterTableTokens]
  · split at comment
    · exact commentTokens_ne_nil comment
    · simp at comment

theorem defaultsSelfContained_of_none {entity : Entity}
    (plain : ∀ attr ∈ entity.attributes, attr.defaultValue = none) :
    DefaultsSelfContained entity := by
  intro attr mem value found
  simp [plain attr mem] at found

/-- A script without positions is read as its own statements and holds no layout hint. -/
theorem readingOf_generate_without_positions {schema : Schema} {includeComments : Bool}
    (defaults : ∀ entity ∈ schema.entities, DefaultsSelfContained entity) :
    readingOf (generate schema ⟨includeComments, false⟩) =
      ⟨scriptTokens schema includeComments, [], []⟩ := by
  have tables : schema.entities.flatMap (tableEvents false) =
      (schema.entities.map createTableTokens).flatMap statementEvents := by
    have single : tableEvents false = fun entity => statementEvents (createTableTokens entity) := by
      funext entity
      simp [tableEvents]
    rw [single, List.flatMap_map]
  have statements : ∀ tokens ∈ schema.entities.map createTableTokens, tokens ≠ [] := by
    simp [createTableTokens_ne_nil]
  rw [readingOf, lex_generate defaults (by simp), tables, List.foldl_append, Reading.empty,
    feed_statements statements, feed_statements fun tokens mem => tail_ne_nil mem]
  simp [Reading.feed, scriptTokens]

/--
Names and descriptions are injection-proof: in a schema without default values they are never read
as anything but one identifier or one text, and every statement is read as it was written.
-/
theorem scan_generate_without_positions {schema : Schema} {includeComments : Bool}
    (plain : ∀ entity ∈ schema.entities, ∀ attr ∈ entity.attributes, attr.defaultValue = none) :
    (scan (generate schema ⟨includeComments, false⟩)).1.map Statement.tokens =
        schema.entities.map createTableTokens ++ (resolvedKeys schema).map alterTableTokens ++
          (if includeComments then commentTokens schema else []) ∧
      (scan (generate schema ⟨includeComments, false⟩)).2 = [] := by
  have reading := @readingOf_generate_without_positions _ schema includeComments
    fun entity mem => defaultsSelfContained_of_none (plain entity mem)
  obtain ⟨statements, hints⟩ := scan_reading (generate schema ⟨includeComments, false⟩)
  rw [statements, hints, reading]
  exact ⟨rfl, rfl⟩

/-- A table and a column whose names and descriptions hold every kind of delimiter. -/
def hostileSchema : Schema where
  id := "s"
  name := []
  description := []
  entities :=
    [{ Entity.new "t" "a\"; DROP TABLE b; --" with
        description := "it's /* not */ over'"
        attributes :=
          [{ Attribute.new "c" "\"" ⟨.varchar, some 9, none, none⟩ with
              description := "';\n", foreignKey := some ⟨"t", "c"⟩ }] }]
  relationships := []

omit [Unicode] in
theorem scan_generate_hostileSchema :
    (@scan Unicode.ascii (generate hostileSchema ⟨true, false⟩)).1.map Statement.tokens =
      [[.word "create", .word "table", .quoted "a\"; DROP TABLE b; --", .punct '(', .quoted "\"",
          .word "varchar", .punct '(', .number "9", .punct ')', .punct ')'],
        [.word "alter", .word "table", .quoted "a\"; DROP TABLE b; --", .word "add",
          .word "constraint", .quoted "fk_a\"; DROP TABLE b; --_\"", .word "foreign", .word "key",
          .punct '(', .quoted "\"", .punct ')', .word "references",
          .quoted "a\"; DROP TABLE b; --", .punct '(', .quoted "\"", .punct ')'],
        [.word "comment", .word "on", .word "table", .quoted "a\"; DROP TABLE b; --", .word "is",
          .text "it's /* not */ over'"],
        [.word "comment", .word "on", .word "column", .quoted "a\"; DROP TABLE b; --", .punct '.',
          .quoted "\"", .word "is", .text "';"]] := by
  refine (@scan_generate_without_positions Unicode.ascii hostileSchema true (by decide)).1.trans ?_
  decide

end SchemaForge.Sql
