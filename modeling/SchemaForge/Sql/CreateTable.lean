import SchemaForge.Sql.KeysAndLines
import SchemaForge.Sql.Progress

/-!
# What makes a table

A table is made by `CREATE TABLE`, with the words that PostgreSQL allows between
the two, and by no other statement. The reader passes over everything in front
of the first `table`, not only those words, so it takes any other `CREATE` for a
table as well when a name follows the word `table` in it.
-/

namespace SchemaForge.Sql

open Exchange

/-- The words that may stand between `CREATE` and `TABLE`. -/
def tableModifiers : List Str := ["global", "local", "temporary", "temp", "unlogged", "foreign"]

def isModifier (token : Token) : Bool := tableModifiers.any token.isWord

/-- An optional `IF NOT EXISTS`, and a name that can be read. -/
def namesTable (tokens : List Token) : Bool :=
  ((Cursor.eatWords tokens ["if", "not", "exists"]).getD tokens).qualifiedName.1.isSome

/-- `CREATE`, some tokens without the word `table`, `TABLE` and a name. -/
def CreatesTable (between : List Token) (tokens : List Token) : Prop :=
  ∃ rest, tokens = .word "create" :: (between ++ .word "table" :: rest) ∧
    (∀ token ∈ between, token.isWord "table" = false) ∧ namesTable rest = true

def IsCreateTable (tokens : List Token) : Prop :=
  ∃ modifiers, CreatesTable modifiers tokens ∧ ∀ token ∈ modifiers, isModifier token = true

/-- Something else than a modifier stands in front of the first `table`, and a name behind it. -/
def StraysToTable (tokens : List Token) : Prop :=
  ∃ between, CreatesTable between tokens ∧ ∃ token ∈ between, isModifier token = false

/-- `CREATE TABLE` makes a table, and every other `CREATE` is skipped. -/
structure MakesTablesOnly (tokens : List Token) : Prop where
  table_iff : (classify tokens).asTable.isSome = true ↔ IsCreateTable tokens
  skipped : Cursor.atWord tokens "create" = true → ¬IsCreateTable tokens →
    (classify tokens).isSkipped = true

theorem takeWhile_between {between rest : List Token}
    (apart : ∀ token ∈ between, token.isWord "table" = false) :
    (between ++ .word "table" :: rest).takeWhile (fun token => !token.isWord "table") = between ∧
      (between ++ .word "table" :: rest).dropWhile (fun token => !token.isWord "table") =
        .word "table" :: rest := by
  have passed : ∀ token ∈ between, (!token.isWord "table") = true := by
    intro token mem
    rw [apart token mem]
    rfl
  rw [List.takeWhile_append_of_pos passed, List.dropWhile_append_of_pos passed]
  simp [Token.isWord]

theorem createsTable_unique {left right tokens : List Token} (creates : CreatesTable left tokens)
    (creates' : CreatesTable right tokens) : left = right := by
  rcases creates with ⟨rest, rfl, apart, -⟩
  rcases creates' with ⟨rest', same, apart', -⟩
  rw [← (takeWhile_between apart).1, List.tail_eq_of_cons_eq same, (takeWhile_between apart').1]

theorem parse_isSome_iff {tokens : List Token} :
    (parse tokens).isSome = true ↔ ∃ between, CreatesTable between tokens := by
  constructor
  · intro parsed
    rcases Option.isSome_iff_exists.mp parsed with ⟨table, found⟩
    simp only [parse, Option.bind_eq_bind, Option.bind_eq_some_iff] at found
    rcases found with ⟨cursor, created, rest, reached, name, named, -⟩
    rw [Cursor.eatWord_eq_some_iff] at created reached
    subst created
    refine ⟨cursor.takeWhile fun token => !token.isWord "table", rest, ?_, ?_, ?_⟩
    · rw [← reached, List.takeWhile_append_dropWhile]
    · intro token mem
      simpa using List.mem_takeWhile_imp mem
    · rw [namesTable, named]
      rfl
  · rintro ⟨between, rest, rfl, apart, named⟩
    rcases Option.isSome_iff_exists.mp named with ⟨name, read⟩
    have created : Cursor.eatWord (.word "create" :: (between ++ .word "table" :: rest)) "create" =
        some (between ++ .word "table" :: rest) := Cursor.eatWord_eq_some_iff.mpr rfl
    have reached : Cursor.eatWord (.word "table" :: rest) "table" = some rest :=
      Cursor.eatWord_eq_some_iff.mpr rfl
    simp only [parse, created, Option.bind_eq_bind, Option.bind_some,
      (takeWhile_between apart).2, reached, read]
    split <;> rfl

theorem asTable_isSome_iff {tokens : List Token} :
    (classify tokens).asTable.isSome = true ↔ ∃ between, CreatesTable between tokens := by
  rw [asTable_classify, parse_isSome_iff]

theorem isSkipped_of_create {tokens : List Token} (here : Cursor.atWord tokens "create" = true)
    (unread : (classify tokens).asTable.isSome = false) : (classify tokens).isSkipped = true := by
  rw [asTable_classify] at unread
  rw [classify, if_pos here]
  cases found : parse tokens with
  | none => rfl
  | some table => simp [found] at unread

theorem makesTablesOnly_iff_not_strays {tokens : List Token} : MakesTablesOnly tokens ↔
    ¬StraysToTable tokens := by
  constructor
  · rintro only ⟨between, creates, token, mem, other⟩
    rcases only.table_iff.mp (asTable_isSome_iff.mpr ⟨between, creates⟩) with
      ⟨modifiers, creates', each⟩
    rw [createsTable_unique creates creates'] at mem
    rw [each token mem] at other
    cases other
  · intro straight
    have table_iff : (classify tokens).asTable.isSome = true ↔ IsCreateTable tokens := by
      rw [asTable_isSome_iff]
      constructor
      · rintro ⟨between, creates⟩
        refine ⟨between, creates, ?_⟩
        intro token mem
        by_contra other
        exact straight ⟨between, creates, token, mem, Bool.eq_false_iff.mpr other⟩
      · rintro ⟨modifiers, creates, -⟩
        exact ⟨modifiers, creates⟩
    refine ⟨table_iff, ?_⟩
    intro here other
    apply isSkipped_of_create here
    rw [Bool.eq_false_iff]
    exact fun parsed => other (table_iff.mp parsed)

section Script

variable [Unicode] {uuid : Element → Str} {content : Str} {includePositions : Bool}
    {draft : SchemaDraft}
  {report : Report}

/-- The draft of a script has a table for each statement that is classified as one. -/
theorem length_entities_of_read
    (returned : read uuid content includePositions = .ok (draft, report)) :
    draft.entities.length =
      (scan content).1.countP fun statement => (classify statement.tokens).asTable.isSome := by
  have columns : columnsOf (fun _ => ()) draft =
      (tablesIn content).map fun table => table.columns.map fun _ => () :=
    columns_of_read (fun _ _ => rfl) (fun _ _ => rfl) (fun _ _ _ => rfl) returned
  have lengths := congrArg List.length columns
  rw [columnsOf, List.length_map, List.length_map, tablesIn_eq] at lengths
  rw [lengths, List.length_filterMap_eq_countP]
  simp only [asTable_classify]

/-- The report of a script names every statement that is skipped. -/
theorem skipped_mem_of_read (returned : read uuid content includePositions = .ok (draft, report))
    {statement : Statement} (mem : statement ∈ (scan content).1)
    (unread : (classify statement.tokens).isSkipped = true) :
    skipped statement.source ∈ report.diagnostics := by
  have noted : skipped statement.source ∈ skippedOf (scan content).1 :=
    List.mem_map_of_mem (List.mem_filter.mpr ⟨mem, unread⟩)
  rw [read] at returned
  dsimp only at returned
  split at returned
  · cases returned
  · rw [← (Prod.mk.inj (Except.ok.inj returned)).2]
    exact List.mem_append_left _ (List.mem_append_left _ (List.mem_append_left _ noted))

/-- Only `CREATE TABLE` makes a table, unless another `CREATE` strays to the word `table`. -/
theorem createTable_makesTables_iff :
    (∀ tokens, MakesTablesOnly tokens ↔ ¬StraysToTable tokens) ∧
    (read uuid content includePositions = .ok (draft, report) →
      (draft.entities.length =
        (scan content).1.countP fun statement => (classify statement.tokens).asTable.isSome) ∧
      ∀ statement ∈ (scan content).1, (classify statement.tokens).isSkipped = true →
        skipped statement.source ∈ report.diagnostics) := by
  refine ⟨fun tokens => makesTablesOnly_iff_not_strays, ?_⟩
  intro returned
  refine ⟨length_entities_of_read returned, ?_⟩
  intro statement mem unread
  exact skipped_mem_of_read returned mem unread

end Script

/-- A table, and an index on it. -/
def indexedScript : Str := "CREATE TEMP TABLE IF NOT EXISTS x (a int);
CREATE INDEX x_a ON x (a);"

theorem createTable_makesTables_indexedScript : ∃ draft report,
    @read shelfUuid Unicode.ascii indexedScript false = .ok (draft, report) ∧
      (draft.entities.length =
        (@scan Unicode.ascii indexedScript).1.countP fun statement =>
          (classify statement.tokens).asTable.isSome) ∧
      ∀ statement ∈ (@scan Unicode.ascii indexedScript).1,
      (classify statement.tokens).isSkipped = true →
        skipped statement.source ∈ report.diagnostics := by
  have read_ : (@read shelfUuid Unicode.ascii indexedScript false).isOk = true := by decide
  cases returned : @read shelfUuid Unicode.ascii indexedScript false with
  | error error => simp [returned, Except.isOk, Except.toBool] at read_
  | ok result =>
      exact ⟨result.1, result.2, rfl,
        (@createTable_makesTables_iff Unicode.ascii _ _ _ _ _).2 returned⟩

/-- A publication for a table that the script does not create. -/
def publicationScript : Str := "CREATE PUBLICATION p FOR TABLE users;"

/-- A table is drawn, and nothing is reported. -/
theorem not_makesTablesOnly_publicationScript :
    ((@read shelfUuid Unicode.ascii publicationScript false).toOption.map fun result =>
      (result.1.entities.map Entity.name, result.2.diagnostics)) = some ([("users" : Str)], []) ∧
    ∃ statement ∈ (@scan Unicode.ascii publicationScript).1, ¬MakesTablesOnly statement.tokens := by
  refine ⟨by decide, ?_⟩
  have scanned : (@scan Unicode.ascii publicationScript).1.map Statement.tokens =
      [[.word "create", .word "publication", .word "p", .word "for", .word "table",
        .word "users"]] := by
    decide
  rcases List.mem_map.mp (scanned ▸ List.mem_singleton_self _) with ⟨statement, mem, tokens⟩
  refine ⟨statement, mem, ?_⟩
  rw [tokens]
  intro only
  have made : (classify [.word "create", .word "publication", .word "p", .word "for", .word "table",
      .word "users"]).asTable.isSome = true := by decide
  rcases only.table_iff.mp made with ⟨modifiers, ⟨rest, same, -, -⟩, each⟩
  cases modifiers with
  | nil => simp at same
  | cons token modifiers =>
      have first : token = .word "publication" := by
        simp only [List.cons_append, List.cons.injEq] at same
        exact same.2.1.symm
      have modifies := each token List.mem_cons_self
      rw [first] at modifies
      revert modifies
      decide

end SchemaForge.Sql
