import SchemaForge.Sql.InertClauses

/-!
# Defaults of a script

Which expression of a script a column's default is taken from, and when it then
means what the script says. The reader takes the word `DEFAULT` for a clause
wherever it stands: the one of `SET DEFAULT` stores the action behind it, and the
one of `BY DEFAULT` stores `as identity`.
-/

namespace SchemaForge.Sql

open Exchange Lexical

/-- The column that a cursor is at can be read. -/
def isColumnAt (cursor : Cursor) : Bool := (itemRead cursor).columnName.isSome

/-- What the column that a cursor is at stores as its default. -/
def storedAt (cursor : Cursor) : Option Str :=
  (item cursor .blank).2.columns.head?.bind ParsedColumn.defaultValue

section Items

/-- The item leaves the defaults of a table as they are. -/
def KeepsDefaults (read : ParsedTable → Cursor × ParsedTable) : Prop :=
  ∀ table, (read table).2.columns.map ParsedColumn.defaultValue =
    table.columns.map ParsedColumn.defaultValue

theorem defaults_markPrimary (table : ParsedTable) (names : List Str) :
    (table.markPrimary names).columns.map ParsedColumn.defaultValue =
      table.columns.map ParsedColumn.defaultValue := by
  induction names generalizing table with
  | nil => rfl
  | cons name names ih => exact (ih _).trans (List.map_updateFirst_of_kept fun _ => rfl)

theorem columns_readForeignKey (cursor : Cursor) (table : ParsedTable) :
    (readForeignKey cursor table).2.columns = table.columns := by
  unfold readForeignKey
  split
  · rfl
  · split
    · rfl
    · split
      · rfl
      · dsimp only
        split <;> rfl

theorem itemBody_cases (named : Bool) (cursor : Cursor) :
    KeepsDefaults (itemBody named cursor) ∨ named = false ∧ itemBody named cursor =
      columnItem cursor := by
  cases key : cursor.eatWords ["primary", "key"] with
  | some left =>
      left
      intro table
      simp only [itemBody, key]
      split
      · exact defaults_markPrimary table _
      · rfl
  | none =>
  cases foreign : cursor.eatWords ["foreign", "key"] with
  | some left =>
      left
      intro table
      simp only [itemBody, key, foreign, columns_readForeignKey]
  | none =>
  cases unique : cursor.eatWord "unique" with
  | some left =>
      left
      intro table
      simp only [itemBody, key, foreign, unique]
      split
      · exact List.map_updateFirst_of_kept fun _ => rfl
      · rfl
  | none =>
  cases check : cursor.atWord "check" || cursor.atWord "exclude" with
  | true =>
      left
      intro table
      simp only [itemBody, key, foreign, unique, check, if_true]
      rfl
  | false =>
      cases named with
      | true =>
          left
          intro table
          simp only [itemBody, key, foreign, unique, check, Bool.false_eq_true, if_true, if_false]
          rfl
      | false =>
          right
          refine ⟨rfl, ?_⟩
          funext table
          simp only [itemBody, key, foreign, unique, check, Bool.false_eq_true, if_false]

theorem item_cases (cursor : Cursor) :
    KeepsDefaults (item cursor) ∨ item cursor = columnItem cursor := by
  cases named : cursor.eatWord "constraint" with
  | some left =>
      have same : item cursor = itemBody true left.tail := by
        funext table
        simp only [item, named]
      rw [same]
      rcases itemBody_cases true left.tail with kept | ⟨unnamed, -⟩
      · exact .inl kept
      · cases unnamed
  | none =>
      have same : item cursor = itemBody false cursor := by
        funext table
        simp only [item, named]
      rw [same]
      rcases itemBody_cases false cursor with kept | ⟨-, column⟩
      · exact .inl kept
      · exact .inr column

theorem columns_columnItem {cursor left : Cursor} {parsed : ParsedColumn}
    (found : column cursor = (.ok parsed, left)) (table : ParsedTable) :
    (columnItem cursor table).2.columns = table.columns ++
      [(pastReference left).elim parsed fun after =>
        (constraints after.length after parsed).2] := by
  rcases shape : inlineReference left parsed.name table with ⟨flag, after, table'⟩
  rcases inlineReference_eq left parsed.name table with ⟨flagSame, afterSame, columnsSame⟩
  rw [shape] at flagSame afterSame columnsSame
  dsimp only at flagSame afterSame columnsSame
  subst flagSame afterSame
  cases referenced : pastReference left with
  | none =>
      rw [referenced, Option.isSome_none, Option.getD_none] at shape
      simp only [columnItem, found, shape, columnsSame, Option.elim_none]
  | some after =>
      rw [referenced, Option.isSome_some, Option.getD_some] at shape
      simp only [columnItem, found, shape, columnsSame, Option.elim_some]

theorem keepsDefaults_columnItem {cursor left : Cursor} {name : Str}
    (failed : column cursor = (.error name, left)) : KeepsDefaults (columnItem cursor) := by
  intro table
  simp only [columnItem, failed]
  rfl

/-- An item stores the same defaults behind those of any table. -/
theorem item_adds (cursor : Cursor) (table : ParsedTable) :
    (item cursor table).2.columns.map ParsedColumn.defaultValue =
      table.columns.map ParsedColumn.defaultValue ++
        (item cursor .blank).2.columns.map ParsedColumn.defaultValue := by
  have keeps {read : ParsedTable → Cursor × ParsedTable} (kept : KeepsDefaults read) :
      (read table).2.columns.map ParsedColumn.defaultValue =
        table.columns.map ParsedColumn.defaultValue ++
        (read .blank).2.columns.map ParsedColumn.defaultValue := by
    rw [kept, kept]
    exact (List.append_nil _).symm
  rcases item_cases cursor with kept | same
  · exact keeps kept
  · rw [same]
    rcases found : column cursor with ⟨result, left⟩
    cases result with
    | error name => exact keeps (keepsDefaults_columnItem found)
    | ok parsed =>
        rw [columns_columnItem found, columns_columnItem found, List.map_append, List.map_append]
        rfl

/-- An item is one column, or none. -/
theorem defaults_item (cursor : Cursor) :
    (item cursor .blank).2.columns.map ParsedColumn.defaultValue =
    if isColumnAt cursor then [storedAt cursor] else [] := by
  have read := (item_reads cursor).openings .blank
  have lengths := congrArg (fun openings : List (Str × Bool) => (openings.map Prod.fst).length) read
  have none : (openings ParsedTable.blank.columns).map Prod.fst = [] := rfl
  rw [map_fst_apply, none, List.nil_append, openings, List.length_map, List.length_map] at lengths
  rw [isColumnAt, storedAt]
  cases named : (itemRead cursor).columnName with
  | none =>
      rw [named] at lengths
      rw [List.eq_nil_of_length_eq_zero lengths]
      rfl
  | some name =>
      rw [named] at lengths
      rcases List.length_eq_one_iff.mp lengths with ⟨parsed, same⟩
      rw [same]
      rfl

theorem parameters_start_suffix (cursor : Cursor) (kind : DataTypeKind) :
    (parameters (typeWords cursor.tail).2 kind).2 <:+ cursor :=
  (parameters_suffix _ kind).trans ((typeWords_suffix cursor.tail).trans (List.tail_suffix cursor))

/-- A column stores as its default what stands behind the word `DEFAULT` somewhere in it. -/
theorem exists_of_storedAt {cursor : Cursor} {value : Str} (stored : storedAt cursor = some value) :
    ∃ clause, .word "default" :: clause <:+ cursor ∧ storedDefault clause = some value := by
  rcases Option.bind_eq_some_iff.mp stored with ⟨made, first, same⟩
  have listed : some value ∈ (item cursor .blank).2.columns.map ParsedColumn.defaultValue := by
    rw [← same]
    exact List.mem_map_of_mem (List.mem_of_mem_head? first)
  have missing {read : ParsedTable → Cursor × ParsedTable} (kept : KeepsDefaults read) :
      some value ∉ (read .blank).2.columns.map ParsedColumn.defaultValue := by
    rw [kept]
    exact List.not_mem_nil
  rcases item_cases cursor with kept | column_
  · exact absurd listed (missing kept)
  rw [column_] at listed
  rcases found : column cursor with ⟨result, left⟩
  cases result with
  | error name => exact absurd listed (missing (keepsDefaults_columnItem found))
  | ok parsed =>
      rw [columns_columnItem found] at listed
      have stored' := (List.mem_singleton.mp listed).symm
      rcases column_eq_ok found with ⟨kind, name, nullable, known, read⟩
      have front (own : parsed.defaultValue = some value) :
          ∃ clause, .word "default" :: clause <:+ cursor ∧ storedDefault clause = some value := by
        have made_ := congrArg (fun outcome : Cursor × ParsedColumn => outcome.2.defaultValue) read
        rcases exists_of_constraints (made_.trans own) with blank | ⟨clause, suffix, taken⟩
        · cases blank
        · exact ⟨clause, suffix.trans (parameters_start_suffix cursor kind), taken⟩
      cases referenced : pastReference left with
      | none =>
          rw [referenced] at stored'
          exact front stored'
      | some after =>
          rw [referenced] at stored'
          rcases exists_of_constraints stored' with own | ⟨clause, suffix, taken⟩
          · exact front own
          · have behind := inlineReference_suffix left parsed.name .blank
            rw [(inlineReference_eq left parsed.name .blank).2.1, referenced,
              Option.getD_some] at behind
            have last := column_suffix cursor
            rw [found] at last
            exact ⟨clause, suffix.trans (behind.trans last), taken⟩

/-- The columns of the table that a statement creates, in order. -/
def columnsAt (tokens : List Token) : List Cursor := (itemsAt tokens).filter isColumnAt

theorem defaults_items (fuel : Nat) (cursor : Cursor) (table : ParsedTable) :
    (items fuel cursor table).columns.map ParsedColumn.defaultValue =
      table.columns.map ParsedColumn.defaultValue ++
        ((itemCursors fuel cursor).filter isColumnAt).map storedAt := by
  induction fuel generalizing cursor table with
  | zero => exact (List.append_nil _).symm
  | succ fuel ih =>
      by_cases ends : (cursor.isEmpty || cursor.atPunct ')') = true
      · rw [items, itemCursors, if_pos ends, if_pos ends]
        exact (List.append_nil _).symm
      · have first : (item cursor table).2.columns.map ParsedColumn.defaultValue =
            table.columns.map ParsedColumn.defaultValue ++
              ([cursor].filter isColumnAt).map storedAt := by
          rw [item_adds cursor table, defaults_item, List.filter_singleton]
          cases isColumnAt cursor <;> rfl
        rw [items, if_neg ends, itemCursors, if_neg ends, ← List.singleton_append,
          List.filter_append, List.map_append, ← List.append_assoc, ← first]
        simp only [(item_reads cursor).next table]
        cases (pastItem cursor).eatPunct ',' with
        | none => exact (List.append_nil _).symm
        | some left => exact ih left (item cursor table).2

theorem defaults_parse {tokens : List Token} {table : ParsedTable}
    (parsed : parse tokens = some table) :
    table.columns.map ParsedColumn.defaultValue = (columnsAt tokens).map storedAt := by
  unfold parse at parsed
  unfold columnsAt itemsAt tableBody
  simp only [Option.bind_eq_bind] at parsed ⊢
  cases created : Cursor.eatWord tokens "create" with
  | none =>
      rw [created] at parsed
      cases parsed
  | some afterCreate =>
  rw [created] at parsed
  dsimp only [Option.bind_some] at parsed ⊢
  cases tabled :
    Cursor.eatWord (afterCreate.dropWhile fun token => !token.isWord "table") "table" with
  | none =>
      rw [tabled] at parsed
      cases parsed
  | some afterTable =>
  rw [tabled] at parsed
  dsimp only [Option.bind_some] at parsed ⊢
  rcases named : ((afterTable.eatWords ["if", "not", "exists"]).getD afterTable).qualifiedName with
    ⟨name, afterName⟩
  rw [named] at parsed
  cases name with
  | none => cases parsed
  | some name =>
  dsimp only [Option.bind_some] at parsed ⊢
  cases opened : afterName.eatPunct '(' with
  | none =>
      rw [opened] at parsed
      cases parsed
      rfl
  | some body =>
      rw [opened] at parsed
      cases parsed
      exact defaults_items body.length body ⟨name, [], [], []⟩

end Items

section Scanned

variable [Unicode] {content : Str}

omit [Unicode] in
theorem forall_feed {P : Token → Prop} {reading : Reading} {event : Event}
    (before : (∀ tokens ∈ reading.statements, ∀ token ∈ tokens, P token) ∧
      ∀ token ∈ reading.tokens, P token)
    (own : ∀ token, event = .token token → P token) :
    (∀ tokens ∈ (reading.feed event).statements, ∀ token ∈ tokens, P token) ∧
      ∀ token ∈ (reading.feed event).tokens, P token := by
  cases event with
  | token last =>
      refine ⟨before.1, ?_⟩
      intro token mem
      rcases List.mem_append.mp mem with old | new
      · exact before.2 token old
      · rw [List.mem_singleton.mp new]
        exact own last rfl
  | line text =>
      rw [Reading.feed]
      split
      · exact before
      · exact before
  | finish =>
      rw [Reading.feed]
      split
      · exact before
      · refine ⟨?_, List.forall_mem_nil _⟩
        intro tokens mem
        rcases List.mem_append.mp mem with old | new
        · exact before.1 tokens old
        · rw [List.mem_singleton.mp new]
          exact before.2

/-- The tokens of a statement are those of the scanner. -/
theorem forall_mem_scan {P : Token → Prop} (each : ∀ token, .token token ∈ lex content → P token)
    {statement : Statement} (mem : statement ∈ (scan content).1) :
    ∀ token ∈ statement.tokens, P token := by
  have fed (events : List Event) (each : ∀ token, .token token ∈ events → P token)
      (reading : Reading) (before : (∀ tokens ∈ reading.statements, ∀ token ∈ tokens, P token) ∧
        ∀ token ∈ reading.tokens, P token) :
      (∀ tokens ∈ (events.foldl Reading.feed reading).statements, ∀ token ∈ tokens, P token) ∧
        ∀ token ∈ (events.foldl Reading.feed reading).tokens, P token := by
    induction events generalizing reading with
    | nil => exact before
    | cons event events ih =>
        refine ih (fun token mem => each token (List.mem_cons_of_mem event mem)) _
          (forall_feed before ?_)
        rintro token rfl
        exact each token List.mem_cons_self
  have none : (∀ tokens ∈ Reading.empty.statements, ∀ token ∈ tokens, P token) ∧
      ∀ token ∈ Reading.empty.tokens, P token := ⟨List.forall_mem_nil _, List.forall_mem_nil _⟩
  have all : ∀ tokens ∈ (readingOf content).statements, ∀ token ∈ tokens, P token := by
    refine (forall_feed (fed (lex content) each .empty none) ?_).1
    rintro token ⟨⟩
  apply all
  rw [← (scan_reading content).1]
  exact List.mem_map_of_mem mem

omit [Unicode] in
theorem suffix_of_mem_itemCursors {fuel : Nat} {cursor place : Cursor}
    (mem : place ∈ itemCursors fuel cursor) :
    place <:+ cursor := by
  induction fuel generalizing cursor with
  | zero => cases mem
  | succ fuel ih =>
      rw [itemCursors] at mem
      split at mem
      · cases mem
      · rcases List.mem_cons.mp mem with rfl | later
        · exact List.suffix_rfl
        · cases comma : (pastItem cursor).eatPunct ',' with
          | none =>
              rw [comma] at later
              cases later
          | some left =>
              rw [comma] at later
              have passed := item_suffix cursor .blank
              rw [(item_reads cursor).next] at passed
              exact (ih later).trans ((Cursor.eatPunct_suffix comma).trans passed)

omit [Unicode] in
theorem tableBody_suffix {tokens : List Token} {body : Cursor}
    (found : tableBody tokens = some body) :
    body <:+ tokens := by
  unfold tableBody at found
  simp only [Option.bind_eq_bind, Option.bind_eq_some_iff] at found
  rcases found with ⟨afterCreate, created, afterTable, tabled, name, -, opened⟩
  have optional : (afterTable.eatWords ["if", "not", "exists"]).getD afterTable <:+ afterTable := by
    cases eaten : afterTable.eatWords ["if", "not", "exists"] with
    | none => exact List.suffix_rfl
    | some left => exact Cursor.eatWords_suffix eaten
  exact (Cursor.eatPunct_suffix opened).trans ((Cursor.qualifiedName_suffix _).trans (optional.trans
    ((Cursor.eatWord_suffix tabled).trans
      ((List.dropWhile_suffix _).trans (Cursor.eatWord_suffix created)))))

/-- The columns of the tables of a script. -/
def columnCursors (content : Str) : List (List Cursor) :=
  (scan content).1.filterMap fun statement => (parse statement.tokens).map fun _ =>
    columnsAt statement.tokens

/-- Where the column at a place of a draft stands in its script. -/
def cursorOf (content : Str) (place : ColumnPlace) : Option Cursor :=
  (columnCursors content)[place.1]?.bind fun columns => columns[place.2]?

variable [LawfulLetters]

theorem isScanned_of_cursorOf {place : ColumnPlace} {cursor : Cursor}
    (found : cursorOf content place = some cursor) :
    ∀ token ∈ cursor, IsScanned token := by
  rcases Option.bind_eq_some_iff.mp found with ⟨columns, table, column⟩
  rcases List.mem_filterMap.mp (List.mem_of_getElem? table) with ⟨statement, mem, parsed⟩
  rcases Option.map_eq_some_iff.mp parsed with ⟨_, -, rfl⟩
  have listed := (List.mem_filter.mp (List.mem_of_getElem? column)).1
  have suffix : cursor <:+ statement.tokens := by
    rw [itemsAt] at listed
    cases body : tableBody statement.tokens with
    | none =>
        rw [body] at listed
        cases listed
    | some start =>
        rw [body] at listed
        exact (suffix_of_mem_itemCursors listed).trans (tableBody_suffix body)
  intro token tokenMem
  exact forall_mem_scan (fun _ => isScanned_of_mem_lex) mem token (suffix.mem tokenMem)

end Scanned

section Stored

variable [Unicode] {uuid : Element → Str} {content : Str} {includePositions : Bool}
    {draft : SchemaDraft}
  {report : Report}

/-- The default that a draft has for the column at a place. -/
def defaultOf (draft : SchemaDraft) (place : ColumnPlace) : Option Str :=
  draft.entities[place.1]?.bind fun entity =>
    entity.attributes[place.2]?.bind Attribute.defaultValue

theorem defaults_of_read (returned : read uuid content includePositions = .ok (draft, report)) :
    columnsOf Attribute.defaultValue draft = (columnCursors content).map fun columns =>
      columns.map storedAt := by
  have parsed : columnsOf Attribute.defaultValue draft =
      (tablesIn content).map fun table => table.columns.map ParsedColumn.defaultValue :=
    columns_of_read (fun _ _ => rfl) (fun _ _ => rfl) (fun _ _ _ => rfl) returned
  rw [parsed, tablesIn_eq, columnCursors, List.map_filterMap, List.map_filterMap]
  apply List.filterMap_congr
  intro statement _
  cases found : parse statement.tokens with
  | none => rfl
  | some table => exact congrArg some (defaults_parse found)

omit [Unicode] in
theorem defaultOf_eq (draft : SchemaDraft) (place : ColumnPlace) :
    defaultOf draft place =
      ((columnsOf Attribute.defaultValue draft)[place.1]?.bind fun columns =>
        columns[place.2]?).join := by
  rw [defaultOf, columnsOf, List.getElem?_map]
  cases draft.entities[place.1]? with
  | none => rfl
  | some entity =>
      rw [Option.map_some, Option.bind_some, Option.bind_some, List.getElem?_map]
      cases entity.attributes[place.2]? <;> rfl

theorem defaultOf_of_cursorOf (returned : read uuid content includePositions = .ok (draft, report))
    {place : ColumnPlace} {cursor : Cursor} (found : cursorOf content place = some cursor) :
    defaultOf draft place = storedAt cursor := by
  rcases Option.bind_eq_some_iff.mp found with ⟨columns, table, column⟩
  rw [defaultOf_eq, defaults_of_read returned, List.getElem?_map, table, Option.map_some,
    Option.bind_some, List.getElem?_map, column, Option.map_some, Option.join_some]

omit [Unicode] in
/-- A column with its clauses stores what the last clause does that stores anything. -/
theorem storedAt_tokens {definition : ColumnDefinition} (readable : definition.IsReadable)
    {rest : Cursor} (ends : EndsItem rest) : storedAt (definition.tokens ++ rest) =
      (storing definition.clausesRead).getLast?.map fun stored => render stored.2 := by
  rw [storedAt, item_tokens readable ends .blank]
  refine (effect_defaultValue definition.clausesRead definition.start).trans ?_
  exact Option.or_none

end Stored

section Clauses

theorem swallowed_subset (clauses : List ColumnClause) :
    swallowed clauses ⊆ clauseTokens clauses := by
  fun_induction swallowed clauses with
  | case1 event clauses =>
      intro token mem
      refine List.mem_append_left _ ?_
      simp only [List.mem_cons, List.not_mem_nil, or_false] at mem
      rcases mem with rfl | rfl | rfl <;> simp [ColumnClause.tokens, RefAction.words]
  | case2 event clauses =>
      intro token mem
      refine List.mem_append_left _ ?_
      simp only [List.mem_cons, List.not_mem_nil, or_false] at mem
      rcases mem with rfl | rfl | rfl <;> simp [ColumnClause.tokens, RefAction.words]
  | case3 event action clauses null default ih =>
      intro token mem
      have split : clauseTokens (.on event action :: clauses) =
          .word "on" :: .word event.word :: (action.words.map .word ++ clauseTokens clauses) := rfl
      rw [split]
      simp only [List.mem_cons, List.mem_append] at mem ⊢
      rcases mem with here | here | here | later
      · exact .inl here
      · exact .inr (.inl here)
      · exact .inr (.inr (.inl here))
      · exact .inr (.inr (.inr (ih later)))
  | case4 => exact List.nil_subset _

/-- What is stored stands in the clauses. -/
theorem storing_subset {clauses : List ColumnClause} {stored : ColumnClause × List Token}
    (mem : stored ∈ storing clauses) : stored.2 ⊆ clauseTokens clauses := by
  induction clauses with
  | nil => cases mem
  | cons clause clauses ih =>
      have later : clauseTokens clauses ⊆ clauseTokens (clause :: clauses) :=
        List.subset_append_right clause.tokens (clauseTokens clauses)
      rcases List.mem_append.mp mem with here | behind
      · split at here
        · cases here
        · rw [List.mem_singleton.mp here]
          dsimp only
          cases clause with
          | default expression =>
              intro token taken
              refine List.mem_append_left _ (List.mem_cons_of_mem _ ?_)
              rw [← Cursor.takeInside_append afterType 0 expression]
              exact List.mem_append_left _ taken
          | generated always =>
              cases always with
              | true => exact List.nil_subset _
              | false =>
                  intro token taken
                  refine List.mem_append_left _ ?_
                  simp only [ColumnClause.stores, List.mem_cons, List.not_mem_nil,
                    or_false] at taken
                  rcases taken with rfl | rfl <;> simp [ColumnClause.tokens]
          | on event action =>
              cases action with
              | setDefault => exact List.Subset.trans (swallowed_subset clauses) later
              | _ => exact List.nil_subset _
          | _ => exact List.nil_subset _
      · exact List.Subset.trans (ih behind) later

theorem storing_suffix (before clauses : List ColumnClause) :
    storing clauses <:+ storing (before ++ clauses) := by
  induction before with
  | nil => exact List.suffix_rfl
  | cons clause before ih => exact ih.trans (List.suffix_append _ _)

/-- How many references there are, with the one that has been read already. -/
def references (referenced : Bool) (clauses : List ColumnClause) : Nat :=
  referenced.toNat + clauses.countP ColumnClause.isReference

theorem references_cons (referenced : Bool) (clause : ColumnClause) (clauses : List ColumnClause)
    (goesOn : (clause.isReference && referenced) = false) :
    references referenced (clause :: clauses) = references
      (referenced || clause.isReference) clauses := by
  rw [references, references, List.countP_cons]
  cases reference : clause.isReference with
  | false => simp
  | true =>
      rw [reference, Bool.true_and] at goesOn
      rw [goesOn]
      simp only [if_true, Bool.toNat_false, Bool.or_true, Bool.toNat_true]
      omega

/-- The reader gets past clauses among which there is no second reference. -/
theorem readClauses_append {before : List ColumnClause}
    (passes : ∀ clause ∈ before, clause.passes = true) {referenced : Bool}
    (single : references referenced before ≤ 1) (clauses : List ColumnClause) :
    readClauses referenced (before ++ clauses) =
      before ++ readClauses (referenced || before.any ColumnClause.isReference) clauses := by
  induction before generalizing referenced with
  | nil => rw [List.any_nil, Bool.or_false, List.nil_append, List.nil_append]
  | cons clause before ih =>
      rw [List.forall_mem_cons] at passes
      cases second : clause.isReference && referenced with
      | true =>
          rw [Bool.and_eq_true] at second
          rw [references, List.countP_cons_of_pos second.1, second.2, Bool.toNat_true] at single
          omega
      | false =>
          rw [references_cons referenced clause before second] at single
          rw [List.cons_append, readClauses, second, if_neg Bool.false_ne_true,
            passes.1, if_pos rfl, ih passes.2 single, List.any_cons, Bool.or_assoc]
          rfl

/-- The reader ends the column at a second reference. -/
theorem readClauses_of_several {before : List ColumnClause} {referenced : Bool}
    (several : 1 < references referenced before) (clauses : List ColumnClause) :
    readClauses referenced (before ++ clauses) ⊆ before := by
  induction before generalizing referenced with
  | nil =>
      rw [references, List.countP_nil] at several
      cases referenced <;> simp at several
  | cons clause before ih =>
      rw [List.cons_append, readClauses]
      cases second : clause.isReference && referenced with
      | true => exact List.nil_subset _
      | false =>
          rw [references_cons referenced clause before second] at several
          rw [if_neg Bool.false_ne_true]
          apply List.cons_subset_cons
          split
          · exact ih several
          · exact List.nil_subset _

theorem actionsPlaced_append {before after : List ColumnClause} {clause : ColumnClause}
    {referenced : Bool} (front : actionsPlaced referenced before = true)
    (noAction : clause.isAction = false) (behind : actionsPlaced clause.isReference after = true) :
    actionsPlaced referenced (before ++ clause :: after) = true := by
  induction before generalizing referenced with
  | nil =>
      rw [List.nil_append, actionsPlaced, noAction, Bool.or_false, behind]
      rfl
  | cons first before ih =>
      rw [actionsPlaced, Bool.and_eq_true] at front
      rw [List.cons_append, actionsPlaced, Bool.and_eq_true]
      exact ⟨front.1, ih front.2⟩

theorem isBalanced_of_staysInside {depth : Nat} {tokens : List Token}
    (inside : staysInside depth tokens = true) :
    isBalanced depth tokens = true := by
  fun_induction staysInside depth tokens with
  | case1 => exact inside
  | case2 depth tokens ih => exact ih inside
  | case3 depth tokens ih =>
      rw [Bool.and_eq_true] at inside
      rw [isBalanced, inside.1, ih inside.2, Bool.and_self]
  | case4 depth tokens ih =>
      rw [Bool.and_eq_true] at inside
      rw [isBalanced, inside.1, ih inside.2, Bool.and_self]
  | case5 depth word tokens ih => exact ih (Bool.and_eq_true_iff.mp inside).2
  | case6 depth token tokens opening closing comma word ih =>
      rw [isBalanced]
      · exact ih inside
      · exact opening
      · exact closing
      · exact comma

def ColumnClause.isDefault : ColumnClause → Bool
  | default _ => true
  | _ => false

theorem passes_of_not_isDefault {clause : ColumnClause} (other : clause.isDefault = false) :
    clause.passes = true := by
  cases clause with
  | default expression => cases other
  | _ => rfl

/-- A column with a default behind its front. -/
def ColumnDefinition.withDefault (front : ColumnDefinition) (tokens : List Token)
    (after : List ColumnClause) :
    ColumnDefinition :=
  { front with clauses := front.clauses ++ .default tokens :: after }

theorem tokens_withDefault (front : ColumnDefinition) (tokens : List Token)
    (after : List ColumnClause) (rest : Cursor) : (front.withDefault tokens after).tokens ++ rest =
      front.tokens ++ .word "default" :: (tokens ++ (clauseTokens after ++ rest)) := by
  have split : clauseTokens (front.clauses ++ .default tokens :: after) =
      clauseTokens front.clauses ++ (.word "default" :: tokens ++ clauseTokens after) := by
    rw [clauseTokens, List.flatMap_append, List.flatMap_cons]
    rfl
  rw [ColumnDefinition.tokens, ColumnDefinition.withDefault, split, ColumnDefinition.tokens]
  simp only [List.cons_append, List.append_assoc]

theorem clauseTokens_subset {clauses more : List ColumnClause} (listed : clauses ⊆ more) :
    clauseTokens clauses ⊆ clauseTokens more := by
  intro token mem
  rcases List.mem_flatMap.mp mem with ⟨clause, clauseMem, tokenMem⟩
  exact List.mem_flatMap.mpr ⟨clause, listed clauseMem, tokenMem⟩

end Clauses

section Meaning

variable [Unicode] {lexemes : List Lexeme} {text left : Str}

/-- What is stored for `SET DEFAULT` or `BY DEFAULT` reads as no expression. -/
theorem not_keepsMeaning_of_stray (expression : IsExpression text lexemes left) {front : Str}
    (stray : front = "as" ∨ front = "on") {behind : List Token}
    (scanned : ∀ token ∈ .word front :: behind, IsScanned token) :
    ¬KeepsMeaning (some (render (.word front :: behind))) lexemes := by
  rintro ⟨value, written, stored, read, same⟩
  cases stored
  rcases mapM_cons_eq_some.mp ((reads_render scanned written).mp read) with
    ⟨first, more, here, -, rfl⟩
  cases here
  have lowered : Str.toLowercase front = front := (scanned _ List.mem_cons_self).2
  cases lexemes with
  | nil => cases same
  | cons lexeme lexemes =>
      rw [List.map_cons, List.map_cons, List.cons.injEq, Lexeme.canonical, lowered] at same
      cases lexeme with
      | word spelled =>
          have word : front = Str.toLowercase spelled := Lexeme.word.inj same.1
          rcases expression.starts spelled rfl with ⟨notAs, notOn⟩
          rw [← word] at notAs notOn
          rcases stray with rfl | rfl
          · exact notAs rfl
          · exact notOn rfl
      | _ => cases same.1

/-- What is stored of other clauses than defaults reads as no expression. -/
theorem not_keepsMeaning_of_storing (expression : IsExpression text lexemes left)
    {clauses : List ColumnClause} (scanned : ∀ token ∈ clauseTokens clauses, IsScanned token)
    {stored : ColumnClause × List Token} (mem : stored ∈ storing clauses)
    (other : ∀ clause ∈ clauses, clause.isDefault = false) :
    ¬KeepsMeaning (some (render stored.2)) lexemes := by
  rcases storing_cases mem with ⟨value, listed, -⟩ | ⟨-, front, behind, stray, same⟩
  · cases other _ listed
  · have inside := storing_subset mem
    rw [same] at inside ⊢
    exact not_keepsMeaning_of_stray expression stray fun token tokenMem =>
      scanned token (inside tokenMem)

/-- The text stands in the script behind the only `DEFAULT` of the column at a place: behind the
name, the type and the clauses of its front, and in front of the clauses after it. -/
structure IsDefaultClause (content : Str) (place : ColumnPlace) (front : ColumnDefinition)
    (text left : Str) (after : List ColumnClause) : Prop where
  suffix : text <:+ content
  column : cursorOf content place = some (front.tokens ++ .word "default" :: restOfStatement text)
  starts : front.IsWellFormed
  behind : ∃ rest, EndsItem rest ∧ restOfStatement left = clauseTokens after ++ rest
  clauses : ∀ clause ∈ after, clause.IsWellFormed
  placed : actionsPlaced false after = true
  only : ∀ clause ∈ front.clauses ++ after, clause.isDefault = false

/--
The reader gets to the clause behind the front, and what it meets after it stores no other default.
-/
structure IsStoredLast (front : ColumnDefinition) (after : List ColumnClause) : Prop where
  type : goesThrough front.typeLeft = true
  references : front.clauses.countP ColumnClause.isReference ≤ 1
  last : storing (readClauses (front.clauses.any ColumnClause.isReference) after) = []

variable {content : Str} {place : ColumnPlace} {front : ColumnDefinition}
    {after : List ColumnClause}

theorem IsDefaultClause.readable (clause : IsDefaultClause content place front text left after)
    {tokens : List Token} (inside : staysInside 0 tokens = true) (taken : leftOf tokens = []) :
    (front.withDefault tokens after).IsReadable where
  front := clause.starts.readable.front
  clauses other mem := by
    rcases List.mem_append.mp mem with before | here
    · exact (clause.starts.clauses other before).readable
    · rcases List.mem_cons.mp here with rfl | behind
      · refine ⟨isBalanced_of_staysInside inside, ?_⟩
        rw [taken]
        exact ⟨List.forall_mem_nil _, fun _ found => by cases found⟩
      · exact (clause.clauses other behind).readable
  placed := actionsPlaced_append clause.starts.placed rfl clause.placed

theorem IsDefaultClause.passes (clause : IsDefaultClause content place front text left after) :
    ∀ other ∈ front.clauses, other.passes = true := fun other mem =>
  passes_of_not_isDefault (clause.only other (List.mem_append_left after mem))

/-- The clauses that are read, if the reader gets to the default. -/
theorem clausesRead_withDefault (clause : IsDefaultClause content place front text left after)
    (type : goesThrough front.typeLeft = true)
    (single : front.clauses.countP ColumnClause.isReference ≤ 1) {tokens : List Token}
    (taken : leftOf tokens = []) :
    (front.withDefault tokens after).clausesRead = front.clauses ++ .default tokens ::
      readClauses (front.clauses.any ColumnClause.isReference) after := by
  have passes : (ColumnClause.default tokens).passes = true := by
    rw [ColumnClause.passes, taken]
    rfl
  have noReference : (ColumnClause.default tokens).isReference = false := rfl
  have once : references false front.clauses ≤ 1 := by
    rw [references, Bool.toNat_false, Nat.zero_add]
    exact single
  have read := readClauses_append clause.passes once (.default tokens :: after)
  rw [Bool.false_or, readClauses, noReference, Bool.false_and, if_neg Bool.false_ne_true,
    passes, if_pos rfl, Bool.or_false] at read
  exact (if_pos type).trans read

omit [Unicode] in
/-- If the reader does not get to the default, it reads no clause but those in front. -/
theorem clausesRead_subset (missed : ¬(goesThrough front.typeLeft = true ∧
      front.clauses.countP ColumnClause.isReference ≤ 1)) (tokens : List Token) :
    (front.withDefault tokens after).clausesRead ⊆ front.clauses := by
  rw [ColumnDefinition.clausesRead]
  split
  · rename_i type
    apply readClauses_of_several
    rw [references, Bool.toNat_false, Nat.zero_add]
    exact Nat.lt_of_not_le fun single => missed ⟨type, single⟩
  · exact List.nil_subset _

variable [LawfulLetters]

/-- An expression that its tokens spell keeps its meaning if none of its lexemes is cut, and the
column stores no other text. -/
theorem keepsMeaning_storedAt_iff (clause : IsDefaultClause content place front text left after)
    (expression : IsExpression text lexemes left) {tokens : List Token}
    (spelled : SpelledBy lexemes tokens) (lexed : lex text = tokens.map .token ++ lex left)
    (goesOn : meetsEnd 0 lexemes = false) :
    KeepsMeaning (storedAt (front.tokens ++ .word "default" :: restOfStatement text)) lexemes ↔
      (∀ lexeme ∈ lexemes, lexeme.staysWhole = true) ∧ IsStoredLast front after := by
  have scanned := isScanned_of_cursorOf clause.column
  have own := keepsMeaning_storedDefault_iff expression
  have stored : storedDefault (restOfStatement text) = if tokens.isEmpty then none
      else some (render tokens) := by
    rw [storedDefault, takeUntilSeparator_of_spelledBy expression spelled lexed goesOn]
  have inside : staysInside 0 tokens = true := by
    rw [staysInside_of_spelledBy spelled, expression.nested, goesOn]
    rfl
  have taken := @takeInside_of_staysInside _ _ [] inside rfl
  rw [List.append_nil] at taken
  rcases clause.behind with ⟨rest, ends, behind⟩
  rw [restOfStatement_of_lex lexed, behind, ← tokens_withDefault] at scanned ⊢
  have readable := clause.readable inside (congrArg Prod.snd taken)
  have filled : tokens ≠ [] := by
    rintro rfl
    have few := length_le_of_spelledBy spelled
    exact expression.nonempty (List.eq_nil_of_length_eq_zero (Nat.le_zero.mp few))
  have scannedIn {clauses : List ColumnClause}
      (listed : clauses ⊆ (front.withDefault tokens after).clauses) :
      ∀ token ∈ clauseTokens clauses, IsScanned token := by
    intro token mem
    refine scanned token
      (List.mem_append_left rest (List.mem_cons_of_mem _ (List.mem_append_right _ ?_)))
    exact clauseTokens_subset listed mem
  have inFront : front.clauses ⊆ (front.withDefault tokens after).clauses :=
    List.subset_append_left _ _
  rw [storedAt_tokens (clause.readable inside (congrArg Prod.snd taken)) ends]
  by_cases reached : goesThrough front.typeLeft = true ∧
    front.clauses.countP ColumnClause.isReference ≤ 1
  · rw [clausesRead_withDefault clause reached.1 reached.2 (congrArg Prod.snd taken)]
    generalize behind_ : readClauses (front.clauses.any ColumnClause.isReference) after = later
    have listed : later ⊆ after := by
      rw [← behind_]
      exact readClauses_subset _ after
    rcases storing_suffix front.clauses (.default tokens :: later) with ⟨earlier, split⟩
    have here : storing (.default tokens :: later) = [(.default tokens, tokens)] ++
        storing later := by
      have own : (ColumnClause.default tokens).stores later = tokens := congrArg Prod.fst taken
      rw [storing, own, if_neg (mt List.isEmpty_iff.mp filled)]
    rw [← split, here, ← List.append_assoc]
    cases final : (storing later).getLast? with
    | none =>
        have empty := List.getLast?_eq_none_iff.mp final
        rw [stored, if_neg (mt List.isEmpty_iff.mp filled)] at own
        rw [empty, List.append_nil, List.getLast?_concat, Option.map_some, own]
        refine and_congr_right fun _ => iff_of_true goesOn ⟨reached.1, reached.2, ?_⟩
        rw [behind_, empty]
    | some last =>
        rw [List.getLast?_append, final, Option.some_or, Option.map_some]
        refine iff_of_false ?_ ?_
        · refine not_keepsMeaning_of_storing expression (scannedIn ?_)
            (List.mem_of_getLast? final) ?_
          · exact List.Subset.trans listed (List.Subset.trans (List.subset_cons_self _ _)
              (List.subset_append_right _ _))
          · exact fun other mem => clause.only other (List.mem_append_right _ (listed mem))
        · rintro ⟨-, storedLast⟩
          have empty := storedLast.last
          rw [behind_] at empty
          rw [empty] at final
          cases final
  · have before := @clausesRead_subset front after reached tokens
    refine iff_of_false ?_ fun kept => reached ⟨kept.2.type, kept.2.references⟩
    cases final : (storing (front.withDefault tokens after).clausesRead).getLast? with
    | none =>
        rintro ⟨value, written, empty, -⟩
        cases empty
    | some last =>
        refine not_keepsMeaning_of_storing expression (scannedIn (List.Subset.trans before inFront))
          (List.mem_of_getLast? final) ?_
        exact fun other mem => clause.only other (List.mem_append_left _ (before mem))

variable {uuid : Element → Str} {includePositions : Bool} {draft : SchemaDraft} {report : Report}

end Meaning

/-- A default that is a call. -/
def callScript : Str := "CREATE TABLE t (a timestamptz NOT NULL DEFAULT now() UNIQUE);"

/-- `a timestamptz NOT NULL` -/
def callFront : ColumnDefinition := ⟨.word "a", [.word "timestamptz"], [.notNull]⟩

/-- A default that is a constant of a type. -/
def castScript : Str := "CREATE TABLE t (a text DEFAULT 'x'::text);"

/-- `a text` -/
def castFront : ColumnDefinition := ⟨.word "a", [.word "text"], []⟩

end SchemaForge.Sql
