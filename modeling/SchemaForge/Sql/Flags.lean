import SchemaForge.Sql.KeysAndLines
import SchemaForge.Sql.Progress

/-!
# Keys and nulls

The flags of a column are set one after another while the words after its type
are read. This file follows the words of a column and the items of a table, and
says what they come to and where each of them ends.
-/

namespace SchemaForge.Sql

open Exchange

/-- What a clause of a column says about keys and nulls. -/
inductive Clause where
  | notNull | primaryKey | null | other
deriving DecidableEq

/-- Whether a column is a key, and whether it takes nulls. -/
abbrev Flags := Bool × Bool

def Clause.apply : Flags → Clause → Flags
  | flags, notNull => (flags.1, false)
  | _, primaryKey => (true, false)
  | flags, null => (flags.1, true)
  | flags, other => flags

def ParsedColumn.flags (column : ParsedColumn) : Flags := (column.primaryKey, column.nullable)

/-- The clause that a cursor is at. -/
def clauseAt (cursor : Cursor) : Clause :=
  if (cursor.eatWords ["not", "null"]).isSome then .notNull
  else if (cursor.eatWords ["primary", "key"]).isSome then .primaryKey
  else if cursor.atWord "null" then .null
  else .other

/-- A column of which nothing is known yet. -/
def ParsedColumn.blank : ParsedColumn := ⟨[], ⟨.text, none, none, none⟩, true, false, false, none⟩

/-- Past the clause that a cursor is at. -/
def pastClause (cursor : Cursor) : Cursor :=
  (cursor.eatWords ["not", "null"] <|> cursor.eatWords ["primary", "key"] <|>
    cursor.eatWord "unique" <|> cursor.eatWord "null" <|>
    (cursor.eatWord "default").map (fun left => (left.takeUntilSeparator afterType).2) <|>
    (cursor.eatWord "constraint").map List.tail <|>
    (cursor.eatWord "check").map Cursor.skipBalanced).getD cursor.tail

/-- The clauses of a column end here, or at its reference. -/
def endsClauses (cursor : Cursor) : Bool :=
  cursor.isEmpty || cursor.atPunct ',' || cursor.atPunct ')' || cursor.atWord "references"

/-- Past the clauses from a cursor on. -/
def pastClauses : Nat → Cursor → Cursor
  | 0, cursor => cursor
  | fuel + 1, cursor => if endsClauses cursor then cursor else pastClauses fuel (pastClause cursor)

/-- The clauses from a cursor on. -/
def clausesFrom : Nat → Cursor → List Clause
  | 0, _ => []
  | fuel + 1, cursor =>
      if endsClauses cursor then [] else clauseAt cursor :: clausesFrom fuel (pastClause cursor)

theorem constraint_fst (cursor : Cursor) (column : ParsedColumn) :
    (constraint cursor column).1 = pastClause cursor := by
  unfold constraint pastClause
  cases cursor.eatWords ["not", "null"] with
  | some left => rfl
  | none =>
  cases cursor.eatWords ["primary", "key"] with
  | some left => rfl
  | none =>
  cases cursor.eatWord "unique" with
  | some left => rfl
  | none =>
  cases cursor.eatWord "null" with
  | some left => rfl
  | none =>
  cases cursor.eatWord "default" with
  | some left =>
      dsimp only
      split <;> rfl
  | none =>
  cases cursor.eatWord "constraint" with
  | some left => rfl
  | none => cases cursor.eatWord "check" <;> rfl

theorem eq_of_atWord {cursor : Cursor} {word word' : Str} (here : cursor.atWord word = true)
    (also : cursor.atWord word' = true) : word = word' := by
  cases cursor with
  | nil => cases here
  | cons token cursor =>
      cases token with
      | word value =>
          have first : value = word := beq_iff_eq.mp here
          have second : value = word' := beq_iff_eq.mp also
          rw [← first, second]
      | _ => cases here

theorem atWord_of_eatWord {cursor left : Cursor} {word : Str}
    (eaten : cursor.eatWord word = some left) : cursor.atWord word = true := by
  unfold Cursor.eatWord at eaten
  split at eaten
  · assumption
  · cases eaten

theorem atWord_eq_false_of_eatWord {cursor left : Cursor} {word word' : Str}
    (eaten : cursor.eatWord word = some left) (different : word ≠ word') :
    cursor.atWord word' = false := by
  rw [Bool.eq_false_iff]
  intro here
  exact different (eq_of_atWord (atWord_of_eatWord eaten) here)

/-- What one clause does to a column. -/
structure ReadsClause (cursor : Cursor) (column : ParsedColumn) : Prop where
  flags : (constraint cursor column).2.flags = Clause.apply column.flags (clauseAt cursor)
  name : (constraint cursor column).2.name = column.name
  dataType : (constraint cursor column).2.dataType = column.dataType

theorem readsClause_of_change {cursor left : Cursor} {clause : Clause}
    {change : ParsedColumn → ParsedColumn} (clauseHere : clauseAt cursor = clause)
    (value : ∀ column, constraint cursor column = (left, change column))
    (flags : ∀ column, (change column).flags = clause.apply column.flags)
    (name : ∀ column, (change column).name = column.name)
    (dataType : ∀ column, (change column).dataType = column.dataType) (column : ParsedColumn) :
    ReadsClause cursor column := by
  refine ⟨?_, ?_, ?_⟩
  · rw [value, flags, clauseHere]
  · rw [value, name]
  · rw [value, dataType]

/-- A clause that says nothing about keys and nulls. -/
theorem readsClause_of_other {cursor left : Cursor} {change : ParsedColumn → ParsedColumn}
    (notNull : cursor.eatWords ["not", "null"] = none)
    (key : cursor.eatWords ["primary", "key"] = none) (null : cursor.atWord "null" = false)
    (value : ∀ column, constraint cursor column = (left, change column))
    (kept : ∀ column, (change column).flags = column.flags ∧
      (change column).name = column.name ∧ (change column).dataType = column.dataType)
    (column : ParsedColumn) : ReadsClause cursor column := by
  have clause : clauseAt cursor = .other := by
    simp only [clauseAt, notNull, key, null, Option.isSome_none, Bool.false_eq_true, if_false]
  exact readsClause_of_change clause value (fun column => (kept column).1)
    (fun column => (kept column).2.1) (fun column => (kept column).2.2) column

theorem eatWord_eq_none {cursor : Cursor} {word : Str} (missing : cursor.eatWord word = none) :
    cursor.atWord word = false := by
  unfold Cursor.eatWord at missing
  split at missing
  · cases missing
  · rename_i absent
    simpa using absent

theorem readsClause (cursor : Cursor) (column : ParsedColumn) : ReadsClause cursor column := by
  cases notNull : cursor.eatWords ["not", "null"] with
  | some left =>
      have clause : clauseAt cursor = .notNull := by
        simp only [clauseAt, notNull, Option.isSome_some, if_true]
      have value (column : ParsedColumn) :
          constraint cursor column = (left, { column with nullable := false }) := by
        simp only [constraint, notNull]
      exact readsClause_of_change clause value (fun _ => rfl) (fun _ => rfl) (fun _ => rfl) column
  | none =>
  cases key : cursor.eatWords ["primary", "key"] with
  | some left =>
      have clause : clauseAt cursor = .primaryKey := by
        simp only [clauseAt, notNull, key, Option.isSome_some, Option.isSome_none,
          Bool.false_eq_true, if_true, if_false]
      have value (column : ParsedColumn) : constraint cursor column =
          (left, { column with primaryKey := true, nullable := false }) := by
        simp only [constraint, notNull, key]
      exact readsClause_of_change clause value (fun _ => rfl) (fun _ => rfl) (fun _ => rfl) column
  | none =>
  cases unique : cursor.eatWord "unique" with
  | some left =>
      have silent := atWord_eq_false_of_eatWord unique (by decide : _ ≠ "null".toList)
      have value (column : ParsedColumn) :
          constraint cursor column = (left, { column with unique := true }) := by
        simp only [constraint, notNull, key, unique]
      exact readsClause_of_other notNull key silent value (fun _ => ⟨rfl, rfl, rfl⟩) column
  | none =>
  cases null : cursor.eatWord "null" with
  | some left =>
      have clause : clauseAt cursor = .null := by
        simp only [clauseAt, notNull, key, atWord_of_eatWord null, Option.isSome_none,
          Bool.false_eq_true, if_true, if_false]
      have value (column : ParsedColumn) :
          constraint cursor column = (left, { column with nullable := true }) := by
        simp only [constraint, notNull, key, unique, null]
      exact readsClause_of_change clause value (fun _ => rfl) (fun _ => rfl) (fun _ => rfl) column
  | none =>
  have silent := eatWord_eq_none null
  cases default : cursor.eatWord "default" with
  | some left =>
      have value (column : ParsedColumn) : constraint cursor column =
          ((Cursor.takeUntilSeparator afterType left).2,
            { column with
              defaultValue := if (Cursor.takeUntilSeparator afterType left).1.isEmpty then
                  column.defaultValue
                else some (render (Cursor.takeUntilSeparator afterType left).1) }) := by
        simp only [constraint, notNull, key, unique, null, default]
        split <;> rfl
      exact readsClause_of_other notNull key silent value (fun _ => ⟨rfl, rfl, rfl⟩) column
  | none =>
  cases named : cursor.eatWord "constraint" with
  | some left =>
      have value (column : ParsedColumn) : constraint cursor column = (left.tail, column) := by
        simp only [constraint, notNull, key, unique, null, default, named]
      exact readsClause_of_other notNull key silent value (fun _ => ⟨rfl, rfl, rfl⟩) column
  | none =>
  cases check : cursor.eatWord "check" with
  | some left =>
      have value (column : ParsedColumn) : constraint cursor column =
          (left.skipBalanced, column) := by
        simp only [constraint, notNull, key, unique, null, default, named, check]
      exact readsClause_of_other notNull key silent value (fun _ => ⟨rfl, rfl, rfl⟩) column
  | none =>
      have value (column : ParsedColumn) : constraint cursor column = (cursor.tail, column) := by
        simp only [constraint, notNull, key, unique, null, default, named, check]
      exact readsClause_of_other notNull key silent value (fun _ => ⟨rfl, rfl, rfl⟩) column

/-- What the constraints of a column do to it, and where they end. -/
structure ReadsClauses (fuel : Nat) (cursor : Cursor) (column : ParsedColumn) : Prop where
  next : (constraints fuel cursor column).1 = pastClauses fuel cursor
  flags : (constraints fuel cursor column).2.flags =
    (clausesFrom fuel cursor).foldl Clause.apply column.flags
  name : (constraints fuel cursor column).2.name = column.name
  dataType : (constraints fuel cursor column).2.dataType = column.dataType

theorem readsClauses (fuel : Nat) (cursor : Cursor) (column : ParsedColumn) :
    ReadsClauses fuel cursor column := by
  induction fuel generalizing cursor column with
  | zero => exact ⟨rfl, rfl, rfl, rfl⟩
  | succ fuel ih =>
      have step := readsClause cursor column
      have later := ih (pastClause cursor) (constraint cursor column).2
      by_cases ends : endsClauses cursor = true
      · have stopped : constraints (fuel + 1) cursor column = (cursor, column) := if_pos ends
        refine ⟨?_, ?_, ?_, ?_⟩
        · rw [stopped, pastClauses, if_pos ends]
        · rw [stopped, clausesFrom, if_pos ends, List.foldl_nil]
        · rw [stopped]
        · rw [stopped]
      · have unfolded : constraints (fuel + 1) cursor column =
            constraints fuel (pastClause cursor) (constraint cursor column).2 := by
          rw [← constraint_fst cursor column]
          exact if_neg ends
        refine ⟨?_, ?_, ?_, ?_⟩
        · rw [unfolded, later.next, pastClauses, if_neg ends]
        · rw [unfolded, later.flags, step.flags, clausesFrom, if_neg ends, List.foldl_cons]
        · rw [unfolded, later.name, step.name]
        · rw [unfolded, later.dataType, step.dataType]

/-- The clauses name a key, and what they say last about nulls is that they are taken. -/
def reopens (clauses : List Clause) : Bool :=
  clauses.contains .primaryKey &&
    (clauses.filter fun clause => clause != .other).getLast? == some .null

theorem foldl_apply (clauses : List Clause) (flags : Flags) :
    (clauses.foldl Clause.apply flags).1 = (flags.1 || clauses.contains .primaryKey) ∧
      (clauses.foldl Clause.apply flags).2 =
        (clauses.filter fun clause => clause != .other).getLast?.elim flags.2 (· == .null) := by
  induction clauses using List.reverseRecOn with
  | nil => simp
  | append_singleton clauses clause ih =>
      rw [List.foldl_append, List.foldl_cons, List.foldl_nil, List.filter_append]
      cases clause with
      | other =>
          refine ⟨?_, ?_⟩
          · rw [Clause.apply, ih.1]
            simp
          · rw [Clause.apply, ih.2]
            simp
      | notNull => exact ⟨by rw [Clause.apply, ih.1]; simp, by simp [Clause.apply]⟩
      | null => exact ⟨by rw [Clause.apply, ih.1]; simp, by simp [Clause.apply]⟩
      | primaryKey => exact ⟨by simp [Clause.apply], by simp [Clause.apply]⟩

/-- A column is left an open key by its clauses exactly when they reopen it. -/
theorem open_foldl_apply (clauses : List Clause) (nullable : Bool) :
    ((clauses.foldl Clause.apply (false, nullable)).1 &&
      (clauses.foldl Clause.apply (false, nullable)).2) = reopens clauses := by
  rcases foldl_apply clauses (false, nullable) with ⟨key, null⟩
  rw [key, null, Bool.false_or, reopens]
  cases keyed : clauses.contains .primaryKey with
  | false => rfl
  | true =>
      have said : (clauses.filter fun clause => clause != .other) ≠ [] := by
        have mem : Clause.primaryKey ∈ clauses.filter fun clause => clause != .other :=
          List.mem_filter.mpr ⟨List.contains_iff_mem.mp keyed, rfl⟩
        exact List.ne_nil_of_mem mem
      rw [List.getLast?_eq_some_getLast said]
      rfl

def ParsedTable.blank : ParsedTable := ⟨[], [], [], []⟩

/-- Past the reference that a cursor is at. -/
def pastReference (cursor : Cursor) : Option Cursor :=
  (cursor.eatWord "references").map fun left =>
    if left.qualifiedName.1.isSome then left.qualifiedName.2.nameList.2 else left.qualifiedName.2

/-- Where the clauses of a column start, behind its type. -/
def clausesStart (cursor : Cursor) (kind : DataTypeKind) : Cursor :=
  (parameters (typeWords cursor.tail).2 kind).2

/-- The clauses from the start on, before and behind the reference of a column. -/
def clausesOf (start : Cursor) : List Clause :=
  clausesFrom start.length start ++
    (pastReference (pastClauses start.length start)).elim [] fun left =>
      clausesFrom left.length left

/-- Past the clauses of a column, and past its reference and the clauses behind it. -/
def pastColumnClauses (start : Cursor) : Cursor :=
  let left := pastClauses start.length start
  (pastReference left).elim left fun left => pastClauses left.length left

/-- A reference is read the same whatever the table holds, and adds no column to it. -/
theorem inlineReference_eq (cursor : Cursor) (column : Str) (table : ParsedTable) :
    (inlineReference cursor column table).1 = (pastReference cursor).isSome ∧
      (inlineReference cursor column table).2.1 = (pastReference cursor).getD cursor ∧
      (inlineReference cursor column table).2.2.columns = table.columns := by
  unfold inlineReference pastReference
  cases cursor.eatWord "references" with
  | none => exact ⟨rfl, rfl, rfl⟩
  | some left =>
      dsimp only [Option.map_some]
      rcases left.qualifiedName with ⟨name, after⟩
      cases name with
      | none => exact ⟨rfl, rfl, rfl⟩
      | some name => exact ⟨rfl, rfl, rfl⟩

theorem carriesOwnParameters_parameters (cursor : Cursor) (kind : DataTypeKind) :
    (parameters cursor kind).1.carriesOwnParameters = true := by
  unfold parameters
  dsimp only
  cases length : kind.takesLength with
  | true =>
      have other : kind.takesPrecision = false := by
        cases kind <;> first | rfl | cases length
      simp [DataType.carriesOwnParameters, length, other]
  | false =>
      cases precision : kind.takesPrecision with
      | true => simp [DataType.carriesOwnParameters, length, precision]
      | false => simp [DataType.carriesOwnParameters, length, precision]

/-- A column that could be read is what its constraints make of its name and its type. -/
theorem column_eq_ok {cursor left : Cursor} {parsed : ParsedColumn}
    (found : column cursor = (.ok parsed, left)) :
    ∃ kind name nullable, kindOf (Str.join " " (typeWords cursor.tail).1) = some kind ∧
      constraints (parameters (typeWords cursor.tail).2 kind).2.length
        (parameters (typeWords cursor.tail).2 kind).2
        ⟨name, (parameters (typeWords cursor.tail).2 kind).1, nullable, false, false, none⟩ =
          (left, parsed) := by
  unfold column at found
  cases cursor with
  | nil => cases found
  | cons token rest =>
      dsimp only at found
      cases named : token.name with
      | none =>
          rw [named] at found
          cases found
      | some name =>
          rw [named] at found
          dsimp only at found
          cases known : kindOf (Str.join " " (typeWords rest).1) with
          | none =>
              rw [known] at found
              cases found
          | some kind =>
              rw [known] at found
              simp only [Prod.mk.injEq, Except.ok.injEq] at found
              rcases found with ⟨rfl, rfl⟩
              exact ⟨kind, name, !isSerial (Str.join " " (typeWords rest).1), known, rfl⟩

/-- What an item says about keys and nulls. -/
inductive ItemRead where
  | column (name : Str) (clauses : List Clause)
  | key (names : List Str)
  | other
deriving DecidableEq

/-- The name and the kind of type of the column that a cursor is at. -/
def columnAt (cursor : Cursor) : Option (Str × DataTypeKind) :=
  (cursor.head?.bind Token.name).bind fun name =>
    (kindOf (Str.join " " (typeWords cursor.tail).1)).map fun kind => (name, kind)

/-- The column that a cursor is at, if it can be read. -/
def columnRead (cursor : Cursor) : ItemRead :=
  (columnAt cursor).elim .other fun found =>
    .column found.1 (clausesOf (clausesStart cursor found.2))

/-- The item behind an optional `CONSTRAINT` name. -/
def bodyRead (named : Bool) (cursor : Cursor) : ItemRead :=
  match cursor.eatWords ["primary", "key"] with
  | some left => left.nameList.1.elim .other .key
  | none =>
      if (cursor.eatWords ["foreign", "key"]).isSome || (cursor.eatWord "unique").isSome ||
          cursor.atWord "check" || cursor.atWord "exclude" || named then .other
      else columnRead cursor

/-- The item that a cursor is at. -/
def itemRead (cursor : Cursor) : ItemRead :=
  (cursor.eatWord "constraint").elim (bodyRead false cursor) fun left => bodyRead true left.tail

/-- Past the column that a cursor is at, or past what stands in place of one. -/
def pastColumn (cursor : Cursor) : Cursor :=
  match columnAt cursor with
  | some (_, kind) => pastColumnClauses (clausesStart cursor kind)
  | none =>
      if (cursor.head?.bind Token.name).isSome then
        ((typeWords cursor.tail).2.takeUntilSeparator []).2
      else (cursor.takeUntilSeparator []).2

/-- Past a foreign key. One of several columns ends where its list of targets does. -/
def pastForeignKey (cursor : Cursor) : Cursor :=
  match cursor.nameList with
  | (none, left) => left
  | (some columns, left) =>
      match left.eatWord "references" with
      | none => left
      | some left =>
          match left.qualifiedName with
          | (none, left) => left
          | (some _, left) =>
              if columns.length = 1 then (left.nameList.2.takeUntilSeparator []).2
                else left.nameList.2

def pastBody (named : Bool) (cursor : Cursor) : Cursor :=
  match cursor.eatWords ["primary", "key"] with
  | some left => left.nameList.2
  | none =>
    match cursor.eatWords ["foreign", "key"] with
    | some left => pastForeignKey left
    | none =>
      match cursor.eatWord "unique" with
      | some left => left.nameList.2
      | none =>
        if cursor.atWord "check" || cursor.atWord "exclude" then Cursor.skipBalanced cursor.tail
        else if named then (cursor.takeUntilSeparator []).2
        else pastColumn cursor

/-- Past the item that a cursor is at. -/
def pastItem (cursor : Cursor) : Cursor :=
  (cursor.eatWord "constraint").elim (pastBody false cursor) fun left => pastBody true left.tail

/-- The columns of a table, each with whether it is a key that takes nulls. -/
def openings (columns : List ParsedColumn) : List (Str × Bool) :=
  columns.map fun column => (column.name, column.primaryKey && column.nullable)

/-- What an item does to the columns that are there before it. -/
def ItemRead.apply (openings : List (Str × Bool)) : ItemRead → List (Str × Bool)
  | column name clauses => openings ++ [(name, reopens clauses)]
  | key names => names.foldl (fun openings name =>
      openings.updateFirst (fun opening => Str.eqIgnoreAsciiCase opening.1 name)
        fun opening => (opening.1, false)) openings
  | other => openings

theorem map_updateFirst {α β : Type} {test : α → Bool} {test' : β → Bool} {change : α → α}
    {change' : β → β} {f : α → β} (sameTest : ∀ item, test' (f item) = test item)
    (sameChange : ∀ item, f (change item) = change' (f item)) (items : List α) :
    (items.updateFirst test change).map f = (items.map f).updateFirst test' change' := by
  induction items with
  | nil => rfl
  | cons item items ih =>
      rw [List.map_cons, List.updateFirst, List.updateFirst, sameTest]
      split
      · rw [List.map_cons, sameChange]
      · rw [List.map_cons, ih]

/-- Marking a key closes the first column of each of its names. -/
theorem openings_markPrimary (table : ParsedTable) (names : List Str) :
    openings (table.markPrimary names).columns =
      (ItemRead.key names).apply (openings table.columns) := by
  induction names generalizing table with
  | nil => rfl
  | cons name names ih =>
      have first : openings (table.updateColumn name fun column =>
          { column with primaryKey := true, nullable := false }).columns =
            (openings table.columns).updateFirst
            (fun opening => Str.eqIgnoreAsciiCase opening.1 name)
              fun opening => (opening.1, false) := by
        unfold openings ParsedTable.updateColumn
        apply map_updateFirst
        · exact fun _ => rfl
        · exact fun _ => rfl
      rw [ItemRead.apply, List.foldl_cons, ← first]
      exact ih _

theorem dataTypes_updateColumn (table : ParsedTable) (name : Str)
    {change : ParsedColumn → ParsedColumn}
    (kept : ∀ column, (change column).dataType = column.dataType) :
    (table.updateColumn name change).columns.map ParsedColumn.dataType =
      table.columns.map ParsedColumn.dataType :=
  List.map_updateFirst_of_kept kept

theorem dataTypes_markPrimary (table : ParsedTable) (names : List Str) :
    (table.markPrimary names).columns.map ParsedColumn.dataType =
      table.columns.map ParsedColumn.dataType := by
  induction names generalizing table with
  | nil => rfl
  | cons name names ih =>
      exact (ih _).trans (dataTypes_updateColumn table name fun _ => rfl)

/-- Marking a column unique changes nothing about keys and nulls. -/
theorem openings_markUnique (table : ParsedTable) (name : Str) :
    openings (table.markUnique name).columns = openings table.columns :=
  List.map_updateFirst_of_kept fun _ => rfl

/-- The types of the columns carry their own parameters. -/
def TypesAreOwn (columns : List ParsedColumn) : Prop :=
  ∀ dataType ∈ columns.map ParsedColumn.dataType, dataType.carriesOwnParameters = true

/-- What an item does to a table, and where it ends. -/
structure ReadsItem (read : ParsedTable → Cursor × ParsedTable) (past : Cursor) (item : ItemRead) :
    Prop where
  next : ∀ table, (read table).1 = past
  openings : ∀ table, openings (read table).2.columns = item.apply (openings table.columns)
  dataTypes : ∀ table, TypesAreOwn table.columns → TypesAreOwn (read table).2.columns

/-- An item that leaves the columns of a table alone. -/
theorem readsItem_other {read : ParsedTable → Cursor × ParsedTable} {past : Cursor}
    (next : ∀ table, (read table).1 = past)
    (kept : ∀ table, (read table).2.columns = table.columns) : ReadsItem read past .other := by
  refine ⟨next, ?_, ?_⟩
  · intro table
    rw [kept]
    rfl
  · intro table own
    rw [kept]
    exact own

theorem readForeignKey_reads (cursor : Cursor) :
    ReadsItem (readForeignKey cursor) (pastForeignKey cursor) .other := by
  rcases listed : cursor.nameList with ⟨columns, afterColumns⟩
  cases columns with
  | none =>
      have value (table : ParsedTable) : readForeignKey cursor table =
          (afterColumns, table.skip "a foreign key it could not read") := by
        simp only [readForeignKey, listed]
      have past : pastForeignKey cursor = afterColumns := by
        simp only [pastForeignKey, listed]
      exact readsItem_other (fun table => by rw [value, past]) fun table => by rw [value]; rfl
  | some columns =>
  cases referenced : afterColumns.eatWord "references" with
  | none =>
      have value (table : ParsedTable) : readForeignKey cursor table =
          (afterColumns, table.skip "a foreign key with no target") := by
        simp only [readForeignKey, listed, referenced]
      have past : pastForeignKey cursor = afterColumns := by
        simp only [pastForeignKey, listed, referenced]
      exact readsItem_other (fun table => by rw [value, past]) fun table => by rw [value]; rfl
  | some left =>
  rcases named : left.qualifiedName with ⟨target, afterTarget⟩
  cases target with
  | none =>
      have value (table : ParsedTable) : readForeignKey cursor table =
          (afterTarget, table.skip "a foreign key with no target") := by
        simp only [readForeignKey, listed, referenced, named]
      have past : pastForeignKey cursor = afterTarget := by
        simp only [pastForeignKey, listed, referenced, named]
      exact readsItem_other (fun table => by rw [value, past]) fun table => by rw [value]; rfl
  | some target =>
      apply readsItem_other
      · intro table
        simp only [readForeignKey, pastForeignKey, listed, referenced, named]
        split
        · rw [if_pos (List.length_singleton)]
        · rename_i several
          rw [if_neg]
          intro single
          rcases List.length_eq_one_iff.mp single with ⟨column, same⟩
          exact several column same
      · intro table
        simp only [readForeignKey, listed, referenced, named]
        split <;> rfl

/-- An item that adds a column to a table. -/
theorem readsItem_column {read : ParsedTable → Cursor × ParsedTable} {past : Cursor} {name : Str}
    {clauses : List Clause} {pushed : ParsedColumn}
    (next : ∀ table, (read table).1 = past)
    (added : ∀ table, (read table).2.columns = table.columns ++ [pushed])
    (named : pushed.name = name)
    (opening : (pushed.primaryKey && pushed.nullable) = reopens clauses)
    (own : pushed.dataType.carriesOwnParameters = true) :
    ReadsItem read past (.column name clauses) := by
  refine ⟨next, ?_, ?_⟩
  · intro table
    rw [added, openings, List.map_append, List.map_singleton, named, opening]
    rfl
  · intro table before dataType mem
    rw [added, List.map_append, List.mem_append] at mem
    rcases mem with earlier | last
    · exact before dataType earlier
    · rw [List.map_singleton, List.mem_singleton] at last
      rw [last]
      exact own

theorem readsItem_missing {cursor left : Cursor} {name : Str}
    (found : column cursor = (.error name, left)) (unread : columnAt cursor = none)
    (past : pastColumn cursor = (left.takeUntilSeparator []).2) :
    ReadsItem (columnItem cursor) (pastColumn cursor) (columnRead cursor) := by
  have nothing : columnRead cursor = .other := by
    rw [columnRead, unread, Option.elim_none]
  rw [nothing, past]
  apply readsItem_other
  · intro table
    simp only [columnItem, found]
  · intro table
    simp only [columnItem, found]
    rfl

/-- A column that could be read, with its reference and the clauses behind it. -/
theorem readsItem_found {cursor start left : Cursor} {blank parsed : ParsedColumn}
    (found : column cursor = (.ok parsed, left))
    (made : constraints start.length start blank = (left, parsed))
    (noKey : blank.primaryKey = false) (own : blank.dataType.carriesOwnParameters = true) :
    ReadsItem (columnItem cursor) (pastColumnClauses start)
      (.column blank.name (clausesOf start)) := by
  rcases readsClauses start.length start blank with ⟨next, flags, name, dataType⟩
  rw [made] at next flags name dataType
  dsimp only at next flags name dataType
  have opened (clauses : List Clause) : reopens clauses =
      ((clauses.foldl Clause.apply blank.flags).1 && (clauses.foldl Clause.apply blank.flags).2) :=
    by
    rw [ParsedColumn.flags, noKey]
    exact (open_foldl_apply clauses blank.nullable).symm
  have reference (table : ParsedTable) := inlineReference_eq left parsed.name table
  cases referenced : pastReference left with
  | some after =>
      have behind := readsClauses after.length after parsed
      have value (table : ParsedTable) : columnItem cursor table =
          ((constraints after.length after parsed).1,
            { (inlineReference left parsed.name table).2.2 with
              columns := table.columns ++ [(constraints after.length after parsed).2] }) := by
        rcases shape : inlineReference left parsed.name table with ⟨flag, after', table'⟩
        rcases reference table with ⟨flagSame, afterSame, columnsSame⟩
        rw [shape] at flagSame afterSame columnsSame
        rw [referenced] at flagSame afterSame
        dsimp only [Option.isSome_some, Option.getD_some] at flagSame afterSame columnsSame
        subst flagSame afterSame
        simp only [columnItem, found, shape, columnsSame]
      apply readsItem_column
      · intro table
        rw [value, behind.next, pastColumnClauses, ← next, referenced, Option.elim_some]
      · intro table
        rw [value]
      · rw [behind.name, name]
      · rw [opened, clausesOf, ← next, referenced, Option.elim_some, List.foldl_append, ← flags,
          ← behind.flags]
        rfl
      · rw [behind.dataType, dataType]
        exact own
  | none =>
      have value (table : ParsedTable) : columnItem cursor table =
          (left, { (inlineReference left parsed.name table).2.2 with
            columns := table.columns ++ [parsed] }) := by
        rcases shape : inlineReference left parsed.name table with ⟨flag, after', table'⟩
        rcases reference table with ⟨flagSame, afterSame, columnsSame⟩
        rw [shape] at flagSame afterSame columnsSame
        rw [referenced] at flagSame afterSame
        dsimp only [Option.isSome_none, Option.getD_none] at flagSame afterSame columnsSame
        subst flagSame afterSame
        simp only [columnItem, found, shape, columnsSame]
      apply readsItem_column
      · intro table
        rw [value, pastColumnClauses, ← next, referenced, Option.elim_none]
      · intro table
        rw [value]
      · exact name
      · rw [opened, clausesOf, ← next, referenced, Option.elim_none, List.append_nil, ← flags]
        rfl
      · rw [dataType]
        exact own

theorem columnItem_reads (cursor : Cursor) :
    ReadsItem (columnItem cursor) (pastColumn cursor) (columnRead cursor) := by
  cases cursor with
  | nil => exact readsItem_missing rfl rfl rfl
  | cons token rest =>
  cases named : token.name with
  | none =>
      have unread : columnAt (token :: rest) = none := by
        simp only [columnAt, List.head?_cons, Option.bind_some, named, Option.bind_none]
      have found : column (token :: rest) = (.error [], token :: rest) := by
        simp only [column, named]
      apply readsItem_missing found unread
      simp only [pastColumn, unread, List.head?_cons, Option.bind_some, named, Option.isSome_none,
        Bool.false_eq_true, if_false]
  | some name =>
  cases known : kindOf (Str.join " " (typeWords rest).1) with
  | none =>
      have unread : columnAt (token :: rest) = none := by
        simp only [columnAt, List.head?_cons, List.tail_cons, Option.bind_some, named, known,
          Option.map_none]
      rcases found : column (token :: rest) with ⟨result, left⟩
      simp only [column, named, known, Prod.mk.injEq] at found
      rcases found with ⟨rfl, rfl⟩
      refine readsItem_missing (by simp only [column, named, known]; rfl) unread ?_
      simp only [pastColumn, unread, List.head?_cons, List.tail_cons, Option.bind_some, named,
        Option.isSome_some, if_true]
  | some kind =>
      have found : columnAt (token :: rest) = some (name, kind) := by
        simp only [columnAt, List.head?_cons, List.tail_cons, Option.bind_some, named, known,
          Option.map_some]
      have read : column (token :: rest) =
          (let read := constraints (clausesStart (token :: rest) kind).length
            (clausesStart (token :: rest) kind) ⟨name, (parameters (typeWords rest).2 kind).1,
              !isSerial (Str.join " " (typeWords rest).1), false, false, none⟩;
          (.ok read.2, read.1)) := by
        simp only [column, named, known]
        rfl
      rw [columnRead, found, Option.elim_some, pastColumn, found]
      exact readsItem_found read rfl rfl (carriesOwnParameters_parameters (typeWords rest).2 kind)

theorem itemBody_reads (named : Bool) (cursor : Cursor) :
    ReadsItem (itemBody named cursor) (pastBody named cursor) (bodyRead named cursor) := by
  cases key : cursor.eatWords ["primary", "key"] with
  | some left =>
      rcases listed : left.nameList with ⟨names, after⟩
      have past : pastBody named cursor = after := by
        simp only [pastBody, key, listed]
      cases names with
      | none =>
          have nothing : bodyRead named cursor = .other := by
            simp only [bodyRead, key, listed, Option.elim_none]
          have value (table : ParsedTable) : itemBody named cursor table =
              (after, table.skip "a primary key it could not read") := by
            simp only [itemBody, key, listed]
          rw [nothing, past]
          exact readsItem_other (fun table => by rw [value]) fun table => by rw [value]; rfl
      | some names =>
          have said : bodyRead named cursor = .key names := by
            simp only [bodyRead, key, listed, Option.elim_some]
          have value (table : ParsedTable) : itemBody named cursor table =
              (after, table.markPrimary names) := by
            simp only [itemBody, key, listed]
          rw [said, past]
          refine ⟨fun table => by rw [value], ?_, ?_⟩
          · intro table
            rw [value, openings_markPrimary]
          · intro table own
            rw [value, TypesAreOwn, dataTypes_markPrimary]
            exact own
  | none =>
  cases foreign : cursor.eatWords ["foreign", "key"] with
  | some left =>
      have nothing : bodyRead named cursor = .other := by
        simp only [bodyRead, key, foreign, Option.isSome_some, Bool.true_or, if_true]
      have value : itemBody named cursor = readForeignKey left := by
        funext table
        simp only [itemBody, key, foreign]
      have past : pastBody named cursor = pastForeignKey left := by
        simp only [pastBody, key, foreign]
      rw [nothing, value, past]
      exact readForeignKey_reads left
  | none =>
  cases unique : cursor.eatWord "unique" with
  | some left =>
      have nothing : bodyRead named cursor = .other := by
        simp only [bodyRead, key, foreign, unique, Option.isSome_some, Bool.or_true, Bool.true_or,
          if_true]
      rcases listed : left.nameList with ⟨names, after⟩
      have past : pastBody named cursor = after := by
        simp only [pastBody, key, foreign, unique, listed]
      rw [nothing, past]
      have value (table : ParsedTable) : (itemBody named cursor table).1 = after ∧
          ((∃ name, (itemBody named cursor table).2 = table.markUnique name) ∨
            ∃ note, (itemBody named cursor table).2 = table.skip note) := by
        simp only [itemBody, key, foreign, unique, listed]
        split
        · rename_i shape
          rcases Prod.mk.inj shape with ⟨-, rfl⟩
          exact ⟨rfl, Or.inl ⟨_, rfl⟩⟩
        · rename_i shape
          rcases Prod.mk.inj shape with ⟨-, rfl⟩
          exact ⟨rfl, Or.inr ⟨_, rfl⟩⟩
      refine ⟨?_, ?_, ?_⟩
      · intro table
        exact (value table).1
      · intro table
        rcases (value table).2 with ⟨name, same⟩ | ⟨note, same⟩
        · rw [same, openings_markUnique]
          rfl
        · rw [same]
          rfl
      · intro table own
        rcases (value table).2 with ⟨name, same⟩ | ⟨note, same⟩
        · have kept : (table.markUnique name).columns.map ParsedColumn.dataType =
              table.columns.map ParsedColumn.dataType :=
            dataTypes_updateColumn table name fun _ => rfl
          rw [same, TypesAreOwn, kept]
          exact own
        · rw [same]
          exact own
  | none =>
  by_cases check : (cursor.atWord "check" || cursor.atWord "exclude") = true
  · have nothing : bodyRead named cursor = .other := by
      simp only [bodyRead, key, foreign, unique, Option.isSome_none, Bool.false_or, check,
        Bool.true_or, if_true]
    have value (table : ParsedTable) : itemBody named cursor table =
        (Cursor.skipBalanced cursor.tail, table.skip "a check constraint") := by
      simp only [itemBody, key, foreign, unique, check, if_true]
    have past : pastBody named cursor = Cursor.skipBalanced cursor.tail := by
      simp only [pastBody, key, foreign, unique, check, if_true]
    rw [nothing, past]
    exact readsItem_other (fun table => by rw [value]) fun table => by rw [value]; rfl
  · rw [Bool.not_eq_true] at check
    cases named with
    | true =>
        have nothing : bodyRead true cursor = .other := by
          simp only [bodyRead, key, foreign, unique, Option.isSome_none,
            Bool.false_or, Bool.or_true, if_true]
        have value (table : ParsedTable) : itemBody true cursor table =
            ((cursor.takeUntilSeparator []).2,
              table.skip ("the constraint `" ++ render (cursor.takeUntilSeparator []).1 ++ "`")) :=
                by
          simp only [itemBody, key, foreign, unique, check, Bool.false_eq_true, if_true, if_false]
        have past : pastBody true cursor = (cursor.takeUntilSeparator []).2 := by
          simp only [pastBody, key, foreign, unique, check, Bool.false_eq_true, if_true, if_false]
        rw [nothing, past]
        exact readsItem_other (fun table => by rw [value]) fun table => by rw [value]; rfl
    | false =>
        have said : bodyRead false cursor = columnRead cursor := by
          simp only [bodyRead, key, foreign, unique, Option.isSome_none, Bool.false_or, check,
            Bool.or_false, Bool.false_eq_true, if_false]
        have value : itemBody false cursor = columnItem cursor := by
          funext table
          simp only [itemBody, key, foreign, unique, check, Bool.false_eq_true, if_false]
        have past : pastBody false cursor = pastColumn cursor := by
          simp only [pastBody, key, foreign, unique, check, Bool.false_eq_true, if_false]
        rw [said, value, past]
        exact columnItem_reads cursor

theorem item_reads (cursor : Cursor) :
    ReadsItem (item cursor) (pastItem cursor) (itemRead cursor) := by
  cases named : cursor.eatWord "constraint" with
  | some left =>
      have value : item cursor = itemBody true left.tail := by
        funext table
        simp only [item, named]
      rw [itemRead, pastItem, named, value]
      exact itemBody_reads true left.tail
  | none =>
      have value : item cursor = itemBody false cursor := by
        funext table
        simp only [item, named]
      rw [itemRead, pastItem, named, value]
      exact itemBody_reads false cursor

/-- Where the items of a table start, up to the first that no comma is behind. -/
def itemCursors : Nat → Cursor → List Cursor
  | 0, _ => []
  | fuel + 1, cursor =>
      if cursor.isEmpty || cursor.atPunct ')' then []
      else cursor :: ((pastItem cursor).eatPunct ',').elim [] (itemCursors fuel)

theorem items_reads (fuel : Nat) (cursor : Cursor) (table : ParsedTable) :
    openings (items fuel cursor table).columns =
        ((itemCursors fuel cursor).map itemRead).foldl ItemRead.apply (openings table.columns) ∧
      (TypesAreOwn table.columns → TypesAreOwn (items fuel cursor table).columns) := by
  induction fuel generalizing cursor table with
  | zero => exact ⟨rfl, id⟩
  | succ fuel ih =>
      have step := item_reads cursor
      by_cases ends : (cursor.isEmpty || cursor.atPunct ')') = true
      · simp only [items, itemCursors, ends, if_true, List.map_nil, List.foldl_nil,
          true_and, imp_self]
      · rw [items, if_neg ends, itemCursors, if_neg ends, List.map_cons, List.foldl_cons,
          ← step.openings table]
        simp only [step.next table]
        cases more : (pastItem cursor).eatPunct ',' with
        | none => exact ⟨rfl, step.dataTypes table⟩
        | some left =>
            rcases ih left (item cursor table).2 with ⟨laterOpenings, laterTypes⟩
            exact ⟨laterOpenings, fun own => laterTypes (step.dataTypes table own)⟩

/-- The inside of the parentheses of a table. -/
def tableBody (tokens : List Token) : Option Cursor := do
  let cursor ← Cursor.eatWord tokens "create"
  let cursor ← Cursor.eatWord (cursor.dropWhile fun token => !token.isWord "table") "table"
  let cursor := (cursor.eatWords ["if", "not", "exists"]).getD cursor
  let _ ← cursor.qualifiedName.1
  cursor.qualifiedName.2.eatPunct '('

/-- Where the items of the table start that a statement creates, if it creates one. -/
def itemsAt (tokens : List Token) : List Cursor :=
  (tableBody tokens).elim [] fun cursor => itemCursors cursor.length cursor

theorem parse_eq (tokens : List Token) :
    (parse tokens = none ∧ itemsAt tokens = []) ∨
      ∃ table, parse tokens = some table ∧
        openings table.columns = ((itemsAt tokens).map itemRead).foldl ItemRead.apply [] ∧
        TypesAreOwn table.columns := by
  have blank : TypesAreOwn [] := by
    intro dataType mem
    cases mem
  unfold parse itemsAt tableBody
  simp only [Option.bind_eq_bind]
  cases Cursor.eatWord tokens "create" with
  | none => exact Or.inl ⟨rfl, rfl⟩
  | some afterCreate =>
  dsimp only [Option.bind_some]
  cases Cursor.eatWord (afterCreate.dropWhile fun token => !token.isWord "table") "table" with
  | none => exact Or.inl ⟨rfl, rfl⟩
  | some afterTable =>
  dsimp only [Option.bind_some]
  rcases ((afterTable.eatWords ["if", "not", "exists"]).getD afterTable).qualifiedName with
    ⟨name, afterName⟩
  cases name with
  | none => exact Or.inl ⟨rfl, rfl⟩
  | some name =>
  dsimp only [Option.bind_some]
  cases afterName.eatPunct '(' with
  | none => exact Or.inr ⟨_, rfl, rfl, blank⟩
  | some body =>
      rcases items_reads body.length body ⟨name, [], [], []⟩ with ⟨same, own⟩
      exact Or.inr ⟨_, rfl, same, own blank⟩

namespace ItemRead

/-- The item is a key of the table that names the column. -/
def closes (item : ItemRead) (name : Str) : Bool :=
  match item with
  | key names => names.any fun listed => Str.eqIgnoreAsciiCase name listed
  | _ => false

def columnName : ItemRead → Option Str
  | column name _ => some name
  | _ => none

end ItemRead

theorem map_fst_apply (item : ItemRead) (openings : List (Str × Bool)) :
    (item.apply openings).map Prod.fst = openings.map Prod.fst ++ item.columnName.toList := by
  cases item with
  | column name clauses => exact List.map_append
  | other => exact (List.append_nil _).symm
  | key names =>
      refine Eq.trans ?_ (List.append_nil _).symm
      rw [ItemRead.apply]
      induction names generalizing openings with
      | nil => rfl
      | cons name names ih =>
          rw [List.foldl_cons, ih]
          exact List.map_updateFirst_of_kept fun _ => rfl

end SchemaForge.Sql
