import SchemaForge.Sql.InertClauses

/-!
# Keys that are left open

`PRIMARY KEY` closes a column to nulls, and a clause behind it may open the
column again: a `NULL`, the `SET NULL` of a reference, or a default whose `NULL`
is left to the loop over the constraints. This file says in which tables a key
column ends up nullable.
-/

namespace SchemaForge.Sql

/-- A definition of a column stands at the cursor, and behind it the table goes on or ends. -/
def IsDefinitionAt (definition : ColumnDefinition) (cursor : Cursor) : Prop :=
  definition.IsWellFormed ∧ ∃ rest, EndsItem rest ∧ cursor = definition.tokens ++ rest

/-- One of the clauses makes the column a key, and the last that speaks of nulls lets them in. -/
def ColumnDefinition.isOpenKey (definition : ColumnDefinition) : Bool :=
  definition.clausesRead.any ColumnClause.isPrimaryKey &&
    (speaking definition.clausesRead).getLast?.bind ColumnClause.nullability == some true

/-- The column at the cursor is an open key: by its clauses, or by its words if they make up no
definition. -/
def IsOpenKey (cursor : Cursor) (words : List Clause) : Prop :=
  (∃ definition, IsDefinitionAt definition cursor ∧ definition.isOpenKey = true) ∨
    (∀ definition, ¬IsDefinitionAt definition cursor) ∧ reopens words = true

/--
Some column of the table is an open key, and no later key of the table closes it: none names it, or
they mean an earlier column of the same name.
-/
def LeavesKeyOpen (tokens : List Token) : Prop :=
  ∃ before cursor after name words, itemsAt tokens = before ++ cursor :: after ∧
    itemRead cursor = .column name words ∧ IsOpenKey cursor words ∧
    ((∃ earlier ∈ before.filterMap fun item => (itemRead item).columnName,
        Str.eqIgnoreAsciiCase earlier name = true) ∨
      ∀ item ∈ after, (itemRead item).closes name = false)

/-- No column before the place has the name. -/
def isFirst (names : List Str) (index : Nat) (name : Str) : Bool :=
  (names.take index).all fun other => !Str.eqIgnoreAsciiCase other name

theorem map_fst_foldl_apply (items : List ItemRead) (openings : List (Str × Bool)) :
    (items.foldl ItemRead.apply openings).map Prod.fst =
      openings.map Prod.fst ++ items.filterMap ItemRead.columnName := by
  induction items generalizing openings with
  | nil => simp
  | cons item items ih =>
      rw [List.foldl_cons, ih, map_fst_apply, List.append_assoc]
      cases named : item.columnName with
      | none => simp [named]
      | some name => simp [named]

/-- Closing the first column of a name closes a column of the name that is first. -/
theorem getElem?_updateFirst_close {openings : List (Str × Bool)} {index : Nat} {name : Str}
    {isOpen : Bool} (found : openings[index]? = some (name, isOpen)) (closing : Str) :
    (openings.updateFirst (fun opening => Str.eqIgnoreAsciiCase opening.1 closing)
        fun opening => (opening.1, false))[index]? =
      some (name, isOpen && !(isFirst (openings.map Prod.fst) index name &&
        Str.eqIgnoreAsciiCase name closing)) := by
  induction openings generalizing index with
  | nil => simp at found
  | cons opening openings ih =>
      rw [List.updateFirst]
      cases index with
      | zero =>
          rw [List.getElem?_cons_zero, Option.some.injEq] at found
          subst found
          cases Str.eqIgnoreAsciiCase name closing <;> simp [isFirst]
      | succ index =>
          rw [List.getElem?_cons_succ] at found
          have later := ih found
          have split : isFirst (((opening :: openings).map Prod.fst)) (index + 1) name =
              (!Str.eqIgnoreAsciiCase opening.1 name && isFirst
                (openings.map Prod.fst) index name) :=
            rfl
          rw [split]
          cases named : Str.eqIgnoreAsciiCase name closing with
          | false =>
              rw [named] at later
              cases Str.eqIgnoreAsciiCase opening.1 closing
              · simpa using later
              · simpa using found
          | true =>
              have same : Str.eqIgnoreAsciiCase opening.1 name =
                  Str.eqIgnoreAsciiCase opening.1 closing := by
                rw [Str.eqIgnoreAsciiCase, Str.eqIgnoreAsciiCase,
                  Str.eqIgnoreAsciiCase_iff.mp named]
              rw [same]
              rw [named] at later
              cases Str.eqIgnoreAsciiCase opening.1 closing
              · simpa using later
              · simpa using found

theorem getElem?_apply {openings : List (Str × Bool)} {index : Nat} {name : Str} {isOpen : Bool}
    (found : openings[index]? = some (name, isOpen)) (item : ItemRead) :
    (item.apply openings)[index]? = some (name, isOpen &&
      !(isFirst (openings.map Prod.fst) index name && item.closes name)) := by
  cases item with
  | column added clauses =>
      rcases List.getElem?_eq_some_iff.mp found with ⟨bound, -⟩
      rw [ItemRead.apply, List.getElem?_append_left bound, found]
      simp [ItemRead.closes]
  | other => simp [ItemRead.apply, ItemRead.closes, found]
  | key names =>
      rw [ItemRead.apply, ItemRead.closes]
      induction names generalizing openings isOpen with
      | nil => simp [found]
      | cons closing names ih =>
          have sameNames : (openings.updateFirst (fun opening =>
              Str.eqIgnoreAsciiCase opening.1 closing) fun opening => (opening.1, false)).map
                Prod.fst = openings.map Prod.fst := List.map_updateFirst_of_kept fun _ => rfl
          rw [List.foldl_cons, ih (getElem?_updateFirst_close found closing), sameNames,
            List.any_cons]
          cases isFirst (openings.map Prod.fst) index name <;>
            cases Str.eqIgnoreAsciiCase name closing <;> simp

theorem isFirst_append {names more : List Str} {index : Nat} (bound : index ≤ names.length)
    (name : Str) : isFirst (names ++ more) index name = isFirst names index name := by
  rw [isFirst, isFirst, List.take_append_of_le_length bound]

theorem getElem?_foldl_apply {openings : List (Str × Bool)} {index : Nat} {name : Str}
    {isOpen : Bool} (found : openings[index]? = some (name, isOpen)) (items : List ItemRead) :
    (items.foldl ItemRead.apply openings)[index]? = some (name, isOpen &&
      !(isFirst (openings.map Prod.fst) index name && items.any fun item => item.closes name)) := by
  induction items generalizing openings isOpen with
  | nil => simp [found]
  | cons item items ih =>
      have bound : index ≤ (openings.map Prod.fst).length := by
        rw [List.length_map]
        exact Nat.le_of_lt (List.getElem?_eq_some_iff.mp found).1
      rw [List.foldl_cons, ih (getElem?_apply found item), map_fst_apply, isFirst_append bound,
        List.any_cons]
      cases isFirst (openings.map Prod.fst) index name <;> cases item.closes name <;> simp

/-- Every column of a table was added by an item. -/
theorem exists_column_of_getElem? {items : List ItemRead} {index : Nat} {opening : Str × Bool}
    (found : (items.foldl ItemRead.apply [])[index]? = some opening) :
    ∃ before name clauses after, items = before ++ .column name clauses :: after ∧
      (before.foldl ItemRead.apply []).length = index := by
  induction items using List.reverseRecOn generalizing opening with
  | nil => simp at found
  | append_singleton items item ih =>
      by_cases earlier : index < (items.foldl ItemRead.apply []).length
      · rcases ih (List.getElem?_eq_getElem earlier) with
          ⟨before, name, clauses, after, rfl, place⟩
        exact ⟨before, name, clauses, after ++ [item], by simp, place⟩
      · have lengths := congrArg List.length (map_fst_apply item (items.foldl ItemRead.apply []))
        rw [List.foldl_append, List.foldl_cons, List.foldl_nil] at found
        rcases List.getElem?_eq_some_iff.mp found with ⟨bound, -⟩
        rw [List.length_map, List.length_append, List.length_map] at lengths
        cases item with
        | column name clauses =>
            refine ⟨items, name, clauses, [], rfl, ?_⟩
            simp only [ItemRead.columnName, Option.toList_some, List.length_singleton] at lengths
            omega
        | key names =>
            simp only [ItemRead.columnName, Option.toList_none, List.length_nil] at lengths
            omega
        | other =>
            simp only [ItemRead.columnName, Option.toList_none, List.length_nil] at lengths
            omega

theorem isFirst_eq_false_iff {names : List Str} {name : Str} :
    isFirst names names.length name = false ↔
      ∃ earlier ∈ names, Str.eqIgnoreAsciiCase earlier name = true := by
  rw [isFirst, List.take_length, List.all_eq_false]
  simp

/-- The column that an item adds, after the items behind it. -/
theorem getElem?_split (before after : List ItemRead) (name : Str) (clauses : List Clause) :
    ((before ++ .column name clauses :: after).foldl ItemRead.apply
      [])[(before.foldl ItemRead.apply []).length]? =
      some (name, reopens clauses && !(isFirst (before.filterMap ItemRead.columnName)
        (before.filterMap ItemRead.columnName).length name &&
          after.any fun item => item.closes name)) := by
  have names := map_fst_foldl_apply before []
  rw [List.map_nil, List.nil_append] at names
  have lengths : (before.foldl ItemRead.apply []).length =
      (before.filterMap ItemRead.columnName).length := by
    rw [← names, List.length_map]
  have here : (ItemRead.apply (before.foldl ItemRead.apply []) (.column name clauses))[
      (before.foldl ItemRead.apply []).length]? = some (name, reopens clauses) := by
    simp [ItemRead.apply]
  rw [List.foldl_append, List.foldl_cons, getElem?_foldl_apply here, map_fst_apply, names, lengths,
    isFirst_append (le_refl _)]

theorem isSome_of_isPrimaryKey {clause : ColumnClause} (key : clause.isPrimaryKey = true) :
    clause.nullability.isSome = true := by
  cases clause with
  | primaryKey => rfl
  | _ => cases key

/-- A key speaks of nulls, so what its column took before the clauses does not matter. -/
theorem isOpenKey_eq (definition : ColumnDefinition) (nullable : Bool) : definition.isOpenKey =
    (definition.clausesRead.any ColumnClause.isPrimaryKey &&
      ((speaking definition.clausesRead).getLast?.bind ColumnClause.nullability).getD nullable) :=
        by
  rw [ColumnDefinition.isOpenKey]
  cases keyed : definition.clausesRead.any ColumnClause.isPrimaryKey with
  | false => rw [Bool.false_and, Bool.false_and]
  | true =>
      rcases List.any_eq_true.mp keyed with ⟨clause, mem, key⟩
      have speaks : clause ∈ speaking definition.clausesRead :=
        List.mem_filter.mpr ⟨mem, isSome_of_isPrimaryKey key⟩
      have last := List.getLast?_eq_some_getLast (List.ne_nil_of_mem speaks)
      have spoken := (List.mem_filter.mp (List.getLast_mem (List.ne_nil_of_mem speaks))).2
      rw [last, Option.bind_some]
      rcases Option.isSome_iff_exists.mp spoken with ⟨taken, said⟩
      rw [said, Bool.true_and, Bool.true_and]
      cases taken <;> rfl

/-- The words of a definition come to what its clauses say. -/
theorem itemRead_of_isDefinitionAt {definition : ColumnDefinition} {cursor : Cursor}
    (here : IsDefinitionAt definition cursor) :
    ∃ name words, itemRead cursor = .column name words ∧ reopens words = definition.isOpenKey := by
  rcases here with ⟨wellFormed, rest, ends, rfl⟩
  have read := (item_reads (definition.tokens ++ rest)).openings .blank
  rw [item_tokens wellFormed.readable ends .blank] at read
  have one := congrArg (List.map Prod.fst) read
  rw [map_fst_apply] at one
  generalize itemRead (definition.tokens ++ rest) = said at read one
  cases said with
  | other => cases one
  | key names => cases one
  | column name words =>
      refine ⟨name, words, rfl, ?_⟩
      have opened := (Prod.mk.inj (List.cons.inj read).1).2
      rw [isOpenKey_eq definition definition.start.nullable, ← opened, effect_primaryKey,
        effect_nullable, getLast?_nullability]
      rfl

/-- A column ends up an open key exactly where the items say so. -/
theorem exists_open_iff (cursors : List Cursor) :
    (∃ opening ∈ (cursors.map itemRead).foldl ItemRead.apply [], opening.2 = true) ↔
      ∃ before cursor after name words, cursors = before ++ cursor :: after ∧
        itemRead cursor = .column name words ∧ reopens words = true ∧
        ((∃ earlier ∈ before.filterMap fun item => (itemRead item).columnName,
            Str.eqIgnoreAsciiCase earlier name = true) ∨
          ∀ item ∈ after, (itemRead item).closes name = false) := by
  have names (before : List Cursor) : (before.map itemRead).filterMap ItemRead.columnName =
      before.filterMap fun item => (itemRead item).columnName := List.filterMap_map
  constructor
  · rintro ⟨opening, mem, isOpen⟩
    rcases List.mem_iff_getElem?.mp mem with ⟨index, found⟩
    rcases exists_column_of_getElem? found with ⟨before, name, words, after, items, rfl⟩
    rcases List.map_eq_append_iff.mp items with ⟨before, rest, rfl, rfl, behind⟩
    rcases List.map_eq_cons_iff.mp behind with ⟨cursor, after, rfl, read, rfl⟩
    rw [items, getElem?_split, Option.some.injEq] at found
    subst found
    rw [Bool.and_eq_true, Bool.not_eq_true', Bool.and_eq_false_iff] at isOpen
    refine ⟨before, cursor, after, name, words, rfl, read, isOpen.1, ?_⟩
    rcases isOpen.2 with taken | unnamed
    · left
      rw [← names]
      exact isFirst_eq_false_iff.mp taken
    · right
      simpa using unnamed
  · rintro ⟨before, cursor, after, name, words, rfl, read, reopened, unclosed⟩
    rw [List.map_append, List.map_cons, read]
    refine ⟨_, List.mem_of_getElem?
      (getElem?_split (before.map itemRead) (after.map itemRead) name words), ?_⟩
    rw [Bool.and_eq_true, Bool.not_eq_true', Bool.and_eq_false_iff]
    refine ⟨reopened, ?_⟩
    rcases unclosed with taken | unnamed
    · left
      rw [← names] at taken
      exact isFirst_eq_false_iff.mpr taken
    · right
      simpa using unnamed

theorem reopens_iff_isOpenKey {cursor : Cursor} {name : Str} {words : List Clause}
    (read : itemRead cursor = .column name words) : reopens words = true ↔
      IsOpenKey cursor words := by
  by_cases defined : ∃ definition, IsDefinitionAt definition cursor
  · rcases defined with ⟨definition, here⟩
    have same {other : ColumnDefinition} (here : IsDefinitionAt other cursor) :
        reopens words = other.isOpenKey := by
      rcases itemRead_of_isDefinitionAt here with ⟨name', words', read', said⟩
      rw [read, ItemRead.column.injEq] at read'
      rw [read'.2, said]
    constructor
    · intro reopened
      exact Or.inl ⟨definition, here, by rw [← same here, reopened]⟩
    · rintro (⟨other, otherHere, isOpen⟩ | ⟨none, -⟩)
      · rw [same otherHere, isOpen]
      · exact absurd here (none definition)
  · rw [not_exists] at defined
    constructor
    · exact fun reopened => Or.inr ⟨defined, reopened⟩
    · rintro (⟨other, otherHere, -⟩ | ⟨-, reopened⟩)
      · exact absurd otherHere (defined other)
      · exact reopened

theorem leavesKeyOpen_iff (tokens : List Token) : LeavesKeyOpen tokens ↔
    ∃ opening ∈ ((itemsAt tokens).map itemRead).foldl ItemRead.apply [], opening.2 = true := by
  rw [exists_open_iff, LeavesKeyOpen]
  constructor
  · rintro ⟨before, cursor, after, name, words, items, read, isOpen, unclosed⟩
    exact ⟨before, cursor, after, name, words, items, read, (reopens_iff_isOpenKey read).mpr isOpen,
      unclosed⟩
  · rintro ⟨before, cursor, after, name, words, items, read, reopened, unclosed⟩
    exact ⟨before, cursor, after, name, words, items, read,
      (reopens_iff_isOpenKey read).mp reopened, unclosed⟩

end SchemaForge.Sql
