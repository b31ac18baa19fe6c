import SchemaForge.Sql.CreateTable

/-!
# The actions of ALTER TABLE

An `ALTER TABLE` holds a list of actions. The reader takes the foreign key that
the list opens with and does not look further, so the statement is accounted for
when it opens with something else, and is skipped whole, or when the key is all
it holds.
-/

namespace SchemaForge.Sql

open Exchange

/-- The table that an `ALTER TABLE` is about, and the list of its actions. -/
def alterBody (tokens : List Token) : Option (Str × List Token) := do
  let cursor ← Cursor.eatWord tokens "alter"
  let cursor ← cursor.eatWord "table"
  let cursor := (cursor.eatWords ["if", "exists"]).getD cursor
  let cursor := (cursor.eatWord "only").getD cursor
  let holder ← cursor.qualifiedName.1
  return (holder, cursor.qualifiedName.2)

/-- The list split at the commas outside parentheses. -/
def splitActions (depth : Nat) : List Token → List (List Token)
  | [] => [[]]
  | token :: rest =>
      if depth = 0 && token.isPunct ',' then [] :: splitActions 0 rest
      else
        (splitActions (if token.isPunct '(' then depth + 1 else if token.isPunct ')' then depth - 1
          else depth) rest).modifyHead (token :: ·)

/-- The cursor past an optional constraint name. -/
def pastName (cursor : Cursor) : Cursor :=
  match cursor.eatWord "constraint" with
  | some cursor => cursor.tail
  | none => cursor

/-- The foreign key that an action adds to a table. -/
def keyAdded (holder : Str) (action : List Token) : Option (Str × ParsedForeignKey) := do
  let cursor ← Cursor.eatWord action "add"
  let cursor ← (pastName cursor).eatWords ["foreign", "key"]
  let columns ← cursor.nameList.1
  let cursor ← cursor.nameList.2.eatWord "references"
  let table ← cursor.qualifiedName.1
  match columns with
  | [column] => some (holder, ⟨column, table, cursor.qualifiedName.2.nameList.1.bind List.head?⟩)
  | _ => none

/-- The statement is skipped, or each of its actions adds a foreign key that is taken from it. -/
def AccountsForActions (tokens : List Token) : Prop :=
  ∀ holder actions, alterBody tokens = some (holder, actions) →
    (classify tokens).isSkipped = true ∨
      (splitActions 0 actions).map (keyAdded holder) = [(classify tokens).asForeignKey]

/-- `ADD`, an optional constraint name, and a foreign key of a single column. -/
def OpensWithKey (actions : List Token) : Prop :=
  ∃ named column rest, actions = .word "add" ::
    (named ++ .word "foreign" :: .word "key" :: .punct '(' ::
      column :: .punct ')' :: .word "references" :: rest) ∧
    (named = [] ∨ ∃ name, named = [.word "constraint", name]) ∧ column.name.isSome = true ∧
    (Cursor.qualifiedName rest).1.isSome = true

/-- A statement whose list of actions opens with a foreign key holds no other action. -/
def HoldsOneKey (tokens : List Token) : Prop :=
  ∀ holder actions, alterBody tokens = some (holder, actions) → OpensWithKey actions →
    (splitActions 0 actions).length = 1

theorem length_splitActions_pos (depth : Nat) (tokens : List Token) :
    0 < (splitActions depth tokens).length := by
  cases tokens with
  | nil => exact Nat.one_pos
  | cons token rest =>
      rw [splitActions]
      split
      · exact Nat.succ_pos _
      · rw [List.length_modifyHead]
        exact length_splitActions_pos _ rest

theorem splitActions_eq_of_length {depth : Nat} {tokens : List Token}
    (single : (splitActions depth tokens).length = 1) : splitActions depth tokens = [tokens] := by
  induction tokens generalizing depth with
  | nil => rfl
  | cons token rest ih =>
      rw [splitActions] at single ⊢
      split at single
      · have more := length_splitActions_pos 0 rest
        rw [List.length_cons] at single
        omega
      · rename_i goesOn
        rw [List.length_modifyHead] at single
        rw [if_neg goesOn, ih single]
        rfl

theorem alter_eq_keyAdded {tokens actions : List Token} {holder : Str}
    (body : alterBody tokens = some (holder, actions)) :
    alter tokens = keyAdded holder actions := by
  simp only [alterBody, Option.bind_eq_bind, Option.bind_eq_some_iff, Option.pure_def,
    Option.some.injEq, Prod.mk.injEq] at body
  rcases body with ⟨cursor, altered, left, table, name, named, rfl, rfl⟩
  simp only [alter, altered, Option.getD_some, table, named, Option.bind_eq_bind, Option.bind_some]
  rfl

theorem classify_of_alterBody {tokens actions : List Token} {holder : Str}
    (body : alterBody tokens = some (holder, actions)) :
    (classify tokens).asForeignKey = keyAdded holder actions ∧
      ((classify tokens).isSkipped = true ↔ keyAdded holder actions = none) := by
  have altered : Cursor.atWord tokens "alter" = true ∧ Cursor.atWord tokens "create" = false := by
    simp only [alterBody, Option.bind_eq_bind, Option.bind_eq_some_iff] at body
    rcases body with ⟨cursor, altered, -⟩
    rw [Cursor.eatWord_eq_some_iff.mp altered]
    exact ⟨rfl, rfl⟩
  rw [classify, altered.2, altered.1, if_neg Bool.false_ne_true, if_pos rfl, alter_eq_keyAdded body]
  cases keyAdded holder actions with
  | none => exact ⟨rfl, by simp [Read.isSkipped]⟩
  | some key => exact ⟨rfl, by simp [Read.isSkipped]⟩

theorem length_nameItems {names found : List Str} {tokens left : Cursor}
    (read : Cursor.nameItems names tokens = (some found, left)) : names.length < found.length := by
  fun_induction Cursor.nameItems names tokens with
  | case1 => cases read
  | case2 => cases read
  | case3 => cases read
  | case4 names token next rest name named comma ih =>
      have longer := ih read
      rw [List.length_append, List.length_singleton] at longer
      omega
  | case5 names token next rest name named comma closing =>
      cases read
      simp
  | case6 => cases read

theorem nameItems_eq_single_iff {tokens left : Cursor} {column : Str} :
    Cursor.nameItems [] tokens = (some [column], left) ↔
      ∃ token, tokens = token :: .punct ')' :: left ∧ token.name = some column := by
  constructor
  · intro read
    rcases tokens with _ | ⟨token, _ | ⟨next, rest⟩⟩
    · cases read
    · cases read
    · rw [Cursor.nameItems] at read
      cases named : token.name with
      | none => simp [named] at read
      | some name =>
          simp only [named] at read
          split at read
          · have longer := length_nameItems read
            simp at longer
          · split at read
            · rename_i closing
              simp only [List.nil_append, Prod.mk.injEq, Option.some.injEq, List.cons.injEq,
                and_true] at read
              rcases read with ⟨rfl, rfl⟩
              cases next with
              | punct value =>
                  have same : value = ')' := beq_iff_eq.mp closing
                  exact ⟨token, by rw [same], named⟩
              | word | quoted | text | number => cases closing
            · cases read
  · rintro ⟨token, rfl, named⟩
    rw [Cursor.nameItems]
    simp [named, Token.isPunct]

theorem nameList_eq_single_iff {tokens left : Cursor} {column : Str} :
    Cursor.nameList tokens = (some [column], left) ↔
      ∃ token, tokens = .punct '(' :: token :: .punct ')' :: left ∧ token.name = some column := by
  unfold Cursor.nameList
  cases opened : Cursor.eatPunct tokens '(' with
  | none =>
      refine iff_of_false (fun read => nomatch read) ?_
      rintro ⟨token, rfl, -⟩
      rw [Cursor.eatPunct_eq_some_iff.mpr rfl] at opened
      cases opened
  | some inside =>
      rw [Cursor.eatPunct_eq_some_iff.mp opened]
      simp only [nameItems_eq_single_iff, List.cons.injEq, true_and]

theorem eatWords_pair_iff {cursor left : Cursor} {first second : Str} :
    cursor.eatWords [first, second] = some left ↔ cursor = .word first :: .word second :: left := by
  simp only [Cursor.eatWords, Option.bind_eq_some_iff, Cursor.eatWord_eq_some_iff,
    Option.some.injEq]
  constructor
  · rintro ⟨_, rfl, _, rfl, rfl⟩
    rfl
  · rintro rfl
    exact ⟨_, rfl, _, rfl, rfl⟩

theorem pastName_eq_foreign_iff {cursor rest : Cursor} : pastName cursor = .word "foreign" :: rest ↔
    ∃ named, cursor = named ++ .word "foreign" :: rest ∧
      (named = [] ∨ ∃ name, named = [.word "constraint", name]) := by
  unfold pastName
  constructor
  · intro past
    cases eaten : cursor.eatWord "constraint" with
    | none =>
        simp only [eaten] at past
        exact ⟨[], past, Or.inl rfl⟩
    | some behind =>
        simp only [eaten] at past
        rw [Cursor.eatWord_eq_some_iff.mp eaten]
        cases behind with
        | nil => cases past
        | cons name behind =>
            rw [List.tail_cons] at past
            exact ⟨[.word "constraint", name], by rw [past]; rfl, Or.inr ⟨name, rfl⟩⟩
  · rintro ⟨named, rfl, rfl | ⟨name, rfl⟩⟩
    · have missing : Cursor.eatWord (.word "foreign" :: rest) "constraint" = none := by
        simp [Cursor.eatWord, Cursor.atWord, Token.isWord]
      rw [List.nil_append, missing]
    · have eaten : Cursor.eatWord ([.word "constraint", name] ++ .word "foreign" :: rest)
          "constraint" =
          some (name :: .word "foreign" :: rest) := Cursor.eatWord_eq_some_iff.mpr rfl
      rw [eaten]
      rfl

theorem keyAdded_isSome_iff {holder : Str} {actions : List Token} :
    (keyAdded holder actions).isSome = true ↔ OpensWithKey actions := by
  constructor
  · intro added
    rcases Option.isSome_iff_exists.mp added with ⟨key, added⟩
    simp only [keyAdded, Option.bind_eq_bind, Option.bind_eq_some_iff] at added
    rcases added with
      ⟨cursor, add, behind, foreign, columns, listed, rest, references, table, named, single⟩
    rw [Cursor.eatWord_eq_some_iff] at add references
    rw [eatWords_pair_iff] at foreign
    rcases pastName_eq_foreign_iff.mp foreign with ⟨name, rfl, optional⟩
    rcases columns with _ | ⟨column, _ | ⟨other, columns⟩⟩
    · cases single
    · rcases nameList_eq_single_iff.mp (Prod.ext listed rfl) with ⟨token, opened, spelled⟩
      refine ⟨name, token, rest, ?_, optional, by rw [spelled]; rfl, by rw [named]; rfl⟩
      rw [add, opened]
      exact congrArg (fun left =>
        .word "add" :: (name ++ .word "foreign" :: .word "key" :: .punct '(' ::
        token :: .punct ')' :: left)) references
    · cases single
  · rintro ⟨named, column, rest, rfl, optional, spelled, target⟩
    rcases Option.isSome_iff_exists.mp spelled with ⟨name, spelled⟩
    rcases Option.isSome_iff_exists.mp target with ⟨table, target⟩
    have past : pastName (named ++ .word "foreign" :: .word "key" :: .punct '(' ::
        column :: .punct ')' ::
        .word "references" :: rest) = .word "foreign" :: .word "key" :: .punct '(' ::
          column :: .punct ')' ::
          .word "references" :: rest := pastName_eq_foreign_iff.mpr ⟨named, rfl, optional⟩
    have listed :
        Cursor.nameList (.punct '(' :: column :: .punct ')' :: .word "references" :: rest) =
        (some [name], .word "references" :: rest) :=
          nameList_eq_single_iff.mpr ⟨column, rfl, spelled⟩
    simp only [keyAdded, Cursor.eatWord_cons, past, eatWords_pair_iff.mpr rfl, listed, target,
      Option.bind_eq_bind, Option.bind_some]
    rfl

/-- Every action is accounted for when the statement opens with no key, or with its only action. -/
theorem accountsForActions_iff_holdsOneKey {tokens : List Token} :
    AccountsForActions tokens ↔ HoldsOneKey tokens := by
  apply forall₂_congr
  intro holder actions
  apply forall_congr'
  intro body
  rcases classify_of_alterBody body with ⟨taken, skipped_iff⟩
  rw [skipped_iff, taken, ← @keyAdded_isSome_iff holder]
  constructor
  · rintro (unread | accounted) added
    · rw [unread] at added
      cases added
    · have lengths := congrArg List.length accounted
      rwa [List.length_map] at lengths
  · intro single
    cases added : keyAdded holder actions with
    | none => exact Or.inl rfl
    | some key =>
        right
        rw [splitActions_eq_of_length (single (by rw [added]; rfl)), List.map_singleton, added]

section Script

variable [Unicode] {uuid : Element → Str} {content : Str} {includePositions : Bool}
    {draft : SchemaDraft}
  {report : Report}

/-- A line of the draft joins the columns that the key names. -/
def IsLinked (uuid : Element → Str) (content : Str) (draft : SchemaDraft) (holder : Str)
    (key : ParsedForeignKey) : Prop :=
  ∃ places index, columnsJoined (tablesIn content) holder key = some places ∧
    lineAt uuid index places ∈ draft.relationships

theorem unlinkedNote_mem_of_read
    (fresh : IsFresh uuid (Schema.new [] (created uuid (tablesIn content))))
    (returned : read uuid content includePositions = .ok (draft, report)) {holder : Str}
    {key : ParsedForeignKey} (mem : (holder, key) ∈ referencesOf (scan content).1)
    (unlinked : columnsJoined (tablesIn content) holder key = none) :
    unlinkedNote holder key ∈ report.diagnostics := by
  have noted :=
    @unlinkedNote_mem_foldWith_link uuid (tablesIn content) [] (hasDistinctIds_created fresh)
    _ _ mem unlinked
  rw [linkedBy_nil] at noted
  rw [read] at returned
  dsimp only at returned
  split at returned
  · cases returned
  · rw [← (Prod.mk.inj (Except.ok.inj returned)).2]
    exact List.mem_append_left _ (List.mem_append_right _ noted)

theorem isLinked_or_noted_of_read
    (fresh : IsFresh uuid (Schema.new [] (created uuid (tablesIn content))))
    (returned : read uuid content includePositions = .ok (draft, report)) {holder : Str}
    {key : ParsedForeignKey} (mem : (holder, key) ∈ referencesOf (scan content).1) :
    IsLinked uuid content draft holder key ∨ unlinkedNote holder key ∈ report.diagnostics := by
  cases joined : columnsJoined (tablesIn content) holder key with
  | none =>
      right
      exact unlinkedNote_mem_of_read fresh returned mem joined
  | some places =>
      left
      have placed : places ∈ placesOf (tablesIn content) (referencesOf (scan content).1) :=
        List.mem_filterMap.mpr ⟨(holder, key), mem, joined⟩
      rcases List.getElem_of_mem placed with ⟨index, bound, found⟩
      refine ⟨places, index, joined, ?_⟩
      rw [relationships_of_read fresh returned, List.mem_mapIdx]
      exact ⟨index, bound, by rw [found]⟩

omit [Unicode] in
theorem mem_referencesOf {statements : List Statement} {statement : Statement}
    (mem : statement ∈ statements) {reference : Str × ParsedForeignKey}
    (taken : (classify statement.tokens).asForeignKey = some reference) :
    reference ∈ referencesOf statements :=
  List.mem_append_right _ (List.mem_filterMap.mpr ⟨statement, mem, taken⟩)

end Script

/-- A key that is added alone, and a statement that the reader does not know. -/
def addedScript : Str := "CREATE TABLE x (id int PRIMARY KEY, a int);
ALTER TABLE x ADD CONSTRAINT k FOREIGN KEY (a) REFERENCES x (id) ON DELETE CASCADE;
ALTER TABLE x ADD COLUMN b int, DROP COLUMN a;"

/-- A key, and a column behind it. -/
def keyAndColumnScript : Str := "CREATE TABLE x (id int PRIMARY KEY, a int);
ALTER TABLE x ADD FOREIGN KEY (a) REFERENCES x (id), ADD COLUMN b int;"

end SchemaForge.Sql
