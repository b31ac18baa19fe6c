import SchemaForge.Sql.ColumnClauses

/-!
# Reading a column by its clauses

The loop over the constraints of a column goes through a definition clause by
clause, and what it makes of the column is what the clauses do to it. A second
reference and a default that breaks off end the column early.
-/

namespace SchemaForge.Sql

section Clauses

/-- What stands behind an item: nothing, a comma, or the parenthesis that closes the table. -/
def EndsItem (rest : Cursor) : Prop := ∀ token ∈ rest.head?, endsItem token

variable {clauses : List ColumnClause} {rest : Cursor}

theorem EndsItem.boundary (ends : EndsItem rest) : AtBoundary rest := by
  intro token here
  rcases ends token here with rfl | rfl
  · exact .inl rfl
  · exact .inr (.inl rfl)

/-- A clause that is no action starts with a word that ends an expression. -/
theorem tokens_of_not_isAction {clause : ColumnClause} (other : clause.isAction = false) :
    ∃ word ∈ afterType, ∃ behind, clause.tokens = .word word :: behind := by
  cases clause with
  | on event action => cases other
  | notNull => exact ⟨"not", by decide, _, rfl⟩
  | null => exact ⟨"null", by decide, _, rfl⟩
  | primaryKey => exact ⟨"primary", by decide, _, rfl⟩
  | unique => exact ⟨"unique", by decide, _, rfl⟩
  | default expression => exact ⟨"default", by decide, _, rfl⟩
  | references table column => exact ⟨"references", by decide, _, rfl⟩
  | generated always => cases always <;> exact ⟨"generated", by decide, _, rfl⟩
  | constraint name => exact ⟨"constraint", by decide, _, rfl⟩
  | collate name => exact ⟨"collate", by decide, _, rfl⟩
  | check body => exact ⟨"check", by decide, _, rfl⟩

theorem clauseTokens_cons (clause : ColumnClause) (clauses : List ColumnClause) (rest : Cursor) :
    clauseTokens (clause :: clauses) ++ rest = clause.tokens ++ (clauseTokens clauses ++ rest) := by
  rw [clauseTokens, List.flatMap_cons, List.append_assoc, clauseTokens]

theorem atBoundary_clauseTokens (placed : actionsPlaced false clauses = true)
    (ends : EndsItem rest) :
    AtBoundary (clauseTokens clauses ++ rest) := by
  cases clauses with
  | nil => exact ends.boundary
  | cons clause clauses =>
      rw [actionsPlaced, Bool.or_false, Bool.and_eq_true, Bool.not_eq_true'] at placed
      rcases tokens_of_not_isAction placed.1 with ⟨word, listed, behind, split⟩
      rw [clauseTokens_cons, split]
      rintro token ⟨⟩
      exact .inr (.inr ⟨word, listed, rfl⟩)

theorem isIdle_of_mem_swallowed (clauses : List ColumnClause) :
    ∀ token ∈ swallowed clauses, isIdle token = true := by
  have front (event : RefEvent) :
      ∀ token ∈ [Token.word "on", .word event.word, .word "set"], isIdle token = true := by
    cases event <;> decide
  have actions (action : RefAction) (plain : action ≠ .setNull ∧ action ≠ .setDefault) :
      ∀ token ∈ action.words.map Token.word, isIdle token = true := by
    cases action <;> first | decide | simp at plain
  fun_induction swallowed clauses with
  | case1 event clauses => exact front event
  | case2 event clauses => exact front event
  | case3 event action clauses notNull notDefault ih =>
      intro token mem
      rcases List.mem_cons.mp mem with rfl | mem
      · exact front event _ (by simp)
      · rcases List.mem_cons.mp mem with rfl | mem
        · exact front event _ (by simp)
        · rcases List.mem_append.mp mem with word | later
          · exact actions action ⟨notNull, notDefault⟩ token word
          · exact ih token later
  | case4 => exact fun _ mem => absurd mem List.not_mem_nil

theorem takeUntilSeparator_word {word : Str} (plain : afterType.contains word = false)
    (cursor : Cursor) :
    Cursor.takeUntilSeparator afterType (.word word :: cursor) =
      (.word word :: (Cursor.takeUntilSeparator afterType cursor).1,
        (Cursor.takeUntilSeparator afterType cursor).2) := by
  rw [Cursor.takeUntilSeparator, Cursor.takeInside, plain]
  rfl

theorem takeUntilSeparator_stop {word : Str} (stop : afterType.contains word = true)
    (cursor : Cursor) :
    Cursor.takeUntilSeparator afterType (.word word :: cursor) = ([], .word word :: cursor) := by
  rw [Cursor.takeUntilSeparator, Cursor.takeInside, stop]
  rfl

/-- Behind `SET DEFAULT` the actions are taken for a default, up to the next word that ends one. -/
theorem takeUntilSeparator_clauseTokens (placed : actionsPlaced true clauses = true)
    (ends : EndsItem rest) :
    (Cursor.takeUntilSeparator afterType (clauseTokens clauses ++ rest)).1 = swallowed clauses := by
  have other {clauses : List ColumnClause} (placed : actionsPlaced false clauses = true) :
      (Cursor.takeUntilSeparator afterType (clauseTokens clauses ++ rest)).1 = [] := by
    rw [Cursor.takeUntilSeparator, (atBoundary_clauseTokens placed ends).endsExpression]
  have onWord := @takeUntilSeparator_word "on" (by decide)
  have setWord := @takeUntilSeparator_word "set" (by decide)
  have eventWord (event : RefEvent) :=
    @takeUntilSeparator_word event.word (by cases event <;> decide)
  fun_induction swallowed clauses with
  | case1 event clauses =>
      rw [clauseTokens_cons]
      change (Cursor.takeUntilSeparator afterType (.word "on" :: .word event.word :: .word "set" ::
        .word "null" :: (clauseTokens clauses ++ rest))).1 = _
      rw [onWord, eventWord, setWord, takeUntilSeparator_stop (by decide)]
  | case2 event clauses =>
      rw [clauseTokens_cons]
      change (Cursor.takeUntilSeparator afterType (.word "on" :: .word event.word :: .word "set" ::
        .word "default" :: (clauseTokens clauses ++ rest))).1 = _
      rw [onWord, eventWord, setWord, takeUntilSeparator_stop (by decide)]
  | case3 event action clauses notNull notDefault ih =>
      have later := ih (Bool.and_eq_true_iff.mp placed).2
      have words : (Cursor.takeUntilSeparator afterType
          (action.words.map .word ++ (clauseTokens clauses ++ rest))).1 =
            action.words.map .word ++ swallowed clauses := by
        cases action with
        | setNull => exact absurd rfl notNull
        | setDefault => exact absurd rfl notDefault
        | noAction =>
            change (Cursor.takeUntilSeparator afterType
              (.word "no" :: .word "action" :: (clauseTokens clauses ++ rest))).1 = _
            rw [takeUntilSeparator_word (by decide), takeUntilSeparator_word (by decide), later]
            rfl
        | restrict =>
            change (Cursor.takeUntilSeparator afterType (.word "restrict" ::
              (clauseTokens clauses ++ rest))).1 = _
            rw [takeUntilSeparator_word (by decide), later]
            rfl
        | cascade =>
            change (Cursor.takeUntilSeparator afterType (.word "cascade" ::
              (clauseTokens clauses ++ rest))).1 = _
            rw [takeUntilSeparator_word (by decide), later]
            rfl
      rw [clauseTokens_cons]
      change (Cursor.takeUntilSeparator afterType (.word "on" :: .word event.word ::
        (action.words.map .word ++ (clauseTokens clauses ++ rest)))).1 = _
      rw [onWord, eventWord, words]
  | case4 clauses notNull notDefault plain =>
      apply other
      cases clauses with
      | nil => rfl
      | cons clause clauses =>
          rw [actionsPlaced] at placed ⊢
          cases clause with
          | on event action => exact absurd rfl (plain event action clauses)
          | _ => exact placed

/-- What a stray default takes is nothing that the loop would know. -/
theorem loopFrom_strayDefault (placed : actionsPlaced true clauses = true) (ends : EndsItem rest)
    (column : ParsedColumn) :
    loopFrom (.word "default" :: (clauseTokens clauses ++ rest)) column =
      loopFrom (clauseTokens clauses ++ rest)
        { column with
          defaultValue := if (swallowed clauses).isEmpty then column.defaultValue
            else some (render (swallowed clauses)) } := by
  have taken := takeUntilSeparator_clauseTokens placed ends
  have whole := Cursor.takeInside_append afterType 0 (clauseTokens clauses ++ rest)
  rw [← Cursor.takeUntilSeparator, taken] at whole
  have step (column' : ParsedColumn) : loopFrom (clauseTokens clauses ++ rest) column' =
      loopFrom (Cursor.takeUntilSeparator afterType (clauseTokens clauses ++ rest)).2 column' := by
    have passed := loopFrom_idles (isIdle_of_mem_swallowed clauses)
      (Cursor.takeUntilSeparator afterType (clauseTokens clauses ++ rest)).2 column'
    rw [whole] at passed
    exact passed
  rw [step]
  exact loopFrom_taken (Prod.ext taken rfl) column

theorem isIdle_of_isNamePart {token : Token} (part : IsNamePart token) : isIdle token = true := by
  rw [isIdle, Bool.and_eq_true, Bool.and_eq_true, List.all_eq_true]
  refine ⟨⟨fun word listed => ?_, ?_⟩, ?_⟩
  · rw [part.2 word listed]
    rfl
  · cases token with
    | punct c => cases part.1
    | _ => rfl
  · cases token with
    | punct c => cases part.1
    | _ => rfl

theorem isIdle_of_isName {name : NameTokens} (isName : name.IsName) :
    ∀ token ∈ name.tokens, isIdle token = true := by
  intro token mem
  rcases List.mem_cons.mp mem with rfl | later
  · exact isIdle_of_isNamePart isName.first
  · rcases List.mem_flatMap.mp later with ⟨part, partMem, here⟩
    rcases List.mem_pair.mp here with rfl | rfl
    · rfl
    · exact isIdle_of_isNamePart (isName.more token partMem)

theorem skipInside_of_isNested {depth : Nat} {body : List Token}
    (nested : isNested depth body = true) (rest : Cursor) :
    Cursor.skipInside (depth + 1) (body ++ .punct ')' :: rest) = rest := by
  fun_induction isNested depth body with
  | case1 depth =>
      have zero : depth = 0 := by simpa using nested
      rw [zero]
      rfl
  | case2 depth body ih => exact ih nested
  | case3 depth body ih =>
      simp only [Bool.and_eq_true, bne_iff_ne, ne_eq] at nested
      have back : depth - 1 + 1 = depth := by omega
      have later := ih nested.2
      rw [back] at later
      change (if depth + 1 - 1 = 0 then _
        else Cursor.skipInside (depth + 1 - 1) (body ++ .punct ')' :: rest)) = rest
      rw [Nat.add_sub_cancel, if_neg nested.1, later]
  | case4 depth token body opening closing ih =>
      rw [List.cons_append, Cursor.skipInside]
      have notOpening : token.isPunct '(' = false := by
        cases token with
        | punct c =>
            rw [Token.isPunct, beq_eq_false_iff_ne]
            rintro rfl
            exact opening rfl
        | _ => rfl
      have notClosing : token.isPunct ')' = false := by
        cases token with
        | punct c =>
            rw [Token.isPunct, beq_eq_false_iff_ne]
            rintro rfl
            exact closing rfl
        | _ => rfl
      rw [notOpening, notClosing, if_neg Bool.false_ne_true, if_neg Bool.false_ne_true]
      exact ih nested

/-- The loop goes through a clause and does to the column what the clause does. -/
theorem loopFrom_clause {clause : ColumnClause} (readable : clause.IsReadable)
    (placed : actionsPlaced clause.isAction clauses = true) (ends : EndsItem rest)
    (inLoop : clause.isReference = false) (passes : clause.passes = true) (column : ParsedColumn) :
    loopFrom (clauseTokens (clause :: clauses) ++ rest) column =
      loopFrom (clauseTokens clauses ++ rest) (clause.mark clauses column) := by
  have unmarked (silent : clause.nullability = none) (noKey : clause.isPrimaryKey = false)
      (notUnique : clause.isUnique = false)
      (storesNothing : clause.stores clauses = []) : clause.mark clauses column = column := by
    simp [ColumnClause.mark, silent, noKey, notUnique, storesNothing]
  rw [clauseTokens_cons]
  cases clause with
  | references table target => cases inLoop
  | notNull =>
      change loopFrom (.word "not" :: .word "null" :: (clauseTokens clauses ++ rest)) column = _
      rw [loopFrom_notNull]
      simp [ColumnClause.mark, ColumnClause.nullability, ColumnClause.stores,
        ColumnClause.isPrimaryKey, ColumnClause.isUnique]
  | null =>
      change loopFrom (.word "null" :: (clauseTokens clauses ++ rest)) column = _
      rw [loopFrom_null]
      simp [ColumnClause.mark, ColumnClause.nullability, ColumnClause.stores,
        ColumnClause.isPrimaryKey, ColumnClause.isUnique]
  | primaryKey =>
      have step : loopFrom
          (.word "primary" :: .word "key" :: (clauseTokens clauses ++ rest)) column =
          loopFrom (clauseTokens clauses ++ rest)
            { column with primaryKey := true, nullable := false } :=
        loopFrom_step rfl rfl
      refine step.trans ?_
      simp [ColumnClause.mark, ColumnClause.nullability, ColumnClause.stores,
        ColumnClause.isPrimaryKey, ColumnClause.isUnique]
  | unique =>
      have step : loopFrom (.word "unique" :: (clauseTokens clauses ++ rest)) column =
          loopFrom (clauseTokens clauses ++ rest) { column with unique := true } :=
        loopFrom_step rfl rfl
      refine step.trans ?_
      simp [ColumnClause.mark, ColumnClause.nullability, ColumnClause.stores,
        ColumnClause.isPrimaryKey, ColumnClause.isUnique]
  | default expression =>
      exact (loopFrom_default readable (atBoundary_clauseTokens placed ends) clauses column).1
        passes
  | on event action =>
      have front : ∀ token ∈ [Token.word "on", .word event.word], isIdle token = true := by
        cases event <;> decide
      have entered :
          loopFrom ((ColumnClause.on event action).tokens ++
            (clauseTokens clauses ++ rest)) column =
          loopFrom (action.words.map .word ++ (clauseTokens clauses ++ rest)) column :=
        loopFrom_idles front _ column
      rw [entered]
      cases action with
      | noAction =>
          rw [loopFrom_idles (by decide), unmarked rfl rfl rfl rfl]
      | restrict =>
          rw [loopFrom_idles (by decide), unmarked rfl rfl rfl rfl]
      | cascade =>
          rw [loopFrom_idles (by decide), unmarked rfl rfl rfl rfl]
      | setNull =>
          change loopFrom (.word "set" :: .word "null" :: (clauseTokens clauses ++ rest)) column = _
          rw [loopFrom_idle (by decide), loopFrom_null]
          simp [ColumnClause.mark, ColumnClause.nullability, ColumnClause.stores,
            ColumnClause.isPrimaryKey,
        ColumnClause.isUnique]
      | setDefault =>
          change loopFrom
            (.word "set" :: .word "default" :: (clauseTokens clauses ++ rest)) column = _
          rw [loopFrom_idle (by decide), loopFrom_strayDefault placed ends]
          simp [ColumnClause.mark, ColumnClause.nullability, ColumnClause.stores,
            ColumnClause.isPrimaryKey,
        ColumnClause.isUnique]
  | generated always =>
      cases always with
      | true =>
          rw [unmarked rfl rfl rfl rfl]
          exact loopFrom_idles (by decide) _ column
      | false =>
          change loopFrom ([.word "generated", .word "by"] ++
            .word "default" :: .word "as" :: .word "identity" ::
              (clauseTokens clauses ++ rest)) column = _
          rw [loopFrom_idles (by decide)]
          have taken : Cursor.takeUntilSeparator afterType
              (.word "as" :: .word "identity" :: (clauseTokens clauses ++ rest)) =
                ([.word "as", .word "identity"], clauseTokens clauses ++ rest) := by
            rw [takeUntilSeparator_word (by decide), takeUntilSeparator_word (by decide),
              Cursor.takeUntilSeparator,
              (atBoundary_clauseTokens placed ends).endsExpression]
          rw [loopFrom_taken taken]
          simp [ColumnClause.mark, ColumnClause.nullability, ColumnClause.stores,
            ColumnClause.isPrimaryKey, ColumnClause.isUnique]
  | constraint name =>
      rw [unmarked rfl rfl rfl rfl]
      exact loopFrom_step rfl rfl
  | collate name =>
      rw [unmarked rfl rfl rfl rfl]
      change loopFrom (.word "collate" :: (name.tokens ++ (clauseTokens clauses ++ rest))) column =
        _
      rw [loopFrom_idle (by decide), loopFrom_idles (isIdle_of_isName readable)]
  | check body =>
      rw [unmarked rfl rfl rfl rfl]
      have skipped : Cursor.skipInside 1 (body ++ .punct ')' :: (clauseTokens clauses ++ rest)) =
          clauseTokens clauses ++ rest := skipInside_of_isNested readable _
      have whole : (ColumnClause.check body).tokens ++ (clauseTokens clauses ++ rest) =
          .word "check" :: .punct '(' ::
            (body ++ .punct ')' :: (clauseTokens clauses ++ rest)) := by
        simp [ColumnClause.tokens]
      rw [whole]
      apply loopFrom_step
      · rfl
      · change (Cursor.skipInside 1 (body ++ .punct ')' :: (clauseTokens clauses ++ rest)),
          column) = _
        rw [skipped]

/-- Every clause starts with a word. -/
theorem head?_clauseTokens (ends : EndsItem rest) {c : Char} (other : c ≠ ',' ∧ c ≠ ')') :
    Cursor.atPunct (clauseTokens clauses ++ rest) c = false := by
  cases clauses with
  | nil =>
      cases rest with
      | nil => rfl
      | cons token rest =>
          rcases ends token rfl with rfl | rfl
          · exact beq_eq_false_iff_ne.mpr other.1.symm
          · exact beq_eq_false_iff_ne.mpr other.2.symm
  | cons clause clauses =>
      rw [clauseTokens_cons]
      cases action : clause.isAction with
      | true =>
          cases clause with
          | on event action => rfl
          | _ => cases action
      | false =>
          rcases tokens_of_not_isAction action with ⟨word, -, behind, split⟩
          rw [split]
          rfl

theorem nameParts_more {more : List Token} (parts : ∀ part ∈ more, IsNamePart part)
    {behind : Cursor} (stops : behind.atPunct '.' = false) (name : Str) :
    ∃ whole, Cursor.nameParts name ((more.flatMap fun part => [.punct '.', part]) ++ behind) =
      (some whole, behind) := by
  induction more generalizing name with
  | nil =>
      refine ⟨name, ?_⟩
      rw [List.flatMap_nil, List.nil_append]
      cases behind with
      | nil => rfl
      | cons token behind =>
          have other : token.isPunct '.' = false := stops
          cases behind with
          | nil => rw [Cursor.nameParts, other, if_neg Bool.false_ne_true]
          | cons next behind => rw [Cursor.nameParts, other, if_neg Bool.false_ne_true]
  | cons part more ih =>
      rw [List.forall_mem_cons] at parts
      rcases Option.isSome_iff_exists.mp parts.1.1 with ⟨value, named⟩
      rcases ih parts.2 (name ++ "." ++ value) with ⟨whole, read⟩
      refine ⟨whole, ?_⟩
      have point : Token.isPunct (.punct '.') '.' = true := rfl
      change Cursor.nameParts name
        (.punct '.' :: part :: ((more.flatMap fun part => [.punct '.', part]) ++ behind)) = _
      rw [Cursor.nameParts, point, if_pos rfl, named]
      exact read

theorem qualifiedName_tokens {name : NameTokens} (isName : name.IsName) {behind : Cursor}
    (stops : behind.atPunct '.' = false) :
    ∃ whole, Cursor.qualifiedName (name.tokens ++ behind) = (some whole, behind) := by
  rcases Option.isSome_iff_exists.mp isName.first.1 with ⟨first, named⟩
  rcases nameParts_more isName.more stops first with ⟨whole, read⟩
  refine ⟨whole, ?_⟩
  rw [NameTokens.tokens, List.cons_append, Cursor.qualifiedName, named]
  exact read

/-- A reference is read to its end. -/
theorem inlineReference_tokens {table : NameTokens} {target : Option Token}
    (readable : (ColumnClause.references table target).IsReadable) {behind : Cursor}
    (stops : behind.atPunct '.' = false) (closed : behind.atPunct '(' = false) :
    (inlineReference ((ColumnClause.references table target).tokens ++ behind) [] .blank).1 = true ∧
      (inlineReference ((ColumnClause.references table target).tokens ++ behind) [] .blank).2.1 =
        behind := by
  have eaten : Cursor.eatWord ((ColumnClause.references table target).tokens ++ behind)
      "references" =
      some (table.tokens ++
        ((target.elim [] fun column => [.punct '(', column, .punct ')']) ++ behind)) := by
    rw [← List.append_assoc]
    rfl
  cases target with
  | none =>
      rw [Option.elim_none, List.nil_append] at eaten
      rcases qualifiedName_tokens readable.1 stops with ⟨whole, read⟩
      have none : behind.nameList = (none, behind) := by
        rw [Cursor.nameList, Cursor.eatPunct, closed, if_neg Bool.false_ne_true]
      simp only [inlineReference, eaten, read, none, and_self]
  | some column =>
      rcases Option.isSome_iff_exists.mp (readable.2 column rfl).1 with ⟨name, named⟩
      have opened : Cursor.atPunct ([.punct '(', column, .punct ')'] ++ behind) '.' = false := rfl
      rcases qualifiedName_tokens readable.1 opened with ⟨whole, read⟩
      have list : Cursor.nameList ([.punct '(', column, .punct ')'] ++ behind) =
          (some [name], behind) := by
        change Cursor.nameItems [] (column :: .punct ')' :: behind) = _
        rw [Cursor.nameItems, named]
        rfl
      rw [Option.elim_some] at eaten
      simp only [inlineReference, eaten, read, list, and_self]

theorem swallowed_readClauses (referenced : Bool) (clauses : List ColumnClause) :
    swallowed (readClauses referenced clauses) = swallowed clauses := by
  induction clauses generalizing referenced with
  | nil => rfl
  | cons clause clauses ih =>
      cases clause with
      | on event action =>
          have kept : readClauses referenced (.on event action :: clauses) =
              .on event action :: readClauses referenced clauses := by
            have inLoop : (ColumnClause.on event action).isReference = false := rfl
            have goes : (ColumnClause.on event action).passes = true := rfl
            rw [readClauses, inLoop, Bool.false_and, if_neg Bool.false_ne_true, goes, if_pos rfl,
              Bool.or_false]
          rw [kept]
          cases action with
          | setNull => rfl
          | setDefault => rfl
          | _ => simp only [swallowed, ih]
      | references table target =>
          rw [readClauses]
          cases referenced <;> rfl
      | _ => rfl

theorem mark_readClauses (referenced : Bool) (clauses : List ColumnClause) (clause : ColumnClause)
    (column : ParsedColumn) :
    clause.mark (readClauses referenced clauses) column = clause.mark clauses column := by
  have same : clause.stores (readClauses referenced clauses) = clause.stores clauses := by
    cases clause with
    | on event action =>
        cases action with
        | setDefault => exact swallowed_readClauses referenced clauses
        | _ => rfl
    | generated always => cases always <;> rfl
    | _ => rfl
  rw [ColumnClause.mark, ColumnClause.mark, same]

/-- A clause that the loop does not get through is a default that breaks off. -/
theorem loopFrom_breaksOff {clause : ColumnClause} (readable : clause.IsReadable)
    (placed : actionsPlaced clause.isAction clauses = true) (ends : EndsItem rest)
    (breaks : clause.passes = false)
    (column : ParsedColumn) :
    (loopFrom (clauseTokens (clause :: clauses) ++ rest) column).2 = clause.mark clauses column ∧
      (loopFrom (clauseTokens (clause :: clauses) ++ rest) column).1.atWord
        "references" = false := by
  rw [clauseTokens_cons]
  cases clause with
  | default expression =>
      exact (loopFrom_default readable (atBoundary_clauseTokens placed ends) clauses column).2
        breaks
  | _ => cases breaks

theorem loopFrom_reference {table : NameTokens} {target : Option Token} (column : ParsedColumn) :
    loopFrom (clauseTokens (.references table target :: clauses) ++ rest) column =
      (clauseTokens (.references table target :: clauses) ++ rest, column) := by
  apply loopFrom_of_ends
  rw [clauseTokens_cons]
  rfl

/-- The clauses behind a reference. -/
theorem loopFrom_clauseTokens {action : Bool} (readable : ∀ clause ∈ clauses, clause.IsReadable)
    (placed : actionsPlaced action clauses = true) (ends : EndsItem rest) (column : ParsedColumn) :
    (loopFrom (clauseTokens clauses ++ rest) column).2 =
      effect (readClauses true clauses) column := by
  induction clauses generalizing action column with
  | nil =>
      have stops : endsConstraints rest = true := by
        cases rest with
        | nil => rfl
        | cons token rest => rcases ends token rfl with rfl | rfl <;> rfl
      exact congrArg Prod.snd (loopFrom_of_ends stops column)
  | cons clause clauses ih =>
      rw [List.forall_mem_cons] at readable
      rw [actionsPlaced, Bool.and_eq_true] at placed
      cases reference : clause.isReference with
      | true =>
          cases clause with
          | references table target =>
              rw [loopFrom_reference, readClauses, reference, Bool.true_and,
            if_pos rfl, effect]
          | _ => cases reference
      | false =>
          rw [readClauses, reference, Bool.false_and, if_neg Bool.false_ne_true, effect]
          have later := placed.2
          rw [reference, Bool.false_or] at later
          cases passes : clause.passes with
          | true =>
              rw [if_pos rfl, Bool.or_false, mark_readClauses,
                loopFrom_clause readable.1 later ends reference passes]
              exact ih readable.2 later (clause.mark clauses column)
          | false =>
              rw [if_neg Bool.false_ne_true,
                (loopFrom_breaksOff readable.1 later ends passes column).1]
              cases clause with
              | default expression => rfl
              | _ => cases passes

/-- The column after its first reference, if it has one. -/
def behindReference (read : Cursor × ParsedColumn) : ParsedColumn :=
  let reference := inlineReference read.1 [] .blank
  if reference.1 then (loopFrom reference.2.1 read.2).2 else read.2

theorem behindReference_of_not_atWord {read : Cursor × ParsedColumn}
    (none : read.1.atWord "references" = false) :
    behindReference read = read.2 := by
  have uneaten : Cursor.eatWord read.1 "references" = Option.none := by
    rw [Cursor.eatWord, none, if_neg Bool.false_ne_true]
  rw [behindReference]
  simp only [inlineReference, uneaten, Bool.false_eq_true, if_false]

/-- The clauses of a column from the first one on. -/
theorem behindReference_clauseTokens {action : Bool}
    (readable : ∀ clause ∈ clauses, clause.IsReadable)
    (placed : actionsPlaced action clauses = true) (ends : EndsItem rest) (column : ParsedColumn) :
    behindReference (loopFrom (clauseTokens clauses ++ rest) column) =
      effect (readClauses false clauses) column := by
  induction clauses generalizing action column with
  | nil =>
      have stops : endsConstraints rest = true ∧ rest.atWord "references" = false := by
        cases rest with
        | nil => exact ⟨rfl, rfl⟩
        | cons token rest => rcases ends token rfl with rfl | rfl <;> exact ⟨rfl, rfl⟩
      have read : loopFrom (clauseTokens [] ++ rest) column = (rest, column) :=
        loopFrom_of_ends stops.1 column
      rw [read]
      exact behindReference_of_not_atWord stops.2
  | cons clause clauses ih =>
      rw [List.forall_mem_cons] at readable
      rw [actionsPlaced, Bool.and_eq_true] at placed
      cases reference : clause.isReference with
      | true =>
          cases clause with
          | references table target =>
              have stops := @head?_clauseTokens clauses rest ends '.' (by decide)
              have closed := @head?_clauseTokens clauses rest ends '(' (by decide)
              rcases inlineReference_tokens readable.1 stops closed with ⟨found, behind⟩
              have same : (ColumnClause.references table target).mark clauses column = column := by
                simp [ColumnClause.mark, ColumnClause.nullability, ColumnClause.stores,
                  ColumnClause.isPrimaryKey,
                  ColumnClause.isUnique]
              rw [loopFrom_reference, clauseTokens_cons, behindReference, found, if_pos rfl, behind,
                readClauses,
                Bool.and_false, if_neg Bool.false_ne_true, effect, Bool.false_or, reference,
                loopFrom_clauseTokens readable.2 placed.2 ends]
              have goes : (ColumnClause.references table target).passes = true := rfl
              rw [goes, if_pos rfl, mark_readClauses, same]
          | _ => cases reference
      | false =>
          rw [readClauses, reference, Bool.false_and, if_neg Bool.false_ne_true, effect]
          have later := placed.2
          rw [reference, Bool.false_or] at later
          cases passes : clause.passes with
          | true =>
              rw [if_pos rfl, Bool.or_false, mark_readClauses,
                loopFrom_clause readable.1 later ends reference passes]
              exact ih readable.2 later (clause.mark clauses column)
          | false =>
              rcases loopFrom_breaksOff readable.1 later ends passes column with ⟨marked, none⟩
              rw [if_neg Bool.false_ne_true, behindReference_of_not_atWord none, marked]
              cases clause with
              | default expression => rfl
              | _ => cases passes

end Clauses

section Definition

namespace ColumnDefinition

/-- What the reader of the type leaves of it, such as the brackets of an array. -/
def typeLeft (definition : ColumnDefinition) : List Token :=
  (typeWords (pastNumbers (typeWords definition.typed).2)).2

def typeName (definition : ColumnDefinition) : Str := Str.join " " (typeWords definition.typed).1

/-- The column before any of its clauses. -/
def start (definition : ColumnDefinition) : ParsedColumn where
  name := definition.name.name.getD []
  dataType :=
    (parameters (typeWords definition.typed).2 ((kindOf definition.typeName).getD .text)).1
  nullable := !isSerial definition.typeName
  primaryKey := false
  unique := false
  defaultValue := none

/-- The clauses that the reader gets to. -/
def clausesRead (definition : ColumnDefinition) : List ColumnClause :=
  if goesThrough definition.typeLeft then readClauses false definition.clauses else []

end ColumnDefinition

variable {rest : Cursor}

theorem typeWords_boundary {typed : List Token}
    (plain : ∀ token ∈ typed, ∀ word ∈ afterType, token.isWord word = false)
    (boundary : AtBoundary rest) :
    typeWords (typed ++ rest) = ((typeWords typed).1, (typeWords typed).2 ++ rest) := by
  induction typed with
  | nil => exact boundary.endsType.words
  | cons token typed ih =>
      rw [List.forall_mem_cons] at plain
      cases token with
      | word word =>
          have goesOn : afterType.contains word = false := by
            rw [Bool.eq_false_iff]
            intro listed
            have here := plain.1 word (List.contains_iff_mem.mp listed)
            rw [Token.isWord, beq_self_eq_true] at here
            cases here
          rw [List.cons_append, typeWords, typeWords, goesOn, if_neg Bool.false_ne_true,
            if_neg Bool.false_ne_true,
            ih plain.2]
      | _ => rfl

theorem numbers_boundary {tokens : List Token} (balanced : isBalanced 1 tokens = true)
    (rest : Cursor) :
    numbers (tokens ++ rest) = ((numbers tokens).1, (numbers tokens).2 ++ rest) ∧
      (numbers tokens).2 ≠ [] := by
  fun_induction numbers tokens with
  | case1 number parsed tokens more left found ih =>
      have later := ih balanced
      rw [found] at later
      refine ⟨?_, later.2⟩
      rw [List.cons_append, List.cons_append, numbers, later.1]
  | case2 number parsed tokens other =>
      cases tokens with
      | nil => cases balanced
      | cons token tokens =>
          refine ⟨?_, List.cons_ne_nil token tokens⟩
          rw [List.cons_append, List.cons_append, numbers]
          intro behind same
          exact other tokens (by rw [(List.cons.inj same).1])
  | case3 tokens other =>
      cases tokens with
      | nil => cases balanced
      | cons token tokens =>
          refine ⟨?_, List.cons_ne_nil token tokens⟩
          rw [List.cons_append, numbers]
          intro number behind same
          exact other number tokens (by rw [(List.cons.inj same).1])

/-- The numbers of a type, if there is a parenthesis. -/
def numbersAhead (cursor : Cursor) : List UInt32 :=
  (cursor.eatPunct '(').elim [] fun cursor => (numbers cursor).1

theorem parameters_eq (cursor : Cursor) (kind : DataTypeKind) :
    parameters cursor kind =
      (withNumbers kind (numbersAhead cursor), (typeWords (pastNumbers cursor)).2) := by
  unfold parameters withNumbers numbersAhead pastNumbers
  cases cursor.eatPunct '(' <;> cases kind <;> rfl

/-- The numbers of a type are read to the same place whatever is behind the type. -/
theorem numbers_of_type {tokens : List Token} (balanced : isBalanced 0 tokens = true)
    (boundary : AtBoundary rest) :
    numbersAhead (tokens ++ rest) = numbersAhead tokens ∧
      pastNumbers (tokens ++ rest) = pastNumbers tokens ++ rest := by
  cases tokens with
  | nil =>
      rw [List.nil_append, numbersAhead, pastNumbers, boundary.endsType.parameters]
      exact ⟨rfl, rfl⟩
  | cons token tokens =>
      cases opens : token.isPunct '(' with
      | false =>
          have uneaten (behind : Cursor) : Cursor.eatPunct (token :: behind) '(' = none := by
            have closed : Cursor.atPunct (token :: behind) '(' = false := opens
            rw [Cursor.eatPunct, closed, if_neg Bool.false_ne_true]
          rw [List.cons_append, numbersAhead, numbersAhead, pastNumbers, pastNumbers,
            uneaten, uneaten]
          exact ⟨rfl, rfl⟩
      | true =>
          have eaten (behind : Cursor) : Cursor.eatPunct (token :: behind) '(' = some behind := by
            have here : Cursor.atPunct (token :: behind) '(' = true := opens
            rw [Cursor.eatPunct, here, if_pos rfl]
            rfl
          have inside : isBalanced 1 tokens = true := by
            cases token with
            | punct c =>
                rw [Token.isPunct, beq_iff_eq] at opens
                subst opens
                exact balanced
            | _ => cases opens
          rcases numbers_boundary inside rest with ⟨same, more⟩
          rw [List.cons_append, numbersAhead, numbersAhead, pastNumbers, pastNumbers, eaten, eaten,
            Option.elim_some,
            Option.elim_some]
          dsimp only
          rw [same]
          refine ⟨rfl, ?_⟩
          rcases List.exists_cons_of_ne_nil more with ⟨next, behind, split⟩
          rw [split]
          cases closes : next.isPunct ')' with
          | false =>
              have uneaten (behind : Cursor) : Cursor.eatPunct (next :: behind) ')' = none := by
                have closed : Cursor.atPunct (next :: behind) ')' = false := closes
                rw [Cursor.eatPunct, closed, if_neg Bool.false_ne_true]
              rw [List.cons_append, uneaten, uneaten]
              rfl
          | true =>
              have closed (behind : Cursor) :
                  Cursor.eatPunct (next :: behind) ')' = some behind := by
                have here : Cursor.atPunct (next :: behind) ')' = true := closes
                rw [Cursor.eatPunct, here, if_pos rfl]
                rfl
              rw [List.cons_append, closed, closed]
              rfl

theorem parameters_of_type {tokens : List Token}
    (plain : ∀ token ∈ tokens, ∀ word ∈ afterType, token.isWord word = false)
    (balanced : isBalanced 0 tokens = true) (boundary : AtBoundary rest) (kind : DataTypeKind) :
    parameters (tokens ++ rest) kind =
      ((parameters tokens kind).1, (typeWords (pastNumbers tokens)).2 ++ rest) := by
  rcases numbers_of_type balanced boundary with ⟨ahead, past⟩
  have behind : ∀ token ∈ pastNumbers tokens, ∀ word ∈ afterType, token.isWord word = false :=
    fun token mem => plain token ((pastNumbers_suffix tokens).mem mem)
  rw [parameters_eq, parameters_eq, ahead, past, typeWords_boundary behind boundary]

theorem saidBy_eq_none {tokens : List Token}
    (silent : ∀ token ∈ tokens, token.isWord "null" = false) :
    saidBy tokens = none := by
  fun_induction saidBy tokens with
  | case1 => rfl
  | case2 token null =>
      rw [silent token List.mem_cons_self] at null
      cases null
  | case3 => rfl
  | case4 => rfl
  | case5 token next tokens goesOn both ih =>
      rw [silent next (List.mem_cons_of_mem token List.mem_cons_self), Bool.and_false] at both
      cases both
  | case6 token next tokens goesOn notBoth ih =>
      rw [ih fun other mem => silent other (List.mem_cons_of_mem token mem),
        silent token List.mem_cons_self]
      rfl

variable {definition : ColumnDefinition}

theorem ColumnDefinition.IsReadable.typeLeft (readable : definition.IsReadable) :
    ∀ token ∈ definition.typeLeft, ∀ word ∈ afterType, token.isWord word = false := by
  intro token mem
  have suffix : definition.typeLeft <:+ definition.typed :=
    (typeWords_suffix _).trans ((pastNumbers_suffix _).trans (typeWords_suffix _))
  exact readable.front.typed token (suffix.mem mem)

theorem column_tokens (readable : definition.IsReadable) (ends : EndsItem rest) :
    column (definition.tokens ++ rest) =
      (.ok (loopFrom (definition.typeLeft ++ (clauseTokens definition.clauses ++ rest))
        definition.start).2,
          (loopFrom (definition.typeLeft ++ (clauseTokens definition.clauses ++ rest))
            definition.start).1) := by
  have boundary := atBoundary_clauseTokens readable.placed ends
  rcases Option.isSome_iff_exists.mp readable.front.named with ⟨name, named⟩
  rcases Option.isSome_iff_exists.mp readable.front.known with ⟨kind, known⟩
  have words := typeWords_boundary readable.front.typed boundary
  have later : ∀ token ∈ (typeWords definition.typed).2, ∀ word ∈ afterType,
      token.isWord word = false :=
    fun token mem => readable.front.typed token ((typeWords_suffix _).mem mem)
  have balanced : isBalanced 0 (typeWords definition.typed).2 = true := by
    have split : ∀ typed : List Token, isBalanced 0 (typeWords typed).2 = isBalanced 0 typed := by
      intro typed
      fun_induction typeWords typed with
      | case1 => rfl
      | case2 word rest goesOn words left found ih =>
          rw [found] at ih
          exact ih
      | case3 => rfl
    rw [split]
    exact readable.front.balanced
  have sized := parameters_of_type later balanced boundary kind
  have whole : definition.tokens ++ rest =
      definition.name :: (definition.typed ++ (clauseTokens definition.clauses ++ rest)) := by
    rw [ColumnDefinition.tokens, List.cons_append, List.append_assoc]
  have start : definition.start = ⟨name, (parameters (typeWords definition.typed).2 kind).1,
      !isSerial (Str.join " " (typeWords definition.typed).1), false, false, none⟩ := by
    rw [ColumnDefinition.start, ColumnDefinition.typeName, named, known]
    rfl
  rw [whole, column]
  dsimp only
  rw [named]
  dsimp only
  rw [words]
  dsimp only
  rw [known]
  dsimp only
  rw [sized, start]
  rfl

/-- A column is what the clauses that are read make of its name and its type. -/
theorem columnItem_tokens (readable : definition.IsReadable) (ends : EndsItem rest)
    (table : ParsedTable) :
    (columnItem (definition.tokens ++ rest) table).2.columns =
      table.columns ++ [effect definition.clausesRead definition.start] := by
  have words : ∀ word ∈ constraintWords, word ∈ afterType := by decide
  have isLeft : IsLeft definition.typeLeft :=
    { words := fun token mem word listed _ _ => readable.typeLeft token mem word (words word listed)
      last := fun token found =>
        readable.typeLeft token (List.mem_of_getLast? found) "not" (by decide) }
  have silent : saidBy definition.typeLeft = none :=
    saidBy_eq_none fun token mem => readable.typeLeft token mem "null" (by decide)
  have passed := loopFrom_left isLeft (clauseTokens definition.clauses ++ rest) definition.start
  rw [silent, Option.getD_none] at passed
  have read : behindReference
      (loopFrom (definition.typeLeft ++ (clauseTokens definition.clauses ++ rest))
      definition.start) = effect definition.clausesRead definition.start := by
    rw [ColumnDefinition.clausesRead]
    cases goes : goesThrough definition.typeLeft with
    | true =>
        rw [passed.1 goes, if_pos rfl]
        exact behindReference_clauseTokens readable.clauses readable.placed ends definition.start
    | false =>
        rcases passed.2 goes with ⟨same, none⟩
        rw [behindReference_of_not_atWord none, same, if_neg Bool.false_ne_true]
        rfl
  rw [columnItem, column_tokens readable ends]
  dsimp only
  generalize loopFrom (definition.typeLeft ++ (clauseTokens definition.clauses ++ rest))
    definition.start = state at read ⊢
  rcases inlineReference_eq state.1 state.2.name table with ⟨found, cursor, columns⟩
  rcases reference : inlineReference state.1 state.2.name table with ⟨seen, behind, table'⟩
  rw [reference] at found cursor columns
  rw [behindReference] at read
  dsimp only at found cursor columns read
  rcases inlineReference_eq state.1 [] .blank with ⟨blankFound, blankCursor, -⟩
  rw [blankFound, blankCursor, ← found, ← cursor] at read
  cases seen with
  | true =>
      rw [if_pos rfl] at read
      dsimp only
      rw [columns, ← read]
      rfl
  | false =>
      rw [if_neg Bool.false_ne_true] at read
      dsimp only
      rw [columns, read]

theorem item_tokens (readable : definition.IsReadable) (ends : EndsItem rest)
    (table : ParsedTable) :
    (item (definition.tokens ++ rest) table).2.columns =
      table.columns ++ [effect definition.clausesRead definition.start] := by
  have uneaten {word : Str} (listed : word ∈ itemWords) (behind : Cursor) :
      Cursor.atWord (definition.name :: behind) word = false := readable.front.column word listed
  have notEaten {word : Str} (listed : word ∈ itemWords) (behind : Cursor) :
      Cursor.eatWord (definition.name :: behind) word = none := by
    rw [Cursor.eatWord, uneaten listed, if_neg Bool.false_ne_true]
  have plain : item (definition.tokens ++ rest) table =
      columnItem (definition.tokens ++ rest) table := by
    rw [ColumnDefinition.tokens, List.cons_append]
    have constraintWord := @notEaten "constraint" (by decide)
    have primaryWord := @notEaten "primary" (by decide)
    have foreignWord := @notEaten "foreign" (by decide)
    have uniqueWord := @notEaten "unique" (by decide)
    have checkWord := @uneaten "check" (by decide)
    have excludeWord := @uneaten "exclude" (by decide)
    simp only [item, itemBody, Cursor.eatWords, constraintWord, primaryWord, foreignWord,
      uniqueWord, checkWord, excludeWord, Option.bind_none, Bool.or_self,
      Bool.false_eq_true, if_false]
  rw [plain, columnItem_tokens readable ends]

end Definition

end SchemaForge.Sql
