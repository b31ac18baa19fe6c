import SchemaForge.Sql.Progress
import SchemaForge.Sql.Render
import SchemaForge.Verifier.Checks

/-!
# Reading back a generated table

The reader of `CREATE TABLE` applied to the tokens that the generator writes for
an entity. Every column is read as it was drawn, and the key at the end of the
table puts the flags back that the columns are written without.
-/

namespace SchemaForge.Sql

/--
The tokens stay inside their column: their parentheses are balanced, and outside of them there is
no comma and no word that can only be a constraint.
-/
def staysInside (depth : Nat) : List Token → Bool
  | [] => depth == 0
  | .punct '(' :: rest => staysInside (depth + 1) rest
  | .punct ')' :: rest => depth != 0 && staysInside (depth - 1) rest
  | .punct ',' :: rest => depth != 0 && staysInside depth rest
  | .word word :: rest => (depth != 0 || !afterType.contains word) && staysInside depth rest
  | _ :: rest => staysInside depth rest

theorem takeInside_of_staysInside {depth : Nat} {tokens rest : List Token}
    (inside : staysInside depth tokens = true)
    (ends : Cursor.takeInside afterType 0 rest = ([], rest)) :
    Cursor.takeInside afterType depth (tokens ++ rest) = (tokens, rest) := by
  fun_induction staysInside depth tokens with
  | case1 depth =>
      obtain rfl : depth = 0 := by simpa using inside
      exact ends
  | case2 depth tokens ih => simp [Cursor.takeInside, ih inside]
  | case3 depth tokens ih =>
      simp only [Bool.and_eq_true, bne_iff_ne, ne_eq] at inside
      simp [Cursor.takeInside, ih inside.2, inside.1]
  | case4 depth tokens ih =>
      simp only [Bool.and_eq_true, bne_iff_ne, ne_eq] at inside
      simp [Cursor.takeInside, ih inside.2, inside.1]
  | case5 depth word tokens ih =>
      simp only [Bool.and_eq_true, Bool.or_eq_true, bne_iff_ne, ne_eq, Bool.not_eq_true'] at inside
      have goesOn : (depth == 0 && afterType.contains word) = false := by
        rcases inside.1 with deep | other
        · simp [deep]
        · rw [other, Bool.and_false]
      simp only [List.cons_append, Cursor.takeInside, ih inside.2]
      rw [if_neg (by simpa using goesOn)]
  | case6 depth token tokens opening closing comma word ih =>
      cases token with
      | word name => exact absurd rfl (word name)
      | quoted name => simp [Cursor.takeInside, ih inside]
      | text text => simp [Cursor.takeInside, ih inside]
      | number number => simp [Cursor.takeInside, ih inside]
      | punct punct =>
          rw [List.cons_append, Cursor.takeInside]
          · simp [ih inside]
          · simpa using opening
          · simpa using closing
          · simpa using comma
          · simp

/-- The words of a column type. -/
def kindWords : DataTypeKind → List Str
  | .doublePrecision => ["double", "precision"]
  | kind => [kind.asStr]

theorem kindTokens_eq (kind : DataTypeKind) : kindTokens kind = (kindWords kind).map .word := by
  cases kind <;> rfl

theorem join_kindWords (kind : DataTypeKind) : Str.join " " (kindWords kind) = kind.asStr := by
  cases kind <;> rfl

/-- The generator's spelling of a type is one that the reader knows, and none of a serial. -/
theorem kind_spelling (kind : DataTypeKind) :
    kindOf kind.asStr = some kind ∧ isSerial kind.asStr = false ∧
      ∀ word ∈ kindWords kind, afterType.contains word = false := by
  have listed : ∀ kind ∈ DataTypeKind.variants, kindOf kind.asStr = some kind ∧
      isSerial kind.asStr = false ∧ ∀ word ∈ kindWords kind, afterType.contains word = false := by
    decide
  exact listed kind (by cases kind <;> decide)

theorem typeWords_append {words : List Str} {rest : Cursor}
    (names : ∀ word ∈ words, afterType.contains word = false) (ends : typeWords rest = ([], rest)) :
    typeWords (words.map .word ++ rest) = (words, rest) := by
  induction words with
  | nil => exact ends
  | cons word words ih =>
      simp only [List.forall_mem_cons] at names
      rw [List.map_cons, List.cons_append, typeWords, if_neg (by simpa using names.1), ih names.2]

/-- What may follow the type of a column: no word of a type, and no parameters. -/
structure EndsType (rest : Cursor) : Prop where
  words : typeWords rest = ([], rest)
  parameters : rest.eatPunct '(' = none

theorem numbers_single {n : UInt32} {rest : Cursor} :
    numbers (numberToken n :: .punct ')' :: rest) = ([n], .punct ')' :: rest) := by
  simp [numbers, numberToken, Str.parseU32_ofNat]

theorem numbers_double {n m : UInt32} {rest : Cursor} :
    numbers (numberToken n :: .punct ',' :: numberToken m :: .punct ')' :: rest) =
      ([n, m], .punct ')' :: rest) := by
  simp [numbers, numberToken, Str.parseU32_ofNat]

theorem typeWords_parameterTokens (dataType : DataType) {rest : Cursor} (ends : EndsType rest) :
    typeWords (parameterTokens dataType ++ rest) = ([], parameterTokens dataType ++ rest) := by
  unfold parameterTokens
  split
  · split
    · rfl
    · exact ends.words
  · split
    · split
      · rfl
      · rfl
      · exact ends.words
    · exact ends.words

/-- A type with the numbers that were read after it. -/
def withNumbers (kind : DataTypeKind) (numbers : List UInt32) : DataType :=
  if kind.takesLength then ⟨kind, numbers.head?, none, none⟩
  else if kind.takesPrecision then ⟨kind, none, numbers.head?, numbers[1]?⟩
  else ⟨kind, none, none, none⟩

theorem parameters_of_numbers {cursor rest : Cursor} {found : List UInt32}
    (read : numbers cursor = (found, .punct ')' :: rest)) (ends : EndsType rest)
    (kind : DataTypeKind) :
    parameters (.punct '(' :: cursor) kind = (withNumbers kind found, rest) := by
  have opened : Cursor.eatPunct (.punct '(' :: cursor) '(' = some cursor := rfl
  have closed : Cursor.eatPunct (.punct ')' :: rest) ')' = some rest := rfl
  simp only [parameters, opened, read, closed, Option.getD_some, ends.words, withNumbers]
  split
  · rfl
  · split <;> rfl

theorem parameters_of_none {rest : Cursor} (ends : EndsType rest) (kind : DataTypeKind) :
    parameters rest kind = (withNumbers kind [], rest) := by
  simp only [parameters, ends.parameters, ends.words, withNumbers]
  split
  · rfl
  · split <;> rfl

/-- The parameters of a type are read back when the type carries its own and no others. -/
theorem parameters_parameterTokens {dataType : DataType}
    (own : dataType.carriesOwnParameters = true)
    (scaled : dataType.scale.isSome = true → dataType.precision.isSome = true) {rest : Cursor}
    (ends : EndsType rest) :
    parameters (parameterTokens dataType ++ rest) dataType.kind = (dataType, rest) := by
  obtain ⟨kind, length, precision, scale⟩ := dataType
  simp only [DataType.carriesOwnParameters, Bool.and_eq_true, Bool.or_eq_true,
    Option.isNone_iff_eq_none] at own
  by_cases takesLength : kind.takesLength = true
  · have plain : kind.takesPrecision = false := by cases kind <;> first | rfl | contradiction
    simp only [plain, Bool.false_eq_true, false_or] at own
    obtain ⟨-, rfl, rfl⟩ := own
    cases length with
    | none =>
        simp only [parameterTokens, takesLength, if_true, List.nil_append,
          parameters_of_none ends, withNumbers, List.head?_nil]
    | some n =>
        simp only [parameterTokens, takesLength, if_true, List.cons_append, List.nil_append,
          parameters_of_numbers numbers_single ends, withNumbers, List.head?_cons]
  · obtain rfl := own.1.resolve_left takesLength
    by_cases takesPrecision : kind.takesPrecision = true
    · cases precision with
      | none =>
          cases scale with
          | none =>
              simp only [parameterTokens, takesLength, takesPrecision, if_true,
                Bool.false_eq_true, if_false, List.nil_append, parameters_of_none ends, withNumbers,
                List.head?_nil]
              rfl
          | some m => exact absurd (scaled rfl) Bool.false_ne_true
      | some n =>
          cases scale with
          | none =>
              simp only [parameterTokens, takesLength, takesPrecision, if_true,
                Bool.false_eq_true, if_false, List.cons_append, List.nil_append,
                parameters_of_numbers numbers_single ends, withNumbers, List.head?_cons]
              rfl
          | some m =>
              simp only [parameterTokens, takesLength, takesPrecision, if_true,
                Bool.false_eq_true, if_false, List.cons_append, List.nil_append,
                parameters_of_numbers numbers_double ends, withNumbers, List.head?_cons]
              rfl
    · obtain ⟨rfl, rfl⟩ := own.2.resolve_left takesPrecision
      simp only [parameterTokens, takesLength, takesPrecision, Bool.false_eq_true, if_false,
        List.nil_append, parameters_of_none ends, withNumbers]

/-- The flags of a column, as they follow its type. -/
def flagTokens (required : Bool) (default : Option (List Token)) (unique : Bool) : List Token :=
  (if required then [.word "not", .word "null"] else []) ++
    (match default with
      | some tokens => .word "default" :: tokens
      | none => []) ++
    (if unique then [.word "unique"] else [])

/-- A token that ends an item: a comma, or the parenthesis that closes the table. -/
def endsItem (token : Token) : Prop := token = .punct ',' ∨ token = .punct ')'

theorem endsType_flagTokens (required : Bool) (default : Option (List Token)) (unique : Bool)
    {token : Token} (ends : endsItem token) (rest : Cursor) :
    EndsType (flagTokens required default unique ++ token :: rest) := by
  have stopsAt {word : Str} (after : afterType.contains word = true) (rest : Cursor) :
      EndsType (.word word :: rest) := ⟨by rw [typeWords, if_pos after], rfl⟩
  cases required with
  | true => exact stopsAt (by decide) _
  | false =>
      cases default with
      | some tokens => exact stopsAt (by decide) _
      | none =>
          cases unique with
          | true => exact stopsAt (by decide) _
          | false => rcases ends with rfl | rfl <;> exact ⟨rfl, rfl⟩

theorem constraints_end {token : Token} (ends : endsItem token) (rest : Cursor)
    (column : ParsedColumn) :
    constraints (token :: rest).length (token :: rest) column = (token :: rest, column) := by
  rcases ends with rfl | rfl <;> rfl

theorem constraints_notNull (rest : Cursor) (column : ParsedColumn) :
    constraints (.word "not" :: .word "null" :: rest).length (.word "not" :: .word "null" :: rest)
        column =
      constraints rest.length rest { column with nullable := false } := by
  rw [constraints_unfold]
  rfl

theorem constraints_unique (rest : Cursor) (column : ParsedColumn) :
    constraints (.word "unique" :: rest).length (.word "unique" :: rest) column =
      constraints rest.length rest { column with unique := true } := by
  rw [constraints_unfold]
  rfl

theorem constraints_default {tokens rest : List Token} (nonempty : tokens ≠ [])
    (taken : Cursor.takeUntilSeparator afterType (tokens ++ rest) = (tokens, rest))
    (column : ParsedColumn) :
    constraints (.word "default" :: (tokens ++ rest)).length (.word "default" :: (tokens ++ rest))
        column =
      constraints rest.length rest { column with defaultValue := some (render tokens) } := by
  have read : constraint (.word "default" :: (tokens ++ rest)) column =
      (rest, { column with defaultValue := some (render tokens) }) := by
    change (let read := Cursor.takeUntilSeparator afterType (tokens ++ rest)
      if read.1.isEmpty then (read.2, column)
      else (read.2, { column with defaultValue := some (render read.1) })) = _
    rw [taken]
    simp [nonempty]
  rw [constraints_unfold, read]
  rfl

/-- A default value that the reader gives back as it is. -/
def IsReadableDefault (value : Str) : Prop :=
  ∃ tokens : List Token, tokens ≠ [] ∧ (∀ token ∈ tokens, isSpellable token = true) ∧
    staysInside 0 tokens = true ∧ value = render tokens

/-- A column that the reader gives back as it was drawn. -/
structure IsReadable (attr : Attribute) : Prop where
  name : Str.trim attr.name = attr.name
  parameters : attr.dataType.carriesOwnParameters = true
  sound : Verifier.parameterProblem attr.dataType = none
  default : ∀ value ∈ attr.defaultValue, IsReadableDefault value

/-- A column as its own item says it, before the key of the table is read. -/
def parsedColumn (attr : Attribute) : ParsedColumn where
  name := attr.name
  dataType := attr.dataType
  nullable := attr.nullable
  primaryKey := false
  unique := attr.unique && !attr.primaryKey
  defaultValue := attr.defaultValue

theorem takeInside_flagTokens (unique : Bool) {token : Token} (ends : endsItem token)
    (rest : Cursor) :
    Cursor.takeInside afterType 0 (flagTokens false none unique ++ token :: rest) =
      ([], flagTokens false none unique ++ token :: rest) := by
  cases unique with
  | true => rfl
  | false => rcases ends with rfl | rfl <;> rfl

theorem constraints_flagTokens (required : Bool) {default : Option (List Token)} (unique : Bool)
    (inside : ∀ tokens ∈ default, tokens ≠ [] ∧ staysInside 0 tokens = true) {token : Token}
    (ends : endsItem token) (rest : Cursor) (column : ParsedColumn) :
    constraints (flagTokens required default unique ++ token :: rest).length
        (flagTokens required default unique ++ token :: rest) column =
      (token :: rest, { column with
        nullable := column.nullable && !required
        defaultValue := (default.map render).or column.defaultValue
        unique := unique || column.unique }) := by
  have last (column : ParsedColumn) :
      constraints (flagTokens false none unique ++ token :: rest).length
          (flagTokens false none unique ++ token :: rest) column =
        (token :: rest, { column with unique := unique || column.unique }) := by
    cases unique with
    | true =>
        refine (constraints_unique (token :: rest) column).trans ?_
        rw [constraints_end ends]
        rfl
    | false => exact constraints_end ends rest column
  have middle (column : ParsedColumn) :
      constraints (flagTokens false default unique ++ token :: rest).length
          (flagTokens false default unique ++ token :: rest) column =
        (token :: rest, { column with
          defaultValue := (default.map render).or column.defaultValue
          unique := unique || column.unique }) := by
    cases default with
    | none => exact last column
    | some tokens =>
        obtain ⟨nonempty, stays⟩ := inside tokens rfl
        have taken := takeInside_of_staysInside stays (takeInside_flagTokens unique ends rest)
        have shape : flagTokens false (some tokens) unique ++ token :: rest = .word "default" ::
            (tokens ++ (flagTokens false none unique ++ token :: rest)) := by
          simp only [flagTokens, Bool.false_eq_true, if_false, List.nil_append, List.cons_append,
            List.append_assoc]
        rw [shape, constraints_default nonempty taken, last]
        rfl
  cases required with
  | false => rw [middle, Bool.not_false, Bool.and_true]
  | true =>
      refine (constraints_notNull (flagTokens false default unique ++ token :: rest) column).trans
        ?_
      rw [middle, Bool.not_true, Bool.and_false]

section Unicode

variable [Unicode]

theorem columnTokens_eq (attr : Attribute) :
    columnTokens attr = .quoted (Str.trim attr.name) :: ((kindWords attr.dataType.kind).map .word ++
      (parameterTokens attr.dataType ++ flagTokens (!attr.nullable)
        (attr.defaultValue.map tokensOf) (attr.unique && !attr.primaryKey))) := by
  rw [← kindTokens_eq]
  obtain ⟨id, name, description, dataType, nullable, primaryKey, unique, key, default⟩ := attr
  cases nullable <;> cases default <;>
    simp only [columnTokens, dataTypeTokens, flagTokens, Bool.not_true, Bool.not_false,
      Bool.false_eq_true, if_false, if_true, Option.map_none, Option.map_some, List.append_nil,
      List.nil_append, List.cons_append, List.append_assoc]

/-- What the reader makes of a generated column. -/
def readColumn (attr : Attribute) : ParsedColumn where
  name := Str.trim attr.name
  dataType := attr.dataType
  nullable := attr.nullable
  primaryKey := false
  unique := attr.unique && !attr.primaryKey
  defaultValue := attr.defaultValue.map fun value => render (tokensOf value)

theorem column_of_staysInside {attr : Attribute} (own : attr.dataType.carriesOwnParameters = true)
    (scaled : attr.dataType.scale.isSome = true → attr.dataType.precision.isSome = true)
    (inside : ∀ value ∈ attr.defaultValue, tokensOf value ≠ [] ∧
      staysInside 0 (tokensOf value) = true)
    {token : Token} (ends : endsItem token) (rest : Cursor) :
    column (columnTokens attr ++ token :: rest) = (.ok (readColumn attr), token :: rest) := by
  obtain ⟨known, notSerial, words⟩ := kind_spelling attr.dataType.kind
  -- The flags and what follows them end the type.
  have flags := endsType_flagTokens (!attr.nullable) (attr.defaultValue.map tokensOf)
    (attr.unique && !attr.primaryKey) ends rest
  have typed := typeWords_append words (typeWords_parameterTokens attr.dataType flags)
  have stays : ∀ tokens ∈ attr.defaultValue.map tokensOf,
      tokens ≠ [] ∧ staysInside 0 tokens = true := by
    intro tokens mem
    obtain ⟨value, found, rfl⟩ := Option.map_eq_some_iff.mp mem
    exact inside value found
  rw [columnTokens_eq]
  simp only [List.cons_append, List.append_assoc, column, Token.name, typed, join_kindWords, known,
    notSerial, parameters_parameterTokens own scaled flags,
    constraints_flagTokens _ _ stays ends, Option.map_map, Bool.not_false,
    Bool.true_and, Bool.not_not, Option.or_none, Bool.or_false, readColumn]
  rfl

omit [Unicode] in
theorem scaled_of_parameterProblem {dataType : DataType}
    (own : dataType.carriesOwnParameters = true) (sound : Verifier.parameterProblem dataType = none)
    (scaled : dataType.scale.isSome = true) :
    dataType.precision.isSome = true := by
  obtain ⟨kind, length, precision, scale⟩ := dataType
  cases precision with
  | some n => rfl
  | none =>
      cases scale with
      | none => cases scaled
      | some m =>
          have takesPrecision : kind.takesPrecision = true := by
            simp [DataType.carriesOwnParameters] at own
            exact own.2
          have takesLength : kind.takesLength = false := by
            cases kind <;> first | rfl | contradiction
          simp [Verifier.parameterProblem, takesLength, takesPrecision] at sound

theorem readColumn_of_isReadable {attr : Attribute} (readable : IsReadable attr) :
    readColumn attr = parsedColumn attr := by
  have rendered : (attr.defaultValue.map fun value => render (tokensOf value)) =
      attr.defaultValue := by
    cases found : attr.defaultValue with
    | none => rfl
    | some value =>
        obtain ⟨tokens, -, spellable, -, rfl⟩ := readable.default value found
        rw [Option.map_some, tokensOf_render spellable]
  rw [readColumn, parsedColumn, readable.name, rendered]

theorem column_columnTokens {attr : Attribute} (readable : IsReadable attr) {token : Token}
    (ends : endsItem token) (rest : Cursor) :
    column (columnTokens attr ++ token :: rest) = (.ok (parsedColumn attr), token :: rest) := by
  rw [← readColumn_of_isReadable readable]
  refine column_of_staysInside readable.parameters
    (scaled_of_parameterProblem readable.parameters readable.sound) ?_ ends rest
  intro value found
  obtain ⟨tokens, nonempty, spellable, stays, rfl⟩ := readable.default value found
  rw [tokensOf_render spellable]
  exact ⟨nonempty, stays⟩

/-- The item is taken whole, and does this to the table. -/
def TakenWhole (tokens : List Token) (effect : ParsedTable → ParsedTable) : Prop :=
  ∀ token, endsItem token → ∀ rest table,
    item (tokens ++ token :: rest) table = (token :: rest, effect table)

omit [Unicode] in
/-- The loop reads items that are taken whole one after another. -/
theorem items_of_takenWhole {effects : List (List Token × (ParsedTable → ParsedTable))}
    (nonempty : effects ≠ []) (whole : ∀ effect ∈ effects, TakenWhole effect.1 effect.2)
    (starts : ∀ effect ∈ effects, effect.1 ≠ [] ∧ Cursor.atPunct effect.1 ')' = false)
    (rest : Cursor) (table : ParsedTable) :
    items (List.intercalate [.punct ','] (effects.map Prod.fst) ++ .punct ')' :: rest).length
        (List.intercalate [.punct ','] (effects.map Prod.fst) ++ .punct ')' :: rest) table =
      effects.foldl (fun table effect => effect.2 table) table := by
  have goesOn {tokens : List Token} (start : tokens ≠ [] ∧ Cursor.atPunct tokens ')' = false)
      (rest : Cursor) :
      ((tokens ++ rest).isEmpty || Cursor.atPunct (tokens ++ rest) ')') = false := by
    cases tokens with
    | nil => exact absurd rfl start.1
    | cons token tokens => simpa [Cursor.atPunct] using start.2
  induction effects generalizing table with
  | nil => exact absurd rfl nonempty
  | cons effect effects ih =>
      obtain ⟨tokens, change⟩ := effect
      have first := whole _ (List.mem_cons_self ..)
      have start := starts _ (List.mem_cons_self ..)
      cases effects with
      | nil =>
          have shape : List.intercalate [.punct ',']
              ([(tokens, change)].map Prod.fst) = tokens := by
            simp [List.intercalate]
          rw [shape, items_unfold, goesOn start, first _ (.inr rfl)]
          rfl
      | cons second effects =>
          have shape : List.intercalate [.punct ','] (((tokens, change) :: second :: effects).map
              Prod.fst) ++ .punct ')' :: rest = tokens ++ .punct ',' ::
                (List.intercalate [.punct ','] ((second :: effects).map Prod.fst) ++
                  .punct ')' :: rest) := by
            simp [List.intercalate]
          rw [shape, items_unfold, goesOn start, first _ (.inl rfl)]
          exact ih (List.cons_ne_nil _ _) (fun effect mem =>
            whole effect (List.mem_cons_of_mem _ mem))
            (fun effect mem => starts effect (List.mem_cons_of_mem _ mem)) (change table)

theorem takenWhole_columnTokens {attr : Attribute} (readable : IsReadable attr) :
    TakenWhole (columnTokens attr) fun table =>
      { table with columns := table.columns ++ [parsedColumn attr] } := by
  intro token ends rest table
  have read := column_columnTokens readable ends rest
  have first : item (columnTokens attr ++ token :: rest) table =
      columnItem (columnTokens attr ++ token :: rest) table := by
    rw [columnTokens_eq]
    rfl
  rw [first, columnItem, read]
  rcases ends with rfl | rfl <;> rfl

omit [Unicode] in
theorem nameItems_quoted {name : Str} {names : List Str} (before : List Str) (rest : Cursor) :
    Cursor.nameItems before (List.intercalate [.punct ','] ((name :: names).map fun name =>
      [.quoted name]) ++ .punct ')' :: rest) = (some (before ++ name :: names), rest) := by
  induction names generalizing name before with
  | nil => simp [List.intercalate, Cursor.nameItems, Token.name, Token.isPunct]
  | cons second names ih =>
      have shape : List.intercalate [.punct ','] ((name :: second :: names).map fun name =>
          [Token.quoted name]) ++ .punct ')' :: rest = .quoted name :: .punct ',' ::
            (List.intercalate [.punct ','] ((second :: names).map fun name => [.quoted name]) ++
              .punct ')' :: rest) := by
        simp [List.intercalate]
      rw [shape, Cursor.nameItems]
      simp only [Token.name, Token.isPunct, beq_self_eq_true, if_true, ih]
      simp

omit [Unicode] in
theorem item_primaryKey {cursor left : Cursor} {names : List Str}
    (listed : cursor.nameList = (some names, left)) (table : ParsedTable) :
    item (.word "primary" :: .word "key" :: cursor) table = (left, table.markPrimary names) := by
  have plain : Cursor.eatWord (.word "primary" :: .word "key" :: cursor) "constraint" = none := rfl
  have key : Cursor.eatWords (.word "primary" :: .word "key" :: cursor) ["primary", "key"] =
      some cursor := rfl
  simp only [item, plain, itemBody, key, listed]

omit [Unicode] in
theorem takenWhole_primaryKey {name : Str} {names : List Str} :
    TakenWhole ([.word "primary", .word "key", .punct '('] ++ List.intercalate [.punct ',']
      ((name :: names).map fun name => [.quoted name]) ++ [.punct ')'])
        fun table => table.markPrimary (name :: names) := by
  intro token _ rest table
  have listed : Cursor.nameList (.punct '(' :: (List.intercalate [.punct ','] ((name :: names).map
      fun name => [.quoted name]) ++ .punct ')' :: token :: rest)) =
        (some (name :: names), token :: rest) :=
    @nameItems_quoted name names [] (token :: rest)
  have read := item_primaryKey listed table
  rw [List.append_assoc _ [_] _]
  exact read

/-- No two names are equal up to ASCII case. -/
def NamesApart (names : List Str) : Prop :=
  names.Pairwise fun left right => Str.eqIgnoreAsciiCase left right = false

/-- A column that is part of the primary key. -/
def flagged (column : ParsedColumn) : ParsedColumn :=
  { column with primaryKey := true, nullable := false }

omit [Unicode] in
theorem updateColumn_columns {table : ParsedTable} (name : Str)
    (apart : NamesApart (table.columns.map ParsedColumn.name))
    (change : ParsedColumn → ParsedColumn) :
    (table.updateColumn name change).columns = table.columns.map fun column =>
      if Str.eqIgnoreAsciiCase column.name name then change column else column := by
  refine List.updateFirst_eq_map ((List.pairwise_map.mp apart).imp fun {left right} differ => ?_)
  rintro ⟨leftNamed, rightNamed⟩
  rw [Str.eqIgnoreAsciiCase_comm] at rightNamed
  exact absurd (Str.eqIgnoreAsciiCase_trans leftNamed rightNamed) (by simp [differ])

omit [Unicode] in
/-- The key of a table flags the columns that it names, and nothing else. -/
theorem markPrimary_eq {table : ParsedTable} (names : List Str)
    (apart : NamesApart (table.columns.map ParsedColumn.name)) :
    table.markPrimary names = { table with
      columns := table.columns.map fun column =>
        if names.any (Str.eqIgnoreAsciiCase column.name ·) then flagged column else column } := by
  induction names generalizing table with
  | nil => simp [ParsedTable.markPrimary]
  | cons name names ih =>
      have columns := updateColumn_columns name apart flagged
      have kept : (table.updateColumn name flagged).columns.map ParsedColumn.name =
          table.columns.map ParsedColumn.name := by
        rw [columns, List.map_map]
        refine List.map_congr_left fun column _ => ?_
        rw [Function.comp_apply]
        split <;> rfl
      have step : table.markPrimary (name :: names) =
          (table.updateColumn name flagged).markPrimary names := rfl
      rw [step, ih (by rwa [kept]), columns]
      simp only [ParsedTable.updateColumn, List.map_map, ParsedTable.mk.injEq, true_and, and_true]
      refine List.map_congr_left fun column _ => ?_
      by_cases here : Str.eqIgnoreAsciiCase column.name name = true
      · have twice : flagged (flagged column) = flagged column := rfl
        simp [here, twice]
      · simp [here]

/-- A column as the whole table says it. -/
def keyedColumn (attr : Attribute) : ParsedColumn :=
  { parsedColumn attr with
    nullable := attr.nullable && !attr.primaryKey
    primaryKey := attr.primaryKey }

def parsedTable (entity : Entity) : ParsedTable :=
  ⟨entity.name, entity.attributes.map keyedColumn, [], []⟩

omit [Unicode] in
/-- The names of the key columns name exactly the key columns. -/
theorem any_primaryKey_iff {entity : Entity}
    (apart : NamesApart (entity.attributes.map Attribute.name)) {attr : Attribute}
    (mem : attr ∈ entity.attributes) :
    (entity.primaryKey.map Attribute.name).any (Str.eqIgnoreAsciiCase attr.name ·) =
      attr.primaryKey := by
  rw [Bool.eq_iff_iff, List.any_eq_true]
  constructor
  · rintro ⟨name, named, same⟩
    obtain ⟨other, otherMem, rfl⟩ := List.mem_map.mp named
    obtain ⟨listed, key⟩ := List.mem_filter.mp otherMem
    have symmetric : Std.Symm fun left right : Attribute =>
        Str.eqIgnoreAsciiCase left.name right.name = false :=
      ⟨fun left right differ => by rwa [Str.eqIgnoreAsciiCase_comm]⟩
    by_contra different
    have distinct : attr ≠ other := fun equal => different (equal ▸ key)
    have differ := (List.pairwise_map.mp apart).forall mem listed distinct
    simp [same] at differ
  · intro key
    exact ⟨attr.name, List.mem_map_of_mem (List.mem_filter.mpr ⟨mem, key⟩),
      Str.eqIgnoreAsciiCase_refl _⟩

/-- A table that the reader gives back as it was drawn. -/
structure IsReadableTable (entity : Entity) : Prop where
  name : Str.trim entity.name = entity.name
  columns : ∀ attr ∈ entity.attributes, IsReadable attr
  apart : NamesApart (entity.attributes.map Attribute.name)
  key : entity.hasPrimaryKey = true

omit [Unicode] in
/-- A table with a body is read item by item. -/
theorem parse_body (name : Str) (body : Cursor) :
    parse (.word "create" :: .word "table" :: .quoted name :: .punct '(' :: body) =
      some (items body.length body ⟨name, [], [], []⟩) := by
  cases body <;> rfl

/-- What the items of a generated table do, one after another. -/
def effectsOf (entity : Entity) (names : List Str) :
    List (List Token × (ParsedTable → ParsedTable)) :=
  entity.attributes.map (fun attr => (columnTokens attr, fun table =>
      { table with columns := table.columns ++ [parsedColumn attr] })) ++
    [([.word "primary", .word "key", .punct '('] ++ List.intercalate [.punct ',']
      (names.map fun name => [.quoted name]) ++ [.punct ')'], fun table => table.markPrimary names)]

omit [Unicode] in
theorem foldl_columns (attributes : List Attribute) (table : ParsedTable) :
    attributes.foldl (fun table attr =>
        { table with columns := table.columns ++ [parsedColumn attr] }) table =
      { table with columns := table.columns ++ attributes.map parsedColumn } := by
  induction attributes generalizing table with
  | nil => simp
  | cons attr attributes ih => simp [ih]

theorem parse_createTableTokens {entity : Entity} (readable : IsReadableTable entity) :
    parse (createTableTokens entity) = some (parsedTable entity) := by
  -- The key of a table has a column, and the columns are named as they are written.
  obtain ⟨key, keys, keyed⟩ : ∃ key keys, entity.primaryKey = key :: keys := by
    refine List.exists_cons_of_ne_nil fun empty => ?_
    obtain ⟨attr, mem, flag⟩ := List.any_eq_true.mp readable.key
    have member : attr ∈ entity.primaryKey := List.mem_filter.mpr ⟨mem, flag⟩
    rw [empty] at member
    contradiction
  have trimmed : entity.primaryKey.map (fun attr => [Token.quoted (Str.trim attr.name)]) =
      (entity.primaryKey.map Attribute.name).map fun name => [.quoted name] := by
    rw [List.map_map]
    refine List.map_congr_left fun attr mem => ?_
    rw [(readable.columns attr (List.mem_of_mem_filter mem)).name]
    rfl
  have columns : (entity.attributes.map fun attr => (columnTokens attr, fun table : ParsedTable =>
      { table with columns := table.columns ++ [parsedColumn attr] })).map Prod.fst =
        entity.attributes.map columnTokens := by
    rw [List.map_map]
    rfl
  have listed : itemTokens entity =
      (effectsOf entity (entity.primaryKey.map Attribute.name)).map Prod.fst := by
    rw [itemTokens, effectsOf, primaryKeyTokens, if_neg (by simp [keyed]), trimmed, List.map_append,
      columns]
    rfl
  have whole : ∀ effect ∈ effectsOf entity (entity.primaryKey.map Attribute.name),
      TakenWhole effect.1 effect.2 := by
    intro effect mem
    rcases List.mem_append.mp mem with column | last
    · obtain ⟨attr, attrMem, rfl⟩ := List.mem_map.mp column
      exact takenWhole_columnTokens (readable.columns attr attrMem)
    · rw [List.mem_singleton.mp last, keyed]
      exact takenWhole_primaryKey
  have starts : ∀ effect ∈ effectsOf entity (entity.primaryKey.map Attribute.name),
      effect.1 ≠ [] ∧ Cursor.atPunct effect.1 ')' = false := by
    intro effect mem
    rcases List.mem_append.mp mem with column | last
    · obtain ⟨attr, attrMem, rfl⟩ := List.mem_map.mp column
      rw [columnTokens_eq]
      exact ⟨List.cons_ne_nil _ _, rfl⟩
    · rw [List.mem_singleton.mp last]
      exact ⟨List.cons_ne_nil _ _, rfl⟩
  have read := items_of_takenWhole (by simp [effectsOf]) whole starts [] ⟨entity.name, [], [], []⟩
  rw [createTableTokens, readable.name, listed]
  refine (parse_body entity.name (List.intercalate [.punct ',']
    ((effectsOf entity (entity.primaryKey.map Attribute.name)).map Prod.fst) ++ [.punct ')'])).trans
      ?_
  rw [read, effectsOf, List.foldl_append, List.foldl_map, foldl_columns]
  -- The columns are there, and the key flags its own.
  have names : NamesApart ((entity.attributes.map parsedColumn).map ParsedColumn.name) := by
    rw [List.map_map]
    exact readable.apart
  rw [List.foldl_cons, List.foldl_nil, List.nil_append]
  simp only
  rw [markPrimary_eq _ names, parsedTable, List.map_map]
  refine congrArg some (congrArg (ParsedTable.mk entity.name · [] []) ?_)
  refine List.map_congr_left fun attr mem => ?_
  rw [Function.comp_apply, show (parsedColumn attr).name = attr.name from rfl,
    any_primaryKey_iff readable.apart mem, keyedColumn]
  cases attr.primaryKey with
  | true => simp [flagged]
  | false => simp [parsedColumn]

end Unicode

end SchemaForge.Sql
