import SchemaForge.Sql.ColumnLines

/-!
# The clauses of a column

A column definition by its clauses, as PostgreSQL takes them, and what each does
to a column when it is read. The loop over the constraints knows the words that
the model has a flag for and passes over the others one by one, so it also meets
the `null` of `SET NULL` and the `default` of `SET DEFAULT` and `BY DEFAULT`.
-/

namespace SchemaForge.Sql

inductive RefEvent where
  | delete | update
deriving DecidableEq

inductive RefAction where
  | noAction | restrict | cascade | setNull | setDefault
deriving DecidableEq

/-- A name, with a schema in front of it or none. -/
structure NameTokens where
  first : Token
  more : List Token
deriving DecidableEq

inductive ColumnClause where
  | notNull | null | primaryKey | unique
  | default (expression : List Token)
  | references (table : NameTokens) (column : Option Token)
  | on (event : RefEvent) (action : RefAction)
  | generated (always : Bool)
  | constraint (name : Token)
  | collate (name : NameTokens)
  | check (body : List Token)
deriving DecidableEq

structure ColumnDefinition where
  name : Token
  /-- The type, with everything up to the first clause. -/
  typed : List Token
  clauses : List ColumnClause

/-- The word of an event. -/
def RefEvent.word : RefEvent → Str
  | delete => "delete"
  | update => "update"

def RefAction.words : RefAction → List Str
  | noAction => ["no", "action"]
  | restrict => ["restrict"]
  | cascade => ["cascade"]
  | setNull => ["set", "null"]
  | setDefault => ["set", "default"]

def NameTokens.tokens (name : NameTokens) : List Token :=
  name.first :: name.more.flatMap fun part => [.punct '.', part]

namespace ColumnClause

def tokens : ColumnClause → List Token
  | notNull => [.word "not", .word "null"]
  | null => [.word "null"]
  | primaryKey => [.word "primary", .word "key"]
  | unique => [.word "unique"]
  | default expression => .word "default" :: expression
  | references table column => .word "references" :: (table.tokens ++
      column.elim [] fun column => [.punct '(', column, .punct ')'])
  | on event action => .word "on" :: .word event.word :: action.words.map .word
  | generated true => [.word "generated", .word "always", .word "as", .word "identity"]
  | generated false =>
      [.word "generated", .word "by", .word "default", .word "as", .word "identity"]
  | constraint name => [.word "constraint", name]
  | collate name => .word "collate" :: name.tokens
  | check body => .word "check" :: .punct '(' :: (body ++ [.punct ')'])

/-- The clause is one that the model has no place for. -/
def isInert : ColumnClause → Bool
  | on _ _ | generated _ | constraint _ | collate _ | check _ => true
  | _ => false

def isReference : ColumnClause → Bool
  | references _ _ => true
  | _ => false

def isAction : ColumnClause → Bool
  | on _ _ => true
  | _ => false

def isPrimaryKey : ColumnClause → Bool
  | primaryKey => true
  | _ => false

def isUnique : ColumnClause → Bool
  | unique => true
  | _ => false

end ColumnClause

/-- The tokens of some clauses, one after another. -/
def clauseTokens (clauses : List ColumnClause) : List Token := clauses.flatMap ColumnClause.tokens

def ColumnDefinition.tokens (definition : ColumnDefinition) : List Token :=
  definition.name :: (definition.typed ++ clauseTokens definition.clauses)

/-- The definition without the clauses that the model has no place for. -/
def ColumnDefinition.bare (definition : ColumnDefinition) : ColumnDefinition :=
  { definition with clauses := definition.clauses.filter fun clause => !clause.isInert }

/-- The words of constraints that the loop looks for; none of them can name anything. -/
def constraintWords : List Str :=
  ["not", "null", "primary", "unique", "default", "references", "check", "constraint"]

/-- An expression can start with the token; the scanner makes its words and numbers like this. -/
def startsExpression : Token → Bool
  | .word word => !word.isEmpty && word != "as" && word != "on" && word.all fun c => !isStop c
  | .number number => number.head?.any Char.isDigit
  | .punct punct => !punct.isAlpha
  | _ => true

/-- One balanced expression, without the words of other constraints. -/
structure IsDefaultExpression (expression : List Token) : Prop where
  nonempty : expression ≠ []
  starts : ∀ token ∈ expression.head?, startsExpression token = true
  balanced : isBalanced 0 expression = true
  words : ∀ token ∈ expression, ∀ word ∈ constraintWords, word ≠ "not" → word ≠ "null" →
    token.isWord word = false
  last : ∀ token ∈ expression.getLast?, token.isWord "not" = false

/-- The token names something, and is none of the words that the loop looks for. -/
def IsNamePart (token : Token) : Prop :=
  token.name.isSome = true ∧ ∀ word ∈ constraintWords, token.isWord word = false

instance (token : Token) : Decidable (IsNamePart token) := inferInstanceAs (Decidable (_ ∧ _))

/-- Every parenthesis that is opened is closed, and none besides. -/
def isNested (depth : Nat) : List Token → Bool
  | [] => depth == 0
  | .punct '(' :: rest => isNested (depth + 1) rest
  | .punct ')' :: rest => depth != 0 && isNested (depth - 1) rest
  | _ :: rest => isNested depth rest

structure NameTokens.IsName (name : NameTokens) : Prop where
  first : IsNamePart name.first
  more : ∀ part ∈ name.more, IsNamePart part

def ColumnClause.IsWellFormed : ColumnClause → Prop
  | default expression => IsDefaultExpression expression
  | references table column => table.IsName ∧ ∀ target ∈ column, IsNamePart target
  | collate name => name.IsName
  | check body => isNested 0 body = true
  | _ => True

/-- An action stands behind a reference, or behind another action of it. -/
def actionsPlaced (referenced : Bool) : List ColumnClause → Bool
  | [] => true
  | clause :: clauses =>
      (!clause.isAction || referenced) &&
        actionsPlaced (clause.isReference || clause.isAction) clauses

/-- The words that make an item something else than a column. -/
def itemWords : List Str := ["constraint", "primary", "foreign", "unique", "check", "exclude"]

structure ColumnDefinition.IsWellFormed (definition : ColumnDefinition) : Prop where
  named : definition.name.name.isSome = true
  column : ∀ word ∈ itemWords, definition.name.isWord word = false
  typed : ∀ token ∈ definition.typed, ∀ word ∈ afterType, token.isWord word = false
  balanced : isBalanced 0 definition.typed = true
  known : (kindOf (Str.join " " (typeWords definition.typed).1)).isSome = true
  clauses : ∀ clause ∈ definition.clauses, clause.IsWellFormed
  placed : actionsPlaced false definition.clauses = true

/-- The part of an expression that is taken for a default. -/
def takenOf (expression : List Token) : List Token :=
  (Cursor.takeUntilSeparator afterType expression).1

/-- The part of an expression that is left for the loop. -/
def leftOf (expression : List Token) : List Token :=
  (Cursor.takeUntilSeparator afterType expression).2

/-- The loop gets past the tokens. -/
def goesThrough (tokens : List Token) : Bool :=
  tokens.all fun token => !token.isPunct ',' && !token.isPunct ')'

/-- The last that some tokens say about nulls, up to where the loop stops. -/
def saidBy : List Token → Option Bool
  | [] => none
  | [token] => if token.isWord "null" then some true else none
  | token :: next :: rest =>
      if token.isPunct ',' || token.isPunct ')' then none
      else if token.isWord "not" && next.isWord "null" then (saidBy rest).or (some false)
      else (saidBy (next :: rest)).or (if token.isWord "null" then some true else none)

/-- What is taken for a default of the actions that stand behind `SET DEFAULT`. -/
def swallowed : List ColumnClause → List Token
  | .on event .setNull :: _ => [.word "on", .word event.word, .word "set"]
  | .on event .setDefault :: _ => [.word "on", .word event.word, .word "set"]
  | .on event action :: clauses =>
      .word "on" :: .word event.word :: (action.words.map .word ++ swallowed clauses)
  | _ => []

namespace ColumnClause

/-- What the clause says about nulls: whether the column takes them. -/
def nullability : ColumnClause → Option Bool
  | notNull | primaryKey => some false
  | null | on _ .setNull => some true
  | default expression => saidBy (leftOf expression)
  | _ => none

/-- What the clause stores as a default, in front of the clauses behind it. -/
def stores (clauses : List ColumnClause) : ColumnClause → List Token
  | default expression => takenOf expression
  | generated false => [.word "as", .word "identity"]
  | on _ .setDefault => swallowed clauses
  | _ => []

/-- The loop gets to the end of the clause. -/
def passes : ColumnClause → Bool
  | default expression => goesThrough (leftOf expression)
  | _ => true

/-- What the clause does to a column. -/
def mark (clauses : List ColumnClause) (clause : ColumnClause) (column : ParsedColumn) :
    ParsedColumn :=
  { column with
    nullable := clause.nullability.getD column.nullable
    primaryKey := column.primaryKey || clause.isPrimaryKey
    unique := column.unique || clause.isUnique
    defaultValue := if (clause.stores clauses).isEmpty then column.defaultValue
      else some (render (clause.stores clauses)) }

end ColumnClause

/-- What the clauses do to a column, one after another. -/
def effect : List ColumnClause → ParsedColumn → ParsedColumn
  | [], column => column
  | clause :: clauses, column => effect clauses (clause.mark clauses column)

/-- The clauses that are read: a second reference ends the column, and so does a comma or a closing
parenthesis that the loop meets. -/
def readClauses (referenced : Bool) : List ColumnClause → List ColumnClause
  | [] => []
  | clause :: clauses =>
      if clause.isReference && referenced then []
      else clause ::
        if clause.passes then readClauses (referenced || clause.isReference) clauses else []

section Loop

/-- The loop over the constraints of a column, from a cursor on. -/
def loopFrom (cursor : Cursor) (column : ParsedColumn) : Cursor × ParsedColumn :=
  constraints cursor.length cursor column

theorem loopFrom_of_ends {cursor : Cursor} (ends : endsConstraints cursor = true)
    (column : ParsedColumn) :
    loopFrom cursor column = (cursor, column) := by
  rw [loopFrom, constraints_unfold, if_pos ends]

theorem loopFrom_step {cursor left : Cursor} {column column' : ParsedColumn}
    (goesOn : endsConstraints cursor = false) (step : constraint cursor column = (left, column')) :
    loopFrom cursor column = loopFrom left column' := by
  rw [loopFrom, constraints_unfold, goesOn, if_neg Bool.false_ne_true, step]
  rfl

/-- The loop goes on at the token, and knows no word there. -/
def isIdle (token : Token) : Bool :=
  constraintWords.all (fun word => !token.isWord word) && !token.isPunct ',' && !token.isPunct ')'

theorem isWord_of_isIdle {token : Token} (idle : isIdle token = true) {word : Str}
    (listed : word ∈ constraintWords) :
    token.isWord word = false := by
  simp only [isIdle, Bool.and_eq_true, List.all_eq_true] at idle
  simpa using idle.1.1 word listed

theorem loopFrom_idle {token : Token} (idle : isIdle token = true) (rest : Cursor)
    (column : ParsedColumn) :
    loopFrom (token :: rest) column = loopFrom rest column := by
  have quiet {word : Str} (listed : word ∈ constraintWords) :
      Cursor.atWord (token :: rest) word = false :=
    isWord_of_isIdle idle listed
  have uneaten {word : Str} (listed : word ∈ constraintWords) :
      Cursor.eatWord (token :: rest) word = none := by
    rw [Cursor.eatWord, quiet listed, if_neg Bool.false_ne_true]
  simp only [isIdle, Bool.and_eq_true, Bool.not_eq_true'] at idle
  have comma : Cursor.atPunct (token :: rest) ',' = false := idle.1.2
  have closing : Cursor.atPunct (token :: rest) ')' = false := idle.2
  apply loopFrom_step
  · rw [endsConstraints, comma, closing, quiet (by decide)]
    rfl
  · have notWord := @uneaten "not" (by decide)
    have primaryWord := @uneaten "primary" (by decide)
    have uniqueWord := @uneaten "unique" (by decide)
    have nullWord := @uneaten "null" (by decide)
    have defaultWord := @uneaten "default" (by decide)
    have constraintWord := @uneaten "constraint" (by decide)
    have checkWord := @uneaten "check" (by decide)
    simp only [constraint, Cursor.eatWords, notWord, primaryWord, uniqueWord, nullWord, defaultWord,
      constraintWord,
      checkWord, Option.bind_none, List.tail_cons]

theorem loopFrom_idles {tokens : List Token} (idle : ∀ token ∈ tokens, isIdle token = true)
    (rest : Cursor) (column : ParsedColumn) :
    loopFrom (tokens ++ rest) column = loopFrom rest column := by
  induction tokens with
  | nil => rfl
  | cons token tokens ih =>
      rw [List.forall_mem_cons] at idle
      rw [List.cons_append, loopFrom_idle idle.1, ih idle.2]

theorem loopFrom_null (rest : Cursor) (column : ParsedColumn) :
    loopFrom (.word "null" :: rest) column = loopFrom rest { column with nullable := true } :=
  loopFrom_step rfl rfl

theorem loopFrom_notNull (rest : Cursor) (column : ParsedColumn) :
    loopFrom (.word "not" :: .word "null" :: rest) column = loopFrom rest
      { column with nullable := false } :=
  loopFrom_step rfl rfl

/-- The loop ends at a comma or a closing parenthesis. -/
theorem loopFrom_break {token : Token}
    (breaks : (token.isPunct ',' || token.isPunct ')') = true) (rest : Cursor)
    (column : ParsedColumn) : loopFrom (token :: rest) column = (token :: rest, column) := by
  apply loopFrom_of_ends
  rw [endsConstraints, Bool.or_assoc, Bool.or_assoc, ← Bool.or_assoc (Cursor.atPunct _ _)]
  have here : (Cursor.atPunct (token :: rest) ',' || Cursor.atPunct (token :: rest) ')') = true :=
    breaks
  rw [here, Bool.true_or, Bool.or_true]

theorem eq_word_of_isWord {token : Token} {word : Str} (same : token.isWord word = true) :
    token = .word word := by
  cases token with
  | word found => rw [beq_iff_eq.mp same]
  | _ => cases same

/-- What an expression leaves for the loop. -/
structure IsLeft (tokens : List Token) : Prop where
  words : ∀ token ∈ tokens, ∀ word ∈ constraintWords, word ≠ "not" → word ≠ "null" →
    token.isWord word = false
  last : ∀ token ∈ tokens.getLast?, token.isWord "not" = false

theorem IsLeft.tail {token : Token} {tokens : List Token} (left : IsLeft (token :: tokens)) :
    IsLeft tokens where
  words other mem := left.words other (List.mem_cons_of_mem token mem)
  last other found := by
    cases tokens with
    | nil => cases found
    | cons next rest =>
        apply left.last other
        rw [List.getLast?_cons_cons]
        exact found

/-- A word that is not known, or a `not` that no `null` is behind. -/
theorem loopFrom_other {token : Token} {rest : Cursor}
    (words : ∀ word ∈ constraintWords, word ≠ "not" → word ≠ "null" → token.isWord word = false)
    (goesOn : (token.isPunct ',' || token.isPunct ')') = false)
    (notNull : (token.isWord "not" && rest.atWord "null") = false)
    (null : token.isWord "null" = false) (column : ParsedColumn) :
    loopFrom (token :: rest) column = loopFrom rest column := by
  cases negated : token.isWord "not" with
  | true =>
      rw [negated, Bool.true_and] at notNull
      rw [eq_word_of_isWord negated]
      apply loopFrom_step
      · rfl
      · have uneaten : Cursor.eatWord rest "null" = none := by
          rw [Cursor.eatWord, notNull, if_neg Bool.false_ne_true]
        have no : Cursor.eatWords (.word "not" :: rest) ["not", "null"] = none := by
          change (Cursor.eatWord rest "null").bind _ = none
          rw [uneaten]
          rfl
        rw [constraint, no]
        rfl
  | false =>
      apply loopFrom_idle
      rw [Bool.or_eq_false_iff] at goesOn
      rw [isIdle, goesOn.1, goesOn.2, Bool.not_false, Bool.and_true, Bool.and_true,
        List.all_eq_true]
      intro word listed
      rw [Bool.not_eq_true']
      by_cases isNot : word = "not"
      · rw [isNot]
        exact negated
      · by_cases isNull : word = "null"
        · rw [isNull]
          exact null
        · exact words word listed isNot isNull

/-- What may stand behind a clause: the end of the item, or a word that ends an expression. -/
def AtBoundary (rest : Cursor) : Prop :=
  ∀ token ∈ rest.head?, token = .punct ',' ∨ token = .punct ')' ∨ ∃ word ∈ afterType,
  token = .word word

/-- The loop goes through what an expression leaves, or breaks off in it. -/
theorem loopFrom_left {tokens : List Token} (left : IsLeft tokens) (rest : Cursor)
    (column : ParsedColumn) :
    (goesThrough tokens = true → loopFrom (tokens ++ rest) column =
        loopFrom rest { column with nullable := (saidBy tokens).getD column.nullable }) ∧
      (goesThrough tokens = false → (loopFrom (tokens ++ rest) column).2 =
          { column with nullable := (saidBy tokens).getD column.nullable } ∧
        (loopFrom (tokens ++ rest) column).1.atWord "references" = false) := by
  have broken {token : Token} (breaks : (token.isPunct ',' || token.isPunct ')') = true) :
      token.isWord "references" = false ∧ token.isWord "null" = false := by
    cases token with
    | punct c => exact ⟨rfl, rfl⟩
    | _ => cases breaks
  fun_induction saidBy tokens generalizing column with
  | case1 => exact ⟨fun _ => rfl, fun stuck => by cases stuck⟩
  | case2 token null =>
      rw [eq_word_of_isWord null]
      exact ⟨fun _ => loopFrom_null rest column, fun stuck => by cases stuck⟩
  | case3 token notNull =>
      cases breaks : (token.isPunct ',' || token.isPunct ')') with
      | true =>
          have stuck : goesThrough [token] = false := by
            rw [goesThrough, List.all_cons, ← Bool.not_or, breaks]
            rfl
          rw [stuck, List.singleton_append, loopFrom_break breaks]
          exact ⟨fun goes => (Bool.false_ne_true goes).elim, fun _ => ⟨rfl, (broken breaks).1⟩⟩
      | false =>
          have goes : goesThrough [token] = true := by
            rw [goesThrough, List.all_cons, ← Bool.not_or, breaks]
            rfl
          rw [goes]
          refine ⟨fun _ => ?_, fun stuck => (Bool.false_ne_true stuck.symm).elim⟩
          apply loopFrom_other (left.words token List.mem_cons_self) breaks ?_
            (Bool.eq_false_iff.mpr notNull)
          rw [left.last token rfl, Bool.false_and]
  | case4 token next tokens breaks =>
      have stuck : goesThrough (token :: next :: tokens) = false := by
        rw [goesThrough, List.all_cons, ← Bool.not_or, breaks]
        rfl
      rw [stuck, List.cons_append, loopFrom_break breaks]
      exact ⟨fun goes => (Bool.false_ne_true goes).elim, fun _ => ⟨rfl, (broken breaks).1⟩⟩
  | case5 token next tokens goesOn both ih =>
      rw [Bool.and_eq_true] at both
      rw [eq_word_of_isWord both.1, eq_word_of_isWord both.2]
      have later := ih left.tail.tail { column with nullable := false }
      have goes : goesThrough (.word "not" :: .word "null" :: tokens) = goesThrough tokens := rfl
      rw [goes, List.cons_append, List.cons_append, loopFrom_notNull, Option.getD_or]
      exact later
  | case6 token next tokens goesOn notBoth ih =>
      have goes : goesThrough (token :: next :: tokens) = goesThrough (next :: tokens) := by
        rw [goesThrough, List.all_cons, ← Bool.not_or, Bool.eq_false_iff.mpr goesOn]
        rfl
      rw [goes, List.cons_append]
      cases null : token.isWord "null" with
      | true =>
          rw [eq_word_of_isWord null, loopFrom_null, if_pos rfl, Option.getD_or]
          exact ih left.tail { column with nullable := true }
      | false =>
          have behind :
              (token.isWord "not" && Cursor.atWord (next :: tokens ++ rest) "null") = false :=
            Bool.eq_false_iff.mpr notBoth
          rw [loopFrom_other (left.words token List.mem_cons_self)
            (Bool.eq_false_iff.mpr goesOn) behind null, if_neg Bool.false_ne_true, Option.or_none]
          exact ih left.tail column

/-- Balanced tokens are taken up to the same place whatever is behind them. -/
theorem takeInside_balanced {depth : Nat} {tokens rest : List Token}
    (balanced : isBalanced depth tokens = true)
    (ends : Cursor.takeInside afterType 0 rest = ([], rest)) :
    Cursor.takeInside afterType depth (tokens ++ rest) =
      ((Cursor.takeInside afterType depth tokens).1,
        (Cursor.takeInside afterType depth tokens).2 ++ rest) := by
  fun_induction isBalanced depth tokens with
  | case1 depth =>
      have zero : depth = 0 := by simpa using balanced
      rw [zero, List.nil_append, ends]
      rfl
  | case2 depth tokens ih =>
      rw [List.cons_append, Cursor.takeInside, Cursor.takeInside, ih balanced]
  | case3 depth tokens ih =>
      simp only [Bool.and_eq_true, bne_iff_ne, ne_eq] at balanced
      rw [List.cons_append, Cursor.takeInside, Cursor.takeInside, if_neg balanced.1,
        if_neg balanced.1, ih balanced.2]
  | case4 depth tokens ih =>
      simp only [Bool.and_eq_true, bne_iff_ne, ne_eq] at balanced
      rw [List.cons_append, Cursor.takeInside, Cursor.takeInside, if_neg balanced.1,
        if_neg balanced.1, ih balanced.2]
  | case5 depth token tokens opening closing comma ih =>
      cases token with
      | word word =>
          rw [List.cons_append, Cursor.takeInside, Cursor.takeInside]
          split
          · rfl
          · rw [ih balanced]
      | quoted name =>
          rw [List.cons_append, Cursor.takeInside, Cursor.takeInside, ih balanced] <;> simp
      | text text =>
          rw [List.cons_append, Cursor.takeInside, Cursor.takeInside, ih balanced] <;> simp
      | number number =>
          rw [List.cons_append, Cursor.takeInside, Cursor.takeInside, ih balanced] <;> simp
      | punct punct =>
          rw [List.cons_append, Cursor.takeInside, Cursor.takeInside, ih balanced]
          · simpa using opening
          · simpa using closing
          · simpa using comma
          · simp
          · simpa using opening
          · simpa using closing
          · simpa using comma
          · simp

theorem AtBoundary.endsExpression {rest : Cursor} (boundary : AtBoundary rest) :
    Cursor.takeInside afterType 0 rest = ([], rest) := by
  cases rest with
  | nil => rfl
  | cons token rest =>
      rcases boundary token rfl with rfl | rfl | ⟨word, listed, rfl⟩
      · rfl
      · rfl
      · rw [Cursor.takeInside, if_pos]
        simpa using listed

theorem AtBoundary.endsType {rest : Cursor} (boundary : AtBoundary rest) : EndsType rest := by
  cases rest with
  | nil => exact ⟨rfl, rfl⟩
  | cons token rest =>
      rcases boundary token rfl with rfl | rfl | ⟨word, listed, rfl⟩
      · exact ⟨rfl, rfl⟩
      · exact ⟨rfl, rfl⟩
      · refine ⟨?_, rfl⟩
        rw [typeWords, if_pos]
        simpa using listed

/-- An expression is left behind as the loop finds it. -/
theorem isLeft_leftOf {expression : List Token} (value : IsDefaultExpression expression) :
    IsLeft (leftOf expression) where
  words token mem :=
    value.words token ((Cursor.takeUntilSeparator_suffix afterType expression).mem mem)
  last token found := by
    rcases Cursor.takeUntilSeparator_suffix afterType expression with ⟨before, split⟩
    apply value.last token
    rw [← split]
    exact List.mem_getLast?_append_of_mem_getLast? found

/-- The loop goes on behind the expression as it does without it. -/
structure IsReadableExpression (expression : List Token) : Prop where
  balanced : isBalanced 0 expression = true
  left : IsLeft (leftOf expression)

/-- The clause is well-formed, up to the words inside the expression of a default. -/
def ColumnClause.IsReadable : ColumnClause → Prop
  | default expression => IsReadableExpression expression
  | clause => clause.IsWellFormed

structure ColumnDefinition.IsReadable (definition : ColumnDefinition) : Prop where
  front : { definition with clauses := [] }.IsWellFormed
  clauses : ∀ clause ∈ definition.clauses, clause.IsReadable
  placed : actionsPlaced false definition.clauses = true

theorem ColumnClause.IsWellFormed.readable {clause : ColumnClause}
    (wellFormed : clause.IsWellFormed) :
    clause.IsReadable := by
  cases clause with
  | default expression => exact ⟨wellFormed.balanced, isLeft_leftOf wellFormed⟩
  | _ => exact wellFormed

theorem ColumnDefinition.IsWellFormed.readable {definition : ColumnDefinition}
    (wellFormed : definition.IsWellFormed) : definition.IsReadable where
  front := ⟨wellFormed.named, wellFormed.column, wellFormed.typed, wellFormed.balanced,
    wellFormed.known, List.forall_mem_nil _, rfl⟩
  clauses clause mem := (wellFormed.clauses clause mem).readable
  placed := wellFormed.placed

/-- A default is stored when there is something to take for it. -/
theorem loopFrom_taken {cursor left : Cursor} {taken : List Token}
    (found : Cursor.takeUntilSeparator afterType cursor = (taken, left)) (column : ParsedColumn) :
    loopFrom (.word "default" :: cursor) column = loopFrom left
      { column with
        defaultValue := if taken.isEmpty then column.defaultValue else some (render taken) } := by
  apply loopFrom_step
  · rfl
  · change (let read := Cursor.takeUntilSeparator afterType cursor
      if read.1.isEmpty then (read.2, column)
      else (read.2, { column with defaultValue := some (render read.1) })) = _
    rw [found]
    dsimp only
    split
    · rfl
    · rfl

theorem loopFrom_default {expression : List Token} (value : IsReadableExpression expression)
    {rest : Cursor} (boundary : AtBoundary rest) (clauses : List ColumnClause)
    (column : ParsedColumn) :
    (goesThrough (leftOf expression) = true →
      loopFrom (.word "default" :: expression ++ rest) column =
        loopFrom rest ((ColumnClause.default expression).mark clauses column)) ∧
      (goesThrough (leftOf expression) = false →
        (loopFrom (.word "default" :: expression ++ rest) column).2 =
            (ColumnClause.default expression).mark clauses column ∧
          (loopFrom (.word "default" :: expression ++ rest) column).1.atWord
            "references" = false) := by
  have taken := takeInside_balanced value.balanced boundary.endsExpression
  have step : loopFrom (.word "default" :: expression ++ rest) column =
      loopFrom (leftOf expression ++ rest)
      { column with
        defaultValue := if (takenOf expression).isEmpty then column.defaultValue
          else some (render (takenOf expression)) } := by
    exact loopFrom_taken taken column
  have marked : (ColumnClause.default expression).mark clauses column =
      { column with
        nullable := (saidBy (leftOf expression)).getD column.nullable
        defaultValue := if (takenOf expression).isEmpty then column.defaultValue
          else some (render (takenOf expression)) } := by
    simp [ColumnClause.mark, ColumnClause.nullability, ColumnClause.stores,
      ColumnClause.isPrimaryKey,
        ColumnClause.isUnique]
  rw [step, marked]
  exact loopFrom_left value.left rest _

end Loop

end SchemaForge.Sql
