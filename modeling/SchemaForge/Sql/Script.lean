import SchemaForge.Generator
import SchemaForge.Sql.Spelling

/-!
# The tokens of a generated script

Each statement that the generator writes has a token list, which is defined here
from the schema alone and not from the text. The lemmas say that the text of a
statement is read as that list and as one statement, whatever comes after it.
Default values are the only texts that are written as they are; a statement is
read as expected when each of its defaults is self-contained.
-/

namespace SchemaForge.Sql

variable [Unicode]

open Generator

/-- The tokens of a text. -/
def tokensOf (s : Str) : List Token :=
  (lex s).filterMap fun
    | .token token => some token
    | _ => none

/-- The text is read as these tokens and nothing else wherever a stop follows it. -/
def Spells (s : Str) (tokens : List Token) : Prop :=
  ∀ rest, Stops rest → lex (s ++ rest) = tokens.map .token ++ lex rest

/-- The text is read as its own tokens wherever a stop follows it. -/
def SelfContained (s : Str) : Prop := Spells s (tokensOf s)

/-- Fixed words of a statement, each followed by a space. -/
def phrase (words : List Str) : Str := words.flatMap fun word => word ++ " "

theorem lex_phrase {words : List Str} (spelled : words.all isAsciiWord = true) (rest : Str) :
    lex (phrase words ++ rest) =
      (words.map fun word => Event.token (.word (Str.toAsciiLowercase word))) ++ lex rest := by
  induction words with
  | nil => rfl
  | cons word words ih =>
      simp only [List.all_cons, Bool.and_eq_true] at spelled
      have shape : phrase (word :: words) ++ rest = word ++ ' ' :: (phrase words ++ rest) := by
        simp [phrase]
      rw [shape, lex_word spelled.1 (by simp [isStop]), lex_space, ih spelled.2]
      rfl

theorem lex_quote {rest : Str} (name : Str) (closed : ∀ c ∈ rest.head?, c ≠ '"') :
    lex (quote name ++ rest) = .token (.quoted (Str.trim name)) :: lex rest :=
  lex_quoted (Str.trim name) closed

theorem lex_literal {rest : Str} (value : Str) (closed : ∀ c ∈ rest.head?, c ≠ '\'') :
    lex (literal value ++ rest) = .token (.text (Str.trim value)) :: lex rest :=
  lex_text (Str.trim value) closed

theorem spells_nil : Spells [] [] := fun _ _ => rfl

omit [Unicode] in
theorem Stops.append {s rest : Str} (start : Stops s) (stops : Stops rest) : Stops (s ++ rest) := by
  cases s with
  | nil => exact stops
  | cons c s => simpa using start

theorem Spells.append {left right : Str} {leftTokens rightTokens : List Token}
    (leftSpells : Spells left leftTokens) (rightSpells : Spells right rightTokens)
    (start : Stops right) : Spells (left ++ right) (leftTokens ++ rightTokens) := by
  intro rest stops
  rw [List.append_assoc, leftSpells _ (start.append stops), rightSpells rest stops,
    List.map_append, List.append_assoc]

/-- Pieces of text that follow one another with a comma between them. -/
theorem Spells.join {pieces : List Str} {tokens : List (List Token)}
    (spells : List.Forall₂ Spells pieces tokens) {margin : Str}
    (blank : ∀ rest, lex (margin ++ rest) = lex rest) :
    Spells (Str.join ("," ++ margin) pieces) (List.intercalate [.punct ','] tokens) := by
  induction spells with
  | nil => exact spells_nil
  | @cons piece list pieces lists pieceSpells tailSpells ih =>
      cases tailSpells with
      | nil => simpa [Str.join, List.intercalate] using pieceSpells
      | @cons second secondList pieces lists secondSpells tailSpells =>
          intro rest stops
          have joined := ih rest stops
          simp only [Str.join, List.intercalate, List.intersperse, List.flatten_cons] at joined ⊢
          rw [List.append_assoc, pieceSpells _ (by simp [isStop])]
          simp only [List.append_assoc, List.map_append] at joined ⊢
          rw [show (",".toList ++ (margin ++ _) : Str) = ',' :: (margin ++ _) from rfl, lex_comma,
            blank, joined]
          rfl

/-- The words of a column type. -/
def kindTokens : DataTypeKind → List Token
  | .doublePrecision => [.word "double", .word "precision"]
  | kind => [.word kind.asStr]

def numberToken (n : UInt32) : Token := .number (Str.ofNat n.toNat)

/-- The parameters of a column type, with their parentheses. -/
def parameterTokens (dataType : DataType) : List Token :=
  if dataType.kind.takesLength then
    match dataType.length with
    | some length => [.punct '(', numberToken length, .punct ')']
    | none => []
  else if dataType.kind.takesPrecision then
    match dataType.precision, dataType.scale with
    | some precision, some scale =>
        [.punct '(', numberToken precision, .punct ',', numberToken scale, .punct ')']
    | some precision, none => [.punct '(', numberToken precision, .punct ')']
    | _, _ => []
  else []

def dataTypeTokens (dataType : DataType) : List Token :=
  kindTokens dataType.kind ++ parameterTokens dataType

theorem spells_kind (kind : DataTypeKind) :
    Spells (Str.toAsciiUppercase kind.asStr) (kindTokens kind) := by
  intro rest stops
  cases kind
  case doublePrecision =>
    rw [show Str.toAsciiUppercase DataTypeKind.doublePrecision.asStr =
        phrase ["DOUBLE"] ++ "PRECISION" from by decide,
      List.append_assoc, lex_phrase (by decide), lex_word (by decide) stops]
    rfl
  all_goals
    rw [lex_word (by decide) stops]
    rfl

omit [Unicode] in
theorem toAsciiUppercase_ofNat (n : Nat) : Str.toAsciiUppercase (Str.ofNat n) = Str.ofNat n := by
  refine (List.map_congr_left fun c mem => ?_).trans (List.map_id _)
  have digit := (Str.isDigit_iff c).mp (Str.isDigit_of_mem_ofNat mem)
  have notLower : ¬(c.val ≥ 'a'.val ∧ c.val ≤ 'z'.val) := by
    rintro ⟨lower, -⟩
    have : 97 ≤ c.toNat := UInt32.le_iff_toNat_le.mp lower
    omega
  simp only [Char.toUpper, notLower, ↓reduceDIte, id]

omit [Unicode] in
theorem isNumeral_ofNat (n : Nat) : isNumeral (Str.ofNat n) = true := by
  rcases shape : Str.ofNat n with _ | ⟨c, rest⟩
  · exact absurd shape (Str.ofNat_ne_nil n)
  · simp only [isNumeral, Bool.and_eq_true, List.all_eq_true]
    refine ⟨Str.isDigit_of_mem_ofNat (n := n) (by simp [shape]), fun d mem => ?_⟩
    simp [Str.isDigit_of_mem_ofNat (n := n) (c := d) (by simp [shape, mem])]

theorem spells_parameter (n : UInt32) : Spells (Str.ofNat n.toNat) [numberToken n] :=
  fun _ stops => lex_number (isNumeral_ofNat n.toNat) stops

theorem spells_dataType (dataType : DataType) :
    Spells (Str.toAsciiUppercase dataType.display) (dataTypeTokens dataType) := by
  have upper (left right : Str) : Str.toAsciiUppercase (left ++ right) =
      Str.toAsciiUppercase left ++ Str.toAsciiUppercase right := List.map_append
  have kind := spells_kind dataType.kind
  -- One parameter between parentheses, after the words of the type.
  have single (n : UInt32) :
      Spells (Str.toAsciiUppercase (dataType.kind.asStr ++ "(" ++ Str.ofNat n.toNat ++ ")"))
        (kindTokens dataType.kind ++ [.punct '(', numberToken n, .punct ')']) := by
    intro rest stops
    simp only [upper, toAsciiUppercase_ofNat, List.append_assoc]
    rw [show Str.toAsciiUppercase "(" = ['('] from rfl,
      show Str.toAsciiUppercase ")" = [')'] from rfl, List.singleton_append, List.singleton_append,
      kind _ (by simp [isStop]), lex_opening, spells_parameter n _ (by simp [isStop]), lex_closing]
    simp
  have double (n m : UInt32) :
      Spells (Str.toAsciiUppercase
          (dataType.kind.asStr ++ "(" ++ Str.ofNat n.toNat ++ ", " ++ Str.ofNat m.toNat ++ ")"))
        (kindTokens dataType.kind ++
          [.punct '(', numberToken n, .punct ',', numberToken m, .punct ')']) := by
    intro rest stops
    simp only [upper, toAsciiUppercase_ofNat, List.append_assoc]
    rw [show Str.toAsciiUppercase "(" = ['('] from rfl,
      show Str.toAsciiUppercase ", " = [',', ' '] from rfl,
      show Str.toAsciiUppercase ")" = [')'] from rfl, List.singleton_append, List.singleton_append,
      List.cons_append, List.singleton_append, kind _ (by simp [isStop]), lex_opening,
      spells_parameter n _ (by simp [isStop]), lex_comma, lex_space,
      spells_parameter m _ (by simp [isStop]), lex_closing]
    simp
  have bare : Spells (Str.toAsciiUppercase dataType.kind.asStr)
      (kindTokens dataType.kind ++ []) := by
    rwa [List.append_nil]
  by_cases takesLength : dataType.kind.takesLength = true
  · cases length : dataType.length with
    | some n => simpa [DataType.display, dataTypeTokens, parameterTokens, takesLength, length]
        using single n
    | none => simpa [DataType.display, dataTypeTokens, parameterTokens, takesLength, length]
        using bare
  · by_cases takesPrecision : dataType.kind.takesPrecision = true
    · cases precision : dataType.precision with
      | none => simpa [DataType.display, dataTypeTokens, parameterTokens, takesLength,
          takesPrecision, precision] using bare
      | some n =>
          cases scale : dataType.scale with
          | none => simpa [DataType.display, dataTypeTokens, parameterTokens, takesLength,
              takesPrecision, precision, scale] using single n
          | some m => simpa [DataType.display, dataTypeTokens, parameterTokens, takesLength,
              takesPrecision, precision, scale] using double n m
    · simpa [DataType.display, dataTypeTokens, parameterTokens, takesLength, takesPrecision]
        using bare

/-- A column's own tokens: its name, its type and its flags. -/
def columnTokens (attr : Attribute) : List Token :=
  [.quoted (Str.trim attr.name)] ++ dataTypeTokens attr.dataType ++
    (if attr.nullable then [] else [.word "not", .word "null"]) ++
    (match attr.defaultValue with
      | some value => .word "default" :: tokensOf value
      | none => []) ++
    (if attr.unique && !attr.primaryKey then [.word "unique"] else [])

def primaryKeyTokens (entity : Entity) : Option (List Token) :=
  if entity.primaryKey.isEmpty then none
  else
    some ([.word "primary", .word "key", .punct '('] ++
      List.intercalate [.punct ','] (entity.primaryKey.map fun attr =>
        [.quoted (Str.trim attr.name)]) ++ [.punct ')'])

/-- The items between the parentheses of a table. -/
def itemTokens (entity : Entity) : List (List Token) :=
  entity.attributes.map columnTokens ++ (primaryKeyTokens entity).toList

def createTableTokens (entity : Entity) : List Token :=
  [.word "create", .word "table", .quoted (Str.trim entity.name), .punct '('] ++
    List.intercalate [.punct ','] (itemTokens entity) ++ [.punct ')']

/-- Every default value of the table stays inside its column. -/
def DefaultsSelfContained (entity : Entity) : Prop :=
  ∀ attr ∈ entity.attributes, ∀ value ∈ attr.defaultValue, SelfContained value

theorem spells_column {attr : Attribute}
    (defaults : ∀ value ∈ attr.defaultValue, SelfContained value) :
    Spells (column attr) (columnTokens attr) := by
  have named : Spells (quote attr.name ++ " " ++ Str.toAsciiUppercase attr.dataType.display)
      ([.quoted (Str.trim attr.name)] ++ dataTypeTokens attr.dataType) := by
    intro rest stops
    rw [List.append_assoc, List.append_assoc, lex_quote _ (by simp),
      show (" " : Str) = [' '] from rfl, List.singleton_append, lex_space,
      spells_dataType _ _ stops]
    rfl
  have required : Spells (if attr.nullable then ("" : Str) else " NOT NULL")
      (if attr.nullable then [] else [.word "not", .word "null"]) := by
    split
    · exact spells_nil
    · intro rest stops
      rw [show (" NOT NULL".toList ++ rest : Str) = ' ' :: (phrase ["NOT"] ++ ("NULL" ++ rest))
        from rfl, lex_space, lex_phrase (by decide), lex_word (by decide) stops]
      rfl
  have default : Spells (match attr.defaultValue with
        | some value => " DEFAULT " ++ value
        | none => "")
      (match attr.defaultValue with
        | some value => .word "default" :: tokensOf value
        | none => []) := by
    split
    · rename_i value found
      intro rest stops
      rw [show (" DEFAULT " : Str) = ' ' :: phrase ["DEFAULT"] from rfl, List.append_assoc,
        List.cons_append, lex_space, lex_phrase (by decide), defaults value found rest stops]
      rfl
    · exact spells_nil
  have unique : Spells (if attr.unique && !attr.primaryKey then (" UNIQUE" : Str) else "")
      (if attr.unique && !attr.primaryKey then [.word "unique"] else []) := by
    split
    · intro rest stops
      rw [show (" UNIQUE".toList ++ rest : Str) = ' ' :: ("UNIQUE" ++ rest) from rfl, lex_space,
        lex_word (by decide) stops]
      rfl
    · exact spells_nil
  refine ((named.append required ?_).append default ?_).append unique ?_
  · split <;> simp [isStop]
  · split <;> simp [isStop]
  · split <;> simp [isStop]

theorem lex_margin (rest : Str) : lex ("\n    " ++ rest) = lex rest := by
  rw [show ("\n    ".toList ++ rest : Str) = '\n' :: ' ' :: ' ' :: ' ' :: ' ' :: rest from rfl]
  simp

theorem spells_primaryKey {entity : Entity} {line : Str} {tokens : List Token}
    (written : primaryKey entity = some line) (expected : primaryKeyTokens entity = some tokens) :
    Spells line tokens := by
  unfold primaryKey at written
  unfold primaryKeyTokens at expected
  split at written
  · contradiction
  · rename_i keyed
    rw [if_neg keyed] at expected
    have names : Spells (Str.join ", " (entity.primaryKey.map fun attr => quote attr.name))
        (List.intercalate [.punct ','] (entity.primaryKey.map fun attr =>
          [.quoted (Str.trim attr.name)])) := by
      refine @Spells.join _ _ _ ?_ " " lex_space
      rw [List.forall₂_map_left_iff, List.forall₂_map_right_iff, List.forall₂_same]
      intro attr _ rest stops
      refine lex_quote attr.name fun c mem => ?_
      rintro rfl
      exact absurd (stops _ mem) (by decide)
    rw [← Option.some_inj.mp written, ← Option.some_inj.mp expected]
    intro rest stops
    rw [show ("PRIMARY KEY (" : Str) = phrase ["PRIMARY", "KEY"] ++ "(" from rfl]
    simp only [List.append_assoc]
    rw [lex_phrase (by decide), show ("(" : Str) = ['('] from rfl, List.singleton_append,
      lex_opening, show (")" : Str) = [')'] from rfl, List.singleton_append,
      names _ (by simp [isStop]), lex_closing]
    simp [Str.toAsciiLowercase]

omit [Unicode] in
theorem isSome_primaryKeyTokens (entity : Entity) :
    (primaryKeyTokens entity).isSome = (primaryKey entity).isSome := by
  unfold primaryKeyTokens primaryKey
  split <;> rfl

theorem spells_items {entity : Entity} (defaults : DefaultsSelfContained entity) :
    List.Forall₂ Spells (entity.attributes.map column ++ (primaryKey entity).toList)
      (itemTokens entity) := by
  refine List.rel_append ?_ ?_
  · rw [List.forall₂_map_left_iff, List.forall₂_map_right_iff, List.forall₂_same]
    exact fun attr mem => spells_column (defaults attr mem)
  · have both := isSome_primaryKeyTokens entity
    cases line : primaryKey entity with
    | none =>
        rw [line, Option.isSome_none, Option.isSome_eq_false_iff, Option.isNone_iff_eq_none] at both
        rw [both]
        exact .nil
    | some line =>
        rw [line, Option.isSome_some, Option.isSome_iff_exists] at both
        obtain ⟨tokens, expected⟩ := both
        rw [expected]
        exact .cons (spells_primaryKey (by assumption) expected) .nil

/-- A table is read as one statement, whatever comes after it. -/
theorem lex_createTable {entity : Entity} (defaults : DefaultsSelfContained entity) (rest : Str) :
    lex (createTable entity ++ rest) =
      (createTableTokens entity).map .token ++ .finish :: lex rest := by
  have items := spells_items defaults
  unfold createTable createTableTokens
  simp only
  split
  · rename_i none
    rw [List.isEmpty_iff.mp none, List.forall₂_nil_left_iff] at items
    rw [show ("CREATE TABLE " : Str) = phrase ["CREATE", "TABLE"] from rfl, items]
    simp only [List.append_assoc]
    rw [lex_phrase (by decide), lex_quote _ (by simp),
      show (" ();" : Str) = [' ', '(', ')', ';'] from rfl]
    simp [Str.toAsciiLowercase]
  · have joined := @Spells.join _ _ _ items "\n    " lex_margin
    rw [show ("CREATE TABLE " : Str) = phrase ["CREATE", "TABLE"] from rfl]
    simp only [List.append_assoc]
    rw [lex_phrase (by decide), lex_quote _ (by simp),
      show (" (\n    " : Str) = ' ' :: '(' :: "\n    ".toList from rfl, List.cons_append, lex_space,
      List.cons_append, lex_opening, lex_margin, show (",\n    " : Str) = "," ++ "\n    " from rfl,
      show ("\n);" : Str) = ['\n', ')', ';'] from rfl, joined _ (by simp [isStop])]
    simp [Str.toAsciiLowercase]

def alterTableTokens (resolved : ResolvedKey) : List Token :=
  [.word "alter", .word "table", .quoted (Str.trim resolved.entity.name), .word "add",
    .word "constraint",
    .quoted (Str.trim (constraintName resolved.entity.name resolved.attr.name)),
    .word "foreign", .word "key", .punct '(', .quoted (Str.trim resolved.attr.name), .punct ')',
    .word "references", .quoted (Str.trim resolved.target.name), .punct '(',
    .quoted (Str.trim resolved.key.name), .punct ')']

def commentOnTableTokens (entity : Entity) : List Token :=
  [.word "comment", .word "on", .word "table", .quoted (Str.trim entity.name), .word "is",
    .text (Str.trim entity.description)]

def commentOnColumnTokens (entity : Entity) (attr : Attribute) : List Token :=
  [.word "comment", .word "on", .word "column", .quoted (Str.trim entity.name), .punct '.',
    .quoted (Str.trim attr.name), .word "is", .text (Str.trim attr.description)]

theorem lex_alterTable (resolved : ResolvedKey) (rest : Str) :
    lex (alterTable resolved ++ rest) =
      (alterTableTokens resolved).map .token ++ .finish :: lex rest := by
  unfold alterTable alterTableTokens
  simp only [List.append_assoc]
  rw [show ("ALTER TABLE " : Str) = phrase ["ALTER", "TABLE"] from rfl, lex_phrase (by decide),
    lex_quote _ (by simp),
    show ("\n    ADD CONSTRAINT " : Str) = "\n    " ++ phrase ["ADD", "CONSTRAINT"] from rfl,
    List.append_assoc, lex_margin, lex_phrase (by decide), lex_quote _ (by simp),
    show (" FOREIGN KEY (" : Str) = ' ' :: (phrase ["FOREIGN", "KEY"] ++ "(") from rfl,
    List.cons_append, lex_space, List.append_assoc, lex_phrase (by decide),
    show ("(" : Str) = ['('] from rfl, List.singleton_append, lex_opening, lex_quote _ (by simp),
    show (") REFERENCES " : Str) = ')' :: ' ' :: phrase ["REFERENCES"] from rfl, List.cons_append,
    lex_closing, List.cons_append, lex_space, lex_phrase (by decide), lex_quote _ (by simp),
    show (" (" : Str) = [' ', '('] from rfl, List.cons_append, lex_space, List.singleton_append,
    lex_opening, lex_quote _ (by simp), show (");" : Str) = [')', ';'] from rfl, List.cons_append,
    lex_closing, List.singleton_append, lex_semicolon]
  simp [Str.toAsciiLowercase]

theorem lex_commentOnTable (entity : Entity) (rest : Str) :
    lex (commentOnTable entity ++ rest) =
      (commentOnTableTokens entity).map .token ++ .finish :: lex rest := by
  unfold commentOnTable commentOnTableTokens
  simp only [List.append_assoc]
  rw [show ("COMMENT ON TABLE " : Str) = phrase ["COMMENT", "ON", "TABLE"] from rfl,
    lex_phrase (by decide), lex_quote _ (by simp),
    show (" IS " : Str) = ' ' :: phrase ["IS"] from rfl, List.cons_append, lex_space,
    lex_phrase (by decide), lex_literal _ (by simp),
    show (";" : Str) = [';'] from rfl, List.singleton_append, lex_semicolon]
  simp [Str.toAsciiLowercase]

theorem lex_commentOnColumn (entity : Entity) (attr : Attribute) (rest : Str) :
    lex (commentOnColumn entity attr ++ rest) =
      (commentOnColumnTokens entity attr).map .token ++ .finish :: lex rest := by
  unfold commentOnColumn commentOnColumnTokens
  simp only [List.append_assoc]
  rw [show ("COMMENT ON COLUMN " : Str) = phrase ["COMMENT", "ON", "COLUMN"] from rfl,
    lex_phrase (by decide), lex_quote _ (by simp), show ("." : Str) = ['.'] from rfl,
    List.singleton_append, lex_point, lex_quote _ (by simp), show (" IS " : Str) = ' ' :: phrase
      ["IS"] from rfl,
    List.cons_append, lex_space, lex_phrase (by decide), lex_literal _ (by simp),
    show (";" : Str) = [';'] from rfl, List.singleton_append, lex_semicolon]
  simp [Str.toAsciiLowercase]

end SchemaForge.Sql
