import SchemaForge.Sql.Script
import SchemaForge.Sql.TopLevel
import SchemaForge.Verifier.SameNames

/-!
# Foreign-key targets in the generated script

The verifier accepts a foreign key when `isUniqueKey` holds of its target, and
the generator writes `UNIQUE` from a different combination of the same flags. The
two agree except on one kind of target: a column that is flagged unique and is
one of several columns of its table's primary key. The generator leaves `UNIQUE`
off every key column, and the key as a whole does not make one of its columns
unique. A default is written as it was typed, so it can bring a `UNIQUE` of its
own, and it can hide the one that is written behind it.
-/

namespace SchemaForge.Verifier

open Generator Sql

/-- The `CREATE TABLE` of the table makes the column unique on its own. -/
def MakesUnique (entity : Entity) (attr : Attribute) : Prop :=
  TopLevel.carriesUnique (Generator.column attr) = true ∨
    Generator.primaryKey entity = some ("PRIMARY KEY (" ++ quote attr.name ++ ")")

/-- The column is flagged unique and is only one of the columns of the primary key. -/
def IsUniqueKeyMember (entity : Entity) (attr : Attribute) : Prop :=
  attr.unique = true ∧ attr.primaryKey = true ∧ entity.primaryKey.length ≠ 1

/-- The column's own default, as it was typed, has the clause behind its expression. -/
def DefaultSpellsUnique (attr : Attribute) : Prop :=
  ∃ value ∈ attr.defaultValue, TopLevel.carriesUnique value = true

/-- What is written behind the default, as it was typed, is no clause of the column. -/
def DefaultHidesUnique (attr : Attribute) : Prop :=
  attr.primaryKey = false ∧ ∃ value ∈ attr.defaultValue, TopLevel.leavesOpen value = true

instance (entity : Entity) (attr : Attribute) : Decidable (MakesUnique entity attr) :=
  inferInstanceAs (Decidable (_ ∨ _))

instance (entity : Entity) (attr : Attribute) : Decidable (IsUniqueKeyMember entity attr) :=
  inferInstanceAs (Decidable (_ ∧ _ ∧ _))

/-- What stands before the default value of a column. -/
def columnHead (attr : Attribute) : Str :=
  quote attr.name ++ " " ++ Str.toAsciiUppercase attr.dataType.display ++
    (if attr.nullable then "" else " NOT NULL" : Str)

theorem column_eq (attr : Attribute) :
    Generator.column attr = columnHead attr ++
      (match attr.defaultValue with
        | some value => " DEFAULT " ++ value
        | none => "" : Str) ++ (if attr.unique && !attr.primaryKey then " UNIQUE" else "" : Str) :=
  rfl

open TopLevel (Reading)

/-- The text is read, up to the blank behind it, with nothing left open and no clause met. -/
def Settles (s : Str) : Prop := (Reading.start.run s).step ' ' = Reading.start

theorem run_quote (name : Str) : Reading.start.run (quote name) = Reading.start := by
  have quoted : Reading.start.run "\"" = ⟨.quoted, 0, false, false, false⟩ := rfl
  rw [quote, Reading.run_append, Reading.run_append, quoted, Reading.run_double]
  rfl

theorem settles_kind (kind : DataTypeKind) : Settles (Str.toAsciiUppercase kind.asStr) := by
  cases kind <;> rfl

/-- A name with parameters between parentheses. -/
theorem run_opening (kind : DataTypeKind)
    (parameters : kind.takesLength = true ∨ kind.takesPrecision = true) :
    Reading.start.run (Str.toAsciiUppercase kind.asStr ++ "(") =
      ⟨.between, 1, false, false, false⟩ := by
  cases kind
  case varchar | char | numeric => rfl
  all_goals simp [DataTypeKind.takesLength, DataTypeKind.takesPrecision] at parameters

theorem settles_dataType (dataType : DataType) :
    Settles (Str.toAsciiUppercase dataType.display) := by
  have upper (left right : Str) : Str.toAsciiUppercase (left ++ right) =
      Str.toAsciiUppercase left ++ Str.toAsciiUppercase right := List.map_append
  have single (n : UInt32) (parameters : dataType.kind.takesLength = true ∨
      dataType.kind.takesPrecision = true) :
      Settles (Str.toAsciiUppercase (dataType.kind.asStr ++ "(" ++ Str.ofNat n.toNat ++ ")")) := by
    have opened : Str.toAsciiUppercase "(" = ("(" : Str) := rfl
    rw [Settles, upper, upper, upper, toAsciiUppercase_ofNat, opened, Reading.run_append,
      Reading.run_append, run_opening _ parameters, Reading.run_ofNat]
    rfl
  have double (n m : UInt32) (parameters : dataType.kind.takesLength = true ∨
      dataType.kind.takesPrecision = true) :
      Settles (Str.toAsciiUppercase
        (dataType.kind.asStr ++ "(" ++ Str.ofNat n.toNat ++ ", " ++ Str.ofNat m.toNat ++ ")")) := by
    have opened : Str.toAsciiUppercase "(" = ("(" : Str) := rfl
    have separated : (Reading.mk .number 1 false false false).run (Str.toAsciiUppercase ", ") =
        ⟨.between, 1, false, false, false⟩ := rfl
    rw [Settles, upper, upper, upper, upper, upper, toAsciiUppercase_ofNat,
      toAsciiUppercase_ofNat, opened, Reading.run_append, Reading.run_append, Reading.run_append,
      Reading.run_append, run_opening _ parameters, Reading.run_ofNat, separated, Reading.run_ofNat]
    rfl
  have bare := settles_kind dataType.kind
  unfold DataType.display
  dsimp only
  split
  · rename_i takesLength
    split
    · exact single _ (.inl takesLength)
    · exact bare
  · split
    · rename_i takesPrecision
      split
      · exact double _ _ (.inr takesPrecision)
      · exact single _ (.inr takesPrecision)
      · exact bare
    · exact bare

theorem settles_head (attr : Attribute) : Settles (columnHead attr) := by
  have blank : Reading.start.run " " = Reading.start := rfl
  have dataType :
      Settles (quote attr.name ++ " " ++ Str.toAsciiUppercase attr.dataType.display) := by
    rw [Settles, Reading.run_append, Reading.run_append, run_quote, blank]
    exact settles_dataType attr.dataType
  rw [columnHead]
  split
  · rw [show ("" : Str) = [] from rfl, List.append_nil]
    exact dataType
  · have required : (" NOT NULL" : Str) = ' ' :: "NOT NULL" := rfl
    rw [Settles, Reading.run_append, required, Reading.run_cons, dataType]
    rfl

/-- What the line carries is what is behind its head. -/
theorem carriesUnique_head (attr : Attribute) (rest : Str) :
    TopLevel.carriesUnique (columnHead attr ++ ' ' :: rest) = TopLevel.carriesUnique rest := by
  rw [TopLevel.carriesUnique, Reading.run_append, Reading.run_cons, settles_head,
    ← TopLevel.carriesUnique]

theorem carriesUnique_default (value : Str) :
    TopLevel.carriesUnique ("DEFAULT " ++ value) = TopLevel.carriesUnique value := by
  rw [TopLevel.carriesUnique, Reading.run_append]
  rfl

theorem carriesUnique_column_iff (attr : Attribute) :
    TopLevel.carriesUnique (Generator.column attr) = true ↔
      (attr.unique = true ∧ attr.primaryKey = false ∧ ¬DefaultHidesUnique attr) ∨
        DefaultSpellsUnique attr := by
  rw [column_eq, DefaultSpellsUnique, DefaultHidesUnique]
  by_cases own : attr.unique = true ∧ attr.primaryKey = false
  · have written : (attr.unique && !attr.primaryKey) = true := by simpa using own
    have word : (" UNIQUE" : Str) = ' ' :: "UNIQUE" := rfl
    rw [if_pos written]
    cases found : attr.defaultValue with
    | none =>
        rw [show ("" : Str) = [] from rfl, List.append_nil, word, carriesUnique_head]
        simp only [Option.mem_def, reduceCtorEq, false_and, exists_false, and_false,
          not_false_eq_true, own, and_self, or_false, iff_true]
        rfl
    | some value =>
        have split : columnHead attr ++ (" DEFAULT " ++ value) ++ " UNIQUE" =
            columnHead attr ++ ' ' :: ("DEFAULT " ++ (value ++ " UNIQUE")) := by
          simp
        rw [split, carriesUnique_head, carriesUnique_default, TopLevel.carriesUnique_append_clause]
        simp only [Option.mem_def, Option.some.injEq, exists_eq_left', own, true_and,
          Bool.or_eq_true, Bool.not_eq_true', Bool.not_eq_true]
        exact or_comm
  · have notWritten : ¬((attr.unique && !attr.primaryKey) = true) := by simpa using own
    rw [if_neg notWritten, show ("" : Str) = [] from rfl, List.append_nil]
    have none : ¬(attr.unique = true ∧ attr.primaryKey = false ∧
        ¬(attr.primaryKey = false ∧ ∃ value ∈ attr.defaultValue,
          TopLevel.leavesOpen value = true)) :=
      fun all => own ⟨all.1, all.2.1⟩
    rw [iff_false_intro none, false_or]
    cases found : attr.defaultValue with
    | none =>
        simp only [List.append_nil, Option.mem_def, reduceCtorEq, false_and,
          exists_false, iff_false]
        have bare : TopLevel.carriesUnique (columnHead attr) = Reading.start.unique :=
          congrArg Reading.unique (settles_head attr)
        rw [bare]
        exact Bool.false_ne_true
    | some value =>
        simp only [Option.mem_def, Option.some.injEq, exists_eq_left']
        have split : columnHead attr ++ (" DEFAULT " ++ value) = columnHead attr ++ ' ' ::
            ("DEFAULT " ++ value) := by
          simp
        rw [split, carriesUnique_head, carriesUnique_default]

/-- A quoted name is not the beginning of a longer one that goes on with a comma. -/
theorem quote_append_ne (left right after : Str) : quote left ++ ',' :: after ≠ quote right := by
  intro same
  have leftShape : quote left ++ ',' :: after =
      '"' :: (Str.double '"' (Str.trim left) ++ '"' :: ',' :: after) := by simp [quote]
  have rightShape : quote right = '"' :: (Str.double '"' (Str.trim right) ++ ['"']) := by
    simp [quote]
  rw [leftShape, rightShape, List.cons.injEq] at same
  have split := congrArg Sql.splitQuoted same.2
  rw [Sql.splitQuoted_double _ (by simp), Sql.splitQuoted_double _ (by simp)] at split
  simp at split

/-- The clause names one column exactly when the key has one, of this name. -/
theorem primaryKey_eq_some_iff {entity : Entity} {name : Str} :
    Generator.primaryKey entity = some ("PRIMARY KEY (" ++ quote name ++ ")") ↔
      ∃ only, entity.primaryKey = [only] ∧ quote only.name = quote name := by
  unfold Generator.primaryKey
  match shape : entity.primaryKey with
  | [] => simp
  | [only] => simp [Str.join]
  | first :: second :: rest =>
      simp only [List.isEmpty_cons, Bool.false_eq_true, if_false, Option.some.injEq,
        List.append_cancel_right_eq, List.append_cancel_left_eq, List.map_cons]
      have joined : Str.join ", " (quote first.name :: quote second.name ::
          rest.map fun attr => quote attr.name) = quote first.name ++
            ',' :: ' ' :: Str.join ", " (quote second.name :: rest.map fun attr =>
              quote attr.name) :=
        rfl
      rw [joined]
      exact iff_of_false (quote_append_ne first.name name _) (by simp)

/-- In a valid schema it names a column exactly when the key has this column alone. -/
theorem primaryKey_eq_single_iff [Unicode] {schema : Schema} (valid : IsValid schema)
    {entity : Entity} (entityMem : entity ∈ schema.entities) {attr : Attribute}
    (mem : attr ∈ entity.attributes) :
    Generator.primaryKey entity = some ("PRIMARY KEY (" ++ quote attr.name ++ ")") ↔
      attr.primaryKey = true ∧ entity.primaryKey.length = 1 := by
  rw [primaryKey_eq_some_iff]
  constructor
  · rintro ⟨only, key, same⟩
    have member : only ∈ entity.primaryKey := key ▸ List.mem_singleton_self only
    rw [Entity.primaryKey, List.mem_filter] at member
    have one := List.inj_on_of_nodup_map (valid.nodup_attributeKeys entityMem) member.1 mem
      (nameKey_eq_of_quote_eq same)
    exact ⟨one ▸ member.2, by rw [key, List.length_singleton]⟩
  · rintro ⟨key, single⟩
    have member : attr ∈ entity.primaryKey := List.mem_filter.mpr ⟨mem, key⟩
    rcases List.length_eq_one_iff.mp single with ⟨only, shape⟩
    rw [shape, List.mem_singleton] at member
    exact ⟨only, shape, by rw [member]⟩

/--
For a target that the verifier accepts, what the script lacks is decided by its flags and its
default.
-/
theorem makesUnique_iff [Unicode] {schema : Schema} (valid : IsValid schema) {entity : Entity}
    (entityMem : entity ∈ schema.entities) {attr : Attribute} (mem : attr ∈ entity.attributes)
    (accepted : isUniqueKey entity attr = true) :
    MakesUnique entity attr ↔
      (¬IsUniqueKeyMember entity attr ∧ ¬DefaultHidesUnique attr) ∨ DefaultSpellsUnique attr := by
  rw [MakesUnique, carriesUnique_column_iff, IsUniqueKeyMember,
    primaryKey_eq_single_iff valid entityMem mem]
  simp only [isUniqueKey, Bool.or_eq_true, Bool.and_eq_true, beq_iff_eq] at accepted
  cases key : attr.primaryKey with
  | false =>
      have unique : attr.unique = true := by simpa [key] using accepted
      simp [unique]
  | true =>
      by_cases single : entity.primaryKey.length = 1
      · simp [single, DefaultHidesUnique, key]
      · have unique : attr.unique = true := by simpa [key, single] using accepted
        simp [unique, single]

/-- A table with two columns in its key, or one, and a column that references the first. -/
def partsSchema (composite : Bool) : Schema :=
  let integer : DataType := ⟨.integer, none, none, none⟩
  { id := "s"
    name := "orders"
    description := []
    entities :=
      [{ Entity.new "t" "parts" with
          attributes :=
            [{ Attribute.new "a" "serial" integer with
                nullable := false, primaryKey := true, unique := true },
              { Attribute.new "b" "batch" integer with
                nullable := false, primaryKey := composite }] },
        { Entity.new "u" "lines" with
          attributes :=
            [{ Attribute.new "c" "id" integer with
                nullable := false, primaryKey := true, unique := true },
              { Attribute.new "d" "part" integer with foreignKey := some ⟨"t", "a"⟩ }] }]
    relationships := [] }

end SchemaForge.Verifier
