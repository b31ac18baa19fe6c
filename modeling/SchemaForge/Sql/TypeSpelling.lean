import SchemaForge.Sql.Flags

/-!
# Spellings of a type

What PostgreSQL takes for the name of a type, beside what the reader takes. The
reader stops collecting a type at the first token that is no word, reads a number
or two, and passes over everything else up to the next constraint, so a column
keeps the type it is written with exactly if there is nothing to pass over.
-/

namespace SchemaForge.Sql

/-- `(n)`, `(n, m)` or `(n, -m)`. -/
def isTypeModifier : List Token → Bool
  | [.punct '(', .number _, .punct ')'] => true
  | [.punct '(', .number _, .punct ',', .number _, .punct ')'] => true
  | [.punct '(', .number _, .punct ',', .punct '-', .number _, .punct ')'] => true
  | _ => false

def withZone : List Str := ["with", "time", "zone"]

def withoutZone : List Str := ["without", "time", "zone"]

/-- The words of an alias of the kind, with a modifier behind them or none; before `with time zone`
and `without time zone` the modifier stands behind the first word. -/
def IsSpelling (kind : DataTypeKind) (tokens : List Token) : Prop :=
  ∃ words modifier, kindOf (Str.join " " words) = some kind ∧
    (modifier = [] ∨ isTypeModifier modifier = true) ∧
    (tokens = words.map .word ++ modifier ∨
      ∃ first zone, words = first :: zone ∧ (zone = withZone ∨ zone = withoutZone) ∧
        tokens = .word first :: (modifier ++ zone.map .word))

/-- The tokens between the name of a column and its first constraint. -/
def typeTokens (cursor : Cursor) : List Token := (Cursor.takeUntilSeparator afterType cursor.tail).1

/-- The tokens of a type behind its words. -/
def behindWords (cursor : Cursor) : List Token :=
  (Cursor.takeUntilSeparator afterType (typeWords cursor.tail).2).1

/-- A type that is read is spelled in the script, and a column of any other is noted. -/
def KeepsType (cursor : Cursor) : Prop :=
  (∀ parsed left, column cursor = (.ok parsed, left) → IsSpelling parsed.dataType.kind
    (typeTokens cursor)) ∧
    ∀ name left, column cursor = (.error name, left) → ∀ table, ∃ note,
      (columnItem cursor table).2.skipped = table.skipped ++ [note]

/-- Behind the words of a type stands nothing, or a modifier, or, behind `time` and `timestamp`,
a modifier and `without time zone`. -/
def IsTypeEnd (words : List Str) (behind : List Token) : Prop :=
  behind = [] ∨ isTypeModifier behind = true ∨
    ((words = [("time" : Str)] ∨ words = [("timestamp" : Str)]) ∧
    ∃ modifier, isTypeModifier modifier = true ∧ behind = modifier ++ withoutZone.map .word)

/-- The next token is no word. -/
def NoWordAhead (tokens : List Token) : Prop := ∀ word, tokens.head? ≠ some (.word word)

theorem noWordAhead_of_isTypeModifier {modifier : List Token}
    (numeric : modifier = [] ∨ isTypeModifier modifier = true) :
    NoWordAhead modifier := by
  intro word first
  rcases numeric with rfl | numeric
  · cases first
  · rcases List.head?_eq_some_iff.mp first with ⟨rest, rfl⟩
    cases numeric

theorem map_word_append_inj {left right : List Str} {behind rest : List Token}
    (stops : NoWordAhead behind) (ends : NoWordAhead rest)
    (same : left.map .word ++ behind = right.map .word ++ rest) :
    left = right ∧ behind = rest := by
  induction left generalizing right with
  | nil =>
      cases right with
      | nil => exact ⟨rfl, same⟩
      | cons word right => exact absurd (congrArg List.head? same) (stops word)
  | cons word left ih =>
      cases right with
      | nil => exact absurd (congrArg List.head? same).symm (ends word)
      | cons other right =>
          rw [List.map_cons, List.map_cons, List.cons_append, List.cons_append, List.cons.injEq,
            Token.word.injEq] at same
          rcases ih same.2 with ⟨rfl, rest⟩
          exact ⟨by rw [same.1], rest⟩

/-- The words of a type come first, and no more of them behind. -/
theorem takeInside_typeWords (cursor : Cursor) :
    (Cursor.takeUntilSeparator afterType cursor).1 = (typeWords cursor).1.map .word ++
        (Cursor.takeUntilSeparator afterType (typeWords cursor).2).1 ∧
      NoWordAhead (Cursor.takeUntilSeparator afterType (typeWords cursor).2).1 := by
  fun_induction typeWords cursor with
  | case1 word rest stop =>
      have taken : Cursor.takeUntilSeparator afterType (.word word :: rest) =
          ([], .word word :: rest) := by
        rw [Cursor.takeUntilSeparator, Cursor.takeInside, if_pos (by simpa using stop)]
      rw [taken]
      refine ⟨rfl, fun other first => ?_⟩
      cases first
  | case2 word rest goesOn words left found ih =>
      rw [found] at ih
      have taken : (Cursor.takeUntilSeparator afterType (.word word :: rest)).1 =
          .word word :: (Cursor.takeUntilSeparator afterType rest).1 := by
        rw [Cursor.takeUntilSeparator, Cursor.takeInside, if_neg (by simpa using goesOn)]
        rfl
      rw [taken, ih.1]
      exact ⟨rfl, ih.2⟩
  | case3 cursor other =>
      refine ⟨rfl, fun word first => ?_⟩
      rcases List.head?_eq_some_iff.mp first with ⟨rest, split⟩
      have whole := Cursor.takeInside_append afterType 0 cursor
      rw [Cursor.takeUntilSeparator] at split
      rw [split] at whole
      exact other word _ whole.symm

/-- The aliases with a zone behind them, and the two that `without time zone` does not change. -/
theorem zoned_typeAliases :
    (∀ long ∈ typeAliases, ∀ brief ∈ typeAliases, long.2 = brief.2 →
      ∀ zone ∈ [withZone, withoutZone], long.1.toList = Str.join " " (brief.1.toList :: zone) →
        zone = withoutZone ∧
          (brief.1.toList = ("time" : Str) ∨ brief.1.toList = ("timestamp" : Str))) ∧
    ∀ first ∈ (["time", "timestamp"] : List Str),
      kindOf (Str.join " " (first :: withoutZone)) = kindOf first := by
  decide

/--
Of the types with a time zone, the ones that keep their kind without the words behind the modifier.
-/
theorem kindOf_zone {first : Str} {zone : List Str} {kind : DataTypeKind}
    (zoned : zone = withZone ∨ zone = withoutZone)
    (known : kindOf (Str.join " " (first :: zone)) = some kind) (short : kindOf first = some kind) :
    zone = withoutZone ∧ (first = "time" ∨ first = "timestamp") := by
  have found {name : Str} (known : kindOf name = some kind) :
      ∃ spelling ∈ typeAliases, spelling.1.toList = name ∧ spelling.2 = kind := by
    rcases Option.map_eq_some_iff.mp known with ⟨spelling, listed, same⟩
    exact ⟨spelling, List.mem_of_find?_eq_some listed, by simpa using List.find?_some listed, same⟩
  rcases found known with ⟨long, longMem, whole, longKind⟩
  rcases found short with ⟨brief, briefMem, same, briefKind⟩
  have joined : long.1.toList = Str.join " " (brief.1.toList :: zone) := by
    rw [whole, same]
  rw [← same]
  refine zoned_typeAliases.1 long longMem brief briefMem (longKind.trans briefKind.symm)
    zone ?_ joined
  rcases zoned with rfl | rfl
  · exact List.mem_cons_self
  · exact List.mem_cons_of_mem _ List.mem_cons_self

theorem kindOf_without {first : Str} {kind : DataTypeKind} (short : kindOf first = some kind)
    (timed : first = "time" ∨ first = "timestamp") :
    kindOf (Str.join " " (first :: withoutZone)) = some kind := by
  rw [← short]
  apply zoned_typeAliases.2
  rcases timed with rfl | rfl
  · exact List.mem_cons_self
  · exact List.mem_cons_of_mem _ List.mem_cons_self

theorem join_singleton (word : Str) : Str.join " " [word] = word := by
  simp [Str.join, List.intercalate]

theorem isSpelling_iff {kind : DataTypeKind} {words : List Str} {behind : List Token}
    (known : kindOf (Str.join " " words) = some kind) (stops : NoWordAhead behind) :
    IsSpelling kind (words.map .word ++ behind) ↔ IsTypeEnd words behind := by
  constructor
  · rintro ⟨others, modifier, named, numeric, shape | ⟨first, zone, rfl, zoned, shape⟩⟩
    · rcases map_word_append_inj stops (noWordAhead_of_isTypeModifier numeric) shape with ⟨-, rfl⟩
      rcases numeric with empty | numeric
      · exact .inl empty
      · exact .inr (.inl numeric)
    · rcases numeric with rfl | numeric
      · have whole : words.map Token.word ++ behind = (first :: zone).map .word ++ [] := by
          rw [shape, List.append_nil]
          rfl
        rcases map_word_append_inj stops (fun word first => by cases first) whole with ⟨-, rfl⟩
        exact .inl rfl
      · have ahead : NoWordAhead (modifier ++ zone.map .word) := by
          intro word front
          cases modifier with
          | nil => cases numeric
          | cons token modifier => exact noWordAhead_of_isTypeModifier (.inr numeric) word front
        rcases map_word_append_inj stops ahead (shape.trans rfl : _ = [first].map .word ++ _) with
          ⟨rfl, rfl⟩
        rw [join_singleton] at known
        rcases kindOf_zone zoned named known with ⟨rfl, timed⟩
        refine .inr (.inr ⟨?_, modifier, numeric, rfl⟩)
        rcases timed with rfl | rfl
        · exact .inl rfl
        · exact .inr rfl
  · rintro (rfl | numeric | ⟨timed, modifier, numeric, rfl⟩)
    · exact ⟨words, [], known, .inl rfl, .inl rfl⟩
    · exact ⟨words, behind, known, .inr numeric, .inl rfl⟩
    · have single : ∃ first, words = [first] ∧ (first = "time" ∨ first = "timestamp") := by
        rcases timed with rfl | rfl
        · exact ⟨_, rfl, .inl rfl⟩
        · exact ⟨_, rfl, .inr rfl⟩
      clear timed
      rcases single with ⟨first, rfl, timed⟩
      rw [join_singleton] at known
      exact ⟨first :: withoutZone, modifier, kindOf_without known timed, .inr numeric,
        .inr ⟨first, _, rfl, .inr rfl, rfl⟩⟩

theorem typeTokens_eq (cursor : Cursor) :
    typeTokens cursor = (typeWords cursor.tail).1.map .word ++ behindWords cursor :=
  (takeInside_typeWords cursor.tail).1

theorem kindOf_column {cursor left : Cursor} {parsed : ParsedColumn}
    (found : column cursor = (.ok parsed, left)) :
    kindOf (Str.join " " (typeWords cursor.tail).1) = some parsed.dataType.kind := by
  rcases column_eq_ok found with ⟨kind, name, nullable, known, made⟩
  have kept := (readsClauses (parameters (typeWords cursor.tail).2 kind).2.length
    (parameters (typeWords cursor.tail).2 kind).2
    ⟨name, (parameters (typeWords cursor.tail).2 kind).1, nullable, false, false, none⟩).dataType
  rw [made] at kept
  rw [kept, known]
  dsimp only
  unfold parameters
  dsimp only
  split
  · rfl
  · split <;> rfl

theorem noted_of_error {cursor left : Cursor} {name : Str}
    (found : column cursor = (.error name, left)) (table : ParsedTable) :
    ∃ note, (columnItem cursor table).2.skipped = table.skipped ++ [note] := by
  rw [columnItem, found]
  exact ⟨_, rfl⟩

/-- A column is read whose first token is a name and whose words are a type. -/
theorem exists_column_iff (cursor : Cursor) : (∃ parsed left, column cursor = (.ok parsed, left)) ↔
    (cursor.head?.bind Token.name).isSome = true ∧
      (kindOf (Str.join " " (typeWords cursor.tail).1)).isSome = true := by
  constructor
  · rintro ⟨parsed, left, found⟩
    refine ⟨?_, Option.isSome_iff_exists.mpr ⟨_, kindOf_column found⟩⟩
    cases cursor with
    | nil => cases found
    | cons token rest =>
        rw [List.head?_cons, Option.bind_some]
        cases named : token.name with
        | some name => rfl
        | none =>
            unfold column at found
            simp only [named] at found
            cases found
  · rintro ⟨named, known⟩
    cases cursor with
    | nil => cases named
    | cons token rest =>
        rw [List.head?_cons, Option.bind_some] at named
        rcases Option.isSome_iff_exists.mp named with ⟨name, named⟩
        rcases Option.isSome_iff_exists.mp known with ⟨kind, known⟩
        rw [List.tail_cons] at known
        unfold column
        simp only [named, known]
        exact ⟨_, _, rfl⟩

/-- The reader keeps the type of a column exactly if nothing stands behind the words of a type that
it reads but one modifier, and behind the one of `time` or `timestamp`, `without time zone`. -/
theorem keepsType_iff (cursor : Cursor) : KeepsType cursor ↔
    ((cursor.head?.bind Token.name).isSome = true →
      (kindOf (Str.join " " (typeWords cursor.tail).1)).isSome = true →
        IsTypeEnd (typeWords cursor.tail).1 (behindWords cursor)) := by
  have ahead : NoWordAhead (behindWords cursor) := (takeInside_typeWords cursor.tail).2
  constructor
  · rintro ⟨spelled, -⟩ named known
    rcases (exists_column_iff cursor).mpr ⟨named, known⟩ with ⟨parsed, left, found⟩
    have spelling := spelled parsed left found
    rw [typeTokens_eq] at spelling
    exact (isSpelling_iff (kindOf_column found) ahead).mp spelling
  · intro ends
    refine ⟨fun parsed left found => ?_, fun name left => noted_of_error⟩
    rcases (exists_column_iff cursor).mp ⟨parsed, left, found⟩ with ⟨named, known⟩
    rw [typeTokens_eq]
    exact (isSpelling_iff (kindOf_column found) ahead).mpr (ends named known)

/-- A column of a time stamp with a precision and a time zone. -/
def timestampColumn : Cursor :=
  [.word "a", .word "timestamp", .punct '(', .number "3", .punct ')', .word "with",
    .word "time", .word "zone", .word "not", .word "null", .punct ',']

/-- The time zone is passed over. -/
theorem not_keepsType_timestampColumn : ¬ KeepsType timestampColumn := by
  rintro ⟨spelled, -⟩
  have ⟨found, behind⟩ : column timestampColumn =
        (.ok ⟨"a", ⟨.timestamp, none, none, none⟩, false, false, false, none⟩, [.punct ',']) ∧
      behindWords timestampColumn =
        [.punct '(', .number "3", .punct ')', .word "with", .word "time", .word "zone"] := by
    decide
  have spelling := spelled _ _ found
  rw [typeTokens_eq] at spelling
  have ends :=
    (isSpelling_iff (kindOf_column found) (takeInside_typeWords timestampColumn.tail).2).mp spelling
  change IsTypeEnd _ (behindWords timestampColumn) at ends
  rw [behind] at ends
  rcases ends with empty | numeric | ⟨-, modifier, -, shape⟩
  · cases empty
  · cases numeric
  · have last : .word "without" ∈ behindWords timestampColumn := by
      rw [behind, shape]
      exact List.mem_append_right _ List.mem_cons_self
    revert last
    rw [behind]
    decide

end SchemaForge.Sql
