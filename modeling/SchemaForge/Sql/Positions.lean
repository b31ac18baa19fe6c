import SchemaForge.Sql.ScriptReading
import SchemaForge.Verifier

/-!
# Position lines

The generator writes the place of a table as a comment line above it, and the
scanner reads it back as a layout hint. The line is inert exactly when it is one
line: a name that holds a line feed ends the comment, and what follows the line
feed is read as SQL.
-/

namespace SchemaForge.Sql

open Generator

theorem solid_ofInt (n : Int) : ∀ c ∈ Str.ofInt n, Str.isWhitespace c = false := by
  have digits (m : Nat) : ∀ c ∈ Str.ofNat m, Str.isWhitespace c = false := by
    intro c mem
    have digit := (Str.isDigit_iff c).mp (Str.isDigit_of_mem_ofNat mem)
    rw [Bool.eq_false_iff, ne_eq, Str.isWhitespace_iff_of_small (by omega)]
    omega
  unfold Str.ofInt
  split
  · intro c mem
    rcases List.mem_cons.mp mem with rfl | mem
    · decide
    · exact digits _ c mem
  · exact digits _

theorem ofInt_ne_nil (n : Int) : Str.ofInt n ≠ [] := by
  unfold Str.ofInt
  split
  · simp
  · exact Str.ofNat_ne_nil _

/-- A position line is read as what it says. -/
theorem layoutHint_line {first second : Str} {x y : F64} (name : Str) (firstNonempty : first ≠ [])
    (secondNonempty : second ≠ []) (firstSolid : ∀ c ∈ first, Str.isWhitespace c = false)
    (secondSolid : ∀ c ∈ second, Str.isWhitespace c = false) (firstValue : F64.parse first = some x)
    (secondValue : F64.parse second = some y) :
    layoutHint ("-- @table " ++ quote name ++ " " ++ first ++ " " ++ second) =
      some ⟨Str.trim name, x, y, none⟩ := by
  have untouched {c : Char} (before : Str) (solid : Str.isWhitespace c = false) :
      Str.trim (c :: (before ++ second)) = c :: (before ++ second) := by
    refine Str.trim_eq_self_of_ends (by simpa using solid) fun d mem => ?_
    rw [← List.cons_append, List.getLast?_append_of_ne_nil _ secondNonempty] at mem
    exact secondSolid d (List.mem_of_getLast? mem)
  have body : ("-- @table " ++ quote name ++ " " ++ first ++ " " ++ second).dropWhile (· == '-') =
      ' ' :: '@' :: ("table " ++ quote name ++ " " ++ first ++ " " ++ second) := by
    simp
  have stripped : ("@table" : Str).isPrefixOf?
      ('@' :: ("table " ++ quote name ++ " " ++ first ++ " " ++ second)) =
        some (' ' :: (quote name ++ " " ++ first ++ " " ++ second)) := by
    simp [List.isPrefixOf?]
  have shape : quote name ++ " " ++ first ++ " " ++ second =
      '"' :: (Str.double '"' (Str.trim name) ++ '"' :: (' ' :: (first ++ ' ' :: second))) := by
    simp [quote]
  have numbers : Str.splitWhitespace (' ' :: (first ++ ' ' :: second)) = [first, second] := by
    rw [Str.splitWhitespace_cons (by decide),
      Str.splitWhitespace_append_cons firstNonempty firstSolid (by decide),
      Str.splitWhitespace_of_solid secondNonempty secondSolid]
  have named : Str.trim (quote name ++ " " ++ first ++ " " ++ second) =
      quote name ++ " " ++ first ++ " " ++ second :=
    untouched (Str.double '"' (Str.trim name) ++ "\"" ++ " " ++ first ++ " ") (by decide)
  rw [layoutHint, body, Str.trim_cons _ (by decide), untouched _ (by decide), stripped]
  simp only [Option.bind_eq_bind, Option.bind_some]
  rw [Str.trim_cons _ (by decide), named, shape, hintName,
    splitQuoted_double (Str.trim name) (by simp), Option.bind_some, numbers]
  simp [firstValue, secondValue]

theorem layoutHint_position (entity : Entity) :
    layoutHint (position entity) = some
      ⟨Str.trim entity.name, .ofInt entity.position.x.round.toI64,
        .ofInt entity.position.y.round.toI64, none⟩ :=
  layoutHint_line entity.name (ofInt_ne_nil _) (ofInt_ne_nil _) (solid_ofInt _) (solid_ofInt _)
    (F64.parse_ofInt _) (F64.parse_ofInt _)

/-- The hint that a table's own position line stands for. -/
def positionHint (entity : Entity) (index : Nat) : LayoutHint :=
  ⟨Str.trim entity.name, .ofInt entity.position.x.round.toI64,
    .ofInt entity.position.y.round.toI64, some index⟩

variable [Unicode]

theorem feed_tables (entities : List Entity) (statements : List (List Token))
    (hints : List LayoutHint) :
    (entities.flatMap (tableEvents true)).foldl Reading.feed ⟨statements, hints, []⟩ =
      ⟨statements ++ entities.map createTableTokens,
        hints ++ (entities.zipIdx statements.length).map fun (entity, index) =>
          positionHint entity index, []⟩ := by
  induction entities generalizing statements hints with
  | nil => simp
  | cons entity entities ih =>
      have line : Reading.feed ⟨statements, hints, []⟩ (.line (position entity)) =
          ⟨statements, hints ++ [positionHint entity statements.length], []⟩ := by
        simp only [Reading.feed, layoutHint_position]
        rfl
      rw [List.flatMap_cons, List.foldl_append, tableEvents, if_pos rfl, List.foldl_append,
        List.foldl_cons, List.foldl_nil, line, feed_statement (createTableTokens_ne_nil entity), ih]
      simp

/-- A script with positions is read as the same statements, and as one hint for each table. -/
theorem readingOf_generate_with_positions {schema : Schema} {includeComments : Bool}
    (defaults : ∀ entity ∈ schema.entities, DefaultsSelfContained entity)
    (single : NamesOnOneLine schema) :
    readingOf (generate schema ⟨includeComments, true⟩) =
      ⟨scriptTokens schema includeComments,
        schema.entities.zipIdx.map fun (entity, index) => positionHint entity index, []⟩ := by
  rw [readingOf, lex_generate defaults fun _ => single, List.foldl_append,
    Reading.empty, feed_tables, feed_statements fun tokens mem => tail_ne_nil mem]
  simp [Reading.feed, scriptTokens]

omit [Unicode] in
theorem mem_of_splitQuoted {s name after : Str} (split : splitQuoted s = some (name, after))
    {c : Char} (mem : c ∈ name) : c ∈ s := by
  fun_induction splitQuoted s generalizing name with
  | case1 => simp at split
  | case2 rest ih =>
      obtain ⟨⟨tail, _⟩, found, shape⟩ := Option.map_eq_some_iff.mp split
      simp only [Prod.mk.injEq] at shape
      obtain ⟨rfl, rfl⟩ := shape
      rcases List.mem_cons.mp mem with rfl | mem
      · simp
      · simp [ih found mem]
  | case3 rest =>
      simp only [Option.some.injEq, Prod.mk.injEq] at split
      simp [← split.1] at mem
  | case4 d rest _ _ ih =>
      obtain ⟨⟨tail, _⟩, found, shape⟩ := Option.map_eq_some_iff.mp split
      simp only [Prod.mk.injEq] at shape
      obtain ⟨rfl, rfl⟩ := shape
      rcases List.mem_cons.mp mem with rfl | mem
      · simp
      · simp [ih found mem]

omit [Unicode] in
theorem mem_of_mem_trim {c : Char} {s : Str} (mem : c ∈ Str.trim s) : c ∈ s :=
  (List.dropWhile_sublist _).subset ((List.rdropWhile_prefix _ _).subset mem)

omit [Unicode] in
/-- The table of a hint is a part of its line. -/
theorem mem_of_layoutHint {line : Str} {hint : LayoutHint} (found : layoutHint line = some hint)
    {c : Char} (mem : c ∈ hint.table) : c ∈ line := by
  simp only [layoutHint, Option.bind_eq_bind, Option.bind_eq_some_iff] at found
  obtain ⟨rest, stripped, ⟨table, after⟩, split, found⟩ := found
  have inTrim : c ∈ Str.trim rest := by
    have same : hint.table = table := by
      split at found
      · obtain ⟨x, -, y, -, rfl⟩ := by
          simpa only [Option.bind_eq_some_iff, Option.some.injEq] using found
        rfl
      · contradiction
    rw [same] at mem
    unfold hintName at split
    split at split
    · rename_i quoted shape
      rw [shape]
      exact List.mem_cons_of_mem _ (mem_of_splitQuoted split mem)
    · split at split
      · simp only [Option.some.injEq, Prod.mk.injEq] at split
        rw [← split.1] at mem
        exact (List.takeWhile_sublist _).subset mem
      · contradiction
  have inRest := mem_of_mem_trim inTrim
  obtain ⟨before, joined⟩ : rest <:+ Str.trim (line.dropWhile (· == '-')) := by
    exact ⟨_, List.isPrefixOf?_eq_some_iff_append_eq.mp stripped⟩
  have inBody : c ∈ Str.trim (line.dropWhile (· == '-')) := by
    rw [← joined]
    exact List.mem_append_right _ inRest
  exact (List.dropWhile_sublist _).subset (mem_of_mem_trim inBody)

theorem plainLexeme_ne_line (c : Char) (rest line : Str) :
    (plainLexeme c rest).1 ≠ some (.line line) := by
  unfold plainLexeme
  split_ifs <;> simp

theorem newline_notMem_of_lexeme {c : Char} {rest line : Str}
    (piece : (lexeme c rest).1 = some (.line line)) : '\n' ∉ line := by
  unfold lexeme at piece
  split_ifs at piece with semicolon dashes block single double dollar
  · simp at piece
  · simp only [Option.some.injEq, Event.line.injEq] at piece
    rw [← piece]
    intro mem
    simpa using List.mem_takeWhile_imp mem
  · simp at piece
  · simp at piece
  · split at piece
    · simp at piece
    · exact absurd piece (plainLexeme_ne_line c rest line)
  · exact absurd piece (plainLexeme_ne_line c rest line)

/-- A comment line of a text holds no line feed. -/
theorem newline_notMem_of_line {s line : Str} (mem : .line line ∈ lex s) : '\n' ∉ line := by
  fun_induction lex s with
  | case1 => simp at mem
  | case2 c rest ih =>
      rcases List.mem_append.mp mem with head | tail
      · refine @newline_notMem_of_lexeme _ c rest _ ?_
        simpa using head
      · exact ih tail

omit [Unicode] in
theorem feed_hints {reading : Reading} {event : Event} {hint : LayoutHint}
    (mem : hint ∈ (reading.feed event).hints) :
    hint ∈ reading.hints ∨ ∃ line found, event = .line line ∧ layoutHint line = some found ∧
      hint.table = found.table := by
  cases event with
  | token => exact .inl mem
  | finish =>
      simp only [Reading.feed] at mem
      split at mem
      · exact .inl mem
      · exact .inl mem
  | line line =>
      simp only [Reading.feed] at mem
      split at mem
      · exact .inl mem
      · rename_i found hinted
        rcases List.mem_append.mp mem with old | new
        · exact .inl old
        · rw [List.mem_singleton] at new
          exact .inr ⟨line, found, rfl, hinted, by rw [new]⟩

omit [Unicode] in
theorem newline_notMem_of_hint {events : List Event} {reading : Reading} {hint : LayoutHint}
    (lines : ∀ line, .line line ∈ events → '\n' ∉ line)
    (old : ∀ hint ∈ reading.hints, '\n' ∉ hint.table)
    (mem : hint ∈ (events.foldl Reading.feed reading).hints) : '\n' ∉ hint.table := by
  induction events generalizing reading with
  | nil => exact old hint mem
  | cons event events ih =>
      refine ih (fun line inside => lines line (List.mem_cons_of_mem _ inside)) ?_ mem
      intro hint fed
      rcases feed_hints fed with earlier | ⟨line, found, rfl, hinted, same⟩
      · exact old hint earlier
      · intro newline
        rw [same] at newline
        exact lines line (by simp) (mem_of_layoutHint hinted newline)

/-- Whatever is scanned, the table that a layout hint names is on one line. -/
theorem newline_notMem_of_scan {sql : Str} {hint : LayoutHint} (mem : hint ∈ (scan sql).2) :
    '\n' ∉ hint.table := by
  rw [(scan_reading sql).2, readingOf] at mem
  rcases feed_hints mem with earlier | ⟨_, _, impossible, _⟩
  · exact newline_notMem_of_hint (fun line inside => newline_notMem_of_line inside) (by
      simp [Reading.empty]) earlier
  · contradiction

/-- A hint places a table: it carries the trimmed name, both coordinates and the statement. -/
def Places (coordinate : F64 → F64) (hint : LayoutHint) (table : Entity × Nat) : Prop :=
  hint.table = Str.trim table.1.name ∧ hint.x.eq (coordinate table.1.position.x) = true ∧
    hint.y.eq (coordinate table.1.position.y) = true ∧ hint.above = some table.2

/--
Turning positions on changes no statement, and the hints are one for each table, in order. The
coordinates of a hint are compared as `f64` does with what `coordinate` makes of the table's own.
-/
def PositionsInert (coordinate : F64 → F64) (schema : Schema) (includeComments : Bool) : Prop :=
  (scan (generate schema ⟨includeComments, true⟩)).1.map Statement.tokens =
      (scan (generate schema ⟨includeComments, false⟩)).1.map Statement.tokens ∧
    List.Forall₂ (Places coordinate) (scan (generate schema ⟨includeComments, true⟩)).2
      schema.entities.zipIdx

theorem namesOnOneLine_of_positionsInert {coordinate : F64 → F64} {schema : Schema}
    {includeComments : Bool} (inert : PositionsInert coordinate schema includeComments) :
    NamesOnOneLine schema := by
  intro entity mem newline
  obtain ⟨index, inside, rfl⟩ := List.mem_iff_getElem.mp mem
  have placed := inert.2
  have hinted : index < (scan (generate schema ⟨includeComments, true⟩)).2.length := by
    rw [placed.length_eq, List.length_zipIdx]
    exact inside
  have places := placed.get hinted (by simpa using inside)
  refine newline_notMem_of_scan (List.get_mem _ ⟨index, hinted⟩) ?_
  rw [places.1]
  simpa using newline

theorem positionsInert_iff_of_oneLine {coordinate : F64 → F64} {schema : Schema}
    {includeComments : Bool} (defaults : ∀ entity ∈ schema.entities, DefaultsSelfContained entity)
    (single : NamesOnOneLine schema) :
    PositionsInert coordinate schema includeComments ↔ ∀ entity ∈ schema.entities,
      (F64.ofInt entity.position.x.round.toI64).eq (coordinate entity.position.x) = true ∧
        (F64.ofInt entity.position.y.round.toI64).eq (coordinate entity.position.y) = true := by
  obtain ⟨on, hints⟩ := scan_reading (generate schema ⟨includeComments, true⟩)
  obtain ⟨off, _⟩ := scan_reading (generate schema ⟨includeComments, false⟩)
  rw [PositionsInert, on, off, hints, readingOf_generate_with_positions defaults single,
    readingOf_generate_without_positions defaults]
  simp only [true_and, List.forall₂_map_left_iff, List.forall₂_same]
  constructor
  · intro placed entity mem
    obtain ⟨index, inside, rfl⟩ := List.mem_iff_getElem.mp mem
    have places := placed (schema.entities[index], index) (by
      simp [List.mem_zipIdx_iff_getElem?, inside])
    exact ⟨places.2.1, places.2.2.1⟩
  · intro equal table mem
    have inside := List.fst_mem_of_mem_zipIdx mem
    exact ⟨rfl, (equal _ inside).1, (equal _ inside).2, rfl⟩

/--
In a schema without default values, position lines are inert exactly when no table name spans lines.
The coordinates that are read back are those the generator writes, that is the rounded coordinates
as an `i64`; they are the rounded coordinates themselves exactly when none is a `NaN` or exceeds `2
^ 63` in magnitude. The script is read by `scan`, for which a comment ends at a line feed; for
PostgreSQL it also ends at a carriage return (`isLineBreak`).
-/
theorem positionsInert_iff {schema : Schema} {includeComments : Bool}
    (plain : ∀ entity ∈ schema.entities, ∀ attr ∈ entity.attributes, attr.defaultValue = none) :
    (PositionsInert (fun x => .ofInt x.round.toI64) schema includeComments ↔
        ∀ entity ∈ schema.entities, '\n' ∉ Str.trim entity.name) ∧
      (PositionsInert F64.round schema includeComments ↔
        ∀ entity ∈ schema.entities, '\n' ∉ Str.trim entity.name ∧
          entity.position.x.fitsI64 = true ∧ entity.position.y.fitsI64 = true) := by
  have defaults (entity : Entity) (mem : entity ∈ schema.entities) :=
    defaultsSelfContained_of_none (plain entity mem)
  refine ⟨⟨namesOnOneLine_of_positionsInert, fun single => ?_⟩, ⟨fun inert => ?_, fun fine => ?_⟩⟩
  · rw [positionsInert_iff_of_oneLine defaults single]
    exact fun entity _ => ⟨F64.eq_self_of_not_nan (F64.isNan_ofInt _),
      F64.eq_self_of_not_nan (F64.isNan_ofInt _)⟩
  · have single := namesOnOneLine_of_positionsInert inert
    rw [positionsInert_iff_of_oneLine defaults single] at inert
    intro entity mem
    rw [← F64.eq_ofInt_toI64_round_iff, ← F64.eq_ofInt_toI64_round_iff]
    exact ⟨single entity mem, inert entity mem⟩
  · rw [positionsInert_iff_of_oneLine defaults fun entity mem => (fine entity mem).1]
    intro entity mem
    rw [F64.eq_ofInt_toI64_round_iff, F64.eq_ofInt_toI64_round_iff]
    exact (fine entity mem).2

/-- One table of one column, under any name. -/
def tableNamed (name : Str) : Schema where
  id := "s"
  name := "canvas"
  description := []
  entities :=
    [{ Entity.new "t" name with
        attributes :=
          [{ Attribute.new "a" "id" ⟨.integer, none, none, none⟩ with
              nullable := false, primaryKey := true, unique := true }]
        position := ⟨.ofInt 120, .ofInt (-40)⟩ }]
  relationships := []

omit [Unicode] in
theorem positionsInert_users :
    @PositionsInert Unicode.ascii (fun x => .ofInt x.round.toI64) (tableNamed "users") true ∧
      @PositionsInert Unicode.ascii F64.round (tableNamed "users") true := by
  obtain ⟨written, rounded⟩ :=
    @positionsInert_iff Unicode.ascii (tableNamed "users") true (by decide)
  exact ⟨written.mpr (by decide), rounded.mpr (by decide +kernel)⟩

omit [Unicode] in
/-- A name the verifier accepts, whose position line ends early and leaves a statement behind. -/
theorem not_positionsInert_newline :
    @Verifier.IsValid Unicode.ascii (tableNamed "x\nDROP TABLE y; --") ∧
      (∀ entity ∈ (tableNamed "x\nDROP TABLE y; --").entities, ∀ attr ∈ entity.attributes,
        attr.defaultValue = none) ∧
      [Token.word "drop", .word "table", .word "y"] ∈ (@scan Unicode.ascii
        (generate (tableNamed "x\nDROP TABLE y; --") ⟨true, true⟩)).1.map Statement.tokens ∧
      ¬@PositionsInert Unicode.ascii (fun x => .ofInt x.round.toI64)
        (tableNamed "x\nDROP TABLE y; --") true ∧
      ¬@PositionsInert Unicode.ascii F64.round (tableNamed "x\nDROP TABLE y; --") true := by
  have changed : (@scan Unicode.ascii
        (generate (tableNamed "x\nDROP TABLE y; --") ⟨true, true⟩)).1.map Statement.tokens ≠
      (@scan Unicode.ascii
        (generate (tableNamed "x\nDROP TABLE y; --") ⟨true, false⟩)).1.map Statement.tokens := by
    decide +kernel
  exact ⟨by decide +kernel, by decide, by decide +kernel, fun inert => changed inert.1,
    fun inert => changed inert.1⟩

end SchemaForge.Sql
