import SchemaForge.Exchange.CompareMirror
import SchemaForge.Exchange.CompareSound

/-!
# Comparing as a relation

Tables, columns and relationships are taken in turns by those of one name, so what is
matched twice is matched at once: comparing equal is transitive, for all drawings. It can
be turned round exactly where the second drawing equals itself.
-/

namespace SchemaForge.Exchange

theorem same_eq_decide {α : Type} (name : α → Str) (item other : α) :
    same (name other) (name item) =
      decide (Str.toAsciiLowercase (name item) = Str.toAsciiLowercase (name other)) := by
  rw [Bool.eq_iff_iff, Str.eqIgnoreAsciiCase_iff, decide_eq_true_iff, eq_comm]

theorem same_eq_byKey {α : Type} (name : α → Str) :
    (fun left right => same (name right) (name left)) =
      byKey (fun item => Str.toAsciiLowercase (name item)) fun item =>
        Str.toAsciiLowercase (name item) :=
  funext fun left => funext fun right => same_eq_decide name left right

section Trans

variable {first second third : SchemaDraft} {includePositions : Bool}

theorem SameColumn.trans {left middle right : Attribute} (before : SameColumn left middle)
    (after : SameColumn middle right) : SameColumn left right where
  dataType := before.dataType.trans after.dataType
  nullable := before.nullable.trans after.nullable
  default := before.default.trans after.default
  primaryKey := before.primaryKey.trans after.primaryKey
  unique := before.unique.trans after.unique
  description := before.description.trans after.description

theorem SameColumn.symm {left right : Attribute} (alike : SameColumn left right) :
    SameColumn right left where
  dataType := alike.dataType.symm
  nullable := alike.nullable.symm
  default := alike.default.symm
  primaryKey := alike.primaryKey.symm
  unique := alike.unique.symm
  description := alike.description.symm

theorem position_eq_trans {left middle right : Position} (before : left.eq middle = true)
    (after : middle.eq right = true) : left.eq right = true := by
  rw [Position.eq, Bool.and_eq_true] at before after ⊢
  exact ⟨F64.eq_trans before.1 after.1, F64.eq_trans before.2 after.2⟩

theorem SameTable.trans {left middle right : Entity}
    (before : SameTable includePositions left middle)
    (after : SameTable includePositions middle right) : SameTable includePositions left right := by
  have complete := before.complete
  have complete' := after.complete
  have columns := before.columns
  have columns' := after.columns
  simp only [columnMatching, same_eq_byKey] at complete complete' columns columns'
  refine ⟨before.description.trans after.description,
    fun placed => position_eq_trans (before.position placed) (after.position placed), ?_,
    fun attr other mem => ?_⟩
  · rw [columnMatching, same_eq_byKey]
    exact isComplete_byKey_trans complete complete'
  · rw [columnMatching, same_eq_byKey] at mem
    rcases matchUp_byKey_trans complete complete' mem with ⟨between, taken, taken'⟩
    exact (columns _ _ taken).trans (columns' _ _ taken')

theorem SameTable.symm {left right : Entity} (alike : SameTable includePositions left right) :
    SameTable includePositions right left where
  description := alike.description.symm
  position placed := (position_eq_comm _ _).trans (alike.position placed)
  complete := (mirrors_columnMatching left right).isComplete alike.complete
  columns attr other mem :=
    (alike.columns other attr ((mirrors_columnMatching left right).mem mem)).symm

theorem SameLinks.trans (before : SameLinks first second) (after : SameLinks second third) :
    SameLinks first third := by
  have complete := before.complete
  have complete' := after.complete
  have drawn := before.links
  have drawn' := after.links
  simp only [linkMatching, same_eq_byKey] at complete complete' drawn drawn'
  refine ⟨?_, fun link other mem => ?_⟩
  · rw [linkMatching, same_eq_byKey]
    exact isComplete_byKey_trans complete complete'
  · rw [linkMatching, same_eq_byKey] at mem
    rcases matchUp_byKey_trans complete complete' mem with ⟨between, taken, taken'⟩
    rcases drawn _ _ taken with ⟨cardinality, description⟩
    rcases drawn' _ _ taken' with ⟨cardinality', description'⟩
    exact ⟨cardinality'.trans cardinality, description.trans description'⟩

theorem SameLinks.symm (alike : SameLinks first second) : SameLinks second first where
  complete := (mirrors_linkMatching first second).isComplete alike.complete
  links link other mem := by
    rcases alike.links other link ((mirrors_linkMatching first second).mem mem) with
      ⟨cardinality, description⟩
    exact ⟨cardinality.symm, description.symm⟩

/-- Keys that are spelled alike are looked for alike. -/
theorem find?_same {keys : List (Str × Str)} {holder holder' : Str}
    (alike : same holder holder' = true) :
    (keys.find? fun other => same other.1 holder) = keys.find? fun other =>
      same other.1 holder' := by
  congr 1
  funext other
  rw [Bool.eq_iff_iff, Str.eqIgnoreAsciiCase_iff, Str.eqIgnoreAsciiCase_iff,
    Str.eqIgnoreAsciiCase_iff.mp alike]

theorem SameKeys.trans (before : SameKeys first second) (after : SameKeys second third) :
    SameKeys first third where
  found key mem := by
    rcases before.found key mem with ⟨other, found, alike⟩
    have holder : same other.1 key.1 = true := by simpa using List.find?_some found
    rcases after.found other (List.mem_of_find?_eq_some found) with ⟨answer, found', alike'⟩
    rw [find?_same holder] at found'
    exact ⟨answer, found', Str.eqIgnoreAsciiCase_trans alike' alike⟩
  known other mem := by
    rcases after.known other mem with ⟨between, betweenMem, alike'⟩
    rcases before.known between betweenMem with ⟨key, keyMem, alike⟩
    exact ⟨key, keyMem, Str.eqIgnoreAsciiCase_trans alike alike'⟩

/--
Turned round, a key is answered by the first of its spelling, and may not be the one that was asked.
-/
theorem SameKeys.symm (alike : SameKeys first second) (self : SameKeys second second) :
    SameKeys second first where
  found other mem := by
    rcases alike.known other mem with ⟨known, knownMem, holder⟩
    have some_ : ((references first).find? fun key => same key.1 other.1).isSome = true :=
      List.find?_isSome.mpr ⟨known, knownMem, holder⟩
    rcases Option.isSome_iff_exists.mp some_ with ⟨key, found⟩
    have keyHolder : same key.1 other.1 = true := by simpa using List.find?_some found
    rcases alike.found key (List.mem_of_find?_eq_some found) with ⟨answer, answered, target⟩
    have answerHolder : same answer.1 key.1 = true := by simpa using List.find?_some answered
    have told := sameKeys_self_iff.mp self answer (List.mem_of_find?_eq_some answered) other mem
      (Str.eqIgnoreAsciiCase_trans answerHolder keyHolder)
    exact ⟨key, found,
      Str.eqIgnoreAsciiCase_trans ((Str.eqIgnoreAsciiCase_comm _ _).trans target) told⟩
  known key mem := by
    rcases alike.found key mem with ⟨answer, answered, -⟩
    exact ⟨answer, List.mem_of_find?_eq_some answered, by simpa using List.find?_some answered⟩

theorem SameDraft.trans (before : SameDraft includePositions first second)
    (after : SameDraft includePositions second third) : SameDraft includePositions first third := by
  have complete := before.complete
  have complete' := after.complete
  have tables := before.tables
  have tables' := after.tables
  simp only [entityMatching, same_eq_byKey] at complete complete' tables tables'
  refine ⟨?_, fun entity other mem => ?_, before.keys.trans after.keys,
    before.links.trans after.links⟩
  · rw [entityMatching, same_eq_byKey]
    exact isComplete_byKey_trans complete complete'
  · rw [entityMatching, same_eq_byKey] at mem
    rcases matchUp_byKey_trans complete complete' mem with ⟨between, taken, taken'⟩
    exact (tables _ _ taken).trans (tables' _ _ taken')

theorem SameDraft.symm (alike : SameDraft includePositions first second)
    (self : SameKeys second second) :
    SameDraft includePositions second first where
  complete := (mirrors_entityMatching first second).isComplete alike.complete
  tables entity other mem :=
    (alike.tables other entity ((mirrors_entityMatching first second).mem mem)).symm
  keys := alike.keys.symm self
  links := alike.links.symm

/--
Two drawings of which one is equal to a drawing that the other is equal to are equal, and a
comparison that is equal can be turned round exactly where the second drawing is equal to itself.
-/
theorem compare_isEqual_trans (equal : (compare first second includePositions).isEqual = true) :
    ((compare second third includePositions).isEqual = true →
        (compare first third includePositions).isEqual = true) ∧
      ((compare second first includePositions).isEqual = true ↔
        (compare second second includePositions).isEqual = true) := by
  simp only [compare_isEqual_iff] at equal ⊢
  exact ⟨equal.trans, fun back => back.trans equal, fun self => equal.symm self.keys⟩

theorem compare_isEqual_trans_postsDraft :
    (compare (postsDraft "users" ⟨"t", "k"⟩) (postsDraft "USERS" ⟨"t", "k"⟩) false).isEqual = true ∧
      (compare (postsDraft "Users" ⟨"t", "k"⟩) (postsDraft "users" ⟨"t", "k"⟩) false).isEqual =
        true := by
  have equal : (compare (postsDraft "users" ⟨"t", "k"⟩) (postsDraft "Users" ⟨"t", "k"⟩)
      false).isEqual = true := rfl
  have laws := @compare_isEqual_trans _ _ (postsDraft "USERS" ⟨"t", "k"⟩) false equal
  exact ⟨laws.1 rfl, laws.2.mpr rfl⟩

end Trans

end SchemaForge.Exchange
