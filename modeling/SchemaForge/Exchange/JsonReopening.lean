import SchemaForge.Exchange.JsonRefusals
import SchemaForge.Inward

/-!
# Files that are saved again

What a file was opened as is a drawing that files carry: saved and opened again, any
number of times, it stays what it is. So reading a file puts it into a normal form.
-/

namespace SchemaForge

namespace F64

theorem roundMagnitude_le (num den : Nat) : roundMagnitude num den ≤ 2 * (num / den) + 1 := by
  have scale : 2 ^ ((num / den).log2 - 52) ≤ num / den + 1 := by
    rcases Nat.eq_zero_or_pos (num / den) with zero | some
    · rw [zero]
      decide
    · refine Nat.le_succ_of_le
        (Nat.le_trans (Nat.pow_le_pow_right (by decide) (Nat.sub_le _ 52)) ?_)
      exact Nat.log2_self_le (by omega)
  have quotient : num / (den * 2 ^ ((num / den).log2 - 52)) * 2 ^ ((num / den).log2 - 52) ≤
      num / den := by
    rw [← Nat.div_div_eq_div_mul]
    exact Nat.div_mul_le_self _ _
  have rounded := Nat.mul_le_mul_right (2 ^ ((num / den).log2 - 52))
    (roundEven_le num (den * 2 ^ ((num / den).log2 - 52)))
  rw [Nat.add_mul, Nat.one_mul] at rounded
  unfold roundMagnitude
  omega

/-- Rounding at most doubles, so below `2 ^ 1022` it cannot overflow. -/
theorem exists_nearest {num den exponent : Nat} (small : exponent < 1022)
    (bound : num / den ≤ 2 ^ exponent * unit) (negative : Bool) :
    ∃ magnitude, nearest negative num den = .finite negative magnitude ∧
      magnitude.val ≤ 2 ^ (exponent + 2) * unit := by
  have room : 2 ^ (exponent + 2) * unit < overflow := by
    have below (c d : Nat) (less : exponent + 2 + c < d) : 2 ^ (exponent + 2) * 2 ^ c < 2 ^ d := by
      rw [← Nat.pow_add]
      exact Nat.pow_lt_pow_right (by decide) less
    unfold unit overflow
    exact below _ _ (by omega)
  have least : 0 < 2 ^ exponent * unit := Nat.mul_pos (Nat.pow_pos (by decide)) unit_pos
  have rounded := roundMagnitude_le num den
  have regroup : 2 ^ (exponent + 2) * unit = 4 * (2 ^ exponent * unit) := by ring
  rw [nearest, dif_pos (by omega)]
  exact ⟨_, rfl, by dsimp only; omega⟩

theorem exists_ofInt {n : Int} (small : n.natAbs ≤ 2 ^ 64) :
    ∃ magnitude, ofInt n = .finite (n < 0) magnitude ∧ magnitude.val ≤ 2 ^ 66 * unit := by
  refine @exists_nearest _ 1 64 (by decide) ?_ _
  rw [Nat.div_one]
  exact Nat.mul_le_mul_right unit small

theorem isFinite_ofInt {n : Int} (small : n.natAbs ≤ 2 ^ 64) : (ofInt n).isFinite = true := by
  rcases exists_ofInt small with ⟨_, found, -⟩
  rw [found]
  rfl

theorem isFinite_mul_ofInt {n k : Int} (small : n.natAbs ≤ 2 ^ 64) (factor : k.natAbs ≤ 2 ^ 53) :
    ((ofInt n).mul (ofInt k)).isFinite = true := by
  rcases exists_ofInt small with ⟨magnitude, found, bound⟩
  have product : magnitude.val * (k.natAbs * unit) / unit ≤ 2 ^ (66 + 53) * unit := by
    rw [← Nat.mul_assoc, Nat.mul_div_cancel _ unit_pos, Nat.pow_add, Nat.mul_right_comm]
    exact Nat.mul_le_mul bound factor
  rw [found, ofInt_of_isMagnitude (isMagnitude_mul_unit factor)]
  rcases exists_nearest (by decide) product (decide (n < 0) ^^ decide (k < 0)) with ⟨_, last, -⟩
  rw [mul, last]
  rfl

end F64

namespace Exchange.Json

open SchemaForge.Json

variable {uuid : Element → Str} {document : Value} {includePositions : Bool} {draft : SchemaDraft}

/-- What is drawn for an element is an id as the reader keeps them. -/
def DrawsPlainIds (uuid : Element → Str) : Prop := ∀ element, IsPlainId (freshId uuid element)

theorem drawsPlainIds_one : DrawsPlainIds fun _ => "1".toList := by
  intro element
  cases element with
  | entity => exact (by decide : IsPlainId ('e' :: "1".toList))
  | attr => exact (by decide : IsPlainId ('a' :: "1".toList))
  | relationship => exact (by decide : IsPlainId ('r' :: "1".toList))

theorem isPlainId_identity {source : Fields} {key fresh : Str} (plain : IsPlainId fresh) :
    IsPlainId (identity source key fresh) := by
  unfold identity
  split
  · rename_i c rest given
    rcases Option.map_eq_some_iff.mp given with ⟨id, -, same⟩
    refine ⟨List.cons_ne_nil _ _, ?_⟩
    rw [← same, Str.trim_trim]
  · exact plain

theorem isPlainId_attributeFrom (plain : DrawsPlainIds uuid) {element : Element}
    {value : Value} {path : Str} {attr : Attribute}
    (read : attributeFrom uuid element value path = .ok attr) : IsPlainId attr.id := by
  rcases attributeOf_of_attributeFrom read with ⟨source, -, parts⟩
  rw [parts.id]
  exact isPlainId_identity (plain element)

theorem isPlainId_entityFrom (plain : DrawsPlainIds uuid) {index : Nat} {value : Value}
    {entity : Entity} (read : entityFrom uuid includePositions index value = .ok entity) :
    IsPlainId entity.id ∧ ∀ attr ∈ entity.attributes, IsPlainId attr.id := by
  rcases entityOf_of_entityFrom read with ⟨source, -, parts⟩
  constructor
  · rw [parts.id]
    exact isPlainId_identity (plain _)
  · intro attr mem
    rcases exists_of_attributesFrom parts.attributes mem with ⟨_, _, _, readAttr⟩
    exact isPlainId_attributeFrom plain readAttr

theorem exists_of_checkEnd {entities : List Entity} {path key id : Str}
    (checked : checkEnd entities path key id = .ok ()) : ∃ entity ∈ entities, entity.id = id := by
  by_contra missing
  rcases checkEnd_of_not_exists missing path key with ⟨error, refused⟩
  cases checked.symm.trans refused

theorem endsAmong_relationshipFrom (plain : DrawsPlainIds uuid) {entities : List Entity}
    {index : Nat} {value : Value} {link : Relationship}
    (read : relationshipFrom uuid entities index value = .ok link) :
    IsPlainId link.id ∧ EndsAmong entities link := by
  rcases relationshipOf_of_relationshipFrom read with ⟨source, -, parts⟩
  rw [parts.id]
  exact ⟨isPlainId_identity (plain _), exists_of_checkEnd parts.start,
    exists_of_checkEnd parts.stop⟩

/-- What a file is opened as: its ids are plain, and its lines end on its tables. -/
theorem plainIds_of_read (plain : DrawsPlainIds uuid)
    (opened : read uuid document includePositions = .ok draft) :
    (∀ entity ∈ draft.entities, IsPlainId entity.id ∧ ∀ attr ∈ entity.attributes,
      IsPlainId attr.id) ∧
      ∀ link ∈ draft.relationships, IsPlainId link.id ∧ EndsAmong draft.entities link := by
  rcases draftOf_of_read opened with ⟨root, -, parts⟩
  constructor
  · intro entity mem
    rcases parts.exists_of_mem_entities mem with ⟨_, -, _, readEntity⟩
    exact isPlainId_entityFrom plain readEntity
  · intro link mem
    rcases parts.exists_of_mem_relationships mem with ⟨_, _, readLink⟩
    exact endsAmong_relationshipFrom plain readLink

def IsPlaced (position : Position) : Prop := position.x.isFinite = true ∧ position.y.isFinite = true

theorem isFinite_asF64 {value : Value} {x : F64} (given : value.asF64 = some x) :
    x.isFinite = true := by
  cases value with
  | number number =>
      cases number with
      | posInt whole =>
          rcases Option.some.inj given
          have := whole.toNat_lt
          exact F64.isFinite_ofInt (by omega)
      | negInt whole =>
          rcases Option.some.inj given
          have below := whole.le_toInt
          have above := whole.toInt_lt
          exact F64.isFinite_ofInt (by omega)
      | float fraction =>
          rcases Option.some.inj given
          exact fraction.property
  | _ => cases given

theorem isFinite_coordinate {parent : Fields} {key path : Str} {x : F64}
    (read : coordinate parent key path = .ok x) :
    x.isFinite = true := by
  have zero : (F64.ofInt 0).isFinite = true := F64.isFinite_ofInt (by decide)
  unfold coordinate at read
  split at read
  · rcases Except.ok.inj read
    exact zero
  · rcases Except.ok.inj read
    exact zero
  · split at read
    · rename_i given
      rcases Except.ok.inj read
      exact isFinite_asF64 given
    · cases read

/-- A place in the grid, for every index that a `usize` can hold. -/
theorem isPlaced_gridSlot {index : Nat} (small : index < 2 ^ 64) : IsPlaced (gridSlot index) := by
  have across : index % gridColumns < 4 := Nat.mod_lt _ (by decide)
  have down : index / gridColumns ≤ index := Nat.div_le_self _ _
  refine ⟨F64.isFinite_mul_ofInt ?_ (by decide), F64.isFinite_mul_ofInt ?_ (by decide)⟩
  · rw [Int.natAbs_natCast]
    omega
  · rw [Int.natAbs_natCast]
    omega

theorem isPlaced_entityFrom {index : Nat} (small : index < 2 ^ 64) {value : Value} {entity : Entity}
    (read : entityFrom uuid includePositions index value = .ok entity) :
    IsPlaced entity.position := by
  rcases entityOf_of_entityFrom read with ⟨source, -, parts⟩
  rcases cases_of_positionFrom parts.position with slot | ⟨members, first, second⟩
  · rw [slot]
    exact isPlaced_gridSlot small
  · exact ⟨isFinite_coordinate first, isFinite_coordinate second⟩

theorem isPlaced_of_read (opened : read uuid document includePositions = .ok draft)
    (few : draft.entities.length ≤ 2 ^ 64) :
    ∀ entity ∈ draft.entities, IsPlaced entity.position := by
  rcases draftOf_of_read opened with ⟨root, -, parts⟩
  intro entity mem
  rcases parts.exists_of_mem_entities mem with ⟨index, inside, value, readEntity⟩
  exact isPlaced_entityFrom (by omega) readEntity

/--
The drawings that files are opened as are exactly the drawings that files carry: saved and opened
again, whatever ids are drawn then, each of them comes back field for field, and so does no other.
-/
theorem opened_iff_reopened {draft : SchemaDraft} (few : draft.entities.length ≤ 2 ^ 64) :
    (∃ uuid document includePositions, DrawsPlainIds uuid ∧
      read uuid document includePositions = .ok draft) ↔
      ∀ uuid id, read uuid (write (.new id draft) true) true = .ok draft := by
  constructor
  · rintro ⟨drawn, document, includePositions, plain, opened⟩ uuid id
    have sound := isSound_of_json opened
    have placed := isPlaced_of_read opened few
    rcases plainIds_of_read plain opened with ⟨tables, lines⟩
    have same : reopened uuid true true (.new id draft) = draft := by
      refine (@reopened_eq_draft_iff uuid (.new id draft) placed).mpr ⟨fun entity mem =>
        ?_, fun link mem => ?_⟩
      · refine ⟨(tables entity mem).1, fun attr attrMem => ⟨(tables entity mem).2 attr attrMem, ?_⟩⟩
        exact sound entity mem attr attrMem
      · exact (lines link mem).1
    rw [read_write_ok, same]
    intro link mem
    rw [same]
    exact (lines link mem).2
  · intro kept
    exact ⟨fun _ => "1".toList, _, true, drawsPlainIds_one, kept _ []⟩

/-- A table written by hand: no ids, no place, and a column with the defaults. -/
def handwritten : Value :=
  .object [("name", .string "library"),
    ("entities", .array [.object [("name", .string "authors"),
      ("attributes", .array [.object [("name", .string "id"),
        ("dataType", .object [("kind", .string "uuid")]), ("primaryKey", .bool true)]])]])]

/-- The drawing it is opened as, and as which it is kept from then on. -/
def handwrittenDraft : SchemaDraft where
  name := "library"
  description := []
  entities :=
    [{ id := "e1"
       name := "authors"
       description := []
       attributes :=
         [{ Attribute.new "a1" "id" ⟨.uuid, none, none, none⟩ with
           nullable := false, primaryKey := true }]
       position := gridSlot 0 }]
  relationships := []

theorem opened_iff_reopened_handwritten :
    read (fun _ => "2".toList) (write (.new "s" handwrittenDraft) true) true =
      .ok handwrittenDraft := by
  have few : handwrittenDraft.entities.length ≤ 2 ^ 64 := by decide
  have opened : read (fun _ => "1".toList) handwritten true = .ok handwrittenDraft := by
    decide +kernel
  exact (opened_iff_reopened few).mp ⟨fun _ => "1".toList, handwritten, true,
    drawsPlainIds_one, opened⟩ _ _

end Exchange.Json

end SchemaForge
