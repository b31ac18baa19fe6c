import SchemaForge.Repository.Transactions

/-!
# Ids as texts

An id is written as 32 hexadecimal digits in five groups, and reading the text
gives the id back.
-/

namespace SchemaForge.Repository

/-- `Uuid::parse_str` reads what `Uuid::to_string` writes. -/
class UuidText [Postgres] : Prop where
  parse_text : ∀ id, Postgres.parseUuid (Postgres.uuidText id) = some id

/-- The digits of a number, read back, are the number up to the power that they reach. -/
theorem foldl_digits (base number : Nat) : ∀ count,
    ((List.range count).map fun place => number / base ^ (count - 1 - place) % base).foldl
      (fun total digit => base * total + digit) 0 = number % base ^ count
  | 0 => by simp [Nat.mod_one]
  | count + 1 => by
      have higher :
          (List.range count).map (fun place => number / base ^ (count + 1 - 1 - place) % base) =
          (List.range count).map fun place =>
            number / base / base ^ (count - 1 - place) % base := by
        apply List.map_congr_left
        intro place mem
        have less := List.mem_range.mp mem
        rw [Nat.div_div_eq_div_mul, ← Nat.pow_succ', show count + 1 - 1 - place =
          (count - 1 - place).succ by omega]
      rw [List.range_succ, List.map_append, List.foldl_append, higher,
        foldl_digits base (number / base) count]
      simp only [List.map_cons, List.map_nil, List.foldl_cons, List.foldl_nil]
      rw [show count + 1 - 1 - count = 0 by
        omega, Nat.pow_zero, Nat.div_one, Nat.pow_succ', Nat.mod_mul, Nat.add_comm]

/-- The 32 digits of an id. -/
def uuidDigits (id : Uuid) : List Nat :=
  (List.range 32).map fun place => id.toNat / 16 ^ (32 - 1 - place) % 16

theorem digitChar_lower {digit : Nat} (small : digit < 16) :
    ((List.range 16).find? (Nat.digitChar · == (Nat.digitChar digit).toLower)).getD 0 = digit ∧
      (Nat.digitChar digit).toLower = Nat.digitChar digit ∧ Nat.digitChar digit ≠ '-' := by
  revert digit
  decide

/-- The dashes stand between the digits. -/
theorem hyphenated_eq (id : Uuid) : ∃ first second third fourth fifth : List Nat,
    hyphenated id = first.map Nat.digitChar ++ '-' :: second.map Nat.digitChar ++
      '-' :: third.map Nat.digitChar ++ '-' :: fourth.map Nat.digitChar ++ '-' ::
        fifth.map Nat.digitChar ∧
    first ++ second ++ third ++ fourth ++ fifth = uuidDigits id := by
  have same : (List.range 32).map (fun place => Nat.digitChar (id.toNat / 16 ^ (31 - place) % 16)) =
      (uuidDigits id).map Nat.digitChar := by
    rw [uuidDigits, List.map_map]
    rfl
  refine ⟨(uuidDigits id).take 8, ((uuidDigits id).drop 8).take 4, ((uuidDigits id).drop 12).take 4,
    ((uuidDigits id).drop 16).take 4, (uuidDigits id).drop 20, ?_, ?_⟩
  · unfold hyphenated
    rw [same]
    simp only [List.map_take, List.map_drop]
  · have seam (first count : Nat) : ((uuidDigits id).drop first).take count ++ (uuidDigits id).drop
        (first + count) =
        (uuidDigits id).drop first := by
      rw [← List.drop_drop, List.take_append_drop]
    simp only [List.append_assoc, seam 16 4, seam 12 4, seam 8 4, List.take_append_drop]

theorem filter_digits {digits : List Nat} (small : ∀ digit ∈ digits, digit < 16) :
    (digits.map Nat.digitChar).filter (· != '-') = digits.map Nat.digitChar := by
  rw [List.filter_eq_self]
  intro c mem
  rcases List.mem_map.mp mem with ⟨digit, digitMem, rfl⟩
  exact bne_iff_ne.mpr (digitChar_lower (small digit digitMem)).2.2

theorem toLower_digits {digits : List Nat} (small : ∀ digit ∈ digits, digit < 16) :
    (digits.map Nat.digitChar).map Char.toLower = digits.map Nat.digitChar := by
  rw [List.map_map]
  apply List.map_congr_left
  intro digit mem
  exact (digitChar_lower (small digit mem)).2.1

theorem foldl_digitChar {digits : List Nat} (small : ∀ digit ∈ digits, digit < 16) (start : Nat) :
    (digits.map Nat.digitChar).foldl (fun total digit => 16 * total +
      ((List.range 16).find? (Nat.digitChar · == digit.toLower)).getD 0) start =
      digits.foldl (fun total digit => 16 * total + digit) start := by
  induction digits generalizing start with
  | nil => rfl
  | cons digit rest ih =>
      rcases List.forall_mem_cons.mp small with ⟨here, later⟩
      rw [List.map_cons, List.foldl_cons, List.foldl_cons, (digitChar_lower here).1, ih later]

/-- The number that a text with dashes in it spells. -/
def uuidValue (text : Str) : Nat :=
  (text.filter (· != '-')).foldl (fun total digit => 16 * total +
    ((List.range 16).find? (Nat.digitChar · == digit.toLower)).getD 0) 0

theorem lt_of_mem_uuidDigits (id : Uuid) : ∀ digit ∈ uuidDigits id, digit < 16 := by
  intro digit mem
  rcases List.mem_map.mp mem with ⟨place, -, rfl⟩
  exact Nat.mod_lt _ (by decide)

theorem uuidValue_hyphenated (id : Uuid) : uuidValue (hyphenated id) = id.toNat := by
  rcases hyphenated_eq id with ⟨first, second, third, fourth, fifth, text, digits⟩
  have small := lt_of_mem_uuidDigits id
  have bare : (hyphenated id).filter (· != '-') = (uuidDigits id).map Nat.digitChar := by
    have dash (rest : Str) : ('-' :: rest).filter (· != '-') = rest.filter (· != '-') := rfl
    rw [← digits] at small ⊢
    simp only [List.forall_mem_append] at small
    rw [text]
    simp only [List.filter_append, List.map_append, dash, filter_digits small.1.1.1.1,
      filter_digits small.1.1.1.2, filter_digits small.1.1.2, filter_digits small.1.2,
      filter_digits small.2]
  rw [uuidValue, bare, foldl_digitChar small]
  exact (foldl_digits 16 id.toNat 32).trans (Nat.mod_eq_of_lt id.isLt)

theorem toLower_hyphenated (id : Uuid) : (hyphenated id).map Char.toLower = hyphenated id := by
  rcases hyphenated_eq id with ⟨first, second, third, fourth, fifth, text, digits⟩
  have small := lt_of_mem_uuidDigits id
  have dash : '-'.toLower = '-' := rfl
  rw [← digits] at small
  simp only [List.forall_mem_append] at small
  rw [text]
  simp only [List.map_append, List.map_cons, dash, toLower_digits small.1.1.1.1,
    toLower_digits small.1.1.1.2, toLower_digits small.1.1.2, toLower_digits small.1.2,
    toLower_digits small.2]

abbrev asciiUuidText : @UuidText asciiDatabase := by
  let _ := asciiDatabase
  constructor
  intro id
  change (if hyphenated (BitVec.ofNat 128 (uuidValue (hyphenated id))) =
    (hyphenated id).map Char.toLower then
    some (BitVec.ofNat 128 (uuidValue (hyphenated id))) else none) = some id
  rw [uuidValue_hyphenated, toLower_hyphenated, BitVec.ofNat_toNat, BitVec.setWidth_eq, if_pos rfl]

end SchemaForge.Repository
