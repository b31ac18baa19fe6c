import SchemaForge.Foundation.Strings

/-!
# Binary64 numbers

This file models `f64`. Every finite binary64 number is a whole multiple of
`2 ^ -1074`, the smallest positive subnormal, so a magnitude is stored as that
multiple. A multiple is representable when it stays below `2 ^ 1024` and the
bits below its leading 53 are zero; the type carries this as an invariant, so a
value that no `f64` can hold cannot be written down.

Rounding is to nearest, ties to even, as for `str::parse` and for the product of
two numbers. The main facts are that rounding keeps every representable value
(`roundMagnitude_of_isMagnitude`) and hence that a rounded number printed through
`i64` is read back unchanged when an `i64` holds it (`eq_ofInt_toI64_round_iff`).
-/

namespace SchemaForge

namespace F64

/-- The number `1` in multiples of `2 ^ -1074`. -/
@[irreducible]
def unit : Nat := 2 ^ 1074

/-- The number `2 ^ 1024`, too large for a finite value, in multiples of `2 ^ -1074`. -/
@[irreducible]
def overflow : Nat := 2 ^ 2098

/-- The multiples of `2 ^ -1074` that are magnitudes of finite binary64 numbers. -/
def IsMagnitude (n : Nat) : Prop := n < overflow ∧ 2 ^ (n.log2 - 52) ∣ n

instance (n : Nat) : Decidable (IsMagnitude n) := inferInstanceAs (Decidable (_ ∧ _))

end F64

/-- `f64`, with one `NaN`. -/
inductive F64 where
  | nan
  | infinite (negative : Bool)
  | finite (negative : Bool) (magnitude : { n : Nat // F64.IsMagnitude n })
deriving DecidableEq

namespace F64

/-- The whole number nearest to `num / den`, ties to even. -/
def roundEven (num den : Nat) : Nat :=
  if den < 2 * (num % den) ∨ (2 * (num % den) = den ∧ num / den % 2 = 1) then num / den + 1
  else num / den

/-- The 53-bit multiple nearest to `num / den`, ties to even. -/
def roundMagnitude (num den : Nat) : Nat :=
  roundEven num (den * 2 ^ ((num / den).log2 - 52)) * 2 ^ ((num / den).log2 - 52)

theorem two_pow_log2_dvd_of_le {k s : Nat} (bound : k ≤ 2 ^ 53) :
    2 ^ ((k * 2 ^ s).log2 - 52) ∣ k * 2 ^ s := by
  rcases Nat.eq_zero_or_pos k with rfl | positive
  · simp
  · rcases Nat.lt_or_eq_of_le bound with small | rfl
    · have nonzero : k * 2 ^ s ≠ 0 := by positivity
      have size : (k * 2 ^ s).log2 < 53 + s := by
        rw [Nat.log2_lt nonzero, Nat.pow_add]
        exact Nat.mul_lt_mul_of_pos_right small (by positivity)
      exact (Nat.pow_dvd_pow 2 (by omega)).trans (Nat.dvd_mul_left _ _)
    · rw [← Nat.pow_add, Nat.log2_two_pow]
      exact Nat.pow_dvd_pow 2 (by omega)

theorem roundEven_le (num den : Nat) : roundEven num den ≤ num / den + 1 := by
  unfold roundEven
  split <;> omega

theorem two_pow_log2_dvd_roundMagnitude (num den : Nat) :
    2 ^ ((roundMagnitude num den).log2 - 52) ∣ roundMagnitude num den := by
  apply two_pow_log2_dvd_of_le
  have small : num / (den * 2 ^ ((num / den).log2 - 52)) < 2 ^ 53 := by
    rw [← Nat.div_div_eq_div_mul]
    apply Nat.div_lt_of_lt_mul
    rw [← Nat.pow_add]
    exact Nat.lt_log2_self.trans_le (Nat.pow_le_pow_right (by decide) (by omega))
  have := roundEven_le num (den * 2 ^ ((num / den).log2 - 52))
  omega

/-- The binary64 number nearest to `num / den` multiples of `2 ^ -1074`. -/
def nearest (negative : Bool) (num den : Nat) : F64 :=
  if bound : roundMagnitude num den < overflow then
    .finite negative ⟨roundMagnitude num den, bound, two_pow_log2_dvd_roundMagnitude num den⟩
  else .infinite negative

/-- A conversion `as f64` from an integer. -/
def ofInt (n : Int) : F64 := nearest (n < 0) (n.natAbs * unit) 1

/-- The operator `*`. -/
def mul : F64 → F64 → F64
  | .nan, _ => .nan
  | _, .nan => .nan
  | .infinite left, .infinite right => .infinite (left ^^ right)
  | .infinite left, .finite right magnitude =>
      if magnitude.val = 0 then .nan else .infinite (left ^^ right)
  | .finite left magnitude, .infinite right =>
      if magnitude.val = 0 then .nan else .infinite (left ^^ right)
  | .finite left first, .finite right second =>
      nearest (left ^^ right) (first.val * second.val) unit

/-- The operator `==`. -/
def eq : F64 → F64 → Bool
  | .infinite left, .infinite right => left == right
  | .finite left first, .finite right second =>
      first.val == second.val && (left == right || first.val == 0)
  | _, _ => false

/-- `f64::is_nan`. -/
def isNan : F64 → Bool
  | .nan => true
  | _ => false

/-- `f64::is_finite`. -/
def isFinite : F64 → Bool
  | .finite _ _ => true
  | _ => false

/-- A whole number of magnitude at most `bound`. -/
def isWholeUpTo (bound : Nat) : F64 → Bool
  | .finite _ magnitude => magnitude.val % unit == 0 && magnitude.val ≤ bound * unit
  | _ => false

/-- A number of magnitude at most `2 ^ 63`. -/
def fitsI64 : F64 → Bool
  | .finite _ magnitude => magnitude.val ≤ 2 ^ 63 * unit
  | _ => false

theorem unit_pos : 0 < unit := by decide +kernel

theorem isMagnitude_mul_unit {k : Nat} (bound : k ≤ 2 ^ 53) : IsMagnitude (k * unit) := by
  refine ⟨?_, by unfold unit; exact two_pow_log2_dvd_of_le bound⟩
  calc k * unit ≤ 2 ^ 53 * unit := Nat.mul_le_mul_right _ bound
    _ < overflow := by decide +kernel

/-- From `2 ^ 52` on there are no fractional bits left. -/
theorem unit_dvd_of_le {n : Nat} (representable : IsMagnitude n) (large : 2 ^ 52 * unit ≤ n) :
    unit ∣ n := by
  have nonzero : n ≠ 0 := by
    have : 0 < 2 ^ 52 * unit := Nat.mul_pos (by decide) unit_pos
    omega
  have size : 1126 ≤ n.log2 := by
    rw [Nat.le_log2 nonzero]
    exact le_trans (by decide +kernel) large
  have bits : 1074 ≤ n.log2 - 52 := by omega
  unfold unit
  exact Nat.dvd_trans (Nat.pow_dvd_pow 2 bits) representable.2

theorem mul_unit_add_half_div (k : Nat) : (k * unit + unit / 2) / unit = k := by
  rw [Nat.mul_comm, Nat.mul_add_div unit_pos, Nat.div_eq_of_lt (by decide +kernel), Nat.add_zero]

theorem isMagnitude_round {n : Nat} (representable : IsMagnitude n) :
    IsMagnitude ((n + unit / 2) / unit * unit) := by
  by_cases large : 2 ^ 52 * unit ≤ n
  · obtain ⟨k, multiple⟩ := unit_dvd_of_le representable large
    have fixed : (n + unit / 2) / unit * unit = n := by
      rw [multiple, Nat.mul_comm unit k, mul_unit_add_half_div]
    rwa [fixed]
  · apply isMagnitude_mul_unit
    have small : n + unit / 2 < 2 ^ 53 * unit := by omega
    exact (Nat.div_lt_of_lt_mul (by rwa [Nat.mul_comm])).le

/-- `f64::round`: to the nearest whole number, ties away from zero. -/
def round : F64 → F64
  | .finite negative magnitude =>
      .finite negative ⟨_, isMagnitude_round magnitude.property⟩
  | x => x

/-- A conversion `as i64`: truncating, saturating, and `0` for a `NaN`. -/
def toI64 : F64 → Int
  | .nan => 0
  | .infinite negative => if negative then -2 ^ 63 else 2 ^ 63 - 1
  | .finite negative magnitude =>
      let whole := magnitude.val / unit
      if negative then max (-whole) (-2 ^ 63) else min whole (2 ^ 63 - 1)

/-- The exponent of a decimal numeral, after the letter `e`. -/
def parseExponent (s : Str) : Option Int :=
  let (negative, digits) := match s with
    | '-' :: rest => (true, rest)
    | '+' :: rest => (false, rest)
    | _ => (false, s)
  if digits.isEmpty || !digits.all Char.isDigit then none
  else some (if negative then -Str.digitsValue digits else Str.digitsValue digits)

/-- The value `digits * 10 ^ exponent`. -/
def ofDecimal (negative : Bool) (digits : Nat) (exponent : Int) : F64 :=
  nearest negative (digits * 10 ^ exponent.toNat * unit) (10 ^ (-exponent).toNat)

/-- A decimal numeral without its sign. -/
def parseNumber (negative : Bool) (s : Str) : Option F64 :=
  let whole := s.takeWhile Char.isDigit
  let (fraction, rest) : Str × Str := match s.dropWhile Char.isDigit with
    | '.' :: rest => (rest.takeWhile Char.isDigit, rest.dropWhile Char.isDigit)
    | rest => ([], rest)
  if whole.isEmpty && fraction.isEmpty then none
  else
    let digits := Str.digitsValue (whole ++ fraction)
    match rest with
    | [] => some (ofDecimal negative digits (-fraction.length))
    | c :: rest =>
        if c.toLower = 'e' then
          (parseExponent rest).map fun exponent =>
            ofDecimal negative digits (exponent - fraction.length)
        else none

/-- A number without its sign: a word for a special value, or a decimal numeral. -/
def parseUnsigned (negative : Bool) (s : Str) : Option F64 :=
  let spelling := Str.toAsciiLowercase s
  if spelling = "inf".toList ∨ spelling = "infinity".toList then some (.infinite negative)
  else if spelling = "nan".toList then some .nan
  else parseNumber negative s

/-- `str::parse::<f64>`. -/
def parse (s : Str) : Option F64 :=
  match s with
  | '-' :: rest => parseUnsigned true rest
  | '+' :: rest => parseUnsigned false rest
  | _ => parseUnsigned false s

/-- The position of the first significant decimal digit, counted from the decimal point. -/
def decimalExponent (magnitude : Nat) : Int :=
  if unit ≤ magnitude then (Str.ofNat (magnitude / unit)).length
  else 1 - (Str.ofNat ((unit - 1) / magnitude)).length

/--
The closest numeral of `count` significant digits that reads back as `magnitude`, as a number and
the power of ten it is multiplied by.
-/
def decimalOfCount (magnitude count : Nat) : Option (Nat × Int) :=
  let exponent := decimalExponent magnitude - count
  let num := magnitude * 10 ^ (-exponent).toNat
  let den := unit * 10 ^ exponent.toNat
  let readsBack (digits : Nat) : Bool :=
    roundMagnitude (digits * 10 ^ exponent.toNat * unit) (10 ^ (-exponent).toNat) == magnitude
  let below := num / den
  match readsBack below, readsBack (below + 1) with
  | true, true => some (if den ≤ 2 * (num % den) then below + 1 else below, exponent)
  | true, false => some (below, exponent)
  | false, true => some (below + 1, exponent)
  | false, false => none

/-- A number times a power of ten, written without an exponent. -/
def plainDecimal (digits : Nat) (exponent : Int) : Str :=
  if 0 ≤ exponent then Str.ofNat (digits * 10 ^ exponent.toNat)
  else
    let scale := 10 ^ (-exponent).toNat
    let fraction := (Str.ofNat (digits % scale + scale)).tail.rdropWhile (· == '0')
    Str.ofNat (digits / scale) ++ if fraction.isEmpty then [] else '.' :: fraction

/-- `Display`: the shortest numeral that reads back as the number. -/
def display : F64 → Str
  | .nan => "NaN"
  | .infinite negative => if negative then "-inf" else "inf"
  | .finite negative magnitude =>
      let digits : Str :=
        if magnitude.val = 0 then "0"
        else
          -- Seventeen significant digits always suffice.
          match (List.range' 1 17).findSome? (decimalOfCount magnitude.val) with
          | some (number, exponent) => plainDecimal number exponent
          | none => []
      if negative then '-' :: digits else digits

theorem roundEven_mul_left {k den : Nat} (positive : 0 < den) : roundEven (k * den) den = k := by
  simp [roundEven, Nat.mul_div_cancel k positive, positive.ne]

theorem roundMagnitude_of_isMagnitude {n den : Nat} (representable : IsMagnitude n)
    (positive : 0 < den) : roundMagnitude (n * den) den = n := by
  obtain ⟨k, multiple⟩ := representable.2
  have regroup : n * den = k * (den * 2 ^ (n.log2 - 52)) := by
    nth_rewrite 1 [multiple]
    ring
  have quotient : n * den / den = n := Nat.mul_div_cancel n positive
  rw [roundMagnitude, quotient, regroup, roundEven_mul_left (by positivity), Nat.mul_comm]
  exact multiple.symm

theorem nearest_of_isMagnitude {n den : Nat} (representable : IsMagnitude n) (positive : 0 < den)
    (negative : Bool) : nearest negative (n * den) den = .finite negative ⟨n, representable⟩ := by
  have exact := roundMagnitude_of_isMagnitude representable positive
  unfold nearest
  simp only [exact, representable.1, ↓reduceDIte]

theorem ofInt_of_isMagnitude {n : Int} (representable : IsMagnitude (n.natAbs * unit)) :
    ofInt n = .finite (n < 0) ⟨n.natAbs * unit, representable⟩ := by
  have := nearest_of_isMagnitude representable Nat.one_pos (decide (n < 0))
  rwa [Nat.mul_one] at this

theorem toLower_of_isDigit {c : Char} (digit : c.isDigit = true) : c.toLower = c := by
  rw [Char.isDigit_iff_toNat] at digit
  rcases Str.toLower_cases c with same | ⟨lower, _, _⟩
  · exact same
  · have : '9'.toNat = 57 := rfl
    omega

theorem parseNumber_ofNat (negative : Bool) (n : Nat) :
    parseNumber negative (Str.ofNat n) = some (nearest negative (n * unit) 1) := by
  have digits : ∀ c ∈ Str.ofNat n, c.isDigit = true := fun c mem => Str.isDigit_of_mem_ofNat mem
  have whole : (Str.ofNat n).takeWhile Char.isDigit = Str.ofNat n :=
    List.takeWhile_eq_self_iff.mpr digits
  have rest : (Str.ofNat n).dropWhile Char.isDigit = [] := List.dropWhile_eq_nil_iff.mpr digits
  simp [parseNumber, whole, rest, Str.ofNat_ne_nil, ofDecimal]

/-- A numeral starts with a digit, so it is none of the words for special values. -/
theorem toAsciiLowercase_ofNat_ne (n : Nat) (word : Str)
    (letter : (word.head?.all fun c => !c.isDigit) = true) :
    Str.toAsciiLowercase (Str.ofNat n) ≠ word := by
  rintro rfl
  rcases shape : Str.ofNat n with _ | ⟨c, rest⟩
  · exact Str.ofNat_ne_nil n shape
  · have digit : c.isDigit = true := Str.isDigit_of_mem_ofNat (n := n) (by simp [shape])
    rw [shape] at letter
    simp [Str.toAsciiLowercase, toLower_of_isDigit digit, digit] at letter

theorem parseUnsigned_ofNat (negative : Bool) (n : Nat) :
    parseUnsigned negative (Str.ofNat n) = some (nearest negative (n * unit) 1) := by
  rw [parseUnsigned, if_neg, if_neg, parseNumber_ofNat]
  · exact toAsciiLowercase_ofNat_ne n "nan" (by decide)
  · rintro (inf | infinity)
    · exact toAsciiLowercase_ofNat_ne n "inf" (by decide) inf
    · exact toAsciiLowercase_ofNat_ne n "infinity" (by decide) infinity

theorem parse_ofNat (n : Nat) : parse (Str.ofNat n) = parseUnsigned false (Str.ofNat n) := by
  rw [parse]
  · intro rest shape
    have := Str.isDigit_of_mem_ofNat (n := n) (c := '-') (by simp [shape])
    exact absurd this (by decide)
  · intro rest shape
    have := Str.isDigit_of_mem_ofNat (n := n) (c := '+') (by simp [shape])
    exact absurd this (by decide)

/-- A printed integer is read as the number nearest to it. -/
theorem parse_ofInt (n : Int) : parse (Str.ofInt n) = some (ofInt n) := by
  by_cases negative : n < 0
  · simp only [Str.ofInt, negative, if_true, parse, parseUnsigned_ofNat, ofInt, decide_true]
  · simp only [Str.ofInt, negative, if_false, parse_ofNat, parseUnsigned_ofNat, ofInt,
      decide_false]

theorem eq_comm (x y : F64) : x.eq y = y.eq x := by
  cases x <;> cases y <;> try rfl
  · exact Bool.beq_comm
  · rename_i left first right second
    rw [eq, eq, Bool.beq_comm (a := first.val), Bool.beq_comm (a := left)]
    by_cases same : first.val = second.val
    · rw [same]
    · rw [beq_eq_false_iff_ne.mpr (Ne.symm same), Bool.false_and, Bool.false_and]

theorem eq_self_of_not_nan {x : F64} (number : x.isNan = false) : x.eq x = true := by
  cases x <;> simp_all [eq, isNan]

theorem isNan_ofInt (n : Int) : (ofInt n).isNan = false := by
  unfold ofInt nearest
  split <;> rfl

theorem eq_trans {x y z : F64} (left : x.eq y = true) (right : y.eq z = true) :
    x.eq z = true := by
  cases x <;> cases y <;> cases z <;> simp_all [eq]
  grind

theorem round_eq_self_of_isWholeUpTo {bound : Nat} {x : F64}
    (whole : x.isWholeUpTo bound = true) : x.round = x := by
  cases x with
  | nan => rfl
  | infinite negative => rfl
  | finite negative magnitude =>
      obtain ⟨n, representable⟩ := magnitude
      simp only [isWholeUpTo, Bool.and_eq_true, beq_iff_eq] at whole
      obtain ⟨k, multiple⟩ := Nat.dvd_of_mod_eq_zero whole.1
      have fixed : (n + unit / 2) / unit * unit = n := by
        rw [multiple, Nat.mul_comm unit k, mul_unit_add_half_div]
      simp only [round, fixed]

theorem round_le_iff {n : Nat} (representable : IsMagnitude n) :
    (n + unit / 2) / unit ≤ 2 ^ 63 ↔ n ≤ 2 ^ 63 * unit := by
  have positive := unit_pos
  constructor
  · intro small
    by_contra large
    obtain ⟨k, multiple⟩ := unit_dvd_of_le representable (by omega)
    rw [multiple, Nat.mul_comm unit k, mul_unit_add_half_div] at small
    rw [multiple, Nat.mul_comm] at large
    exact large (Nat.mul_le_mul_right _ small)
  · intro small
    calc (n + unit / 2) / unit ≤ (2 ^ 63 * unit + unit / 2) / unit :=
          Nat.div_le_div_right (by omega)
      _ = 2 ^ 63 := mul_unit_add_half_div _

theorem ofInt_max : ofInt (2 ^ 63 - 1) = .finite false ⟨2 ^ 63 * unit, by decide +kernel⟩ := by
  decide +kernel

theorem ofInt_min : ofInt (-2 ^ 63) = .finite true ⟨2 ^ 63 * unit, by decide +kernel⟩ := by
  decide +kernel

theorem eq_ofInt {n : Int} {k : Nat} {negative : Bool} (representable : IsMagnitude (k * unit))
    (value : n.natAbs = k) (sign : k ≠ 0 → decide (n < 0) = negative) :
    (ofInt n).eq (.finite negative ⟨k * unit, representable⟩) = true := by
  subst value
  rw [ofInt_of_isMagnitude representable]
  by_cases zero : n.natAbs = 0
  · simp [eq, zero]
  · simp [eq, sign zero]

theorem eq_ofInt_toI64_iff {k : Nat} {negative : Bool} (representable : IsMagnitude (k * unit)) :
    (ofInt (toI64 (.finite negative ⟨k * unit, representable⟩))).eq
        (.finite negative ⟨k * unit, representable⟩) = true ↔ k ≤ 2 ^ 63 := by
  have injective : 2 ^ 63 * unit = k * unit ↔ 2 ^ 63 = k := Nat.mul_left_inj unit_pos.ne'
  simp only [toI64, Nat.mul_div_cancel k unit_pos]
  by_cases small : k ≤ 2 ^ 63
  · simp only [small, iff_true]
    cases negative
    · rcases Nat.lt_or_eq_of_le small with less | same
      · rw [if_neg (by decide), min_eq_left (by omega)]
        exact eq_ofInt representable (by omega) (by simp)
      · -- `i64::MAX` is not representable, and the nearest number is the one written.
        rw [if_neg (by decide), min_eq_right (by omega), ofInt_max]
        simp only [eq, Bool.and_eq_true, beq_iff_eq, injective]
        simp [same]
    · rw [if_pos rfl, max_eq_left (by omega)]
      exact eq_ofInt representable (by omega) (by simp; omega)
  · simp only [small, iff_false]
    cases negative
    · rw [if_neg (by decide), min_eq_right (by omega), ofInt_max]
      simp only [eq, Bool.and_eq_true, beq_iff_eq, injective]
      omega
    · rw [if_pos rfl, max_eq_right (by omega), ofInt_min]
      simp only [eq, Bool.and_eq_true, beq_iff_eq, injective]
      omega

/--
A rounded number, written as an `i64` and read back, is unchanged exactly when it does not exceed
`2 ^ 63` in magnitude.
-/
theorem eq_ofInt_toI64_round_iff (x : F64) :
    (ofInt x.round.toI64).eq x.round = true ↔ x.fitsI64 = true := by
  cases x with
  | nan => simp [round, fitsI64, eq]
  | infinite negative =>
      cases negative
      · rw [show ofInt (toI64 (round (infinite false))) = _ from ofInt_max]
        simp [round, fitsI64, eq]
      · rw [show ofInt (toI64 (round (infinite true))) = _ from ofInt_min]
        simp [round, fitsI64, eq]
  | finite negative magnitude =>
      rw [round, eq_ofInt_toI64_iff, round_le_iff magnitude.property]
      simp [fitsI64]

theorem fitsI64_of_isWholeUpTo {x : F64} (whole : x.isWholeUpTo (2 ^ 53) = true) :
    x.fitsI64 = true := by
  cases x with
  | nan => simp [isWholeUpTo] at whole
  | infinite negative => simp [isWholeUpTo] at whole
  | finite negative magnitude =>
      simp only [isWholeUpTo, Bool.and_eq_true, decide_eq_true_eq] at whole
      simp only [fitsI64, decide_eq_true_eq]
      exact whole.2.trans (Nat.mul_le_mul_right _ (by decide))

end F64

end SchemaForge
