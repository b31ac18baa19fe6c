import Mathlib

/-!
# Strings of Unicode scalar values

A Rust `String` is modelled by the list of its characters. This file collects
the standard-library operations that the program applies to strings, together
with the facts the later developments use: how trimming interacts with ASCII
case, how decimal numerals are printed and read back, and how a string is cut
at its last separator.

Character classes whose tables are part of the Unicode database, and not of
ASCII, are the parameters of the class `Unicode`. Its laws say what those
tables contain below `U+0080`, which is all the program relies on.
-/

namespace SchemaForge

/-- A string, as the sequence of its characters. -/
abbrev Str := List Char

instance : Coe String Str := ⟨String.toList⟩

namespace Str

/-- `char::is_whitespace`: the characters with the property `White_Space`. -/
def isWhitespace (c : Char) : Bool :=
  (9 ≤ c.toNat && c.toNat ≤ 13) || c.toNat == 0x20 || c.toNat == 0x85 || c.toNat == 0xA0 ||
    c.toNat == 0x1680 || (0x2000 ≤ c.toNat && c.toNat ≤ 0x200A) || c.toNat == 0x2028 ||
    c.toNat == 0x2029 || c.toNat == 0x202F || c.toNat == 0x205F || c.toNat == 0x3000

/-- `str::trim_start`. -/
def trimStart (s : Str) : Str := s.dropWhile isWhitespace

/-- `str::trim_end`. -/
def trimEnd (s : Str) : Str := s.rdropWhile isWhitespace

/-- `str::trim`. -/
def trim (s : Str) : Str := trimEnd (trimStart s)

/-- `str::to_ascii_lowercase`; `Char.toLower` changes ASCII letters only. -/
def toAsciiLowercase (s : Str) : Str := s.map Char.toLower

/-- `str::to_ascii_uppercase`. -/
def toAsciiUppercase (s : Str) : Str := s.map Char.toUpper

/-- `str::eq_ignore_ascii_case`. -/
def eqIgnoreAsciiCase (left right : Str) : Bool :=
  toAsciiLowercase left == toAsciiLowercase right

/-- `str::replace` of a character by the string that holds it twice. -/
def double (c : Char) (s : Str) : Str := s.flatMap fun d => if d = c then [c, c] else [d]

/-- `[T]::join`. -/
def join (separator : Str) (pieces : List Str) : Str := separator.intercalate pieces

/-- `str::split_whitespace`: the maximal runs of characters that are not white space. -/
def splitWhitespace (s : Str) : List Str :=
  (s.splitOnP isWhitespace).filter fun piece => !piece.isEmpty

/-- `str::rsplit_once` on a character. -/
def rsplitOnce (separator : Char) (s : Str) : Option (Str × Str) :=
  match s.reverse.dropWhile (· != separator) with
  | [] => none
  | _ :: before => some (before.reverse, s.rtakeWhile (· != separator))

/-- `str::split_once` on a character. -/
def splitOnce (separator : Char) (s : Str) : Option (Str × Str) :=
  match s.span (· != separator) with
  | (_, []) => none
  | (before, _ :: after) => some (before, after)

/-- `str::contains` of a string. -/
def containsStr (part s : Str) : Bool := s.tails.any part.isPrefixOf

/-- The first piece that `str::rsplit` on a character yields. -/
def rsplitFirst (separator : Char) (s : Str) : Str := s.rtakeWhile (· != separator)

/-- `str::len`: the length of the UTF-8 form. -/
def utf8Length (s : Str) : Nat := (s.map Char.utf8Size).sum

/-- `Display` of an unsigned integer. -/
def ofNat (n : Nat) : Str := Nat.toDigits 10 n

/-- `Display` of a signed integer. -/
def ofInt (n : Int) : Str := if n < 0 then '-' :: ofNat n.natAbs else ofNat n.natAbs

/-- The value of a run of decimal digits, most significant first. -/
def digitsValue (s : Str) : Nat := Nat.ofDigitChars 10 s 0

/-- `str::parse::<u32>`. -/
def parseU32 (s : Str) : Option UInt32 :=
  let digits := match s with
    | '+' :: rest => rest
    | _ => s
  if digits.isEmpty || !digits.all Char.isDigit then none
  else if digitsValue digits < 2 ^ 32 then some (UInt32.ofNat (digitsValue digits)) else none

/-- `str::parse` of a signed integer that lies between two bounds. -/
def parseInt (least greatest : Int) (s : Str) : Option Int :=
  let (negative, digits) := match s with
    | '-' :: rest => (true, rest)
    | '+' :: rest => (false, rest)
    | _ => (false, s)
  if digits.isEmpty || !digits.all Char.isDigit then none
  else
    let value : Int := if negative then -digitsValue digits else digitsValue digits
    if least ≤ value ∧ value ≤ greatest then some value else none

/-- `str::parse::<i32>`. -/
def parseI32 (s : Str) : Option Int := parseInt (-2 ^ 31) (2 ^ 31 - 1) s

/-- `str::parse::<i64>`. -/
def parseI64 (s : Str) : Option Int64 := (parseInt (-2 ^ 63) (2 ^ 63 - 1) s).map Int64.ofInt

theorem double_injective {c : Char} : Function.Injective (double c) := by
  intro left
  induction left with
  | nil =>
      intro right same
      cases right with
      | nil => rfl
      | cons d right =>
          have longer := congrArg List.length same
          simp only [double, List.flatMap_nil, List.flatMap_cons, List.length_nil,
            List.length_append] at longer
          split at longer
          · simp only [List.length_cons] at longer
            omega
          · simp only [List.length_cons] at longer
            omega
  | cons d left ih =>
      intro right same
      cases right with
      | nil =>
          have longer := congrArg List.length same
          simp only [double, List.flatMap_nil, List.flatMap_cons, List.length_nil,
            List.length_append] at longer
          split at longer
          · simp only [List.length_cons] at longer
            omega
          · simp only [List.length_cons] at longer
            omega
      | cons e right =>
          simp only [double, List.flatMap_cons] at same ih
          split at same
          · rename_i here
            split at same
            · rename_i here'
              rw [here, here', ih (List.append_cancel_left same)]
            · rename_i other
              simp only [List.cons_append, List.nil_append, List.cons.injEq] at same
              exact absurd same.1.symm other
          · rename_i other
            split at same
            · simp only [List.cons_append, List.nil_append, List.cons.injEq] at same
              exact absurd same.1 other
            · simp only [List.cons_append, List.nil_append, List.cons.injEq] at same
              rw [same.1, ih same.2]

theorem toLower_cases (c : Char) :
    c.toLower = c ∨
      (65 ≤ c.toNat ∧ c.toNat ≤ 90 ∧ c.toLower.toNat = c.toNat + 32) := by
  by_cases upper : c.val ≥ 'A'.val ∧ c.val ≤ 'Z'.val
  · right
    have lower : 65 ≤ c.toNat := UInt32.le_iff_toNat_le.mp upper.1
    have bound : c.toNat ≤ 90 := UInt32.le_iff_toNat_le.mp upper.2
    refine ⟨lower, bound, ?_⟩
    have value : c.toLower.val = c.val + ('a'.val - 'A'.val) := by
      simp only [Char.toLower, upper, and_self, ↓reduceDIte]
    have shifted : c.toLower.toNat = (c.val + ('a'.val - 'A'.val)).toNat := by
      rw [← value]
      rfl
    rw [shifted, UInt32.toNat_add]
    have : c.val.toNat = c.toNat := rfl
    have : ('a'.val - 'A'.val).toNat = 32 := by decide
    omega
  · left
    simp only [Char.toLower, upper, ↓reduceDIte]

theorem isAlpha_iff (c : Char) : c.isAlpha = true ↔
    (65 ≤ c.toNat ∧ c.toNat ≤ 90) ∨ (97 ≤ c.toNat ∧ c.toNat ≤ 122) := by
  simp only [Char.isAlpha, Char.isUpper, Char.isLower, Bool.or_eq_true, Bool.and_eq_true,
    decide_eq_true_eq]
  exact Iff.rfl

theorem isDigit_iff (c : Char) : c.isDigit = true ↔ 48 ≤ c.toNat ∧ c.toNat ≤ 57 := by
  simp only [Char.isDigit, Bool.and_eq_true, decide_eq_true_eq]
  exact Iff.rfl

theorem isWhitespace_iff_of_small {c : Char} (small : c.toNat < 128) :
    isWhitespace c = true ↔ (9 ≤ c.toNat ∧ c.toNat ≤ 13) ∨ c.toNat = 32 := by
  simp only [isWhitespace, Bool.or_eq_true, Bool.and_eq_true, decide_eq_true_eq, beq_iff_eq]
  omega

/-- Characters that agree up to ASCII case are equal or are two spellings of one ASCII letter. -/
theorem eq_or_letters_of_toLower_eq {c d : Char} (same : c.toLower = d.toLower) :
    c = d ∨ (c.toNat < 128 ∧ d.toNat < 128 ∧ c.isAlpha = true ∧ d.isAlpha = true) := by
  have value : c.toLower.toNat = d.toLower.toNat := by rw [same]
  rw [isAlpha_iff, isAlpha_iff, ← Char.toNat_inj]
  rcases toLower_cases c with left | ⟨_, _, left⟩ <;>
    rcases toLower_cases d with right | ⟨_, _, right⟩ <;>
    simp only [left, right] at value <;> omega

theorem toLower_of_not_isAlpha {c : Char} (mark : c.isAlpha = false) : c.toLower = c := by
  rcases toLower_cases c with same | ⟨lower, upper, -⟩
  · exact same
  · rw [Bool.eq_false_iff, ne_eq, isAlpha_iff] at mark
    omega

theorem isWhitespace_toLower (c : Char) : isWhitespace c.toLower = isWhitespace c := by
  rcases toLower_cases c with same | ⟨lower, upper, value⟩
  · rw [same]
  · have left : isWhitespace c.toLower = false := by
      simp only [isWhitespace, value, Bool.or_eq_false_iff, Bool.and_eq_false_iff,
        decide_eq_false_iff_not, beq_eq_false_iff_ne]
      omega
    have right : isWhitespace c = false := by
      simp only [isWhitespace, Bool.or_eq_false_iff, Bool.and_eq_false_iff,
        decide_eq_false_iff_not, beq_eq_false_iff_ne]
      omega
    rw [left, right]

theorem eqIgnoreAsciiCase_iff {left right : Str} :
    eqIgnoreAsciiCase left right = true ↔ toAsciiLowercase left = toAsciiLowercase right := by
  simp [eqIgnoreAsciiCase]

@[simp]
theorem eqIgnoreAsciiCase_refl (s : Str) : eqIgnoreAsciiCase s s = true := by
  simp [eqIgnoreAsciiCase]

theorem eqIgnoreAsciiCase_comm (left right : Str) :
    eqIgnoreAsciiCase left right = eqIgnoreAsciiCase right left := by
  simp only [eqIgnoreAsciiCase]
  exact Bool.beq_comm

theorem eqIgnoreAsciiCase_trans {first second third : Str}
    (left : eqIgnoreAsciiCase first second = true)
    (right : eqIgnoreAsciiCase second third = true) :
    eqIgnoreAsciiCase first third = true := by
  rw [eqIgnoreAsciiCase_iff] at *
  exact left.trans right

@[simp]
theorem toAsciiLowercase_append (left right : Str) :
    toAsciiLowercase (left ++ right) = toAsciiLowercase left ++ toAsciiLowercase right := by
  simp [toAsciiLowercase]

theorem trim_eq_self_of_ends {s : Str} (start : ∀ c ∈ s.head?, isWhitespace c = false)
    (stop : ∀ c ∈ s.getLast?, isWhitespace c = false) : trim s = s := by
  have started : trimStart s = s := by
    cases s with
    | nil => rfl
    | cons c rest => simp [trimStart, start c (by simp)]
  rw [trim, started, trimEnd, List.rdropWhile_eq_self_iff]
  intro nonempty
  simp [stop _ (List.getLast?_eq_getLast_of_ne_nil nonempty)]

/-- The same, with both ends given as a test that can be run. -/
theorem trim_eq_self_of_all {s : Str}
    (ends : (s.head?.all (!isWhitespace ·) && s.getLast?.all (!isWhitespace ·)) = true) :
    trim s = s := by
  rw [Bool.and_eq_true] at ends
  refine trim_eq_self_of_ends (fun c mem => ?_) fun c mem => ?_
  · have solid := ends.1
    rw [mem] at solid
    simpa using solid
  · have solid := ends.2
    rw [mem] at solid
    simpa using solid

theorem isWhitespace_getLast?_trim {s : Str} {c : Char} (ends : c ∈ (trim s).getLast?) :
    isWhitespace c = false := by
  have nonempty : trim s ≠ [] := by
    rintro empty
    rw [empty] at ends
    cases ends
  rw [List.getLast?_eq_some_getLast nonempty] at ends
  rw [← Option.some.inj ends]
  exact Bool.not_eq_true _ ▸ List.rdropWhile_last_not isWhitespace (trimStart s) nonempty

theorem trim_cons {c : Char} (s : Str) (space : isWhitespace c = true) :
    trim (c :: s) = trim s := by
  simp [trim, trimStart, space]

/-- A string with a solid character in front is not blank. -/
theorem trim_cons_ne_nil {c : Char} (rest : Str) (solid : isWhitespace c = false) :
    trim (c :: rest) ≠ [] := by
  rw [trim, trimStart, List.dropWhile_cons_of_neg (by simp [solid]), trimEnd, ne_eq,
    List.rdropWhile_eq_nil_iff]
  simp [solid]

theorem trimEnd_trimStart (s : Str) :
    trimStart (trimEnd (trimStart s)) = trimEnd (trimStart s) := by
  rcases ending : trimEnd (trimStart s) with _ | ⟨c, rest⟩
  · rfl
  · -- The first character survives trimming at the end, so it already survived at the start.
    obtain ⟨dropped, split⟩ : trimEnd (trimStart s) <+: trimStart s :=
      List.rdropWhile_prefix _ _
    rw [ending] at split
    have kept : isWhitespace c = false := by
      have := List.head?_dropWhile_not isWhitespace s
      rw [show s.dropWhile isWhitespace = trimStart s from rfl, ← split] at this
      simpa using this
    simp [trimStart, kept]

@[simp]
theorem trim_trim (s : Str) : trim (trim s) = trim s := by
  rw [trim, trim, trimEnd_trimStart, trimEnd, trimEnd, List.rdropWhile_idempotent]

theorem map_toLower_dropWhile (s : Str) :
    (s.dropWhile isWhitespace).map Char.toLower = (s.map Char.toLower).dropWhile isWhitespace := by
  have agree : isWhitespace ∘ Char.toLower = isWhitespace := funext isWhitespace_toLower
  rw [List.dropWhile_map, agree]

theorem toAsciiLowercase_trim (s : Str) :
    toAsciiLowercase (trim s) = trim (toAsciiLowercase s) := by
  simp only [toAsciiLowercase, trim, trimEnd, trimStart, List.rdropWhile, List.map_reverse,
    map_toLower_dropWhile]

theorem ofNat_ne_nil (n : Nat) : ofNat n ≠ [] := Nat.toDigits_ne_nil

theorem isDigit_of_mem_ofNat {n : Nat} {c : Char} (mem : c ∈ ofNat n) : c.isDigit :=
  Nat.isDigit_of_mem_toDigits (by decide) (by decide) mem

@[simp]
theorem digitsValue_ofNat (n : Nat) : digitsValue (ofNat n) = n := Nat.ofDigitChars_ten_toDigits

theorem parseU32_ofNat (n : UInt32) : parseU32 (ofNat n.toNat) = some n := by
  have digits : (ofNat n.toNat).all Char.isDigit = true := by
    simpa using fun c mem => isDigit_of_mem_ofNat (c := c) mem
  have unsigned :
      (match ofNat n.toNat with | '+' :: rest => rest | _ => ofNat n.toNat) = ofNat n.toNat := by
    split
    · rename_i rest shape
      have := isDigit_of_mem_ofNat (n := n.toNat) (c := '+') (by simp [shape])
      exact absurd this (by decide)
    · rfl
  simp only [parseU32, unsigned, digits, digitsValue_ofNat, n.toNat_lt, UInt32.ofNat_toNat]
  simp [ofNat_ne_nil]

theorem rtakeWhile_append_cons {separator : Char} {before after : Str}
    (free : separator ∉ after) :
    (before ++ separator :: after).rtakeWhile (· != separator) = after := by
  have keep : ∀ c ∈ after.reverse, (c != separator) = true := by
    intro c mem
    have : c ≠ separator := by
      rintro rfl
      exact free (List.mem_reverse.mp mem)
    simpa using this
  simp [List.rtakeWhile, List.takeWhile_append_of_pos keep]

theorem rsplitOnce_append {separator : Char} {before after : Str} (free : separator ∉ after) :
    rsplitOnce separator (before ++ separator :: after) = some (before, after) := by
  have keep : ∀ c ∈ after.reverse, (c != separator) = true := by
    intro c mem
    have : c ≠ separator := by
      rintro rfl
      exact free (List.mem_reverse.mp mem)
    simpa using this
  simp [rsplitOnce, rtakeWhile_append_cons free, List.dropWhile_append_of_pos keep]

/-- A string that holds the separator comes apart at the last one. -/
theorem rsplitOnce_of_mem {separator : Char} {s : Str} (mem : separator ∈ s) :
    rsplitOnce separator s =
      some ((s.reverse.dropWhile (· != separator)).tail.reverse, rsplitFirst separator s) := by
  rw [rsplitOnce]
  cases split : s.reverse.dropWhile (· != separator) with
  | nil =>
      have passed := List.dropWhile_eq_nil_iff.mp split separator (List.mem_reverse.mpr mem)
      simp at passed
  | cons c before => rfl

theorem notMem_rsplitFirst (separator : Char) (s : Str) : separator ∉ rsplitFirst separator s := by
  intro mem
  have passed := List.mem_rtakeWhile_imp mem
  simp at passed

theorem notMem_toAsciiLowercase {separator : Char} (mark : separator.isAlpha = false) {s : Str}
    (free : separator ∉ s) : separator ∉ toAsciiLowercase s := by
  intro mem
  obtain ⟨c, found, lowered⟩ := List.mem_map.mp mem
  rcases eq_or_letters_of_toLower_eq (lowered.trans (toLower_of_not_isAlpha mark).symm) with
    rfl | ⟨-, -, -, letter⟩
  · exact free found
  · simp [mark] at letter

/-- Names around a last separator are alike, up to ASCII case, when the whole is. -/
theorem eqIgnoreAsciiCase_of_append {separator : Char} (mark : separator.isAlpha = false)
    {left left' right right' : Str} (free : separator ∉ right) (free' : separator ∉ right')
    (alike : eqIgnoreAsciiCase (left ++ separator :: right) (left' ++ separator :: right') = true) :
    eqIgnoreAsciiCase left left' = true ∧ eqIgnoreAsciiCase right right' = true := by
  rw [eqIgnoreAsciiCase_iff, toAsciiLowercase_append, toAsciiLowercase_append] at alike
  have split := congrArg (rsplitOnce separator.toLower) alike
  have lowered (s : Str) :
      toAsciiLowercase (separator :: s) = separator.toLower :: toAsciiLowercase s := rfl
  rw [lowered, lowered, toLower_of_not_isAlpha mark,
    rsplitOnce_append (notMem_toAsciiLowercase mark free),
    rsplitOnce_append (notMem_toAsciiLowercase mark free')] at split
  rw [Option.some.injEq, Prod.mk.injEq] at split
  exact ⟨eqIgnoreAsciiCase_iff.mpr split.1, eqIgnoreAsciiCase_iff.mpr split.2⟩

theorem splitWhitespace_cons {c : Char} {s : Str} (space : isWhitespace c = true) :
    splitWhitespace (c :: s) = splitWhitespace s := by
  simp [splitWhitespace, List.splitOnP_cons_eq_if_modifyHead, space]

theorem splitWhitespace_append_cons {piece rest : Str} {c : Char} (nonempty : piece ≠ [])
    (solid : ∀ d ∈ piece, isWhitespace d = false) (space : isWhitespace c = true) :
    splitWhitespace (piece ++ c :: rest) = piece :: splitWhitespace rest := by
  simp [splitWhitespace, List.splitOnP_append_cons_of_forall_mem solid c space, nonempty]

theorem splitWhitespace_of_solid {piece : Str} (nonempty : piece ≠ [])
    (solid : ∀ d ∈ piece, isWhitespace d = false) : splitWhitespace piece = [piece] := by
  simp [splitWhitespace, List.splitOnP_eq_singleton solid, nonempty]

end Str

/--
The tables of the Unicode character database that the standard library consults. The laws fix
their contents on ASCII, and say that no character vanishes in lower case.
-/
class Unicode where
  /-- `char::is_alphabetic`. -/
  isAlphabetic : Char → Bool
  /-- `char::is_numeric`. -/
  isNumeric : Char → Bool
  /-- `char::to_lowercase`. -/
  toLowercase : Char → Str
  /-- The property `Cased`. -/
  isCased : Char → Bool
  /-- The property `Case_Ignorable`. -/
  isCaseIgnorable : Char → Bool
  toLowercase_ne_nil : ∀ c : Char, toLowercase c ≠ []
  /-- No letter becomes a blank. -/
  blank_of_mem_toLowercase : ∀ c : Char, ' ' ∈ toLowercase c → c = ' '
  isAlphabetic_ascii : ∀ c : Char, c.toNat < 128 → isAlphabetic c = c.isAlpha
  isNumeric_ascii : ∀ c : Char, c.toNat < 128 → isNumeric c = c.isDigit
  toLowercase_ascii : ∀ c : Char, c.toNat < 128 → toLowercase c = [c.toLower]
  isCased_ascii : ∀ c : Char, c.toNat < 128 → isCased c = c.isAlpha
  isCaseIgnorable_ascii : ∀ c : Char, c.toNat < 128 →
    isCaseIgnorable c = (['\'', '.', ':', '^', '\x60'] : Str).contains c

namespace Unicode

theorem eq_blank_of_toLower {c : Char} (lowered : c.toLower = ' ') : c = ' ' := by
  rcases Str.eq_or_letters_of_toLower_eq (show c.toLower = (' ').toLower from lowered) with
    same | ⟨-, -, -, letter⟩
  · exact same
  · cases letter

/-- The tables restricted to ASCII, where they agree with the full database. -/
@[reducible]
def ascii : Unicode where
  isAlphabetic := Char.isAlpha
  isNumeric := Char.isDigit
  toLowercase c := [c.toLower]
  isCased := Char.isAlpha
  isCaseIgnorable := (['\'', '.', ':', '^', '\x60'] : Str).contains
  toLowercase_ne_nil _ := by simp
  blank_of_mem_toLowercase c blank := eq_blank_of_toLower (List.mem_singleton.mp blank).symm
  isAlphabetic_ascii _ _ := rfl
  isNumeric_ascii _ _ := rfl
  toLowercase_ascii _ _ := rfl
  isCased_ascii _ _ := rfl
  isCaseIgnorable_ascii _ _ := rfl

end Unicode

namespace Str

variable [Unicode]

/-- `char::is_alphanumeric`. -/
def isAlphanumeric (c : Char) : Bool := Unicode.isAlphabetic c || Unicode.isNumeric c

/-- Whether the first character that is not case-ignorable is cased. -/
def caseIgnorableThenCased (s : Str) : Bool :=
  match s.dropWhile Unicode.isCaseIgnorable with
  | [] => false
  | c :: _ => Unicode.isCased c

/-- `str::to_lowercase` of the second argument, after the reversed context `before`. -/
def toLowercaseAfter (before : Str) : Str → Str
  | [] => []
  | c :: rest =>
    let lowered : Str :=
      if c = 'Σ' then
        -- A capital sigma that ends a word has a lower-case form of its own.
        if caseIgnorableThenCased before && !caseIgnorableThenCased rest then ['ς'] else ['σ']
      else Unicode.toLowercase c
    lowered ++ toLowercaseAfter (c :: before) rest

/-- `str::to_lowercase`. -/
def toLowercase (s : Str) : Str := toLowercaseAfter [] s

theorem isCaseIgnorable_eq_of_letter {c : Char} (small : c.toNat < 128)
    (letter : c.isAlpha = true) : Unicode.isCaseIgnorable c = false := by
  rw [Unicode.isCaseIgnorable_ascii c small, Bool.eq_false_iff]
  intro found
  simp only [List.contains_eq_mem, List.mem_cons, List.not_mem_nil, or_false,
    decide_eq_true_eq] at found
  rcases found with rfl | rfl | rfl | rfl | rfl <;> exact absurd letter (by decide)

theorem caseIgnorableThenCased_congr {left right : Str}
    (same : left.map Char.toLower = right.map Char.toLower) :
    caseIgnorableThenCased left = caseIgnorableThenCased right := by
  induction left generalizing right with
  | nil =>
      rw [List.map_nil, eq_comm, List.map_eq_nil_iff] at same
      rw [same]
  | cons c left ih =>
      obtain ⟨d, right, rfl, head, tail⟩ := List.map_eq_cons_iff.mp same.symm
      rcases eq_or_letters_of_toLower_eq head.symm with rfl | ⟨cSmall, dSmall, cLetter, dLetter⟩
      · have rest := ih tail.symm
        simp only [caseIgnorableThenCased, List.dropWhile_cons] at rest ⊢
        by_cases ignorable : Unicode.isCaseIgnorable c = true
        · simpa only [ignorable, if_true] using rest
        · simp only [ignorable, if_false, Bool.false_eq_true]
      · simp [caseIgnorableThenCased, isCaseIgnorable_eq_of_letter cSmall cLetter,
          isCaseIgnorable_eq_of_letter dSmall dLetter, Unicode.isCased_ascii, cSmall, dSmall,
          cLetter, dLetter]

theorem toLowercaseAfter_congr {left right leftBefore rightBefore : Str}
    (before : leftBefore.map Char.toLower = rightBefore.map Char.toLower)
    (same : left.map Char.toLower = right.map Char.toLower) :
    toLowercaseAfter leftBefore left = toLowercaseAfter rightBefore right := by
  induction left generalizing right leftBefore rightBefore with
  | nil =>
      rw [List.map_nil, eq_comm, List.map_eq_nil_iff] at same
      rw [same]
      rfl
  | cons c left ih =>
      obtain ⟨d, right, rfl, head, tail⟩ := List.map_eq_cons_iff.mp same.symm
      have rest : toLowercaseAfter (c :: leftBefore) left =
          toLowercaseAfter (d :: rightBefore) right :=
        ih (by simp [before, head]) tail.symm
      rcases eq_or_letters_of_toLower_eq head.symm with rfl | ⟨cSmall, dSmall, _, _⟩
      · simp only [toLowercaseAfter, rest, caseIgnorableThenCased_congr before,
          caseIgnorableThenCased_congr tail.symm]
      · have cSigma : c ≠ 'Σ' := by
          rintro rfl
          exact absurd cSmall (by decide)
        have dSigma : d ≠ 'Σ' := by
          rintro rfl
          exact absurd dSmall (by decide)
        simp only [toLowercaseAfter, cSigma, dSigma, if_false, Unicode.toLowercase_ascii c cSmall,
          Unicode.toLowercase_ascii d dSmall, head, rest]

theorem toLowercaseAfter_eq_nil_iff {before s : Str} : toLowercaseAfter before s = [] ↔ s = [] := by
  cases s with
  | nil => simp [toLowercaseAfter]
  | cons c rest =>
      simp only [toLowercaseAfter, List.append_eq_nil_iff, reduceCtorEq, iff_false, not_and]
      intro vanished
      exfalso
      split_ifs at vanished
      exact Unicode.toLowercase_ne_nil c vanished

@[simp]
theorem toLowercase_eq_nil_iff {s : Str} : toLowercase s = [] ↔ s = [] :=
  toLowercaseAfter_eq_nil_iff

/-- A blank at the end of a lower-case form was at the end before. -/
theorem blank_getLast?_of_toLowercaseAfter {before s : Str}
    (ends : ' ' ∈ (toLowercaseAfter before s).getLast?) :
    ' ' ∈ s.getLast? := by
  induction s generalizing before with
  | nil => cases ends
  | cons c rest ih =>
      cases rest with
      | nil =>
          simp only [toLowercaseAfter, List.append_nil] at ends
          have blank := List.mem_of_getLast? ends
          split_ifs at blank with sigma
          · cases List.mem_singleton.mp blank
          · cases List.mem_singleton.mp blank
          · rw [Unicode.blank_of_mem_toLowercase c blank]
            rfl
      | cons d rest =>
          have lowered : toLowercaseAfter (c :: before) (d :: rest) ≠ [] :=
            mt toLowercaseAfter_eq_nil_iff.mp (List.cons_ne_nil d rest)
          rw [toLowercaseAfter, List.getLast?_append_of_ne_nil _ lowered] at ends
          rw [List.getLast?_cons_cons]
          exact ih ends

/-- Strings that agree up to ASCII case have one lower-case form. -/
theorem toLowercase_eq_of_eqIgnoreAsciiCase {left right : Str}
    (same : eqIgnoreAsciiCase left right = true) : toLowercase left = toLowercase right :=
  toLowercaseAfter_congr rfl (eqIgnoreAsciiCase_iff.mp same)

theorem toLowercaseAfter_ascii {s before : Str} (small : ∀ c ∈ s, c.toNat < 128) :
    toLowercaseAfter before s = s.map Char.toLower := by
  induction s generalizing before with
  | nil => rfl
  | cons c rest ih =>
      have cSmall := small c (by simp)
      have cSigma : c ≠ 'Σ' := by
        rintro rfl
        exact absurd cSmall (by decide)
      simp only [toLowercaseAfter, cSigma, if_false, Unicode.toLowercase_ascii c cSmall,
        ih fun d mem => small d (List.mem_cons_of_mem c mem), List.map_cons, List.singleton_append]

theorem toLowercase_ascii {s : Str} (small : ∀ c ∈ s, c.toNat < 128) :
    toLowercase s = toAsciiLowercase s :=
  toLowercaseAfter_ascii small

end Str

end SchemaForge
