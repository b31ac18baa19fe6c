import SchemaForge.Foundation.Strings

/-!
# Columns of a width

An assignment to a `VARCHAR(n)` keeps a text of up to `n` characters as it is. Of a
longer text it drops what lies beyond the width if that is blanks alone, and it fails
on any other.
-/

namespace SchemaForge.Varchar

/-- The text is too long for the column. -/
def refuses (width : Nat) (text : Str) : Bool := (text.drop width).any (· != ' ')

/-- The text without the blanks beyond the width, if nothing but blanks is there. -/
def stored (width : Nat) (text : Str) : Str := if refuses width text then text else text.take width

/-- The column takes the text and keeps less of it. -/
def cuts (width : Nat) (text : Str) : Bool := decide (width < text.length) && !refuses width text

variable {width : Nat} {text : Str}

theorem stored_of_length_le (short : text.length ≤ width) : stored width text = text := by
  rw [stored, List.take_of_length_le short, ite_self]

theorem cuts_of_length_le (short : text.length ≤ width) : cuts width text = false := by
  rw [cuts, decide_eq_false (Nat.not_lt.mpr short), Bool.false_and]

/-- A text that is not cut is kept, or refused. -/
theorem stored_of_not_cuts (uncut : cuts width text = false) : stored width text = text := by
  rw [cuts, Bool.and_eq_false_iff, decide_eq_false_iff_not, Nat.not_lt, Bool.not_eq_false'] at uncut
  rcases uncut with short | refused
  · exact stored_of_length_le short
  · rw [stored, if_pos refused]

theorem stored_stored (width : Nat) (text : Str) :
    stored width (stored width text) = stored width text := by
  cases refused : refuses width text with
  | true =>
      have whole : stored width text = text := by rw [stored, if_pos refused]
      rw [whole, whole]
  | false =>
      apply stored_of_length_le
      rw [stored, refused, if_neg Bool.false_ne_true]
      exact List.length_take_le width text

/-- A text that ends in no blank loses none. -/
theorem stored_of_getLast_ne (ends : ∀ last ∈ text.getLast?, last ≠ ' ') :
    stored width text = text := by
  rcases Nat.lt_or_ge width text.length with long | short
  · have behind : text.drop width ≠ [] := by
      rw [ne_eq, List.drop_eq_nil_iff, Nat.not_le]
      exact long
    have same : (text.drop width).getLast behind ∈ text.getLast? := by
      rw [List.getLast_drop, List.getLast?_eq_some_getLast]
      rfl
    have refused : refuses width text = true :=
      List.any_eq_true.mpr ⟨_, List.getLast_mem behind, bne_iff_ne.mpr (ends _ same)⟩
    rw [stored, if_pos refused]
  · exact stored_of_length_le short

end SchemaForge.Varchar
