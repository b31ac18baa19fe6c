import SchemaForge.Sql.Table

/-!
# The cursor only moves forward

Every reader of a table leaves its cursor at a later place of the same token
list. The two loops of the reader are bounded by the length of what is left, and
that bound is never what ends them; each loop unfolds as the program writes it.
-/

namespace SchemaForge.Sql

namespace Cursor

theorem eatWord_eq_some_iff {cursor left : Cursor} {word : Str} :
    cursor.eatWord word = some left ↔ cursor = .word word :: left := by
  constructor
  · intro eaten
    unfold eatWord atWord at eaten
    split at eaten
    · rename_i here
      cases eaten
      rcases cursor with _ | ⟨token, cursor⟩
      · cases here
      · cases token with
        | word value =>
            have same : value = word := beq_iff_eq.mp here
            rw [same]
            rfl
        | quoted | text | number | punct => cases here
    · cases eaten
  · rintro rfl
    simp [eatWord, atWord, Token.isWord]

theorem eatWord_cons (word : Str) (rest : Cursor) : eatWord (.word word :: rest) word = some rest :=
  eatWord_eq_some_iff.mpr rfl

theorem eatPunct_eq_some_iff {cursor left : Cursor} {punct : Char} :
    cursor.eatPunct punct = some left ↔ cursor = .punct punct :: left := by
  constructor
  · intro eaten
    unfold eatPunct atPunct at eaten
    split at eaten
    · rename_i here
      cases eaten
      rcases cursor with _ | ⟨token, cursor⟩
      · cases here
      · cases token with
        | punct value =>
            have same : value = punct := beq_iff_eq.mp here
            rw [same]
            rfl
        | word | quoted | text | number => cases here
    · cases eaten
  · rintro rfl
    simp [eatPunct, atPunct, Token.isPunct]

theorem eatWord_suffix {cursor left : Cursor} {word : Str}
    (eaten : cursor.eatWord word = some left) : left <:+ cursor := by
  rw [eatWord_eq_some_iff.mp eaten]
  exact List.suffix_cons _ left

theorem eatWord_length {cursor left : Cursor} {word : Str}
    (eaten : cursor.eatWord word = some left) : left.length < cursor.length := by
  rw [eatWord_eq_some_iff.mp eaten]
  exact Nat.lt_add_one left.length

theorem eatWords_suffix {cursor left : Cursor} {words : List Str}
    (eaten : cursor.eatWords words = some left) : left <:+ cursor := by
  induction words generalizing cursor with
  | nil =>
      obtain rfl : cursor = left := by simpa [eatWords] using eaten
      exact List.suffix_rfl
  | cons word words ih =>
      obtain ⟨next, first, rest⟩ := Option.bind_eq_some_iff.mp eaten
      exact (ih rest).trans (eatWord_suffix first)

theorem eatWords_length {cursor left : Cursor} {word : Str} {words : List Str}
    (eaten : cursor.eatWords (word :: words) = some left) : left.length < cursor.length := by
  obtain ⟨next, first, rest⟩ := Option.bind_eq_some_iff.mp eaten
  exact (eatWords_suffix rest).length_le.trans_lt (eatWord_length first)

theorem eatPunct_suffix {cursor left : Cursor} {punct : Char}
    (eaten : cursor.eatPunct punct = some left) : left <:+ cursor := by
  rw [eatPunct_eq_some_iff.mp eaten]
  exact List.suffix_cons _ left

theorem eatPunct_length {cursor left : Cursor} {punct : Char}
    (eaten : cursor.eatPunct punct = some left) : left.length < cursor.length := by
  rw [eatPunct_eq_some_iff.mp eaten]
  exact Nat.lt_add_one left.length

theorem nameParts_suffix (name : Str) (cursor : Cursor) : (nameParts name cursor).2 <:+ cursor := by
  fun_induction nameParts name cursor with
  | case1 => exact List.suffix_rfl
  | case2 => exact List.nil_suffix
  | case3 => exact List.suffix_rfl
  | case4 name token next rest point part named ih =>
      exact ih.trans ((List.suffix_cons next rest).trans (List.suffix_cons token _))
  | case5 name token next rest =>
      exact (List.suffix_cons next rest).trans (List.suffix_cons token _)
  | case6 => exact List.suffix_rfl

theorem qualifiedName_suffix (cursor : Cursor) : cursor.qualifiedName.2 <:+ cursor := by
  unfold qualifiedName
  split
  · exact List.suffix_rfl
  · rename_i token rest
    split
    · exact (nameParts_suffix _ rest).trans (List.suffix_cons token rest)
    · exact List.suffix_cons token rest

theorem nameItems_suffix (names : List Str) (cursor : Cursor) :
    (nameItems names cursor).2 <:+ cursor := by
  fun_induction nameItems names cursor with
  | case1 => exact List.suffix_rfl
  | case2 => exact List.nil_suffix
  | case3 names token next rest => exact List.suffix_cons token _
  | case4 names token next rest name named comma ih =>
      exact ih.trans ((List.suffix_cons next rest).trans (List.suffix_cons token _))
  | case5 names token next rest =>
      exact (List.suffix_cons next rest).trans (List.suffix_cons token _)
  | case6 names token next rest => exact List.suffix_cons token _

theorem nameList_suffix (cursor : Cursor) : cursor.nameList.2 <:+ cursor := by
  unfold nameList
  split
  · rename_i left opened
    exact (nameItems_suffix [] left).trans (eatPunct_suffix opened)
  · exact List.suffix_rfl

theorem takeInside_append (stop : List Str) (depth : Nat) (cursor : Cursor) :
    (takeInside stop depth cursor).1 ++ (takeInside stop depth cursor).2 = cursor := by
  fun_induction takeInside stop depth cursor <;> simp_all

theorem takeUntilSeparator_suffix (stop : List Str) (cursor : Cursor) :
    (cursor.takeUntilSeparator stop).2 <:+ cursor :=
  ⟨_, takeInside_append stop 0 cursor⟩

theorem skipInside_suffix (depth : Nat) (cursor : Cursor) : skipInside depth cursor <:+ cursor := by
  fun_induction skipInside depth cursor with
  | case1 => exact List.suffix_rfl
  | case2 depth token rest open_ ih => exact ih.trans (List.suffix_cons token rest)
  | case3 depth token rest => exact List.suffix_cons token rest
  | case4 depth token rest _ _ _ ih => exact ih.trans (List.suffix_cons token rest)
  | case5 depth token rest _ _ ih => exact ih.trans (List.suffix_cons token rest)

theorem skipBalanced_suffix (cursor : Cursor) : cursor.skipBalanced <:+ cursor := by
  unfold skipBalanced
  split
  · rename_i left opened
    exact (skipInside_suffix 1 left).trans (eatPunct_suffix opened)
  · exact List.suffix_rfl

end Cursor

theorem typeWords_suffix (cursor : Cursor) : (typeWords cursor).2 <:+ cursor := by
  fun_induction typeWords cursor with
  | case1 => exact List.suffix_rfl
  | case2 word rest _ words left same ih =>
      rw [same] at ih
      exact ih.trans (List.suffix_cons _ rest)
  | case3 => exact List.suffix_rfl

theorem numbers_suffix (cursor : Cursor) : (numbers cursor).2 <:+ cursor := by
  fun_induction numbers cursor with
  | case1 number parsed rest more left same ih =>
      rw [same] at ih
      exact ih.trans ((List.suffix_cons _ rest).trans (List.suffix_cons _ _))
  | case2 => exact List.suffix_cons ..
  | case3 => exact List.suffix_rfl

/-- The cursor past the parenthesised numbers after a type, when there are any. -/
def pastNumbers (cursor : Cursor) : Cursor :=
  match cursor.eatPunct '(' with
  | some cursor => ((numbers cursor).2.eatPunct ')').getD (numbers cursor).2
  | none => cursor

theorem parameters_snd (cursor : Cursor) (kind : DataTypeKind) :
    (parameters cursor kind).2 = (typeWords (pastNumbers cursor)).2 := by
  unfold parameters pastNumbers
  cases cursor.eatPunct '(' <;> cases kind <;> rfl

theorem getD_suffix {cursor : Cursor} {eaten : Option Cursor}
    (suffix : ∀ left, eaten = some left → left <:+ cursor) : eaten.getD cursor <:+ cursor := by
  cases eaten with
  | none => exact List.suffix_rfl
  | some left => exact suffix left rfl

theorem pastNumbers_suffix (cursor : Cursor) : pastNumbers cursor <:+ cursor := by
  unfold pastNumbers
  split
  · rename_i left opened
    refine List.IsSuffix.trans ?_ ((numbers_suffix left).trans (Cursor.eatPunct_suffix opened))
    exact getD_suffix fun _ closed => Cursor.eatPunct_suffix closed
  · exact List.suffix_rfl

theorem parameters_suffix (cursor : Cursor) (kind : DataTypeKind) :
    (parameters cursor kind).2 <:+ cursor := by
  rw [parameters_snd]
  exact (typeWords_suffix _).trans (pastNumbers_suffix cursor)

/-- An iteration over the constraints of a column leaves a later place. -/
theorem constraint_suffix (cursor : Cursor) (column : ParsedColumn) :
    (constraint cursor column).1 <:+ cursor := by
  unfold constraint
  split
  · exact Cursor.eatWords_suffix (by assumption)
  · split
    · exact Cursor.eatWords_suffix (by assumption)
    · split
      · exact Cursor.eatWord_suffix (by assumption)
      · split
        · exact Cursor.eatWord_suffix (by assumption)
        · split
          · rename_i left eaten
            have taken := Cursor.takeUntilSeparator_suffix afterType left
            simp only
            split <;> exact taken.trans (Cursor.eatWord_suffix eaten)
          · split
            · rename_i left eaten
              exact (List.tail_suffix left).trans (Cursor.eatWord_suffix eaten)
            · split
              · rename_i left eaten
                exact (Cursor.skipBalanced_suffix left).trans (Cursor.eatWord_suffix eaten)
              · exact List.tail_suffix cursor

/-- An iteration over the constraints of a column reads a token. -/
theorem constraint_length {cursor : Cursor} (more : cursor ≠ []) (column : ParsedColumn) :
    (constraint cursor column).1.length < cursor.length := by
  unfold constraint
  split
  · exact Cursor.eatWords_length (by assumption)
  · split
    · exact Cursor.eatWords_length (by assumption)
    · split
      · exact Cursor.eatWord_length (by assumption)
      · split
        · exact Cursor.eatWord_length (by assumption)
        · split
          · rename_i left eaten
            have taken := (Cursor.takeUntilSeparator_suffix afterType left).length_le
            simp only
            split <;> exact taken.trans_lt (Cursor.eatWord_length eaten)
          · split
            · rename_i left eaten
              exact (List.tail_suffix left).length_le.trans_lt (Cursor.eatWord_length eaten)
            · split
              · rename_i left eaten
                exact (Cursor.skipBalanced_suffix left).length_le.trans_lt
                  (Cursor.eatWord_length eaten)
              · rw [List.length_tail]
                have := List.length_pos_of_ne_nil more
                omega

/-- Where the loop over the constraints of a column stops. -/
def endsConstraints (cursor : Cursor) : Bool :=
  cursor.isEmpty || cursor.atPunct ',' || cursor.atPunct ')' || cursor.atWord "references"

theorem constraints_eq_of_le {fuel : Nat} {cursor : Cursor} (enough : cursor.length ≤ fuel)
    (column : ParsedColumn) :
    constraints fuel cursor column = constraints cursor.length cursor column := by
  induction fuel using Nat.strongRecOn generalizing cursor column with
  | ind fuel ih =>
      cases cursor with
      | nil => cases fuel <;> rfl
      | cons token cursor =>
          obtain ⟨fuel, rfl⟩ := Nat.exists_eq_succ_of_ne_zero (by
            simp only [List.length_cons] at enough
            omega : fuel ≠ 0)
          have shorter := constraint_length (List.cons_ne_nil token cursor) column
          rw [List.length_cons] at enough shorter ⊢
          unfold constraints
          split
          · rfl
          · simp only
            rw [ih fuel (Nat.lt_succ_self fuel) (by omega)]
            by_cases same : fuel = cursor.length
            · subst same
              rw [ih cursor.length (Nat.lt_succ_self _) (by omega)]
            · rw [ih cursor.length (by omega) (by omega)]

/-- The loop over the constraints of a column, with the bound left out. -/
theorem constraints_unfold (cursor : Cursor) (column : ParsedColumn) :
    constraints cursor.length cursor column =
      if endsConstraints cursor then (cursor, column)
      else
        constraints (constraint cursor column).1.length (constraint cursor column).1
          (constraint cursor column).2 := by
  cases cursor with
  | nil => rfl
  | cons token cursor =>
      have shorter := constraint_length (List.cons_ne_nil token cursor) column
      rw [List.length_cons] at shorter ⊢
      rw [constraints]
      refine if_congr Iff.rfl rfl ?_
      exact constraints_eq_of_le (Nat.lt_succ_iff.mp shorter) _

theorem constraints_suffix (fuel : Nat) (cursor : Cursor) (column : ParsedColumn) :
    (constraints fuel cursor column).1 <:+ cursor := by
  induction fuel generalizing cursor column with
  | zero => exact List.suffix_rfl
  | succ fuel ih =>
      unfold constraints
      split
      · exact List.suffix_rfl
      · exact (ih _ _).trans (constraint_suffix cursor column)

theorem column_suffix (cursor : Cursor) : (column cursor).2 <:+ cursor := by
  unfold column
  split
  · exact List.suffix_rfl
  · rename_i token rest
    split
    · exact List.suffix_rfl
    · refine List.IsSuffix.trans ?_ (List.suffix_cons token rest)
      have words := typeWords_suffix rest
      simp only
      split
      · exact words
      · exact (constraints_suffix _ _ _).trans ((parameters_suffix _ _).trans words)

theorem inlineReference_suffix (cursor : Cursor) (column : Str) (table : ParsedTable) :
    (inlineReference cursor column table).2.1 <:+ cursor := by
  unfold inlineReference
  split
  · exact List.suffix_rfl
  · rename_i left eaten
    have named := (Cursor.qualifiedName_suffix left).trans (Cursor.eatWord_suffix eaten)
    split
    · rename_i found
      rw [found] at named
      exact named
    · rename_i found
      rw [found] at named
      exact (Cursor.nameList_suffix _).trans named

theorem readForeignKey_suffix (cursor : Cursor) (table : ParsedTable) :
    (readForeignKey cursor table).1 <:+ cursor := by
  unfold readForeignKey
  have listed := Cursor.nameList_suffix cursor
  split
  · rename_i found
    rwa [found] at listed
  · rename_i columns left found
    rw [found] at listed
    split
    · exact listed
    · rename_i right eaten
      have named := (Cursor.qualifiedName_suffix right).trans
        ((Cursor.eatWord_suffix eaten).trans listed)
      split
      · rename_i found
        rwa [found] at named
      · rename_i found
        rw [found] at named
        have targets := (Cursor.nameList_suffix _).trans named
        simp only
        split
        · exact (Cursor.takeUntilSeparator_suffix [] _).trans targets
        · exact targets

theorem columnItem_suffix (cursor : Cursor) (table : ParsedTable) :
    (columnItem cursor table).1 <:+ cursor := by
  have suffix := column_suffix cursor
  unfold columnItem
  split
  · rename_i parsed left found
    rw [found] at suffix
    have referenced := (inlineReference_suffix left parsed.name table).trans suffix
    split
    · rename_i linked
      rw [linked] at referenced
      exact (constraints_suffix _ _ _).trans referenced
    · rename_i linked
      rwa [linked] at referenced
  · rename_i found
    rw [found] at suffix
    exact (Cursor.takeUntilSeparator_suffix [] _).trans suffix

theorem itemBody_suffix (named : Bool) (cursor : Cursor) (table : ParsedTable) :
    (itemBody named cursor table).1 <:+ cursor := by
  unfold itemBody
  split
  · rename_i left eaten
    have listed := (Cursor.nameList_suffix left).trans (Cursor.eatWords_suffix eaten)
    split
    all_goals
      rename_i found
      rwa [found] at listed
  · split
    · exact (readForeignKey_suffix _ table).trans (Cursor.eatWords_suffix (by assumption))
    · split
      · rename_i left eaten
        have listed := (Cursor.nameList_suffix left).trans (Cursor.eatWord_suffix eaten)
        split
        all_goals
          rename_i found
          rwa [found] at listed
      · split
        · exact (Cursor.skipBalanced_suffix _).trans (List.tail_suffix cursor)
        · split
          · exact Cursor.takeUntilSeparator_suffix [] cursor
          · exact columnItem_suffix cursor table

theorem item_suffix (cursor : Cursor) (table : ParsedTable) : (item cursor table).1 <:+ cursor := by
  unfold item
  split
  · rename_i left eaten
    exact (itemBody_suffix _ _ _).trans ((List.tail_suffix left).trans
      (Cursor.eatWord_suffix eaten))
  · exact itemBody_suffix _ _ _

theorem items_eq_of_le {fuel : Nat} {cursor : Cursor} (enough : cursor.length ≤ fuel)
    (table : ParsedTable) : items fuel cursor table = items cursor.length cursor table := by
  induction fuel using Nat.strongRecOn generalizing cursor table with
  | ind fuel ih =>
      cases cursor with
      | nil => cases fuel <;> rfl
      | cons token cursor =>
          obtain ⟨fuel, rfl⟩ := Nat.exists_eq_succ_of_ne_zero (by
            simp only [List.length_cons] at enough
            omega : fuel ≠ 0)
          have shorter := (item_suffix (token :: cursor) table).length_le
          rw [List.length_cons] at enough shorter ⊢
          unfold items
          split
          · rfl
          · simp only
            split
            · rename_i left comma
              have read := Cursor.eatPunct_length comma
              rw [ih fuel (Nat.lt_succ_self fuel) (by omega)]
              by_cases same : fuel = cursor.length
              · subst same
                rw [ih cursor.length (Nat.lt_succ_self _) (by omega)]
              · rw [ih cursor.length (by omega) (by omega)]
            · rfl

/-- The loop over the items of a table, with the bound left out. -/
theorem items_unfold (cursor : Cursor) (table : ParsedTable) :
    items cursor.length cursor table =
      if cursor.isEmpty || cursor.atPunct ')' then table
      else
        match (item cursor table).1.eatPunct ',' with
        | some left => items left.length left (item cursor table).2
        | none => (item cursor table).2 := by
  cases cursor with
  | nil => rfl
  | cons token cursor =>
      have shorter := (item_suffix (token :: cursor) table).length_le
      rw [List.length_cons] at shorter ⊢
      rw [items]
      refine if_congr Iff.rfl rfl ?_
      cases comma : (item (token :: cursor) table).1.eatPunct ',' with
      | some left =>
          have read := Cursor.eatPunct_length comma
          simp only [comma]
          exact items_eq_of_le (by omega) _
      | none => simp only [comma]

end SchemaForge.Sql
