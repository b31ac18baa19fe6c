import SchemaForge.Sql.ClosedText
import SchemaForge.Sql.Expressions
import SchemaForge.Sql.Flags
import SchemaForge.Sql.TableReading

/-!
# The line of a column

The generator writes a default through as it was typed, between the flags of its
column. The line is read back as the column exactly if the default closes its
quotes and holds none of the words that end an expression, outside of its
parentheses.
-/

namespace SchemaForge.Sql

section Rendering

/-- What is rendered behind other tokens is rendered as it is on its own. -/
theorem render_append_eq (before tokens : List Token) :
    ∃ gap, render (before ++ tokens) = render before ++ gap ++ render tokens := by
  induction tokens using List.reverseRecOn with
  | nil => exact ⟨[], by rw [List.append_nil, List.append_nil]; exact (List.append_nil _).symm⟩
  | append_singleton tokens token ih =>
      rcases ih with ⟨gap, same⟩
      rw [← List.append_assoc, render_append, render_append, same]
      by_cases empty : render tokens = []
      · refine ⟨gap ++ joint (render before ++ gap) (piece token), ?_⟩
        simp [empty, joint]
      · have last : (render before ++ gap ++ render tokens).getLast? = (render tokens).getLast? :=
          List.getLast?_append_of_ne_nil _ empty
        have joined : joint (render before ++ gap ++ render tokens) (piece token) =
            joint (render tokens) (piece token) := by
          rw [joint, joint, last]
          simp [empty]
        rw [joined]
        exact ⟨gap, by simp only [List.append_assoc]⟩

theorem length_render_append (left right : List Token) :
    (render left).length + (render right).length ≤ (render (left ++ right)).length := by
  rcases render_append_eq left right with ⟨gap, same⟩
  rw [same, List.length_append, List.length_append]
  omega

/-- A list that lacks a word of another is not rendered as that. -/
theorem render_ne_of_lost {before part behind tokens : List Token} {word : Str}
    (split : tokens = before ++ part ++ behind) (lost : .word word ∈ before ∨ .word word ∈ behind)
    (spelled : word ≠ []) : render part ≠ render tokens := by
  have positive {others : List Token} (mem : .word word ∈ others) : 0 < (render others).length := by
    rcases List.append_of_mem mem with ⟨front, rest, rfl⟩
    have outer := length_render_append front (.word word :: rest)
    have inner := length_render_append [.word word] rest
    have alone : render [.word word] = word := rfl
    have long := List.length_pos_iff.mpr spelled
    rw [alone] at inner
    rw [List.singleton_append] at inner
    omega
  intro same
  have outer := length_render_append (before ++ part) behind
  have inner := length_render_append before part
  rw [split] at same
  rw [← same] at outer
  rcases lost with mem | mem
  · have := positive mem
    omega
  · have := positive mem
    omega

end Rendering

section Balanced

/-- The parentheses are balanced, and no comma is outside of them. -/
def isBalanced (depth : Nat) : List Token → Bool
  | [] => depth == 0
  | .punct '(' :: rest => isBalanced (depth + 1) rest
  | .punct ')' :: rest => depth != 0 && isBalanced (depth - 1) rest
  | .punct ',' :: rest => depth != 0 && isBalanced depth rest
  | _ :: rest => isBalanced depth rest

/-- The rest of balanced tokens is balanced, inside some parentheses. -/
theorem exists_isBalanced_of_suffix {depth : Nat} {tokens rest : List Token}
    (balanced : isBalanced depth tokens = true) (suffix : rest <:+ tokens) :
    ∃ inner, isBalanced inner rest = true := by
  fun_induction isBalanced depth tokens with
  | case1 depth =>
      rw [List.suffix_nil.mp suffix]
      exact ⟨0, rfl⟩
  | case2 depth tokens ih =>
      rcases List.suffix_cons_iff.mp suffix with rfl | suffix
      · exact ⟨depth, balanced⟩
      · exact ih balanced suffix
  | case3 depth tokens ih =>
      rcases List.suffix_cons_iff.mp suffix with rfl | suffix
      · exact ⟨depth, balanced⟩
      · exact ih (Bool.and_eq_true_iff.mp balanced).2 suffix
  | case4 depth tokens ih =>
      rcases List.suffix_cons_iff.mp suffix with rfl | suffix
      · exact ⟨depth, balanced⟩
      · exact ih (Bool.and_eq_true_iff.mp balanced).2 suffix
  | case5 depth token tokens opening closing comma ih =>
      rcases List.suffix_cons_iff.mp suffix with rfl | suffix
      · refine ⟨depth, ?_⟩
        rw [isBalanced]
        · exact balanced
        · exact opening
        · exact closing
        · exact comma
      · exact ih balanced suffix

/-- A text inside parentheses ends no later than they do. -/
theorem takeInside_prefix {depth inner : Nat} {tokens rest : List Token}
    (balanced : isBalanced inner tokens = true) (less : depth ≤ inner)
    (ends : Cursor.takeInside afterType 0 rest = ([], rest)) :
    (Cursor.takeInside afterType depth (tokens ++ rest)).1 <+: tokens := by
  fun_induction isBalanced inner tokens generalizing depth with
  | case1 inner =>
      have zero : inner = 0 := by simpa using balanced
      have same : depth = 0 := by omega
      rw [same, List.nil_append, ends]
  | case2 inner tokens ih =>
      rw [List.cons_append, Cursor.takeInside]
      exact (List.prefix_cons_inj _).mpr (ih balanced (by omega))
  | case3 inner tokens ih =>
      simp only [Bool.and_eq_true, bne_iff_ne, ne_eq] at balanced
      rw [List.cons_append, Cursor.takeInside]
      split
      · exact List.nil_prefix
      · exact (List.prefix_cons_inj _).mpr (ih balanced.2 (by omega))
  | case4 inner tokens ih =>
      simp only [Bool.and_eq_true, bne_iff_ne, ne_eq] at balanced
      rw [List.cons_append, Cursor.takeInside]
      split
      · exact List.nil_prefix
      · exact (List.prefix_cons_inj _).mpr (ih balanced.2 less)
  | case5 inner token tokens opening closing comma ih =>
      cases token with
      | word word =>
          rw [List.cons_append, Cursor.takeInside]
          split
          · exact List.nil_prefix
          · exact (List.prefix_cons_inj _).mpr (ih balanced less)
      | quoted name => exact (List.prefix_cons_inj _).mpr (ih balanced less)
      | text text => exact (List.prefix_cons_inj _).mpr (ih balanced less)
      | number number => exact (List.prefix_cons_inj _).mpr (ih balanced less)
      | punct punct =>
          rw [List.cons_append, Cursor.takeInside]
          · exact (List.prefix_cons_inj _).mpr (ih balanced less)
          · simpa using opening
          · simpa using closing
          · simpa using comma
          · simp

/--
Balanced tokens that do not stay inside their column are cut at a word that ends an expression.
-/
theorem takeInside_cut {depth : Nat} {tokens : List Token}
    (balanced : isBalanced depth tokens = true) (leaves : staysInside depth tokens = false) :
    ∃ part word behind, tokens = part ++ .word word :: behind ∧
      afterType.contains word = true ∧ ∀ rest,
      (Cursor.takeInside afterType depth (tokens ++ rest)).1 = part := by
  have goOn {token : Token} {tokens : List Token} {depth inner : Nat}
      (step : ∀ rest, (Cursor.takeInside afterType depth (token :: (tokens ++ rest))).1 =
        token :: (Cursor.takeInside afterType inner (tokens ++ rest)).1)
      (cut : ∃ part word behind, tokens = part ++ .word word :: behind ∧
        afterType.contains word = true ∧
        ∀ rest, (Cursor.takeInside afterType inner (tokens ++ rest)).1 = part) :
      ∃ part word behind, token :: tokens = part ++ .word word :: behind ∧
        afterType.contains word = true ∧
        ∀ rest, (Cursor.takeInside afterType depth (token :: tokens ++ rest)).1 = part := by
    rcases cut with ⟨part, word, behind, split, stop, taken⟩
    refine ⟨token :: part, word, behind, by rw [split]; rfl, stop, ?_⟩
    intro rest
    rw [List.cons_append, step, taken]
  fun_induction staysInside depth tokens with
  | case1 depth =>
      rw [isBalanced] at balanced
      rw [balanced] at leaves
      cases leaves
  | case2 depth tokens ih => exact goOn (fun rest => by rw [Cursor.takeInside]) (ih balanced leaves)
  | case3 depth tokens ih =>
      simp only [isBalanced, Bool.and_eq_true, bne_iff_ne, ne_eq] at balanced
      have later : staysInside (depth - 1) tokens = false := by simpa [balanced.1] using leaves
      exact goOn (fun rest => by rw [Cursor.takeInside, if_neg balanced.1]) (ih balanced.2 later)
  | case4 depth tokens ih =>
      simp only [isBalanced, Bool.and_eq_true, bne_iff_ne, ne_eq] at balanced
      have later : staysInside depth tokens = false := by simpa [balanced.1] using leaves
      exact goOn (fun rest => by rw [Cursor.takeInside, if_neg balanced.1]) (ih balanced.2 later)
  | case5 depth word tokens ih =>
      by_cases stops : (depth = 0 && afterType.contains word) = true
      · refine ⟨[], word, tokens, rfl, (Bool.and_eq_true_iff.mp stops).2, ?_⟩
        intro rest
        rw [List.cons_append, Cursor.takeInside, if_pos stops]
      · have goesOn : (depth != 0 || !afterType.contains word) = true := by
          by_cases zero : depth = 0
          · simpa [zero] using stops
          · simp [zero]
        have later : staysInside depth tokens = false := by
          rwa [goesOn, Bool.true_and] at leaves
        exact goOn (fun rest => by rw [Cursor.takeInside, if_neg stops]) (ih balanced later)
  | case6 depth token tokens opening closing comma word ih =>
      cases token with
      | word name => exact absurd rfl (word name)
      | quoted name => exact goOn (fun rest => rfl) (ih balanced leaves)
      | text text => exact goOn (fun rest => rfl) (ih balanced leaves)
      | number number => exact goOn (fun rest => rfl) (ih balanced leaves)
      | punct punct =>
          refine goOn (fun rest => ?_) (ih ?_ leaves)
          · rw [Cursor.takeInside]
            · simpa using opening
            · simpa using closing
            · simpa using comma
            · simp
          · rw [isBalanced] at balanced
            · exact balanced
            · simpa using opening
            · simpa using closing
            · simpa using comma

end Balanced

section Stored

/-- A default is stored from behind the word `DEFAULT`. -/
theorem exists_of_constraint {cursor : Cursor} {column : ParsedColumn} {value : Str}
    (stored : (constraint cursor column).2.defaultValue = some value) :
    column.defaultValue = some value ∨
      ∃ clause, .word "default" :: clause <:+ cursor ∧ storedDefault clause = some value := by
  unfold constraint at stored
  cases notNull : cursor.eatWords ["not", "null"] with
  | some left =>
      rw [notNull] at stored
      exact .inl stored
  | none =>
  cases key : cursor.eatWords ["primary", "key"] with
  | some left =>
      rw [notNull, key] at stored
      exact .inl stored
  | none =>
  cases unique : cursor.eatWord "unique" with
  | some left =>
      rw [notNull, key, unique] at stored
      exact .inl stored
  | none =>
  cases null : cursor.eatWord "null" with
  | some left =>
      rw [notNull, key, unique, null] at stored
      exact .inl stored
  | none =>
  cases default : cursor.eatWord "default" with
  | some left =>
      rw [notNull, key, unique, null, default] at stored
      dsimp only at stored
      cases empty : (left.takeUntilSeparator afterType).1.isEmpty with
      | true =>
          rw [empty, if_pos rfl] at stored
          exact .inl stored
      | false =>
          rw [empty, if_neg Bool.false_ne_true] at stored
          refine .inr ⟨left, ?_, ?_⟩
          · rw [Cursor.eatWord_eq_some_iff.mp default]
          · rw [storedDefault]
            dsimp only
            rw [empty, if_neg Bool.false_ne_true]
            exact stored
  | none =>
      rw [notNull, key, unique, null, default] at stored
      dsimp only at stored
      split at stored
      · exact .inl stored
      · split at stored
        · exact .inl stored
        · exact .inl stored

theorem exists_of_constraints {fuel : Nat} {cursor : Cursor} {column : ParsedColumn} {value : Str}
    (stored : (constraints fuel cursor column).2.defaultValue = some value) :
    column.defaultValue = some value ∨
      ∃ clause, .word "default" :: clause <:+ cursor ∧ storedDefault clause = some value := by
  induction fuel generalizing cursor column with
  | zero => exact .inl stored
  | succ fuel ih =>
      rw [constraints] at stored
      split at stored
      · exact .inl stored
      · rcases ih stored with before | ⟨clause, suffix, found⟩
        · exact exists_of_constraint before
        · exact .inr ⟨clause, suffix.trans (constraint_suffix cursor column), found⟩

theorem eq_append_of_suffix {α : Type} {tokens left right : List α}
    (suffix : tokens <:+ left ++ right) :
    tokens <:+ right ∨ ∃ rest, rest <:+ left ∧ tokens = rest ++ right := by
  induction left with
  | nil => exact .inl suffix
  | cons item left ih =>
      rcases List.suffix_cons_iff.mp suffix with rfl | suffix
      · exact .inr ⟨item :: left, List.suffix_rfl, rfl⟩
      · rcases ih suffix with behind | ⟨rest, inside, rfl⟩
        · exact .inl behind
        · exact .inr ⟨rest, inside.trans (List.suffix_cons item left), rfl⟩

/-- The tokens behind a `DEFAULT` between the flags of a generated column. -/
theorem clause_of_flagTokens {required unique : Bool} {tokens : List Token} {token : Token}
    (ends : endsItem token) {clause : Cursor}
    (suffix : .word "default" :: clause <:+ flagTokens required (some tokens) unique ++ [token]) :
    clause = tokens ++ (flagTokens false none unique ++ [token]) ∨ ∃ part, .word "default" ::
      part <:+ tokens ∧
      clause = part ++ (flagTokens false none unique ++ [token]) := by
  have shape : flagTokens required (some tokens) unique ++ [token] =
      (if required then [.word "not", .word "null"] else []) ++
        .word "default" :: (tokens ++ (flagTokens false none unique ++ [token])) := by
    simp [flagTokens]
  have behind : .word "default" ∉ flagTokens false none unique ++ [token] := by
    rcases ends with rfl | rfl <;> cases unique <;> simp [flagTokens]
  rw [shape] at suffix
  rcases eq_append_of_suffix suffix with later | ⟨rest, inside, same⟩
  · rcases List.suffix_cons_iff.mp later with here | later
    · exact .inl (List.cons.inj here).2
    · right
      rcases eq_append_of_suffix later with later | ⟨rest, inside, same⟩
      · exact absurd (later.subset List.mem_cons_self) behind
      · cases rest with
        | nil => exact absurd (same ▸ List.mem_cons_self) behind
        | cons first rest =>
            rw [List.cons_append, List.cons.injEq] at same
            rcases same with ⟨rfl, rfl⟩
            exact ⟨rest, inside, rfl⟩
  · cases rest with
    | nil => exact .inl (List.cons.inj same).2
    | cons first rest =>
        have mem : first ∈ (if required then [.word "not", .word "null"] else [] : List Token) :=
          inside.subset List.mem_cons_self
        rw [List.cons_append, List.cons.injEq] at same
        rw [← same.1] at mem
        cases required <;> simp at mem

/-- A default that is cut is not stored whole. -/
theorem storedDefault_ne {tokens : List Token} {unique : Bool} {token : Token}
    (ends : endsItem token) (balanced : isBalanced 0 tokens = true)
    (leaves : staysInside 0 tokens = false) {clause : Cursor}
    (clause_ : clause = tokens ++ (flagTokens false none unique ++ [token]) ∨
      ∃ part, .word "default" :: part <:+ tokens ∧ clause = part ++
        (flagTokens false none unique ++ [token])) :
    storedDefault clause ≠ some (render tokens) := by
  have shorter {taken : List Token} (found : (Cursor.takeInside afterType 0 clause).1 = taken)
      (other : render taken ≠ render tokens) : storedDefault clause ≠ some (render tokens) := by
    intro stored
    unfold storedDefault Cursor.takeUntilSeparator at stored
    dsimp only at stored
    rw [found] at stored
    split at stored
    · cases stored
    · exact other (Option.some.inj stored)
  rcases clause_ with rfl | ⟨part, suffix, rfl⟩
  · rcases takeInside_cut balanced leaves with ⟨part, word, behind, split, stop, taken⟩
    refine shorter (taken _) ?_
    refine @render_ne_of_lost [] part (.word word :: behind) tokens word split
      (.inr List.mem_cons_self) ?_
    rintro rfl
    exact absurd stop (by decide)
  · rcases exists_isBalanced_of_suffix balanced ((List.suffix_cons _ part).trans suffix) with
      ⟨inner, inside⟩
    have taken :=
      takeInside_prefix inside (Nat.zero_le inner) (takeInside_flagTokens unique ends [])
    refine shorter rfl ?_
    rcases taken with ⟨behind, same⟩
    rcases suffix with ⟨before, split⟩
    generalize (Cursor.takeInside afterType 0
      (part ++ (flagTokens false none unique ++ [token]))).1 = taken at same
    refine @render_ne_of_lost (before ++ [.word "default"]) taken behind tokens "default" ?_
      (.inl ?_) (by decide)
    · rw [← split, ← same]
      simp only [List.append_assoc, List.cons_append, List.nil_append]
    · exact List.mem_append_right _ List.mem_cons_self

end Stored

section Lines

variable [Unicode]

/-- What stands behind the default of a column. -/
def uniqueText (attr : Attribute) : Str := if attr.unique && !attr.primaryKey then " UNIQUE" else ""

theorem lex_column_of_default {attr : Attribute} {value : Str}
    (default : attr.defaultValue = some value) :
    ∃ front : List Token, ∀ rest, lex (Generator.column attr ++ rest) =
      front.map .token ++ lex (value ++ (uniqueText attr ++ rest)) := by
  let plain : Attribute := { attr with defaultValue := none, unique := false }
  have spelled : Spells (Generator.column plain) (columnTokens plain) :=
    spells_column fun value found => nomatch found
  refine ⟨columnTokens plain ++ [.word "default"], fun rest => ?_⟩
  have whole : Generator.column attr = Generator.column plain ++ (" DEFAULT " ++ value) ++
      uniqueText attr := by
    have bare : Generator.column plain = Generator.quote attr.name ++ (" " : Str) ++
        Str.toAsciiUppercase attr.dataType.display ++
          (if attr.nullable then ("" : Str) else " NOT NULL") ++ [] ++
          [] := rfl
    rw [bare, List.append_nil, List.append_nil, Generator.column, default]
    rfl
  have word : (" DEFAULT " : Str) = ' ' :: phrase ["DEFAULT"] := rfl
  rw [whole, List.append_assoc, List.append_assoc, spelled _ (by simp [isStop]), word,
    List.append_assoc, List.cons_append, lex_space, lex_phrase (by decide), List.map_append,
    List.append_assoc]
  rfl

/--
The line of a column, and what separates it from the next, is one statement that is read as the
column.
-/
def ReadsBack (attr : Attribute) (separator : Char) : Prop :=
  ∃ tokens, (scan (Generator.column attr ++ [separator])).1.map Statement.tokens = [tokens] ∧
    ∀ rest, column (tokens ++ rest) = (.ok (readColumn attr), .punct separator :: rest)

/-- A default of tokens that stays between the separators of its table. -/
structure IsPlainDefault (value : Str) : Prop where
  unbroken : isUnbroken value = true
  nonempty : tokensOf value ≠ []
  balanced : isBalanced 0 (tokensOf value) = true

variable {attr : Attribute} {separator : Char}

theorem lex_column_separator (ends : separator = ',' ∨ separator = ')')
    (defaults : ∀ value ∈ attr.defaultValue, SelfContained value) :
    lex (Generator.column attr ++ [separator]) =
      (columnTokens attr ++ [Token.punct separator]).map .token := by
  rw [spells_column defaults _ (by rcases ends with rfl | rfl <;> simp [isStop]), List.map_append]
  rcases ends with rfl | rfl
  · rw [lex_comma, lex_nil]
    rfl
  · rw [lex_closing, lex_nil]
    rfl

theorem readsBack_of_lex {tokens : List Token}
    (lexed : lex (Generator.column attr ++ [separator]) = tokens.map .token)
    (reads : ReadsBack attr separator) (rest : Cursor) :
    column (tokens ++ rest) = (.ok (readColumn attr), .punct separator :: rest) := by
  rcases reads with ⟨read, scanned, back⟩
  have nonempty : tokens ≠ [] := by
    rintro rfl
    rw [(scan_reading _).1, readingOf, lexed] at scanned
    cases scanned
  rw [(scan_of_lex lexed nonempty).1, List.cons.injEq] at scanned
  rw [scanned.1]
  exact back rest

theorem isClosed_of_readsBack (ends : separator = ',' ∨ separator = ')') {value : Str}
    (default : attr.defaultValue = some value) (plain : IsPlainDefault value)
    (reads : ReadsBack attr separator) :
    isClosed value = true := by
  by_contra isOpen
  rw [Bool.not_eq_true] at isOpen
  rcases lex_column_of_default default with ⟨front, lexed⟩
  have stops : Stops (uniqueText attr ++ [separator]) := by
    unfold uniqueText
    rcases ends with rfl | rfl <;> split <;> simp [isStop]
  have quotes : ∀ d ∈ (['\'', '"', '$'] : Str), d ∉ uniqueText attr ++ [separator] := by
    unfold uniqueText
    rcases ends with rfl | rfl <;> split <;> simp
  rcases lex_of_isOpen plain.unbroken isOpen stops quotes with ⟨more, token, read, other⟩
  have all : lex (Generator.column attr ++ [separator]) =
      (front ++ more ++ [token]).map .token := by
    rw [lexed, read, ← List.map_append, List.append_assoc]
  have back := readsBack_of_lex all reads []
  have left := column_suffix (front ++ more ++ [token] ++ [])
  rw [back, List.append_nil] at left
  rcases left with ⟨before, same⟩
  have last := List.append_inj_right' same rfl
  exact other separator (List.cons.inj last).1.symm

theorem staysInside_of_readsBack (ends : separator = ',' ∨ separator = ')') {value : Str}
    (default : attr.defaultValue = some value) (own : attr.dataType.carriesOwnParameters = true)
    (scaled : attr.dataType.scale.isSome = true → attr.dataType.precision.isSome = true)
    (plain : IsPlainDefault value) (reads : ReadsBack attr separator) :
    staysInside 0 (tokensOf value) = true := by
  by_contra leaves
  rw [Bool.not_eq_true] at leaves
  have endsToken : endsItem (.punct separator) := by
    rcases ends with rfl | rfl
    · exact .inl rfl
    · exact .inr rfl
  have closed := isClosed_of_readsBack ends default plain reads
  have lexed : lex (Generator.column attr ++ [separator]) =
      (columnTokens attr ++ [Token.punct separator]).map .token := by
    apply lex_column_separator ends
    intro other found
    rw [default, Option.mem_some_iff] at found
    rw [← found]
    exact selfContained_of_isClosed plain.unbroken closed
  have read := readsBack_of_lex lexed reads []
  rw [List.append_nil] at read
  rcases column_eq_ok read with ⟨kind, name, nullable, known, made⟩
  rcases kind_spelling attr.dataType.kind with ⟨spells, -, words⟩
  have flags := endsType_flagTokens (!attr.nullable) (attr.defaultValue.map tokensOf)
    (attr.unique && !attr.primaryKey) endsToken []
  have typed := typeWords_append words (typeWords_parameterTokens attr.dataType flags)
  have tail : (columnTokens attr ++ [Token.punct separator]).tail =
      (kindWords attr.dataType.kind).map .word ++
      (parameterTokens attr.dataType ++
        (flagTokens (!attr.nullable) (attr.defaultValue.map tokensOf)
        (attr.unique && !attr.primaryKey) ++ [Token.punct separator])) := by
    rw [columnTokens_eq]
    simp only [List.cons_append, List.tail_cons, List.append_assoc]
  rw [tail, typed] at known made
  dsimp only at known made
  rw [join_kindWords, spells, Option.some.injEq] at known
  subst known
  rw [parameters_parameterTokens own scaled flags] at made
  dsimp only at made
  have stored := congrArg (fun outcome : Cursor × ParsedColumn => outcome.2.defaultValue) made
  dsimp only at stored
  rw [readColumn, default] at stored
  rcases exists_of_constraints stored with empty | ⟨clause, suffix, found⟩
  · cases empty
  · have behind := clause_of_flagTokens endsToken suffix
    exact storedDefault_ne endsToken plain.balanced leaves behind found

/-- A line is read back exactly if its default closes its quotes and is not cut by a word outside
its parentheses. -/
theorem readsBack_iff (ends : separator = ',' ∨ separator = ')')
    (own : attr.dataType.carriesOwnParameters = true)
    (scaled : attr.dataType.scale.isSome = true → attr.dataType.precision.isSome = true)
    (plain : ∀ value ∈ attr.defaultValue, IsPlainDefault value) : ReadsBack attr separator ↔
      ∀ value ∈ attr.defaultValue, isClosed value = true ∧
        staysInside 0 (tokensOf value) = true := by
  constructor
  · intro reads value default
    exact ⟨isClosed_of_readsBack ends default (plain value default) reads,
      staysInside_of_readsBack ends default own scaled (plain value default) reads⟩
  · intro inside
    have endsToken : endsItem (.punct separator) := by
      rcases ends with rfl | rfl
      · exact .inl rfl
      · exact .inr rfl
    have lexed := lex_column_separator ends fun value default =>
      selfContained_of_isClosed (plain value default).unbroken (inside value default).1
    refine ⟨_, (scan_of_lex lexed (by simp)).1, ?_⟩
    intro rest
    rw [List.append_assoc]
    exact column_of_staysInside own scaled (fun value default => ⟨(plain value default).nonempty,
      (inside value default).2⟩) endsToken rest

end Lines

/-- A required column that defaults to a number in parentheses. -/
def numberColumn : Attribute :=
  { Attribute.new "a" " amount" ⟨.numeric, none, some 8, some 2⟩ with
    nullable := false
    unique := true
    defaultValue := some "round(1, 2)" }

theorem readsBack_numberColumn : @ReadsBack Unicode.ascii numberColumn ',' := by
  have plain : ∀ value ∈ numberColumn.defaultValue, @IsPlainDefault Unicode.ascii value := by
    intro value mem
    cases mem
    exact @IsPlainDefault.mk Unicode.ascii _ (by decide +kernel) (by decide +kernel)
      (by decide +kernel)
  refine (@readsBack_iff Unicode.ascii numberColumn ',' (.inl rfl) rfl (fun _ => rfl) plain).mpr ?_
  intro value mem
  cases mem
  exact ⟨by decide +kernel, by decide +kernel⟩

/-- A required column that defaults to `NULL`. -/
def nullColumn : Attribute :=
  { Attribute.new "a" "amount" ⟨.integer, none, none, none⟩ with
    nullable := false, defaultValue := some "NULL" }

/-- The line of such a column is read as one of a column that may be null and has no default. -/
theorem not_readsBack_nullColumn : nullColumn.dataType.carriesOwnParameters = true ∧
    (∀ value ∈ nullColumn.defaultValue, @IsPlainDefault Unicode.ascii value) ∧
    ¬ @ReadsBack Unicode.ascii nullColumn ',' := by
  refine ⟨rfl, ?_, ?_⟩
  · intro value mem
    cases mem
    exact @IsPlainDefault.mk Unicode.ascii _ (by decide +kernel) (by decide +kernel)
      (by decide +kernel)
  · rintro ⟨tokens, scanned, back⟩
    have written : (@scan Unicode.ascii (Generator.column nullColumn ++ [','])).1.map
        Statement.tokens =
        [[.quoted "amount", .word "integer", .word "not", .word "null",
          .word "default", .word "null", .punct ',']] := by decide
    rw [written, List.cons.injEq] at scanned
    rcases scanned with ⟨rfl, -⟩
    have read := congrArg (fun outcome : Except Str ParsedColumn × Cursor =>
      outcome.1.toOption.map ParsedColumn.nullable) (back [])
    revert read
    decide

end SchemaForge.Sql
