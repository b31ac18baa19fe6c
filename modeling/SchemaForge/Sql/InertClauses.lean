import SchemaForge.Sql.ClauseReading

/-!
# Clauses the model cannot hold

Actions of a reference, identities, names of constraints, collations and checks
are passed over, so a column should be read as it is read without them. The
reader meets some of its own words in them, and this file says when that does
no harm.
-/

namespace SchemaForge.Sql

section Effect

/-- The clauses that store a default, each with what it stores. -/
def storing : List ColumnClause → List (ColumnClause × List Token)
  | [] => []
  | clause :: clauses =>
      (if (clause.stores clauses).isEmpty then [] else [(clause, clause.stores clauses)]) ++
        storing clauses

theorem effect_defaultValue (clauses : List ColumnClause) (column : ParsedColumn) :
    (effect clauses column).defaultValue =
      ((storing clauses).getLast?.map fun stored => render stored.2).or column.defaultValue := by
  induction clauses generalizing column with
  | nil => rfl
  | cons clause clauses ih =>
      rw [effect, ih, storing, List.getLast?_append, ColumnClause.mark]
      dsimp only
      cases later : (storing clauses).getLast? with
      | some last => rfl
      | none =>
          rw [Option.none_or]
          split
          · rfl
          · rfl

theorem effect_nullable (clauses : List ColumnClause) (column : ParsedColumn) :
    (effect clauses column).nullable =
      (clauses.filterMap ColumnClause.nullability).getLast?.getD column.nullable := by
  induction clauses generalizing column with
  | nil => rfl
  | cons clause clauses ih =>
      rw [effect, ih, ColumnClause.mark]
      cases said : clause.nullability with
      | none => rw [List.filterMap_cons_none said, Option.getD_none]
      | some nullable =>
          rw [List.filterMap_cons_some said, List.getLast?_cons, Option.getD_some, Option.getD_some]

theorem effect_primaryKey (clauses : List ColumnClause) (column : ParsedColumn) :
    (effect clauses column).primaryKey =
    (column.primaryKey || clauses.any ColumnClause.isPrimaryKey) := by
  induction clauses generalizing column with
  | nil => exact (Bool.or_false _).symm
  | cons clause clauses ih => rw [effect, ih, ColumnClause.mark, List.any_cons, Bool.or_assoc]

theorem effect_unique (clauses : List ColumnClause) (column : ParsedColumn) :
    (effect clauses column).unique = (column.unique || clauses.any ColumnClause.isUnique) := by
  induction clauses generalizing column with
  | nil => exact (Bool.or_false _).symm
  | cons clause clauses ih => rw [effect, ih, ColumnClause.mark, List.any_cons, Bool.or_assoc]

end Effect

def held (clauses : List ColumnClause) : List ColumnClause :=
  clauses.filter fun clause => !clause.isInert

/-- The clauses that speak of nulls. -/
def speaking (clauses : List ColumnClause) : List ColumnClause :=
  clauses.filter fun clause => clause.nullability.isSome

/-- Without the clauses that the model has no place for the column takes no nulls. -/
def ColumnDefinition.isRequired (definition : ColumnDefinition) : Bool :=
  ((held definition.clausesRead).filterMap ColumnClause.nullability).getLast?.elim
    (isSerial definition.typeName) not

/-- Of the clauses that are read, the last one that stores a default is held by the model, and in a
column that takes no nulls so is the last one that speaks of them. -/
structure IsHarmless (definition : ColumnDefinition) : Prop where
  defaults : ∀ last ∈ (storing definition.clausesRead).getLast?, last.1.isInert = false
  nulls : definition.isRequired = true →
    ∀ last ∈ (speaking definition.clausesRead).getLast?, last.isInert = false

structure IsUnchanged (parsed bare : ParsedColumn) : Prop where
  defaultValue : parsed.defaultValue = bare.defaultValue
  unique : parsed.unique = bare.unique
  primaryKey : parsed.primaryKey = bare.primaryKey
  nullable : bare.nullable = false → parsed.nullable = false

/-- The column is read as it is read without the clauses that the model has no place for. -/
def ClausesAreInert (definition : ColumnDefinition) (rest : Cursor) (table : ParsedTable) : Prop :=
  ∃ parsed bare, (item (definition.tokens ++ rest) table).2.columns = table.columns ++ [parsed] ∧
    (item (definition.bare.tokens ++ rest) table).2.columns = table.columns ++ [bare] ∧
      IsUnchanged parsed bare

section Bare

variable {definition : ColumnDefinition}

theorem ColumnDefinition.IsWellFormed.bare (wellFormed : definition.IsWellFormed) :
    definition.bare.IsWellFormed where
  named := wellFormed.named
  column := wellFormed.column
  typed := wellFormed.typed
  balanced := wellFormed.balanced
  known := wellFormed.known
  clauses clause mem := wellFormed.clauses clause (List.mem_of_mem_filter mem)
  placed := by
    have plain : ∀ clause ∈ definition.bare.clauses, clause.isAction = false := by
      intro clause mem
      have kept := (List.mem_filter.mp mem).2
      cases clause with
      | on event action => cases kept
      | _ => rfl
    generalize definition.bare.clauses = clauses at plain
    generalize false = referenced
    induction clauses generalizing referenced with
    | nil => rfl
    | cons clause clauses ih =>
        rw [List.forall_mem_cons] at plain
        rw [actionsPlaced, plain.1, Bool.not_false, Bool.true_or, Bool.true_and]
        exact ih plain.2 _

theorem held_readClauses (referenced : Bool) (clauses : List ColumnClause) :
    held (readClauses referenced clauses) = readClauses referenced (held clauses) := by
  induction clauses generalizing referenced with
  | nil => rfl
  | cons clause clauses ih =>
      cases inert : clause.isInert with
      | true =>
          have inLoop : clause.isReference = false := by
            cases clause with
            | references table target => cases inert
            | _ => rfl
          have passes : clause.passes = true := by
            cases clause with
            | default expression => cases inert
            | _ => rfl
          have dropped (behind : List ColumnClause) : held (clause :: behind) = held behind := by
            rw [held, List.filter_cons_of_neg (by simp [inert]), held]
          rw [readClauses, inLoop, Bool.false_and, if_neg Bool.false_ne_true, passes, if_pos rfl,
            dropped, dropped,
            Bool.or_false, ih]
      | false =>
          have kept (behind : List ColumnClause) : held (clause :: behind) = clause ::
              held behind := by
            rw [held, List.filter_cons_of_pos (by simp [inert]), held]
          rw [readClauses, kept, readClauses]
          split
          · rfl
          · rw [kept]
            split
            · rw [ih]
            · rfl

theorem clausesRead_bare (definition : ColumnDefinition) :
    definition.bare.clausesRead = held definition.clausesRead := by
  have left : definition.bare.typeLeft = definition.typeLeft := rfl
  rw [ColumnDefinition.clausesRead, ColumnDefinition.clausesRead, left]
  split
  · exact (held_readClauses false definition.clauses).symm
  · rfl

/-- What a held clause stores does not depend on the clauses behind it. -/
theorem storing_held (clauses : List ColumnClause) :
    storing (held clauses) = (storing clauses).filter fun stored => !stored.1.isInert := by
  induction clauses with
  | nil => rfl
  | cons clause clauses ih =>
      cases inert : clause.isInert with
      | true =>
          rw [held, List.filter_cons_of_neg (by simp [inert]), ← held, ih, storing,
            List.filter_append]
          split
          · rfl
          · rw [List.filter_cons_of_neg (by simp [inert])]
            rfl
      | false =>
          have same : clause.stores (held clauses) = clause.stores clauses := by
            cases clause with
            | default expression => rfl
            | on event action => cases inert
            | generated always => cases inert
            | _ => rfl
          rw [held, List.filter_cons_of_pos (by simp [inert]), ← held, storing, storing, ih, same,
            List.filter_append]
          split
          · rfl
          · rw [List.filter_cons_of_pos (by simp [inert])]
            rfl

end Bare

section Stray

theorem render_singleton (token : Token) : render [token] = piece token := by
  simp [render, joint]

theorem head?_render {token : Token} (spelled : piece token ≠ []) (tokens : List Token) :
    (render (token :: tokens)).head? = (piece token).head? := by
  rcases render_append_eq [token] tokens with ⟨gap, split⟩
  rw [← List.singleton_append, split, render_singleton, List.append_assoc,
    List.head?_append_of_ne_nil _ spelled]

/-- A word in front of other tokens ends where it is rendered to end. -/
theorem render_cons_word {word : Str} (spelled : word ≠ [])
    (solid : word.all (fun c => !isStop c) = true) (tokens : List Token) :
    ∃ rest, render (.word word :: tokens) = word ++ rest ∧ Stops rest := by
  have single : render [.word word] = word := render_singleton (.word word)
  have notOpening : word.getLast? ≠ some '(' := by
    intro last
    have here := List.all_eq_true.mp solid '(' (List.mem_of_getLast? last)
    cases here
  induction tokens using List.reverseRecOn with
  | nil => exact ⟨[], by rw [single, List.append_nil], stops_nil⟩
  | append_singleton tokens token ih =>
      rcases ih with ⟨rest, split, stops⟩
      have grown : render (.word word :: (tokens ++ [token])) =
          word ++ (rest ++ (joint (word ++ rest) (piece token) ++ piece token)) := by
        rw [← List.cons_append, render_append, split]
        simp only [List.append_assoc]
      refine ⟨_, grown, ?_⟩
      cases rest with
      | cons c rest => exact stops
      | nil =>
          rw [List.append_nil, List.nil_append]
          have follows := @mayFollow_joint word (piece token) []
          rw [List.append_nil] at follows
          rcases follows with empty | opening | stops'
          · exact absurd empty spelled
          · exact absurd opening notOpening
          · exact stops'

theorem takeWhile_word {word rest : Str} (solid : word.all (fun c => !isStop c) = true)
    (stops : Stops rest) :
    (word ++ rest).takeWhile (fun c => !isStop c) = word := by
  rw [List.takeWhile_append_of_pos (List.all_eq_true.mp solid)]
  cases rest with
  | nil => exact List.append_nil word
  | cons c rest => rw [List.takeWhile_cons, stops c rfl, Bool.not_true, if_neg Bool.false_ne_true,
    List.append_nil]

/-- What is stored for `SET DEFAULT` or `BY DEFAULT` is no expression. -/
theorem render_ne_of_stray {token : Token} (starts : startsExpression token = true) {front : Str}
    (stray : front = "as" ∨ front = "on") (tokens behind : List Token) :
    render (token :: tokens) ≠ render (.word front :: behind) := by
  intro same
  have frontSpelled : front ≠ [] ∧ front.all (fun c => !isStop c) = true ∧
      (front.head? = some 'a' ∨ front.head? = some 'o') := by
    rcases stray with rfl | rfl <;> decide
  have heads : piece token ≠ [] → (piece token).head? = some 'a' ∨
      (piece token).head? = some 'o' := by
    intro spelled
    have first := congrArg List.head? same
    rw [head?_render spelled, @head?_render (.word front) frontSpelled.1] at first
    rw [first]
    exact frontSpelled.2.2
  cases token with
  | word word =>
      simp only [startsExpression, Bool.and_eq_true, Bool.not_eq_true', List.isEmpty_eq_false_iff,
        bne_iff_ne] at starts
      rcases render_cons_word starts.1.1.1 starts.2 tokens with ⟨rest, split, stops⟩
      rcases render_cons_word frontSpelled.1 frontSpelled.2.1 behind with ⟨rest', split', stops'⟩
      have cut := congrArg (List.takeWhile fun c => !isStop c) same
      rw [split, split', takeWhile_word starts.2 stops,
        takeWhile_word frontSpelled.2.1 stops'] at cut
      rcases stray with rfl | rfl
      · exact starts.1.1.2 cut
      · exact starts.1.2 cut
  | quoted name => rcases heads (by simp [piece]) with first | first <;> cases first
  | text text => rcases heads (by simp [piece]) with first | first <;> cases first
  | number number =>
      cases number with
      | nil => cases starts
      | cons c number =>
          have digit : c.isDigit = true := starts
          rcases heads (List.cons_ne_nil c number) with first | first
          · cases first
            cases digit
          · cases first
            cases digit
  | punct c =>
      have mark : c.isAlpha = false := by simpa [startsExpression] using starts
      rcases heads (List.cons_ne_nil c []) with first | first
      · cases first
        cases mark
      · cases first
        cases mark

theorem storing_cases {clauses : List ColumnClause} {stored : ColumnClause × List Token}
    (mem : stored ∈ storing clauses) :
    (∃ expression, .default expression ∈ clauses ∧
      stored = (.default expression, takenOf expression) ∧
        takenOf expression ≠ []) ∨
      stored.1.isInert = true ∧ ∃ (front : Str) (behind : List Token),
        (front = "as" ∨ front = "on") ∧
        stored.2 = .word front :: behind := by
  induction clauses with
  | nil => cases mem
  | cons clause clauses ih =>
      rcases List.mem_append.mp mem with here | later
      · split at here
        · cases here
        · rename_i nonempty
          rw [List.mem_singleton] at here
          subst here
          rw [List.isEmpty_iff] at nonempty
          cases clause with
          | default expression => exact .inl ⟨expression, List.mem_cons_self, rfl, nonempty⟩
          | generated always =>
              cases always with
              | true => exact absurd rfl nonempty
              | false => exact .inr ⟨rfl, "as", _, .inl rfl, rfl⟩
          | on event action =>
              cases action with
              | setDefault =>
                  refine .inr ⟨rfl, "on", ?_⟩
                  change swallowed clauses ≠ [] at nonempty
                  change ∃ behind, _ ∧ swallowed clauses = _
                  unfold swallowed at nonempty ⊢
                  split at nonempty
                  · exact ⟨_, .inr rfl, rfl⟩
                  · exact ⟨_, .inr rfl, rfl⟩
                  · exact ⟨_, .inr rfl, rfl⟩
                  · exact absurd rfl nonempty
              | _ => exact absurd rfl nonempty
          | _ => exact absurd rfl nonempty
      · rcases ih later with ⟨expression, listed, same⟩ | stray
        · exact .inl ⟨expression, List.mem_cons_of_mem clause listed, same⟩
        · exact .inr stray

/--
What is stored last is what is stored last without the inert clauses, unless it is one of them.
-/
theorem stored_eq_iff {clauses : List ColumnClause}
    (wellFormed : ∀ clause ∈ clauses, clause.IsWellFormed) :
    ((storing clauses).getLast?.map fun stored => render stored.2) =
        ((storing (held clauses)).getLast?.map fun stored => render stored.2) ↔
      ∀ last ∈ (storing clauses).getLast?, last.1.isInert = false := by
  rw [storing_held]
  cases found : (storing clauses).getLast? with
  | none =>
      rw [List.getLast?_eq_none_iff] at found
      rw [found]
      refine ⟨fun _ => ?_, fun _ => rfl⟩
      rintro last ⟨⟩
  | some last =>
      rcases List.getLast?_eq_some_iff.mp found with ⟨front, split⟩
      have listed : last ∈ storing clauses := by
        rw [split]
        exact List.mem_append_right front List.mem_cons_self
      cases inert : last.1.isInert with
      | false =>
          have kept : ((storing clauses).filter fun stored => !stored.1.isInert).getLast? =
              some last := by
            rw [split, List.filter_append, List.filter_cons_of_pos (by simp [inert]),
              List.filter_nil, List.getLast?_concat]
          rw [kept]
          refine ⟨fun _ => ?_, fun _ => rfl⟩
          rintro other ⟨⟩
          exact inert
      | true =>
          refine ⟨fun same => ?_, fun heldLast => ?_⟩
          · rcases storing_cases listed with ⟨expression, -, rfl, -⟩ |
              ⟨-, word, behind, stray, text⟩
            · cases inert
            · rcases Option.map_eq_some_iff.mp same.symm with ⟨other, otherLast, rendered⟩
              have otherMem := List.mem_filter.mp (List.mem_of_getLast? otherLast)
              rcases storing_cases otherMem.1 with ⟨expression, expressionMem, rfl, nonempty⟩ |
                ⟨otherInert, -⟩
              · -- A default starts with the first token of its expression.
                have value : IsDefaultExpression expression := wellFormed _ expressionMem
                rcases List.exists_cons_of_ne_nil nonempty with ⟨token, tokens, taken⟩
                have whole := Cursor.takeInside_append afterType 0 expression
                rw [← Cursor.takeUntilSeparator, ← takenOf, taken] at whole
                have starts := value.starts token (by rw [← whole]; rfl)
                dsimp only at rendered
                rw [taken, text] at rendered
                exact absurd rendered (render_ne_of_stray starts stray tokens behind)
              · rw [otherInert] at otherMem
                cases otherMem.2
          · rw [heldLast last rfl] at inert
            cases inert

end Stray

theorem any_held {clauses : List ColumnClause} {test : ColumnClause → Bool}
    (kept : ∀ clause, test clause = true → clause.isInert = false) :
    (held clauses).any test = clauses.any test := by
  rw [held, List.any_filter]
  congr 1
  funext clause
  cases passed : test clause with
  | true => rw [kept clause passed]; rfl
  | false => exact Bool.and_false _

theorem getLast?_nullability (clauses : List ColumnClause) :
    (clauses.filterMap ColumnClause.nullability).getLast? =
      (speaking clauses).getLast?.bind ColumnClause.nullability := by
  induction clauses using List.reverseRecOn with
  | nil => rfl
  | append_singleton clauses last ih =>
      rw [speaking, List.filterMap_append, List.filter_append, List.getLast?_append,
        List.getLast?_append]
      cases said : last.nullability with
      | none =>
          rw [List.filterMap_cons_none said, List.filter_cons_of_neg (by simp [said])]
          exact ih
      | some nullable =>
          rw [List.filterMap_cons_some said, List.filter_cons_of_pos (by simp [said])]
          exact said.symm

theorem speaking_held (clauses : List ColumnClause) :
    speaking (held clauses) = held (speaking clauses) := by
  rw [speaking, held, held, speaking, List.filter_filter, List.filter_filter]
  congr 1
  funext clause
  exact Bool.and_comm _ _

theorem getLast?_held {clauses : List ColumnClause}
    (heldLast : ∀ last ∈ clauses.getLast?, last.isInert = false) :
    (held clauses).getLast? = clauses.getLast? := by
  induction clauses using List.reverseRecOn with
  | nil => rfl
  | append_singleton clauses last ih =>
      have kept : last.isInert = false := heldLast last (by simp)
      rw [held, List.filter_append, List.filter_cons_of_pos (by simp [kept]), List.filter_nil,
        List.getLast?_concat,
        List.getLast?_concat]

/-- Only `SET NULL` speaks of nulls among the inert clauses. -/
theorem nullability_of_isInert {clause : ColumnClause} (inert : clause.isInert = true)
    (speaks : clause.nullability.isSome = true) : clause.nullability = some true := by
  cases clause with
  | on event action =>
      cases action with
      | setNull => rfl
      | _ => cases speaks
  | generated always => cases speaks
  | constraint name => cases speaks
  | collate name => cases speaks
  | check body => cases speaks
  | _ => cases inert

/-- A column that takes no nulls stays so exactly if the last word on nulls is held. -/
theorem nullable_iff {definition : ColumnDefinition} :
    ((effect (held definition.clausesRead) definition.start).nullable = false →
        (effect definition.clausesRead definition.start).nullable = false) ↔
      (definition.isRequired = true →
        ∀ last ∈ (speaking definition.clausesRead).getLast?, last.isInert = false) := by
  have required :
      (effect (held definition.clausesRead) definition.start).nullable =
        !definition.isRequired := by
    rw [effect_nullable, ColumnDefinition.isRequired]
    cases ((held definition.clausesRead).filterMap ColumnClause.nullability).getLast? with
    | none => rfl
    | some nullable => exact (Bool.not_not nullable).symm
  constructor
  · intro kept isRequired last found
    rw [Bool.eq_false_iff]
    intro inert
    have speaks : last.nullability.isSome = true :=
      (List.mem_filter.mp (List.mem_of_getLast? found)).2
    have opened : (effect definition.clausesRead definition.start).nullable = true := by
      rw [effect_nullable, getLast?_nullability, found, Option.bind_some,
        nullability_of_isInert inert speaks]
      rfl
    rw [required, isRequired, opened] at kept
    cases kept rfl
  · intro heldLast closed
    rw [required, Bool.not_eq_false'] at closed
    have same : (speaking (held definition.clausesRead)).getLast? =
        (speaking definition.clausesRead).getLast? := by
      rw [speaking_held, getLast?_held (heldLast closed)]
    rw [effect_nullable, getLast?_nullability, ← same, ← getLast?_nullability, ← effect_nullable,
      required, closed]
    rfl

theorem readClauses_subset (referenced : Bool) (clauses : List ColumnClause) :
    readClauses referenced clauses ⊆ clauses := by
  induction clauses generalizing referenced with
  | nil => exact List.Subset.refl []
  | cons first clauses ih =>
      rw [readClauses]
      split
      · exact List.nil_subset _
      · apply List.cons_subset_cons
        split
        · exact ih _
        · exact List.nil_subset _

theorem clausesRead_mem {definition : ColumnDefinition} {clause : ColumnClause}
    (mem : clause ∈ definition.clausesRead) :
    clause ∈ definition.clauses := by
  rw [ColumnDefinition.clausesRead] at mem
  split at mem
  · exact readClauses_subset false definition.clauses mem
  · cases mem

/-- Clauses that the model has no place for change nothing, unless the reader takes a word of `SET
NULL`, `SET DEFAULT` or `BY DEFAULT` for the last word on nulls or on the default. -/
theorem clausesAreInert_iff {definition : ColumnDefinition} (wellFormed : definition.IsWellFormed)
    {rest : Cursor}
    (ends : EndsItem rest) (table : ParsedTable) :
    ClausesAreInert definition rest table ↔ IsHarmless definition := by
  have parsed := item_tokens wellFormed.readable ends table
  have bare := item_tokens wellFormed.bare.readable ends table
  have start : definition.bare.start = definition.start := rfl
  rw [clausesRead_bare, start] at bare
  have keys := @any_held definition.clausesRead ColumnClause.isPrimaryKey
    (by intro clause passed; cases clause <;> first | rfl | cases passed)
  have uniques := @any_held definition.clausesRead ColumnClause.isUnique
    (by intro clause passed; cases clause <;> first | rfl | cases passed)
  have defaults := stored_eq_iff fun clause mem => wellFormed.clauses clause (clausesRead_mem mem)
  have blank : definition.start.defaultValue = none := rfl
  constructor
  · rintro ⟨left, right, leftRead, rightRead, same⟩
    rw [parsed] at leftRead
    rw [bare] at rightRead
    cases List.append_cancel_left leftRead
    cases List.append_cancel_left rightRead
    refine ⟨defaults.mp ?_, nullable_iff.mp same.nullable⟩
    have value := same.defaultValue
    rw [effect_defaultValue, effect_defaultValue, blank, Option.or_none, Option.or_none] at value
    exact value
  · intro harmless
    refine ⟨_, _, parsed, bare, ?_, ?_, ?_, nullable_iff.mpr harmless.nulls⟩
    · rw [effect_defaultValue, effect_defaultValue, blank, Option.or_none, Option.or_none]
      exact defaults.mpr harmless.defaults
    · rw [effect_unique, effect_unique, uniques]
    · rw [effect_primaryKey, effect_primaryKey, keys]

/-- `shelf varchar(80) COLLATE "C" DEFAULT 'A1' CONSTRAINT named CHECK (shelf <> '') REFERENCES
shelves (mark) ON DELETE SET NULL ON UPDATE CASCADE NOT NULL` -/
def shelfColumn : ColumnDefinition where
  name := .word "shelf"
  typed := [.word "varchar", .punct '(', .number "80", .punct ')']
  clauses :=
    [.collate ⟨.quoted "C", []⟩, .default [.text "A1"], .constraint (.word "named"),
      .check [.word "shelf", .punct '<', .punct '>', .text ""],
      .references ⟨.word "shelves", []⟩ (some (.word "mark")), .on .delete .setNull,
        .on .update .cascade, .notNull]

theorem clausesAreInert_shelfColumn : ClausesAreInert shelfColumn [.punct ')'] .blank := by
  have wellFormed : shelfColumn.IsWellFormed := by
    refine ⟨rfl, by decide, by decide, rfl, by decide, ?_, rfl⟩
    intro clause mem
    simp only [shelfColumn, List.mem_cons, List.not_mem_nil, or_false] at mem
    rcases mem with rfl | rfl | rfl | rfl | rfl | rfl | rfl | rfl
    · exact ⟨by decide, by decide⟩
    · exact ⟨by decide, by decide, rfl, by decide, by decide⟩
    · trivial
    · exact rfl
    · exact ⟨⟨by decide, by decide⟩, by decide⟩
    · trivial
    · trivial
    · trivial
  have ends : EndsItem [.punct ')'] := by
    rintro token ⟨⟩
    exact .inr rfl
  exact (clausesAreInert_iff wellFormed ends .blank).mpr ⟨by decide, by decide⟩

/-- `a int NOT NULL REFERENCES b ON DELETE SET NULL` -/
def clearedColumn : ColumnDefinition where
  name := .word "a"
  typed := [.word "int"]
  clauses := [.notNull, .references ⟨.word "b", []⟩ none, .on .delete .setNull]

/-- `a int GENERATED BY DEFAULT AS IDENTITY` -/
def numberedColumn : ColumnDefinition where
  name := .word "a"
  typed := [.word "int"]
  clauses := [.generated false]

/-- A column that takes no nulls is read as one that does, and an identity as a default. -/
theorem not_clausesAreInert_clearedColumn :
    clearedColumn.IsWellFormed ∧ numberedColumn.IsWellFormed ∧
    ¬ClausesAreInert clearedColumn [.punct ')'] .blank ∧
      ¬ClausesAreInert numberedColumn [.punct ')'] .blank := by
  refine ⟨?_, ?_, ?_, ?_⟩
  · refine ⟨rfl, by decide, by decide, rfl, by decide, ?_, rfl⟩
    intro clause mem
    simp only [clearedColumn, List.mem_cons, List.not_mem_nil, or_false] at mem
    rcases mem with rfl | rfl | rfl
    · trivial
    · exact ⟨⟨by decide, by decide⟩, by decide⟩
    · trivial
  · refine ⟨rfl, by decide, by decide, rfl, by decide, ?_, rfl⟩
    intro clause mem
    rw [List.mem_singleton.mp mem]
    trivial
  · rintro ⟨parsed, bare, read, bareRead, same⟩
    have ⟨left, right⟩ :
        (item (clearedColumn.tokens ++ [.punct ')']) .blank).2.columns.map
          ParsedColumn.nullable = [true] ∧
          (item (clearedColumn.bare.tokens ++ [.punct ')']) .blank).2.columns.map
            ParsedColumn.nullable =
            [false] := by
      decide
    rw [read] at left
    rw [bareRead] at right
    have kept := same.nullable (List.cons.inj right).1
    rw [(List.cons.inj left).1] at kept
    cases kept
  · rintro ⟨parsed, bare, read, bareRead, same⟩
    have ⟨left, right⟩ :
        (item (numberedColumn.tokens ++ [.punct ')']) .blank).2.columns.map
          ParsedColumn.defaultValue =
            [some ("as identity" : Str)] ∧
          (item (numberedColumn.bare.tokens ++ [.punct ')']) .blank).2.columns.map
            ParsedColumn.defaultValue =
            [none] := by
      decide
    rw [read] at left
    rw [bareRead] at right
    have kept := same.defaultValue
    rw [(List.cons.inj left).1, (List.cons.inj right).1] at kept
    cases kept

end SchemaForge.Sql
