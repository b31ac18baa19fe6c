import SchemaForge.Generator
import SchemaForge.Verifier.Valid

/-!
# The names of the generated constraints

A foreign key is named after its table and its column, in as many bytes as
PostgreSQL stores. Every name fits; the names of one table are distinct as far as
the part of the column that fits tells its columns apart.
-/

namespace SchemaForge

namespace Generator

theorem utf8Length_cons (c : Char) (s : Str) :
    Str.utf8Length (c :: s) = c.utf8Size + Str.utf8Length s := rfl

theorem utf8Length_truncate_le (bytes : Nat) (s : Str) :
    Str.utf8Length (truncate bytes s) ≤ bytes := by
  induction s generalizing bytes with
  | nil => exact Nat.zero_le _
  | cons c rest ih =>
      rw [truncate]
      split
      · have := ih (bytes - c.utf8Size)
        rw [utf8Length_cons]
        omega
      · exact Nat.zero_le _

example : truncate 3 ['é', 'é'] = ['é'] := by
  rw [truncate, truncate]
  rfl

theorem truncate_append {bytes : Nat} {left : Str} (fits : Str.utf8Length left ≤ bytes)
    (right : Str) :
    truncate bytes (left ++ right) = left ++ truncate (bytes - Str.utf8Length left) right := by
  induction left generalizing bytes with
  | nil => rfl
  | cons c rest ih =>
      rw [utf8Length_cons] at fits
      rw [List.cons_append, truncate, if_pos (by omega), ih (by omega), utf8Length_cons,
        Nat.sub_add_eq]
      rfl

theorem truncate_append_of_long {bytes : Nat} {left : Str} (long : bytes < Str.utf8Length left)
    (right : Str) :
    truncate bytes (left ++ right) = truncate bytes left := by
  induction left generalizing bytes with
  | nil => exact absurd long (Nat.not_lt_zero _)
  | cons c rest ih =>
      rw [utf8Length_cons] at long
      rw [List.cons_append, truncate, truncate]
      split
      · rw [ih (by omega)]
      · rfl

theorem truncate_zero (s : Str) : truncate 0 s = [] := by
  cases s with
  | nil => rfl
  | cons c rest =>
      have := c.utf8Size_pos
      rw [truncate, if_neg (by omega)]

theorem truncate_of_fits {bytes : Nat} {s : Str} (fits : Str.utf8Length s ≤ bytes) :
    truncate bytes s = s := by
  have whole := truncate_append fits []
  rwa [List.append_nil, truncate, List.append_nil] at whole

/-- What stands before the column in a constraint's name. -/
def constraintPrefix (table : Str) : Str := "fk_" ++ Str.trim table ++ "_"

theorem constraintName_eq (table column : Str) :
    constraintName table column = truncate maxIdentifierBytes
      (constraintPrefix table ++ Str.trim column) := by
  change (if maxIdentifierBytes < Str.utf8Length (constraintPrefix table ++ Str.trim column)
    then _ else _) = _
  split
  · rfl
  · rename_i fits
    exact (truncate_of_fits (not_lt.mp fits)).symm

/-- The name as it stands between the quotes, which trim it. -/
def emittedName (resolved : ResolvedKey) : Str :=
  Str.trim (constraintName resolved.entity.name resolved.attr.name)

/-- As much of the column as fits behind the table. -/
def fittingColumn (resolved : ResolvedKey) : Str :=
  Str.trimEnd
    (truncate (maxIdentifierBytes - Str.utf8Length (constraintPrefix resolved.entity.name))
    (Str.trim resolved.attr.name))

theorem trim_sublist (s : Str) : (Str.trim s).Sublist s :=
  (List.rdropWhile_prefix _ _).sublist.trans (List.dropWhile_sublist _)

theorem utf8Length_emittedName_le (resolved : ResolvedKey) :
    Str.utf8Length (emittedName resolved) ≤ maxIdentifierBytes := by
  have cut := utf8Length_truncate_le maxIdentifierBytes
    (constraintPrefix resolved.entity.name ++ Str.trim resolved.attr.name)
  rw [← constraintName_eq] at cut
  exact le_trans (((trim_sublist _).map Char.utf8Size).sum_le_sum fun _ _ => Nat.zero_le _) cut

theorem trim_constraintPrefix_append (table rest : Str) :
    Str.trim (constraintPrefix table ++ rest) = constraintPrefix table ++ Str.trimEnd rest := by
  have start : Str.trimStart (constraintPrefix table ++ rest) = constraintPrefix table ++ rest :=
    rfl
  have stop : (constraintPrefix table).reverse.dropWhile Str.isWhitespace =
      (constraintPrefix table).reverse := by
    rw [constraintPrefix, List.reverse_append]
    rfl
  rw [Str.trim, start, Str.trimEnd, List.rdropWhile, List.reverse_append,
    List.dropWhile_append, stop]
  split
  · rename_i blank
    rw [List.reverse_reverse, Str.trimEnd, List.rdropWhile, List.isEmpty_iff.mp blank,
      List.reverse_nil, List.append_nil]
  · rw [List.reverse_append, List.reverse_reverse]
    rfl

/-- The names of two keys of one table agree exactly if the fitting parts of their columns do. -/
theorem emittedName_eq_iff {first second : ResolvedKey}
    (same : Str.trim first.entity.name = Str.trim second.entity.name) :
    emittedName first = emittedName second ↔ fittingColumn first = fittingColumn second := by
  have prefix_ : constraintPrefix first.entity.name = constraintPrefix second.entity.name := by
    rw [constraintPrefix, constraintPrefix, same]
  unfold emittedName fittingColumn
  rw [constraintName_eq, constraintName_eq, prefix_]
  by_cases fits : Str.utf8Length (constraintPrefix second.entity.name) ≤ maxIdentifierBytes
  · rw [truncate_append fits, truncate_append fits, trim_constraintPrefix_append,
      trim_constraintPrefix_append, List.append_right_inj]
  · have long := not_le.mp fits
    rw [truncate_append_of_long long, truncate_append_of_long long, Nat.sub_eq_zero_of_le long.le,
      truncate_zero, truncate_zero]
    exact iff_of_true rfl rfl

end Generator

namespace Verifier

open Generator

/-- The names that the script gives to the foreign keys of one table are pairwise distinct, and
each is as long as PostgreSQL stores it at most. -/
def ConstraintNamesDistinct (schema : Schema) : Prop :=
  ((resolvedKeys schema).Pairwise fun first second =>
    Str.trim first.entity.name = Str.trim second.entity.name →
      emittedName first ≠ emittedName second) ∧
    ∀ resolved ∈ resolvedKeys schema, Str.utf8Length (emittedName resolved) ≤ maxIdentifierBytes

/--
No two foreign-key columns of one table with different names agree in what fits of their names.
-/
def ColumnsTellApart (schema : Schema) : Prop :=
  ∀ first ∈ resolvedKeys schema, ∀ second ∈ resolvedKeys schema, first.entity = second.entity →
    Str.trim first.attr.name ≠ Str.trim second.attr.name →
      fittingColumn first ≠ fittingColumn second

section

variable [Unicode] {schema : Schema}

theorem nodup_trimmed {α : Type} {items : List α} {name : α → Str}
    (distinct : (items.map fun item => nameKey (name item)).Nodup) :
    items.Pairwise fun first second => Str.trim (name first) ≠ Str.trim (name second) := by
  refine (List.pairwise_map.mp distinct).imp ?_
  intro first second apart same
  exact apart (congrArg Str.toLowercase same)

/-- The key of one column, if it has one that resolves. -/
def keyOf (schema : Schema) (entity : Entity) (attr : Attribute) : List ResolvedKey :=
  match attr.foreignKey with
  | none => []
  | some reference =>
      match schema.resolve reference.entityId reference.attributeId with
      | none => []
      | some (target, key) => [⟨entity, attr, target, key⟩]

omit [Unicode] in
theorem resolvedKeys_eq : resolvedKeys schema =
    schema.entities.flatMap fun entity => entity.attributes.flatMap (keyOf schema entity) := rfl

omit [Unicode] in
theorem holder_of_mem {entity : Entity} {attr : Attribute} {resolved : ResolvedKey}
    (mem : resolved ∈ keyOf schema entity attr) :
    resolved.entity = entity ∧ resolved.attr = attr := by
  unfold keyOf at mem
  split at mem
  · cases mem
  · split at mem
    · cases mem
    · rw [List.mem_singleton.mp mem]
      exact ⟨rfl, rfl⟩

omit [Unicode] in
theorem pairwise_keyOf {entity : Entity} {attr : Attribute} {r : ResolvedKey → ResolvedKey → Prop} :
    (keyOf schema entity attr).Pairwise r := by
  unfold keyOf
  split
  · exact .nil
  · split
    · exact .nil
    · exact List.pairwise_singleton _ _

/-- In a valid schema the keys of one table are on columns of different names. -/
theorem pairwise_resolvedKeys (valid : IsValid schema) :
    (resolvedKeys schema).Pairwise fun first second =>
      Str.trim first.entity.name = Str.trim second.entity.name →
        first.entity = second.entity ∧ Str.trim first.attr.name ≠ Str.trim second.attr.name := by
  have tables := nodup_trimmed valid.nodup_entityKeys
  rw [resolvedKeys_eq, List.pairwise_flatMap]
  constructor
  · intro entity mem
    have columns := nodup_trimmed (valid.nodup_attributeKeys mem)
    rw [List.pairwise_flatMap]
    refine ⟨fun attr _ => pairwise_keyOf, columns.imp ?_⟩
    intro first second apart x xMem y yMem _
    have here := holder_of_mem xMem
    have there := holder_of_mem yMem
    rw [here.1, here.2, there.1, there.2]
    exact ⟨rfl, apart⟩
  · refine tables.imp ?_
    intro first second apart x xMem y yMem same
    rcases List.mem_flatMap.mp xMem with ⟨_, -, xMem⟩
    rcases List.mem_flatMap.mp yMem with ⟨_, -, yMem⟩
    rw [(holder_of_mem xMem).1, (holder_of_mem yMem).1] at same
    exact absurd same apart

theorem constraintNamesDistinct_iff (valid : IsValid schema) :
    ConstraintNamesDistinct schema ↔ ColumnsTellApart schema := by
  constructor
  · rintro ⟨distinct, -⟩ first firstMem second secondMem same apart agree
    have symmetric : Std.Symm fun x y : ResolvedKey =>
        Str.trim x.entity.name = Str.trim y.entity.name → emittedName x ≠ emittedName y :=
      ⟨fun x y differs same clash => differs same.symm clash.symm⟩
    have table : Str.trim first.entity.name = Str.trim second.entity.name := by rw [same]
    have different : first ≠ second := fun one => apart (by rw [one])
    have names := distinct.forall firstMem secondMem different table
    exact names ((emittedName_eq_iff table).mpr agree)
  · intro apart
    refine ⟨(pairwise_resolvedKeys valid).imp_of_mem ?_, fun resolved _ =>
      utf8Length_emittedName_le resolved⟩
    intro first second firstMem secondMem columns same clash
    rcases columns same with ⟨table, different⟩
    exact apart first firstMem second secondMem table different ((emittedName_eq_iff same).mp clash)

end

/-- Two columns that reference their own table; behind `padding` letters their names differ. -/
def addressSchema (padding : Nat) : Schema :=
  let integer : DataType := ⟨.integer, none, none, none⟩
  let column (id last : Str) : Attribute :=
    { Attribute.new id ("shipping_" ++ List.replicate padding 'x' ++ last) integer with
      nullable := false, foreignKey := some ⟨"t", "a"⟩ }
  let key : Attribute :=
  { Attribute.new "a" "id" integer with nullable := false, primaryKey := true }
  { id := "s"
    name := "orders"
    description := []
    entities :=
      [{ Entity.new "t" "orders" with attributes := [key, column "b" "city", column "c" "street"] }]
    relationships := [] }

theorem constraintNamesDistinct_addressSchema : ConstraintNamesDistinct (addressSchema 0) := by
  have apart : ColumnsTellApart (addressSchema 0) := by
    unfold ColumnsTellApart
    decide +kernel
  exact (@constraintNamesDistinct_iff Unicode.ascii (addressSchema 0) (by decide)).mpr apart

/-- No error is reported, and both constraints of the table have one name. -/
theorem not_constraintNamesDistinct_addressSchema :
    @IsValid Unicode.ascii (addressSchema 60) ∧ ¬ ConstraintNamesDistinct (addressSchema 60) := by
  unfold ConstraintNamesDistinct
  decide

end Verifier

end SchemaForge
