import SchemaForge.Sql.RoundTrip
import SchemaForge.Verifier.Copies

/-!
# Scripts opened again and again

What is read from the script of a schema is a copy of the schema, so it is valid
where the schema is, and is written as the very same script. A drawing can then be
saved as a script and opened again any number of times: the ids are new each time,
and the file stays the same.
-/

namespace SchemaForge

namespace F64

theorem round_round (x : F64) : x.round.round = x.round := by
  cases x with
  | nan => rfl
  | infinite negative => rfl
  | finite negative magnitude => simp only [round, mul_unit_add_half_div]

theorem toI64_round_finite {negative : Bool} {magnitude : { n : Nat // IsMagnitude n }} :
    (F64.finite negative magnitude).round.toI64 =
      if negative then max (-(((magnitude.val + unit / 2) / unit : Nat) : Int)) (-2 ^ 63)
      else min (((magnitude.val + unit / 2) / unit : Nat) : Int) (2 ^ 63 - 1) := by
  simp only [round, toI64, Nat.mul_div_cancel _ unit_pos]

theorem toI64_round_of_eq {x y : F64} (same : x.eq y = true) : x.round.toI64 = y.round.toI64 := by
  cases x with
  | nan => cases same
  | infinite negative =>
      cases y with
      | nan => cases same
      | infinite other => rw [beq_iff_eq.mp same]
      | finite other magnitude => cases same
  | finite negative magnitude =>
      cases y with
      | nan => cases same
      | infinite other => cases same
      | finite other magnitude' =>
          simp only [eq, Bool.and_eq_true, Bool.or_eq_true, beq_iff_eq] at same
          rcases same with ⟨values, rfl | zero⟩
          · rw [toI64_round_finite, toI64_round_finite, values]
          · -- Both zeros are read as `0`.
            have half : (0 + unit / 2) / unit = 0 :=
              Nat.div_eq_of_lt (by rw [Nat.zero_add]; exact Nat.div_lt_self unit_pos (by decide))
            rw [toI64_round_finite, toI64_round_finite, ← values, zero, half]
            cases negative <;> cases other <;> rfl

/-- The bounds of an `i64` are read back as themselves. -/
theorem toI64_round_ofInt_bound (negative : Bool) :
    (ofInt (if negative then -2 ^ 63 else 2 ^ 63 - 1)).round.toI64 = if negative then -2 ^ 63
      else 2 ^ 63 - 1 := by
  cases negative with
  | false =>
      rw [if_neg Bool.false_ne_true, ofInt_max, toI64_round_finite, mul_unit_add_half_div]
      rfl
  | true =>
      rw [if_pos rfl, ofInt_min, toI64_round_finite, mul_unit_add_half_div]
      rfl

/-- A number that was rounded to an `i64` is rounded to the same `i64` again. -/
theorem toI64_round_ofInt_toI64_round (x : F64) :
    (ofInt x.round.toI64).round.toI64 = x.round.toI64 := by
  by_cases fits : x.fitsI64 = true
  · rw [toI64_round_of_eq ((eq_ofInt_toI64_round_iff x).mpr fits), round_round]
  · cases x with
    | nan =>
        have zero : (ofInt 0).eq
            (.finite false ⟨0 * unit, isMagnitude_mul_unit (Nat.zero_le _)⟩) = true :=
          eq_ofInt _ rfl fun nonzero => absurd rfl nonzero
        refine (toI64_round_of_eq zero).trans ?_
        rw [toI64_round_finite, mul_unit_add_half_div]
        rfl
    | infinite negative => exact toI64_round_ofInt_bound negative
    | finite negative magnitude =>
        have large : 2 ^ 63 < (magnitude.val + unit / 2) / unit := by
          rw [← not_le, round_le_iff magnitude.property]
          simpa [fitsI64] using fits
        have bound : (F64.finite negative magnitude).round.toI64 = if negative then -2 ^ 63
            else 2 ^ 63 - 1 := by
          rw [toI64_round_finite]
          cases negative with
          | false =>
              rw [if_neg Bool.false_ne_true, if_neg Bool.false_ne_true, min_eq_right (by omega)]
          | true => rw [if_pos rfl, if_pos rfl, max_eq_right (by omega)]
        rw [bound, toI64_round_ofInt_bound]

end F64

namespace Sql

open Generator Exchange Verifier

section Reopened

variable {uuid : Element → Str} {schema : Schema}

/-- A schema as it is opened from its script, under an id of its own. -/
def reopened (id : Str) (uuid : Element → Str) (schema : Schema) : Schema :=
  .new id (scriptDraft uuid schema)

theorem entity_reopened (id : Str) (fresh : IsFresh uuid schema) {entity : Entity}
    (mem : entity ∈ schema.entities) :
    (reopened id uuid schema).entity
    (tableId uuid schema entity) = some (placedImage uuid schema entity) := by
  refine List.find?_eq_some_of_unique (List.mem_map_of_mem mem) (beq_iff_eq.mpr rfl) ?_
  intro image imageMem same
  rcases List.mem_map.mp imageMem with ⟨other, otherMem, rfl⟩
  rw [tableId_injective fresh otherMem mem (beq_iff_eq.mp same)]

theorem resolve_reopened (id : Str) (fresh : IsFresh uuid schema) {entity : Entity}
    (mem : entity ∈ schema.entities) {attr : Attribute} (attrMem : attr ∈ entity.attributes) :
    (reopened id uuid schema).resolve (tableId uuid schema entity)
    (columnId uuid schema entity attr) =
      some (placedImage uuid schema entity, columnImage uuid schema
        (scriptMarks uuid schema) entity attr) := by
  refine Schema.resolve_eq_some_iff.mpr ⟨entity_reopened id fresh mem, ?_⟩
  refine List.find?_eq_some_of_unique (List.mem_map_of_mem attrMem) (beq_iff_eq.mpr rfl) ?_
  intro image imageMem same
  rcases List.mem_map.mp imageMem with ⟨other, otherMem, rfl⟩
  rw [columnId_injective fresh mem otherMem attrMem (beq_iff_eq.mp same)]

theorem key_scriptMarks_of_keyTarget {entity : Entity} {attr : Attribute}
    (dangling : keyTarget schema attr = none) :
    (scriptMarks uuid schema).key entity attr = none := by
  rw [scriptMarks, key_foldl_describe]
  refine @List.foldl_get_of_kept _ _ _ (Marks.point uuid schema) (fun marks =>
    marks.key entity attr) _
    (fun state resolved mem => ?_) .blank
  rcases mem_resolvedKeys.mp mem with ⟨_, _, reference, points, resolves⟩
  have elsewhere : ¬(entity = resolved.entity ∧ attr = resolved.attr) := by
    rintro ⟨-, rfl⟩
    rw [keyTarget, points, Option.bind_some, resolves] at dangling
    cases dangling
  simp only [Marks.point, if_neg elsewhere]

theorem isCopy_reopened (id : Str) (fresh : IsFresh uuid schema) :
    IsCopy (placedImage uuid schema) (columnImage uuid schema (scriptMarks uuid schema)) schema
      (reopened id uuid schema) where
  tables := rfl
  names _ _ := rfl
  columns _ _ := rfl
  declared _ _ _ _ := ⟨rfl, rfl, rfl, rfl, rfl, rfl⟩
  targets entity mem attr attrMem := by
    cases found : keyTarget schema attr with
    | none =>
        have unmarked := @key_scriptMarks_of_keyTarget uuid schema entity attr found
        rw [keyTarget, columnImage, unmarked]
        rfl
    | some pair =>
        rcases pair with ⟨target, key⟩
        rcases Option.bind_eq_some_iff.mp found with ⟨reference, points, resolves⟩
        rcases Schema.mem_of_resolve resolves with ⟨targetMem, keyMem, -, -⟩
        have resolved : (⟨entity, attr, target, key⟩ : ResolvedKey) ∈ resolvedKeys schema :=
          mem_resolvedKeys.mpr ⟨mem, attrMem, reference, points, resolves⟩
        have marked := @key_scriptMarks uuid schema _ resolved
        dsimp only at marked
        rw [keyTarget, columnImage, marked, Option.bind_some, referenceTo,
          resolve_reopened id fresh targetMem keyMem, Option.map_some]
  keyless entity _ attr _ plain := key_scriptMarks_of_none plain entity

theorem describedAlike_reopened :
    IsCopy.DescribedAlike (placedImage uuid schema)
      (columnImage uuid schema (scriptMarks uuid schema)) schema where
  tables entity mem := by
    have note :=
      @note_foldl_describe schema entity mem
        ((resolvedKeys schema).foldl (Marks.point uuid schema) .blank)
      (@List.foldl_get_of_kept _ _ _ (Marks.point uuid schema) (fun marks => marks.note entity) _
        (fun _ _ _ => rfl) _)
    rw [placedImage, tableImage, scriptMarks, note, Str.trim_trim]
  columns entity mem attr attrMem := by
    have note := @columnNote_foldl_describe schema entity mem attr attrMem
      ((resolvedKeys schema).foldl (Marks.point uuid schema) .blank)
      (@List.foldl_get_of_kept _ _ _ (Marks.point uuid schema)
        (fun marks => marks.columnNote entity attr) _
        (fun _ _ _ => rfl) _)
    rw [columnImage, scriptMarks, note, Str.trim_trim]

theorem placedAlike_reopened : IsCopy.PlacedAlike (placedImage uuid schema) schema :=
  fun entity _ => ⟨F64.toI64_round_ofInt_toI64_round entity.position.x,
    F64.toI64_round_ofInt_toI64_round entity.position.y⟩

/-- The lines that are drawn for the foreign keys are borne by them. -/
theorem isBorne_reopened (id : Str) (fresh : IsFresh uuid schema) :
    ∀ link ∈ (reopened id uuid schema).relationships, IsBorne (reopened id uuid schema) link := by
  intro link mem
  rcases List.mem_map.mp mem with ⟨⟨resolved, index⟩, indexed, rfl⟩
  have found := List.fst_mem_of_mem_zipIdx indexed
  rcases mem_resolvedKeys.mp found with ⟨holderMem, attrMem, reference, _, resolves⟩
  rcases Schema.mem_of_resolve resolves with ⟨targetMem, keyMem, -, -⟩
  refine ⟨_, _, _, _, resolve_reopened id fresh targetMem keyMem,
    resolve_reopened id fresh holderMem attrMem, .inr (.inr ?_)⟩
  have marked := @key_scriptMarks uuid schema _ found
  rw [Verifier.pointsAt, columnImage, marked]
  simp only [referenceTo, placedImage, tableImage, columnImage, beq_self_eq_true, Bool.and_self]

variable [Unicode]

/-- A schema that can be saved as a script and opened again. -/
structure IsReopenable (schema : Schema) : Prop where
  carried : IsCarried schema
  valid : IsValid schema
  ids : Exchange.HasDistinctIds schema.draft

omit [Unicode] in
theorem elements_reopened (id : Str) : elements (reopened id uuid schema) = elements schema := by
  have counts : (reopened id uuid schema).entities.map (fun entity => entity.attributes.length) =
      schema.entities.map fun entity => entity.attributes.length := by
    change (schema.entities.map (placedImage uuid schema)).map _ = _
    rw [List.map_map]
    exact List.map_congr_left fun entity _ => List.length_map ..
  have shape (schema : Schema) : elements schema =
      (schema.entities.map fun entity => entity.attributes.length).zipIdx.flatMap
        fun (count, index) =>
        .entity index :: (List.range count).map (.attr index) := by
    rw [elements, List.zipIdx_map, List.flatMap_map]
    rfl
  rw [shape, shape, counts]

theorem isReopenable_reopened (id : Str) (reopenable : IsReopenable schema)
    (fresh : IsFresh uuid schema) :
    IsReopenable (reopened id uuid schema) := by
  have distinct := reopenable.carried.distinct
  have readable := reopenable.carried.readable
  have ids := hasDistinctIds_scriptDraft distinct fresh
  have images {property : Entity → Prop}
      (holds : ∀ entity ∈ schema.entities, property (placedImage uuid schema entity)) :
      ∀ entity ∈ (reopened id uuid schema).entities, property entity :=
    List.forall_mem_map.mpr holds
  have columns {entity : Entity} {property : Attribute → Prop}
      (holds : ∀ attr ∈ entity.attributes,
        property (columnImage uuid schema (scriptMarks uuid schema) entity attr)) :
      ∀ attr ∈ (placedImage uuid schema entity).attributes, property attr :=
    List.forall_mem_map.mpr holds
  have columnNames (entity : Entity) :
      (placedImage uuid schema entity).attributes.map Attribute.name =
        entity.attributes.map Attribute.name :=
    List.map_map ..
  have tableNames : (reopened id uuid schema).entities.map Entity.name =
      schema.entities.map Entity.name :=
    List.map_map ..
  have sound := isValid_iff_isWellFormed.mp reopenable.valid
  have copied := isCopy_reopened id fresh
  refine ⟨?_, isValid_iff_isWellFormed.mpr ?_, ids⟩
  · constructor
    case nonempty => simpa [reopened, Schema.new, scriptDraft] using reopenable.carried.nonempty
    case readable =>
      constructor
      · refine images fun entity mem => ?_
        have table := readable.tables entity mem
        constructor
        · exact table.name
        · refine columns fun attr attrMem => ?_
          have column := table.columns attr attrMem
          exact ⟨column.name, column.parameters, column.sound, column.default⟩
        · rw [columnNames]
          exact table.apart
        · have key := table.key
          rw [Entity.hasPrimaryKey, List.any_eq_true] at key ⊢
          rcases key with ⟨attr, attrMem, flagged⟩
          exact ⟨_, List.mem_map_of_mem attrMem, flagged⟩
      · exact images fun entity mem => columns fun attr attrMem =>
          readable.points entity mem attr attrMem
    case distinct =>
      constructor
      · exact .of_map _ ids.1
      · exact fun entity mem => .of_map _ (ids.2 entity mem)
      · rw [tableNames]
        exact distinct.tables
      · refine images fun entity mem => ?_
        rw [columnNames]
        exact distinct.columns entity mem
    case flagged =>
      exact images fun entity mem => columns fun attr attrMem =>
        reopenable.carried.flagged entity mem attr attrMem
    case single => exact images fun entity mem => reopenable.carried.single entity mem
  · exact copied.isWellFormed sound reopenable.ids.1 ids.1 (isBorne_reopened id fresh)

/-- A schema is saved as a script and opened again, and nothing in the file is skipped. -/
def reopen (schema : Schema) (drawn : Str × (Element → Str)) : Option Schema :=
  match read drawn.2 (generate schema .standard) true with
  | .ok (draft, ⟨[]⟩) => some (.new drawn.1 draft)
  | _ => none

theorem reopen_eq (reopenable : IsReopenable schema) {drawn : Str × (Element → Str)}
    (fresh : IsFresh drawn.2 schema) :
    reopen schema drawn = some (reopened drawn.1 drawn.2 schema) := by
  rw [reopen, read_generate reopenable.carried fresh]
  rfl

/--
However often a valid schema is saved as a script and opened again, under whatever fresh ids: it is
valid, and its script is the one it was first saved as.
-/
theorem reopen_run (reopenable : IsReopenable schema) {draws : List (Str × (Element → Str))}
    (fresh : ∀ drawn ∈ draws, IsFresh drawn.2 schema) :
    ∃ last, draws.foldlM reopen schema = some last ∧ IsValid last ∧
      ∀ options, generate last options = generate schema options := by
  induction draws generalizing schema with
  | nil => exact ⟨schema, rfl, reopenable.valid, fun _ => rfl⟩
  | cons drawn draws ih =>
      rw [List.forall_mem_cons] at fresh
      have later : ∀ other ∈ draws, IsFresh other.2 (reopened drawn.1 drawn.2 schema) := by
        intro other mem
        rw [IsFresh, elements_reopened]
        exact fresh.2 other mem
      rcases ih (isReopenable_reopened drawn.1 reopenable fresh.1) later with
        ⟨last, run, valid, same⟩
      refine ⟨last, ?_, valid, fun options => (same options).trans ?_⟩
      · rw [List.foldlM_cons, reopen_eq reopenable fresh.1]
        exact run
      · exact (isCopy_reopened drawn.1 fresh.1).generate describedAlike_reopened
          placedAlike_reopened options

end Reopened

theorem reopen_run_shelfSchema : letI := Unicode.ascii
    ∃ last, [(("m" : Str), shelfUuid), ("n", shelfUuid)].foldlM reopen shelfSchema = some last ∧
      IsValid last ∧
      ∀ options, generate last options = generate shelfSchema options := by
  let := Unicode.ascii
  have writable := isWritable_shelfSchema
  have fresh : IsFresh shelfUuid shelfSchema := by decide
  exact reopen_run ⟨writable.isCarried, writable.valid, writable.ids⟩
    (List.forall_mem_cons.mpr ⟨fresh, List.forall_mem_cons.mpr ⟨fresh, fun _ mem => nomatch mem⟩⟩)

end Sql

end SchemaForge
