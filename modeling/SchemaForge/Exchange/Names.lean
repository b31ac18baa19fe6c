import SchemaForge.Domain.Report

/-!
# Names and defaults of the exchange formats

The contract's spellings of column types and cardinalities, the place of a table
that a file does not place, and the ids of elements that a file does not name.
-/

namespace SchemaForge.Exchange

def kindName : DataTypeKind → Str
  | .text => "DATA_TYPE_KIND_TEXT"
  | .varchar => "DATA_TYPE_KIND_VARCHAR"
  | .char => "DATA_TYPE_KIND_CHAR"
  | .smallInt => "DATA_TYPE_KIND_SMALL_INT"
  | .integer => "DATA_TYPE_KIND_INTEGER"
  | .bigInt => "DATA_TYPE_KIND_BIG_INT"
  | .numeric => "DATA_TYPE_KIND_NUMERIC"
  | .real => "DATA_TYPE_KIND_REAL"
  | .doublePrecision => "DATA_TYPE_KIND_DOUBLE_PRECISION"
  | .boolean => "DATA_TYPE_KIND_BOOLEAN"
  | .date => "DATA_TYPE_KIND_DATE"
  | .time => "DATA_TYPE_KIND_TIME"
  | .timestamp => "DATA_TYPE_KIND_TIMESTAMP"
  | .timestampTz => "DATA_TYPE_KIND_TIMESTAMPTZ"
  | .uuid => "DATA_TYPE_KIND_UUID"
  | .json => "DATA_TYPE_KIND_JSON"
  | .jsonb => "DATA_TYPE_KIND_JSONB"
  | .bytea => "DATA_TYPE_KIND_BYTEA"

/-- Both spellings are read back: the contract's and the canvas's. -/
def kindFromName (name : Str) : Option DataTypeKind :=
  DataTypeKind.variants.find? fun kind =>
    kindName kind == Str.trim name || Str.eqIgnoreAsciiCase kind.asStr (Str.trim name)

def cardinalityName : Cardinality → Str
  | .oneToOne => "CARDINALITY_ONE_TO_ONE"
  | .oneToMany => "CARDINALITY_ONE_TO_MANY"
  | .manyToMany => "CARDINALITY_MANY_TO_MANY"

def cardinalityFromName (name : Str) : Option Cardinality :=
  [Cardinality.oneToOne, .oneToMany, .manyToMany].find? fun cardinality =>
    cardinalityName cardinality == Str.trim name ||
      Str.eqIgnoreAsciiCase cardinality.asStr (Str.trim name)

theorem length_eq_of_eqIgnoreAsciiCase {left right : Str}
    (same : Str.eqIgnoreAsciiCase left right = true) : left.length = right.length := by
  have lengths := congrArg List.length (Str.eqIgnoreAsciiCase_iff.mp same)
  simpa [Str.toAsciiLowercase] using lengths

theorem trim_kindName (kind : DataTypeKind) : Str.trim (kindName kind) = kindName kind := by
  apply Str.trim_eq_self_of_all
  cases kind <;> decide

theorem kindName_injective : Function.Injective kindName := by
  -- Comparing the names with one another is slow; a number made of each tells them apart.
  have codes : DataTypeKind.variants.map (fun kind =>
      (kindName kind).foldl (fun code c => (3 * code + c.toNat) % 997) 0) = 
        [734, 344, 231, 822, 227, 584, 117, 603, 746, 102, 239, 722, 888, 358, 844, 557,
          740, 271] := by
    decide
  have distinct : (DataTypeKind.variants.map fun kind =>
      (kindName kind).foldl (fun code c => (3 * code + c.toNat) % 997) 0).Nodup := by
    rw [codes]
    decide
  have listed (kind : DataTypeKind) : kind ∈ DataTypeKind.variants := by cases kind <;> decide
  intro left right same
  exact List.inj_on_of_nodup_map distinct (listed left) (listed right) (by simp only [same])

/-- A name of the contract is read as its kind: no name of the canvas is as long. -/
theorem kindFromName_kindName (kind : DataTypeKind) : kindFromName (kindName kind) = some kind := by
  have long (other : DataTypeKind) :
      Str.eqIgnoreAsciiCase other.asStr (kindName kind) = false := by
    rw [Bool.eq_false_iff]
    intro same
    have lengths := length_eq_of_eqIgnoreAsciiCase same
    have short : other.asStr.length < 19 := by cases other <;> decide
    have : 19 ≤ (kindName kind).length := by cases kind <;> decide
    omega
  have exact_ (other : DataTypeKind) : (kindName other == kindName kind) = (other == kind) := by
    rw [Bool.eq_iff_iff, beq_iff_eq, beq_iff_eq]
    exact kindName_injective.eq_iff
  simp only [kindFromName, trim_kindName, long, Bool.or_false, exact_]
  cases kind <;> rfl

theorem cardinalityFromName_cardinalityName (cardinality : Cardinality) :
    cardinalityFromName (cardinalityName cardinality) = some cardinality := by
  cases cardinality <;> decide

def gridColumns : Nat := 4

def gridWidth : F64 := .ofInt 320

def gridHeight : F64 := .ofInt 260

/-- Four across, in the order of the file. -/
def gridSlot (index : Nat) : Position :=
  ⟨(F64.ofInt (index % gridColumns : Nat)).mul gridWidth,
    (F64.ofInt (index / gridColumns : Nat)).mul gridHeight⟩

/-- An element of a file, by its place. -/
inductive Element where
  | entity (index : Nat)
  | attr (entity index : Nat)
  | relationship (index : Nat)
deriving DecidableEq

/--
The id drawn for an element, from the uuids drawn while a file is read. Every element draws at most
one, so the draws are a function of the element.
-/
def freshId (uuid : Element → Str) (element : Element) : Str :=
  match element with
  | .entity _ => "e" ++ uuid element
  | .attr _ _ => "a" ++ uuid element
  | .relationship _ => "r" ++ uuid element

end SchemaForge.Exchange
