import SchemaForge.Verifier.Cycles

/-!
# The verifier

A run of the verifier is the concatenation of its checks, in a fixed order.
-/

namespace SchemaForge.Verifier

variable [Unicode]

/-- `CHECKS`. -/
def checks : List (Schema → List Diagnostic) :=
  [checkNotEmpty, checkNames, checkTypeParameters, checkRelationshipEnds, checkDuplicateNames,
    checkPrimaryKeys, checkForeignKeys, checkRelationships, checkCycles, checkDocumentation]

def verify (schema : Schema) : Report := ⟨checks.flatMap fun check => check schema⟩

/-- The verifier reports no error on the schema. -/
def IsValid (schema : Schema) : Prop := (verify schema).isValid = true

instance (schema : Schema) : Decidable (IsValid schema) := inferInstanceAs (Decidable (_ = _))

theorem isValid_iff {schema : Schema} :
    IsValid schema ↔ ∀ check ∈ checks, ∀ diagnostic ∈ check schema, diagnostic.isError = false := by
  simp only [IsValid, Report.isValid, verify, Bool.not_eq_true', List.any_eq_false,
    List.mem_flatMap, Bool.not_eq_true]
  constructor
  · intro fine check mem diagnostic found
    exact fine diagnostic ⟨check, mem, found⟩
  · rintro fine diagnostic ⟨check, mem, found⟩
    exact fine check mem diagnostic found

end SchemaForge.Verifier
