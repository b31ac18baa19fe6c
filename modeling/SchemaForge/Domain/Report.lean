import SchemaForge.Domain.Schema

/-!
# Diagnostics and errors

What a run of the verifier or of a reader reports. A diagnostic blames elements
of the diagram by id and never stops the run; an `Error` refuses a request, and
a validation error names the field paths it refuses.
-/

namespace SchemaForge

/-- Stable diagnostic codes. -/
inductive DiagnosticCode where
  | danglingRelationship | emptyName | emptySchema | invalidTypeParameter | duplicateEntityName
  | duplicateAttributeName | missingPrimaryKey | invalidForeignKey | foreignKeyNotAKey
  | circularDependency | typeMismatch | relationshipWithoutForeignKey | cardinalityMismatch
  | missingDescription | importSkipped
deriving DecidableEq, Repr

namespace DiagnosticCode

def asStr : DiagnosticCode → Str
  | danglingRelationship => "SF-REL-DANGLING"
  | emptyName => "SF-NAME-EMPTY"
  | emptySchema => "SF-SCHEMA-EMPTY"
  | invalidTypeParameter => "SF-TYPE-PARAM"
  | duplicateEntityName => "SF-DUP-ENTITY"
  | duplicateAttributeName => "SF-DUP-ATTRIBUTE"
  | missingPrimaryKey => "SF-KEY-MISSING"
  | invalidForeignKey => "SF-FK-INVALID"
  | foreignKeyNotAKey => "SF-FK-NOT-A-KEY"
  | circularDependency => "SF-DEP-CYCLE"
  | typeMismatch => "SF-TYPE-MISMATCH"
  | relationshipWithoutForeignKey => "SF-REL-NO-FK"
  | cardinalityMismatch => "SF-REL-CARDINALITY"
  | missingDescription => "SF-DOC-MISSING"
  | importSkipped => "SF-IMPORT-SKIPPED"

end DiagnosticCode

inductive Severity where
  | warning | error
deriving DecidableEq, Repr

structure Diagnostic where
  code : DiagnosticCode
  severity : Severity
  message : Str
  /-- Ids of the offending elements: entity, attribute, or relationship. -/
  elementIds : List Str
  location : Option Position
deriving DecidableEq

namespace Diagnostic

def error (code : DiagnosticCode) (message : Str) : Diagnostic where
  code := code
  severity := .error
  message := message
  elementIds := []
  location := none

def warning (code : DiagnosticCode) (message : Str) : Diagnostic where
  code := code
  severity := .warning
  message := message
  elementIds := []
  location := none

/-- The diagnostic, blaming one more element. -/
def about (diagnostic : Diagnostic) (elementId : Str) : Diagnostic :=
  { diagnostic with elementIds := diagnostic.elementIds ++ [elementId] }

/-- The diagnostic, placed on the canvas. -/
def place (diagnostic : Diagnostic) (location : Position) : Diagnostic :=
  { diagnostic with location := some location }

def isError (diagnostic : Diagnostic) : Bool := diagnostic.severity == .error

@[simp]
theorem isError_error (code : DiagnosticCode) (message : Str) :
    (error code message).isError = true :=
  rfl

@[simp]
theorem isError_warning (code : DiagnosticCode) (message : Str) :
    (warning code message).isError = false :=
  rfl

@[simp]
theorem isError_about (diagnostic : Diagnostic) (elementId : Str) :
    (diagnostic.about elementId).isError = diagnostic.isError :=
  rfl

@[simp]
theorem isError_place (diagnostic : Diagnostic) (location : Position) :
    (diagnostic.place location).isError = diagnostic.isError :=
  rfl

end Diagnostic

/-- The outcome of a run, in the order its diagnostics were pushed. -/
structure Report where
  diagnostics : List Diagnostic
deriving DecidableEq

namespace Report

/-- A schema is valid when nothing rose above a warning. -/
def isValid (report : Report) : Bool := !report.diagnostics.any Diagnostic.isError

end Report

/-- A refusal, with a violation for each field path it names. -/
inductive Error where
  | app (code : Nat) (message : Str)
  | validation (message : Str) (violations : List (Str × List Str))
deriving DecidableEq

namespace Error

/-- The violations as a map ordered by field, with one more message under `field`. -/
def insertViolation (field message : Str) : List (Str × List Str) → List (Str × List Str)
  | [] => [(field, [message])]
  | (key, messages) :: rest =>
      if field = key then (key, messages ++ [message]) :: rest
      else if field < key then (field, [message]) :: (key, messages) :: rest
      else (key, messages) :: insertViolation field message rest

def pushViolation (error : Error) (field message : Str) : Error :=
  match error with
  | validation text violations => validation text (insertViolation field message violations)
  | app code text => app code text

/-- For an endpoint whose contract is fixed but whose engine is not written. -/
def unimplemented (message : Str) : Error := app 1007 message

end Error

end SchemaForge
