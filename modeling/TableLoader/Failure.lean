import TableLoader.Import
import TableLoader.Violation

/-!
# Failures

Why an operation on a request or a dump fails, and how a failure is reported.
-/
namespace TableLoader

inductive FailureKind where
  | badRequest
  | payloadTooLarge
  | validationFailed
  | internal
  deriving DecidableEq, Repr

namespace FailureKind

def status : FailureKind → Nat
  | .badRequest => 400
  | .payloadTooLarge => 413
  | .validationFailed => 422
  | .internal => 500

end FailureKind

inductive Failure where
  | invalidJson
  | emptyFile
  | fileTooLarge (size max : Nat)
  | noTablesFound
  | missingTableName
  | missingMapping
  | missingData
  | validationFailed (faults : List RowFault)
  | generationFailed
  deriving DecidableEq, Repr

structure FailureReport where
  title : String
  detail : String
  errors : List String
  deriving DecidableEq, Repr

namespace Failure

def ofImportFault : ImportFault → Failure
  | .emptyInput => .emptyFile
  | .inputTooLarge size max => .fileTooLarge size max
  | .noTablesFound => .noTablesFound

def kind : Failure → FailureKind
  | .fileTooLarge .. => .payloadTooLarge
  | .validationFailed _ => .validationFailed
  | .generationFailed => .internal
  | _ => .badRequest

def title : Failure → String
  | .invalidJson => "Invalid JSON"
  | .emptyFile => "Empty file"
  | .fileTooLarge .. => "File too large"
  | .noTablesFound => "No tables found"
  | .missingTableName => "Missing table name"
  | .missingMapping => "Missing mapping"
  | .missingData => "Missing data"
  | .validationFailed _ => "Data validation failed"
  | .generationFailed => "Failed to generate SQL"

def detail : Failure → String
  -- The words of the JSON reader are not kept.
  | .invalidJson => ""
  | .emptyFile => "The uploaded file is empty"
  | .fileTooLarge size max =>
    "The uploaded file is " ++ natString size ++ " bytes; the maximum is " ++ natString max ++
      " bytes"
  | .noTablesFound =>
    "Could not parse any CREATE TABLE statements from the SQL file. " ++
      "Make sure the file contains valid MySQL or PostgreSQL table definitions."
  | .missingTableName => "The 'table' field is required"
  | .missingMapping => "At least one column mapping is required"
  | .missingData => "At least one data row is required"
  | .validationFailed _ => "Some data does not match field constraints"
  | .generationFailed => ""

def errors : Failure → List String
  | .validationFailed faults => faults.map RowFault.describe
  | _ => []

def report (f : Failure) : FailureReport := ⟨f.title, f.detail, f.errors⟩

end Failure

namespace FailureReport

/-- The report as JSON; what is empty is left out. -/
def toJson (r : FailureReport) : Json :=
  .record (("error", .ofString r.title) ::
    ((if r.detail = "" then [] else [("detail", .ofString r.detail)]) ++
      if r.errors = [] then [] else [("errors", .ofStrings r.errors)]))

def ofJson? (value : Json) : Option FailureReport := do
  match ← Json.members? ["error", "detail", "errors"] .ignored value with
  | [title, detail, errors] =>
    let title ← Json.member Json.asString? title
    let detail ← Json.memberOr "" Json.asString? detail
    let errors ← Json.memberOr [] (Json.asList? Json.asString?) errors
    pure ⟨title, detail, errors⟩
  | _ => none

end FailureReport

end TableLoader
