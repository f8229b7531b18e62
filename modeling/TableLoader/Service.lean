import TableLoader.Failure
import TableLoader.Insert
import TableLoader.Request

/-!
# The service

The three operations that every front end offers: reading the tables of a dump, writing the statement that a
request asks for, and checking the rows of a request.
-/
namespace TableLoader

structure Schema where
  tables : List Table
  deriving DecidableEq, Repr

namespace Schema

def toJson (s : Schema) : Json := .record [("tables", .array (s.tables.map Table.toJson))]

def ofJson? (value : Json) : Option Schema := do
  match ← Json.members? ["tables"] .ignored value with
  | [tables] => pure ⟨← Json.member (Json.asList? Table.ofJson?) tables⟩
  | _ => none

def ofDump (importer : Importer) (dump : String) : Except Failure Schema :=
  match importer.run dump with
  | .ok found => .ok ⟨found.tables⟩
  | .error fault => .error (.ofImportFault fault)

end Schema

structure Verdict where
  errors : List String
  deriving DecidableEq, Repr

namespace Verdict

def valid (v : Verdict) : Bool := v.errors.isEmpty

def toJson (v : Verdict) : Json :=
  .record [("valid", .bool v.valid), ("errors", .ofStrings v.errors)]

end Verdict

namespace Request

def faults (r : Request) : List RowFault := checkRows r.rows r.fields

def verdict (r : Request) : Verdict := ⟨r.faults.map RowFault.describe⟩

/-- The statement that a request asks for. Of several reasons against it the first counts: no table, no
mapping, no rows, rows that violate their fields, no field to write. -/
def generate (s : Settings) (r : Request) : Except Failure String :=
  if r.table = "" then .error .missingTableName
  else if r.mapping.isEmpty then .error .missingMapping
  else if r.rows = [] then .error .missingData
  else if s.validateBeforeGenerate ∧ r.fields ≠ [] ∧ r.faults ≠ [] then
    .error (.validationFailed r.faults)
  else
    match Insert.build s.identifierQuote r.table r.mapping r.fields r.rows with
    | .ok sql => .ok sql
    | .error _ => .error .generationFailed

def insertStatement (s : Settings) (r : Request) : String :=
  Insert.buildOrEmpty s.identifierQuote r.table r.mapping r.fields r.rows

end Request

end TableLoader
