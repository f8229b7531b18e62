import TableLoader.Cell
import TableLoader.Mapping
import TableLoader.Table

/-!
# Requests

What is to be written: rows for a table, with the fields that its cells stand under and the mapping that says
which fields become columns.
-/
namespace TableLoader

structure Request where
  table : String
  mapping : Mapping
  rows : List Row
  fields : List Field
  deriving DecidableEq

namespace Request

def empty (table : String) : Request := ⟨table, .empty, [], []⟩

def keys : List String := ["table", "mapping", "rows", "fields"]

def rowToJson (row : Row) : Json := .array (row.map Cell.toJson)

def toJson (r : Request) : Json :=
  .record [("table", .ofString r.table), ("mapping", r.mapping.toJson),
    ("rows", .array (r.rows.map rowToJson)), ("fields", .array (r.fields.map Field.toJson))]

/-- A request as JSON. What it does not say is empty. -/
def ofJson? (value : Json) : Option Request := do
  match ← Json.members? keys .ignored value with
  | [table, mapping, rows, fields] =>
    let table ← Json.memberOr "" Json.asString? table
    let mapping ← Json.memberOr .empty Mapping.ofJson? mapping
    let rows ← Json.memberOr [] (Json.asList? (Json.asList? Cell.ofJson?)) rows
    let fields ← Json.memberOr [] (Json.asList? Field.ofJson?) fields
    pure ⟨table, mapping, rows, fields⟩
  | _ => none

def parse? (text : String) : Option Request := (Json.parse? text).bind ofJson?

def text (r : Request) : String := r.toJson.render

end Request

end TableLoader
