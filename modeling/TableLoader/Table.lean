import TableLoader.Json.Decode
import TableLoader.SqlType

/-!
# Tables

Columns and tables as a dump declares them.
-/
namespace TableLoader

structure Field where
  name : String
  declaredType : String
  nullable : Bool := true
  deriving DecidableEq, Repr

structure Table where
  name : String
  fields : List Field
  deriving DecidableEq, Repr

namespace Field

def sqlType (f : Field) : SqlType := .parse f.declaredType

def toJson (f : Field) : Json :=
  .record [("name", .ofString f.name), ("type", .ofString f.declaredType),
    ("nullable", .bool f.nullable)]

/-- A field as JSON; a field that does not say otherwise is nullable. -/
def ofJson? (value : Json) : Option Field := do
  match ← Json.members? ["name", "type", "nullable"] .ignored value with
  | [name, declaredType, nullable] =>
    let name ← Json.member Json.asString? name
    let declaredType ← Json.member Json.asString? declaredType
    let nullable ← Json.memberOr true Json.asBool? nullable
    pure ⟨name, declaredType, nullable⟩
  | _ => none

end Field

namespace Table

def toJson (t : Table) : Json :=
  .record [("name", .ofString t.name), ("fields", .array (t.fields.map Field.toJson))]

def ofJson? (value : Json) : Option Table := do
  match ← Json.members? ["name", "fields"] .ignored value with
  | [name, fields] =>
    let name ← Json.member Json.asString? name
    let fields ← Json.memberOr [] (Json.asList? Field.ofJson?) fields
    pure ⟨name, fields⟩
  | _ => none

end Table

end TableLoader
