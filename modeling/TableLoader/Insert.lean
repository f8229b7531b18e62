import TableLoader.Literal
import TableLoader.Mapping
import TableLoader.Settings
import TableLoader.Table

/-!
# Insert statements

One statement that inserts many rows. Its columns are the fields that the mapping targets, in the order of
the fields; each cell is written under the column at its own position.
-/
namespace TableLoader.Insert

inductive Fault where
  | noRows
  | noColumns
  deriving DecidableEq, Repr

def Fault.message : Fault → String
  | .noRows => "no rows to insert"
  | .noColumns => "no schema field is targeted by the column mapping"

def strip (quote : IdentifierQuote) (name : List Char) : List Char :=
  name.filter fun c => c != quote.delimiters.1 && c != quote.delimiters.2

def quoteName (quote : IdentifierQuote) (name : List Char) : List Char :=
  quote.delimiters.1 :: (strip quote name ++ [quote.delimiters.2])

def columns (fields : List Field) (mapping : Mapping) : List Field :=
  fields.filter fun f => mapping.hasTarget f.name

def untyped : SqlType := .parse "varchar"

/-- The literals of a row: cells beyond the columns are untyped, and missing cells are `NULL`. -/
def rowLiterals : List SqlType → Row → List (List Char)
  | [], row => row.map (Literal.format untyped)
  | t :: types, [] => Literal.format t .null :: rowLiterals types []
  | t :: types, cell :: row => Literal.format t cell :: rowLiterals types row

def separator : List Char := [',', ' ']

def tuple (literals : List (List Char)) : List Char :=
  '(' :: (separator.intercalate literals ++ [')'])

def header (quote : IdentifierQuote) (table : String) (names : List String) : List Char :=
  "INSERT INTO ".toList ++ quoteName quote table.toList ++ " (".toList ++
    separator.intercalate (names.map fun n => quoteName quote n.toList) ++ ") VALUES".toList

def statement (quote : IdentifierQuote) (table : String) (cols : List Field) (rows : List Row) :
    List Char :=
  header quote table (cols.map Field.name) ++ '\n' ::
    ([',', '\n'].intercalate (rows.map fun row =>
      tuple (rowLiterals (cols.map Field.sqlType) row)) ++ [';'])

def build (quote : IdentifierQuote) (table : String) (mapping : Mapping) (fields : List Field)
    (rows : List Row) : Except Fault String :=
  if rows.isEmpty then .error .noRows
  else if (columns fields mapping).isEmpty then .error .noColumns
  else .ok (String.ofList (statement quote table (columns fields mapping) rows))

def buildOrEmpty (quote : IdentifierQuote) (table : String) (mapping : Mapping)
    (fields : List Field) (rows : List Row) : String :=
  match build quote table mapping fields rows with
  | .ok sql => sql
  | .error _ => ""

end TableLoader.Insert
