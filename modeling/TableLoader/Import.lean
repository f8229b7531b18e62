import TableLoader.Dump.Grammar
import TableLoader.Dump.Pattern

/-!
# Imports

Reading the tables of a dump. Three strategies are tried in a fixed order, and the first that finds a table
provides all of them.
-/
namespace TableLoader

inductive Strategy where
  | grammar
  | postgres
  | mysql
  deriving DecidableEq, Repr

namespace Strategy

def name : Strategy → String
  | .grammar => "grammar"
  | .postgres => "postgres"
  | .mysql => "mysql"

def order : List Strategy := [.grammar, .postgres, .mysql]

end Strategy

structure Import where
  tables : List Table
  strategy : Strategy
  deriving DecidableEq, Repr

namespace Import

def summarizeField (f : Field) : String :=
  f.name ++ ":" ++ f.declaredType ++ if f.nullable then "" else "!"

def summarizeTable (t : Table) : String :=
  "  " ++ t.name ++ " (" ++ ", ".intercalate (t.fields.map summarizeField) ++ ")\n"

def summary (i : Import) : String :=
  "Parsed " ++ natString i.tables.length ++ " table(s) with the " ++ i.strategy.name ++
    " strategy:\n" ++ String.join (i.tables.map summarizeTable)

end Import

inductive ImportFault where
  | emptyInput
  | inputTooLarge (size max : Nat)
  | noTablesFound
  deriving DecidableEq, Repr

def ImportFault.message : ImportFault → String
  | .emptyInput => "SQL input is empty"
  | .inputTooLarge size max =>
    "SQL input is " ++ natString size ++ " bytes, larger than the " ++ natString max ++
      " byte limit"
  | .noTablesFound => "no CREATE TABLE statements could be parsed"

/-- A reader of dumps: the grammar that reads one fragment, and the largest dump, in bytes of UTF-8. -/
structure Importer where
  read? : List Char → Option (List Sql.Statement)
  maxInputSize : Nat

namespace Importer

def ofSettings (s : Settings) : Importer := ⟨Sql.statements? s.dialect, s.maxInputSize⟩

def ofDialect (d : Dialect) : Importer := ofSettings { dialect := d }

def tablesBy (i : Importer) (dump : String) : Strategy → List Table
  | .grammar => Dump.tablesReadBy i.read? dump
  | .postgres => Dump.postgresTables dump
  | .mysql => Dump.mysqlTables dump

/-- What the first strategy finds that finds anything. -/
def firstFound? (tablesOf : Strategy → List Table) : List Strategy → Option Import
  | [] => none
  | s :: rest => if tablesOf s = [] then firstFound? tablesOf rest else some ⟨tablesOf s, s⟩

def find? (i : Importer) (dump : String) : Option Import :=
  firstFound? (i.tablesBy dump) Strategy.order

def tables (i : Importer) (dump : String) : List Table :=
  match i.find? dump with
  | some found => found.tables
  | none => []

def run (i : Importer) (dump : String) : Except ImportFault Import :=
  if dump = "" then .error .emptyInput
  else if i.maxInputSize < dump.utf8ByteSize then
    .error (.inputTooLarge dump.utf8ByteSize i.maxInputSize)
  else
    match i.find? dump with
    | some found => .ok found
    | none => .error .noTablesFound

end Importer

end TableLoader
