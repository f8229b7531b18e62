import TableLoader.Dump.Clean
import TableLoader.Dump.Fragment
import TableLoader.Sql.Statement
import TableLoader.Table

/-!
# Tables found by the grammar

Tables read from a dump by the full grammar of a dialect. Each fragment is read by itself, so one that the
grammar refuses costs no other.
-/
namespace TableLoader

/-- A column as a field: `NOT NULL` among its options is all that keeps it from being nullable. -/
def Field.ofColumn (c : Sql.Column) : Field :=
  ⟨c.name.text, c.type.render, !c.options.contains .notNull⟩

/-- A table under the last part of its name. -/
def Table.ofDefinition (t : Sql.TableDefinition) : Table :=
  ⟨((t.name.getLast?).map Sql.Ident.text).getD "", t.columns.map Field.ofColumn⟩

namespace Dump

def tableOfStatement? : Sql.Statement → Option Table
  | .createTable definition =>
    if (Table.ofDefinition definition).fields = [] then none
    else some (.ofDefinition definition)
  | .other => none

def tablesReadBy (read? : List Char → Option (List Sql.Statement)) (dump : String) : List Table :=
  (fragments .terminator (clean dump.toList)).flatMap fun fragment =>
    ((read? fragment).getD []).filterMap tableOfStatement?

def grammarTables (d : Dialect) (dump : String) : List Table := tablesReadBy (Sql.statements? d) dump

end Dump

end TableLoader
