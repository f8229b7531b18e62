import TableLoader.Dump.Clause
import TableLoader.Dump.TableName

/-!
# Tables found by patterns

Tables read from a dump without a grammar: a statement counts when its name is recognised and at least one
of its clauses declares a field.
-/
namespace TableLoader.Dump

def tableOf? (name? : List Char → Option (List Char)) (statement : List Char) : Option Table := do
  let name ← findName? name? statement
  let body ← body? statement
  if fieldsOf body = [] then none
  else pure ⟨String.ofList name, fieldsOf body⟩

theorem tableOf?_eq_some_iff {name? : List Char → Option (List Char)} {statement : List Char}
    {t : Table} :
    tableOf? name? statement = some t ↔ ∃ name body, findName? name? statement = some name ∧
      body? statement = some body ∧ fieldsOf body ≠ [] ∧ t = ⟨String.ofList name, fieldsOf body⟩ := by
  simp only [tableOf?, Option.bind_eq_bind, Option.bind_eq_some_iff]
  refine exists_congr fun name => ?_
  rw [← exists_and_left]
  refine exists_congr fun body => and_congr_right fun _ => and_congr_right fun _ => ?_
  split
  · next h => simp [h]
  · next h => simp [h, eq_comm]

def tablesBy (name? : List Char → Option (List Char)) (dump : String) : List Table :=
  (fragments .parenthesis dump.toList).filterMap (tableOf? name?)

def postgresTables (dump : String) : List Table := tablesBy schemaName? dump

def mysqlTables (dump : String) : List Table := tablesBy backtickName? dump

end TableLoader.Dump
