import TableLoader.Sql.DataTypeReader
import TableLoader.Sql.Precedence

/-!
# Nesting

Expressions and queries stand inside one another. Each is read with a `Nest` at hand, which says how to read
them one level deeper. Only whether tokens form an expression matters, so an expression leaves no more behind
than its shape, on which it depends what may follow a dot.
-/
namespace TableLoader.Sql

open Reader

inductive Shape where
  | name
  | path
  | value
  | call
  | access
  | other
  deriving DecidableEq, Repr

def Shape.mayFollowDot : Shape → Bool
  | .other => false
  | _ => true

/-- Readers for what may stand inside the text being read. -/
structure Nest where
  expression : Scope → Nat → Reader Shape
  query : Reader Unit

namespace Nest

def expr (nest : Nest) (scope : Scope) : Reader Unit := discard (nest.expression scope 0)

def exprs (nest : Nest) (scope : Scope) : Reader Unit := discard (commaList (nest.expr scope))

end Nest

end TableLoader.Sql
