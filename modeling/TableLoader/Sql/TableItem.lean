import TableLoader.Sql.ColumnOption

/-!
# Table items

What stands between the parentheses of `CREATE TABLE`: columns, and constraints on the whole table.
-/
namespace TableLoader.Sql

open Reader

structure Column where
  name : Ident
  type : DataType
  options : List ColumnOption
  deriving DecidableEq, Repr

inductive TableItem where
  | column (definition : Column)
  | constraint
  deriving DecidableEq, Repr

def TableItem.column? : TableItem → Option Column
  | .column c => some c
  | .constraint => none

def indexColumn (d : Dialect) (nest : Nest) : Reader Unit := do
  nest.expr .general
  unless ← nextIsOneOf ["ASC", "DESC", "NULLS", "WITH"] do discard (attempt objectName)
  discard (oneOf ["ASC", "DESC"])
  unless ← keywords ["NULLS", "FIRST"] do discard (keywords ["NULLS", "LAST"])
  if d = .generic then discard (keywords ["WITH", "FILL"])

def indexColumns (d : Dialect) (nest : Nest) : Reader Unit :=
  discard (parenthesized (commaList (indexColumn d nest)))

def indexType : Reader Unit := do
  if ← keyword "USING" then discard ident

def indexOption (d : Dialect) : Reader (Option Unit) := do
  if ← keyword "USING" then
    discard ident
    return some ()
  if ← keyword "COMMENT" then
    discard (labelText d)
    return some ()
  return none

def indexBody (d : Dialect) (nest : Nest) : Reader Unit := do
  discard (attempt ident)
  indexType
  indexColumns d nest
  discard (repeated (indexOption d))

def constraintBody (d : Dialect) (nest : Nest) (named : Bool) : Reader Bool := do
  let hasKeys := d == .mysql || d == .generic
  if ← keyword "UNIQUE" then
    if (← oneOf ["KEY", "INDEX"]).isSome then require hasKeys
    if ← keyword "NULLS" then
      discard (keyword "NOT")
      expectKeyword "DISTINCT"
    indexBody d nest
    characteristics
    return true
  if ← keyword "PRIMARY" then
    expectKeyword "KEY"
    indexBody d nest
    characteristics
    return true
  if ← keyword "FOREIGN" then
    expectKeyword "KEY"
    discard (attempt ident)
    discard identList
    expectKeyword "REFERENCES"
    reference
    return true
  if ← keyword "CHECK" then
    check nest
    return true
  -- A key has its name behind its keyword and none in front.
  if hasKeys && !named then
    if (← oneOf ["INDEX", "KEY"]).isSome then
      unless ← nextIsKeyword "USING" do discard (attempt ident)
      indexType
      indexColumns d nest
      discard (repeated (indexOption d))
      return true
    if (← oneOf ["FULLTEXT", "SPATIAL"]).isSome then
      discard (oneOf ["KEY", "INDEX"])
      discard (attempt ident)
      indexColumns d nest
      return true
  return false

/-- A constraint on the table; whether one comes next. A named one must be one. -/
def tableConstraint (d : Dialect) (nest : Nest) : Reader Bool := do
  if ← keyword "CONSTRAINT" then
    discard ident
    require (← constraintBody d nest true)
    return true
  else constraintBody d nest false

/-- Whether the tokens after the name of a column leave it without a type, as SQLite allows. -/
def lacksType (d : Dialect) (ts : List Token) : Bool :=
  d == .sqlite &&
    match ts with
    | .word _ key none :: _ =>
      ["CONSTRAINT", "PRIMARY", "NOT", "UNIQUE", "CHECK", "DEFAULT", "COLLATE", "REFERENCES",
        "GENERATED", "AS"].contains key
    | .word .. :: _ => false
    | _ => true

def columnDefinition (d : Dialect) (nest : Nest) : Reader Column := do
  let name ← ident
  let type ← if ← look (lacksType d) then pure .unspecified else dataType d
  return ⟨name, type, ← columnOptions d nest⟩

def tableItem (d : Dialect) (nest : Nest) : Reader TableItem := do
  if ← tableConstraint d nest then return .constraint
  require (← look fun ts => ts.head?.any Token.isWord)
  return .column (← columnDefinition d nest)

/-- The items of a table; there may be no parentheses, or nothing between them. -/
def tableItems (d : Dialect) (nest : Nest) : Reader (List TableItem) := do
  if ← symbol "(" then
    if ← symbol ")" then return []
    let items ← commaList (tableItem d nest)
    expectSymbol ")"
    return items
  else return []

end TableLoader.Sql
