import TableLoader.Sql.Expression

/-!
# Queries

How tokens form a query: `SELECT` with its clauses, `VALUES`, set operations and common table expressions.
-/
namespace TableLoader.Sql

open Reader

def reservedForColumns : List String :=
  ["WITH", "EXPLAIN", "ANALYZE", "SELECT", "WHERE", "GROUP", "SORT", "HAVING", "ORDER", "TOP",
    "LATERAL", "VIEW", "LIMIT", "OFFSET", "FETCH", "UNION", "EXCEPT", "EXCLUDE", "INTERSECT",
    "MINUS", "CLUSTER", "DISTRIBUTE", "RETURNING", "FROM", "INTO", "END"]

def reservedForTables : List String :=
  ["WITH", "EXPLAIN", "ANALYZE", "SELECT", "WHERE", "GROUP", "SORT", "HAVING", "ORDER", "PIVOT",
    "UNPIVOT", "TOP", "LATERAL", "VIEW", "LIMIT", "OFFSET", "FETCH", "UNION", "EXCEPT",
    "INTERSECT", "MINUS", "ON", "JOIN", "INNER", "CROSS", "FULL", "LEFT", "RIGHT", "NATURAL",
    "USING", "CLUSTER", "DISTRIBUTE", "GLOBAL", "ANTI", "SEMI", "RETURNING", "ASOF",
    "MATCH_CONDITION", "OUTER", "SET", "QUALIFY", "WINDOW", "END", "FOR", "PARTITION", "PREWHERE",
    "SETTINGS", "FORMAT", "START", "CONNECT", "SAMPLE", "TABLESAMPLE", "FROM", "OPEN",
    "STRAIGHT_JOIN", "USE", "FORCE", "IGNORE"]

def aliasName (reserved : List String) : Reader Bool := do
  if ← keyword "AS" then
    discard ident
    return true
  else
    takes fun t =>
      match t with
      | .word _ key none => !reserved.contains key
      | .word .. | .string .single _ | .string .double _ => true
      | _ => false

def tableAlias : Reader Unit := do
  if ← aliasName reservedForTables then
    discard (ifParenthesized (commaList ident))

def selectItem (nest : Nest) : Reader Unit := do
  exprOrStar nest .general
  discard (aliasName reservedForColumns)

/-- A table to select from: a query or tables in parentheses, or a table or function by name. -/
def tableFactor (d : Dialect) (nest : Nest) (tables : Reader Unit) : Reader Unit := do
  discard (keyword "LATERAL")
  if ← nextIsSymbol "(" then
    match ← attempt (parenthesized nest.query) with
    | some _ => tableAlias
    | none =>
      parenthesized tables
      tableAlias
  else
    discard objectName
    if ← symbol "(" then arguments d nest .general
    tableAlias

def joinCondition (nest : Nest) : Reader Unit := do
  if ← keyword "ON" then nest.expr .general
  else if ← keyword "USING" then discard (parenthesized (commaList objectName))

def joinKinds : List (List String) :=
  [["CROSS", "JOIN"], ["JOIN"], ["INNER", "JOIN"], ["LEFT", "JOIN"], ["LEFT", "OUTER", "JOIN"],
    ["RIGHT", "JOIN"], ["RIGHT", "OUTER", "JOIN"], ["FULL", "JOIN"], ["FULL", "OUTER", "JOIN"],
    ["LEFT", "SEMI", "JOIN"], ["LEFT", "ANTI", "JOIN"], ["STRAIGHT_JOIN"]]

def anyKeywords : List (List String) → Reader Bool
  | [] => pure false
  | keys :: rest => do
    if ← keywords keys then return true else anyKeywords rest

def join (d : Dialect) (nest : Nest) (tables : Reader Unit) : Reader (Option Unit) := do
  discard (keyword "NATURAL")
  if ← anyKeywords joinKinds then
    tableFactor d nest tables
    joinCondition nest
    return some ()
  else return none

def tablesUpTo (d : Dialect) (nest : Nest) : Nat → Reader Unit
  | 0 => refuse
  | bound + 1 =>
    discard <| commaList do
      tableFactor d nest (tablesUpTo d nest bound)
      discard (repeated (join d nest (tablesUpTo d nest bound)))

def tables (d : Dialect) (nest : Nest) : Reader Unit := fun ts =>
  tablesUpTo d nest (ts.length + 1) ts

def selection (d : Dialect) (nest : Nest) : Reader Unit := do
  if ← keyword "DISTINCT" then
    if ← keyword "ON" then parenthesized (nest.exprs .general)
  else discard (keyword "ALL")
  unless (d == .postgres || d == .generic) && (← nextIsKeyword "FROM") do
    discard (commaList (selectItem nest))
  if ← keyword "INTO" then
    discard (oneOf ["TEMPORARY", "TEMP", "UNLOGGED"])
    discard (keyword "TABLE")
    discard objectName
  if ← keyword "FROM" then tables d nest
  if ← keyword "WHERE" then nest.expr .general
  if ← keywords ["GROUP", "BY"] then
    unless ← keyword "ALL" do nest.exprs .general
    discard (keywords ["WITH", "ROLLUP"])
  if ← keyword "HAVING" then nest.expr .general
  if ← keyword "WINDOW" then
    discard <| commaList do
      discard ident
      expectKeyword "AS"
      if ← symbol "(" then window nest .general else discard ident

def valueRows (d : Dialect) (nest : Nest) : Reader Unit :=
  discard <| commaList do
    discard (keyword "ROW")
    parenthesized do
      if d = .mysql then discard (commaListBefore ")" (nest.expr .general))
      else nest.exprs .general

def simpleQuery (d : Dialect) (nest : Nest) : Reader Unit := do
  if ← keyword "SELECT" then selection d nest
  else if ← nextIsSymbol "(" then parenthesized nest.query
  else if ← keyword "VALUES" then valueRows d nest
  else
    expectKeyword "TABLE"
    discard objectName

def setOperation (d : Dialect) (nest : Nest) : Reader (Option Unit) := do
  match ← oneOf ["UNION", "EXCEPT", "INTERSECT", "MINUS"] with
  | some _ =>
    unless ← keyword "ALL" do discard (keyword "DISTINCT")
    discard (keywords ["BY", "NAME"])
    simpleQuery d nest
    return some ()
  | none => return none

def commonTable (nest : Nest) : Reader Unit := do
  discard ident
  discard (ifParenthesized (commaList ident))
  expectKeyword "AS"
  unless ← keyword "MATERIALIZED" do discard (keywords ["NOT", "MATERIALIZED"])
  parenthesized nest.query

def limitClause (nest : Nest) : Reader (Option Unit) := do
  if ← keyword "LIMIT" then
    unless ← keyword "ALL" do nest.expr .general
    if ← symbol "," then nest.expr .general
    return some ()
  if ← keyword "OFFSET" then
    nest.expr .general
    discard (oneOf ["ROW", "ROWS"])
    return some ()
  if ← keyword "FETCH" then
    discard (expectOneOf ["FIRST", "NEXT"])
    if (← oneOf ["ROW", "ROWS"]).isNone then
      nest.expr .general
      discard (keyword "PERCENT")
      discard (expectOneOf ["ROW", "ROWS"])
    unless ← keyword "ONLY" do expectKeywords ["WITH", "TIES"]
    return some ()
  if ← keyword "FOR" then
    discard (expectOneOf ["UPDATE", "SHARE"])
    if ← keyword "OF" then discard objectName
    unless ← keyword "NOWAIT" do discard (keywords ["SKIP", "LOCKED"])
    return some ()
  return none

def query (d : Dialect) (nest : Nest) : Reader Unit := do
  if ← keyword "WITH" then
    discard (keyword "RECURSIVE")
    discard (commaList (commonTable nest))
  simpleQuery d nest
  discard (repeated (setOperation d nest))
  if ← keywords ["ORDER", "BY"] then orderItems nest .general
  discard (repeated (limitClause nest))

/-- The readers for what may stand inside, down to a depth below which all is too deep. -/
def Nest.ofDepth (d : Dialect) : Nat → Nest
  | 0 => ⟨fun _ _ => tooDeep, tooDeep⟩
  | depth + 1 =>
    let inner := Nest.ofDepth d depth
    ⟨Sql.expression d inner, Sql.query d inner⟩

end TableLoader.Sql
