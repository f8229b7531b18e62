import TableLoader.Sql.Lexer
import TableLoader.Sql.TableItem
import TableLoader.Sql.TableOption

/-!
# Statements

How a text falls into statements, of which `CREATE TABLE` is read in full. Of the others only so much is read
as tells whether they are well formed, since a text with one that is not is refused as a whole.
-/
namespace TableLoader.Sql

open Reader

structure TableDefinition where
  name : List Ident
  items : List TableItem
  deriving DecidableEq, Repr

def TableDefinition.columns (t : TableDefinition) : List Column :=
  t.items.filterMap TableItem.column?

inductive Statement where
  | createTable (table : TableDefinition)
  | other
  deriving DecidableEq, Repr

def tableDefinition (d : Dialect) (nest : Nest) : Reader TableDefinition := do
  discard (keywords ["IF", "NOT", "EXISTS"])
  let name ← objectName
  optional ["ON", "CLUSTER"] (discard ident)
  if (← oneOf ["LIKE", "ILIKE"]).isSome then discard objectName
  optional ["CLONE"] (discard objectName)
  let items ← tableItems d nest
  tableOptions d nest
  return ⟨name, items⟩

def indexDefinition (d : Dialect) (nest : Nest) : Reader Unit := do
  discard (keyword "CONCURRENTLY")
  discard (keywords ["IF", "NOT", "EXISTS"])
  unless ← nextIsKeyword "ON" do discard objectName
  expectKeyword "ON"
  discard objectName
  indexType
  indexColumns d nest
  optional ["INCLUDE"] (discard identList)
  optional ["WITH"] (nest.exprs .general)
  optional ["WHERE"] (nest.expr .general)

def viewDefinition (nest : Nest) : Reader Unit := do
  discard (keywords ["IF", "NOT", "EXISTS"])
  discard objectName
  discard (ifParenthesized (commaList ident))
  expectKeyword "AS"
  nest.query

def spaceDefinition : Reader Unit := do
  discard (keywords ["IF", "NOT", "EXISTS"])
  discard objectName

def creation (d : Dialect) (nest : Nest) : Reader Statement := do
  discard (keywords ["OR", "REPLACE"])
  discard (keywords ["OR", "ALTER"])
  discard (keyword "LOCAL")
  discard (keyword "GLOBAL")
  discard (keyword "TRANSIENT")
  discard (oneOf ["TEMP", "TEMPORARY"])
  if ← keyword "TABLE" then return .createTable (← tableDefinition d nest)
  discard (keyword "MATERIALIZED")
  discard (keyword "UNIQUE")
  match ← expectOneOf ["VIEW", "INDEX", "DATABASE", "SCHEMA"] with
  | "VIEW" => viewDefinition nest
  | "INDEX" => indexDefinition d nest
  | _ => spaceDefinition
  return .other

def removal : Reader Unit := do
  discard (keyword "TEMPORARY")
  discard (keyword "MATERIALIZED")
  let kind ← expectOneOf
    ["TABLE", "VIEW", "INDEX", "ROLE", "SCHEMA", "DATABASE", "SEQUENCE", "STAGE", "TYPE", "USER",
      "STREAM"]
  discard (keywords ["IF", "EXISTS"])
  discard (commaList objectName)
  let cascade ← keyword "CASCADE"
  let restrict ← keyword "RESTRICT"
  require !(cascade && restrict)
  discard (keyword "PURGE")
  if kind = "INDEX" then optional ["ON"] (discard objectName)

def insertion (d : Dialect) (nest : Nest) : Reader Unit := do
  if d = .sqlite then
    optional ["OR"]
      (discard (expectOneOf ["REPLACE", "ROLLBACK", "ABORT", "FAIL", "IGNORE"]))
  discard (oneOf ["LOW_PRIORITY", "DELAYED", "HIGH_PRIORITY"])
  discard (keyword "IGNORE")
  discard (keyword "INTO")
  discard (keyword "TABLE")
  discard objectName
  if d = .postgres then optional ["AS"] (discard ident)
  unless ← keywords ["DEFAULT", "VALUES"] do
    discard (attempt identList)
    if d ≠ .postgres ∧ (← nextIsKeyword "SET") then
      discard next
      discard (commaList (assignment nest))
    else nest.query
  optional ["ON", "DUPLICATE", "KEY", "UPDATE"] (discard (commaList (assignment nest)))
  optional ["ON", "CONFLICT"] do
    discard (ifParenthesized (commaList ident))
    expectKeyword "DO"
    unless ← keyword "NOTHING" do
      expectKeywords ["UPDATE", "SET"]
      discard (commaList (assignment nest))
      optional ["WHERE"] (nest.expr .general)
  optional ["RETURNING"] (discard (commaList (selectItem nest)))

def modification (d : Dialect) (nest : Nest) : Reader Unit := do
  tables d nest
  expectKeyword "SET"
  discard <| commaList do
    discard objectName
    expectSymbol "="
    nest.expr .general
  optional ["FROM"] (tables d nest)
  optional ["WHERE"] (nest.expr .general)
  optional ["RETURNING"] (discard (commaList (selectItem nest)))
  optional ["LIMIT"] (nest.expr .general)

def deletion (d : Dialect) (nest : Nest) : Reader Unit := do
  expectKeyword "FROM"
  tables d nest
  optional ["USING"] (tables d nest)
  optional ["WHERE"] (nest.expr .general)
  optional ["RETURNING"] (discard (commaList (selectItem nest)))
  if ← keywords ["ORDER", "BY"] then orderItems nest .general
  optional ["LIMIT"] (nest.expr .general)

def setting (d : Dialect) (nest : Nest) : Reader Unit := do
  if ← keyword "NAMES" then
    discard ident
    optional ["COLLATE"] (discard ident)
  else
    discard (oneOf ["SESSION", "LOCAL", "GLOBAL"])
    let one : Reader Unit := do
      discard objectName
      unless ← symbol "=" do
        require (d != .mysql)
        expectKeyword "TO"
      nest.exprs .general
    one

def tableChange (d : Dialect) (nest : Nest) : Reader Unit := do
  if ← keyword "ADD" then
    unless ← tableConstraint d nest do
      discard (keyword "COLUMN")
      discard (keywords ["IF", "NOT", "EXISTS"])
      discard (columnDefinition d nest)
      unless ← keyword "FIRST" do optional ["AFTER"] (discard ident)
  else if ← keyword "DROP" then
    if ← keywords ["PRIMARY", "KEY"] then pure ()
    else if ← keywords ["FOREIGN", "KEY"] then discard ident
    else
      discard (oneOf ["COLUMN", "CONSTRAINT", "INDEX"])
      discard (keywords ["IF", "EXISTS"])
      discard ident
      discard (oneOf ["CASCADE", "RESTRICT"])
  else if ← keyword "RENAME" then
    if (← oneOf ["TO", "AS"]).isSome then discard objectName
    else
      discard (keyword "COLUMN")
      discard ident
      expectKeyword "TO"
      discard ident
  else if ← keyword "MODIFY" then
    discard (keyword "COLUMN")
    discard (columnDefinition d nest)
    unless ← keyword "FIRST" do optional ["AFTER"] (discard ident)
  else if ← keyword "CHANGE" then
    discard (keyword "COLUMN")
    discard ident
    discard (columnDefinition d nest)
    unless ← keyword "FIRST" do optional ["AFTER"] (discard ident)
  else if ← keyword "ALTER" then
    discard (keyword "COLUMN")
    discard ident
    if ← keywords ["SET", "NOT", "NULL"] then pure ()
    else if ← keywords ["DROP", "NOT", "NULL"] then pure ()
    else if ← keywords ["SET", "DEFAULT"] then nest.expr .general
    else if ← keywords ["DROP", "DEFAULT"] then pure ()
    else
      discard (keywords ["SET", "DATA"])
      expectKeyword "TYPE"
      discard (dataType d)
      optional ["USING"] (nest.expr .general)
  else if ← keyword "OWNER" then
    expectKeyword "TO"
    discard ident
  else
    expectKeyword "AUTO_INCREMENT"
    discard (symbol "=")
    signedNumber

def alteration (d : Dialect) (nest : Nest) : Reader Unit := do
  expectKeyword "TABLE"
  discard (keywords ["IF", "EXISTS"])
  discard (keyword "ONLY")
  discard objectName
  discard (commaList (tableChange d nest))

def remark (d : Dialect) : Reader Unit := do
  require (d == .postgres || d == .generic)
  expectKeyword "ON"
  discard (expectOneOf
    ["COLUMN", "DATABASE", "DOMAIN", "EXTENSION", "FUNCTION", "INDEX", "ROLE", "SCHEMA",
      "SEQUENCE", "TABLE", "TYPE", "USER", "VIEW"])
  discard objectName
  expectKeyword "IS"
  unless ← keyword "NULL" do discard (labelText d)

def transactionWords : Reader Unit := do
  discard (oneOf ["TRANSACTION", "WORK", "TRAN"])
  if ← keyword "AND" then
    discard (keyword "NO")
    expectKeyword "CHAIN"

def plainStatement (d : Dialect) (nest : Nest) : Reader Statement := do
  if (← nextIsOneOf ["SELECT", "WITH", "VALUES"]) || (← nextIsSymbol "(") then
    nest.query
    return .other
  match ← expectOneOf
    ["CREATE", "DROP", "INSERT", "REPLACE", "UPDATE", "DELETE", "SET", "ALTER", "COMMENT", "USE",
      "TRUNCATE", "BEGIN", "START", "COMMIT", "ROLLBACK", "END", "SAVEPOINT", "RELEASE", "CALL",
      "SHOW", "LOCK", "UNLOCK", "PRAGMA", "VACUUM", "ANALYZE"] with
  | "CREATE" => return (← creation d nest)
  | "DROP" => removal
  | "INSERT" | "REPLACE" => insertion d nest
  | "UPDATE" => modification d nest
  | "DELETE" => deletion d nest
  | "SET" => setting d nest
  | "ALTER" => alteration d nest
  | "COMMENT" => remark d
  | "USE" => discard objectName
  | "TRUNCATE" =>
    discard (keyword "TABLE")
    discard (commaList objectName)
  | "START" => expectKeyword "TRANSACTION"
  | "BEGIN" | "COMMIT" | "ROLLBACK" | "END" => transactionWords
  | "SAVEPOINT" => discard ident
  | "RELEASE" =>
    discard (keyword "SAVEPOINT")
    discard ident
  | "CALL" => nest.expr .general
  | "SHOW" =>
    discard ident
    discard (repeated (attempt ident))
  | "LOCK" =>
    require (d == .mysql)
    expectKeyword "TABLES"
    discard <| commaList do
      discard objectName
      discard (aliasName ["READ", "WRITE", "LOW_PRIORITY"])
      if ← keyword "READ" then discard (keyword "LOCAL")
      else
        discard (keyword "LOW_PRIORITY")
        expectKeyword "WRITE"
  | "UNLOCK" =>
    require (d == .mysql)
    expectKeyword "TABLES"
  | "PRAGMA" =>
    discard objectName
    if ← symbol "(" then
      literalValue d
      expectSymbol ")"
    else if ← symbol "=" then nest.expr .general
  | _ =>
    discard (keyword "TABLE")
    discard (attempt objectName)
  return .other

/-- A statement, or a word that asks to explain a statement or a table. -/
def statement (d : Dialect) (nest : Nest) : Reader Statement := do
  match ← oneOf ["EXPLAIN", "DESCRIBE", "DESC"] with
  | none => plainStatement d nest
  | some _ =>
    discard (keyword "ANALYZE")
    discard (keyword "VERBOSE")
    match ← attempt (plainStatement d nest) with
    | some _ => pure ()
    | none =>
      discard (keyword "TABLE")
      discard objectName
    return .other

def depthLimit : Nat := 50

/-- The statements of a text up to its end, at most as many as the bound. A semicolon stands between two
statements, and the word `END` after a statement ends the text. -/
def statementsUpTo (d : Dialect) (nest : Nest) : Nat → List Token → Option (List Statement)
  | 0, _ => none
  | bound + 1, ts =>
    match ts.dropWhile (Token.isSymbol ";") with
    | [] => some []
    | ts =>
      match statement d nest ts with
      | .read found rest =>
        match rest with
        | [] => some [found]
        | t :: more =>
          if t.isSymbol ";" then (statementsUpTo d nest bound more).map (found :: ·)
          else if t.isKeyword "END" then some [found]
          else none
      | _ => none

def statements? (d : Dialect) (text : List Char) : Option (List Statement) :=
  (tokens? d text).bind fun ts =>
    statementsUpTo d (Nest.ofDepth d (depthLimit - 1)) (ts.length + 1) ts

end TableLoader.Sql
