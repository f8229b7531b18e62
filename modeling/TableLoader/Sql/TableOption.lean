import TableLoader.Sql.ColumnOption
import TableLoader.Sql.Query

/-!
# Table options

What may follow the parentheses of `CREATE TABLE`, in its order: storage clauses, inheritance, parameters,
partitions, the options of MySQL, the end of a transaction, strictness and a query for the first rows.
-/
namespace TableLoader.Sql

open Reader

def optional (keys : List String) (rest : Reader Unit) : Reader Unit := discard (clause keys rest)

def wordValue : Reader Unit := discard ident

def optionNames : List (List String) :=
  let charset := [["CHARSET"], ["CHARACTER", "SET"], ["COLLATE"]]
  charset.map ("DEFAULT" :: ·) ++ charset ++
    [["DATA", "DIRECTORY"], ["INDEX", "DIRECTORY"]] ++
    ["KEY_BLOCK_SIZE", "ROW_FORMAT", "PACK_KEYS", "STATS_AUTO_RECALC", "STATS_PERSISTENT",
      "STATS_SAMPLE_PAGES", "DELAY_KEY_WRITE", "COMPRESSION", "ENCRYPTION", "MAX_ROWS", "MIN_ROWS",
      "AUTOEXTEND_SIZE", "AVG_ROW_LENGTH", "CHECKSUM", "CONNECTION", "ENGINE_ATTRIBUTE",
      "PASSWORD", "SECONDARY_ENGINE_ATTRIBUTE", "INSERT_METHOD", "AUTO_INCREMENT"].map ([·])

def tableSpace : Reader Unit := do
  match ← next with
  | .word .. | .string .single _ => pure ()
  | _ => refuse

def plainOption (d : Dialect) : Reader (Option Unit) := do
  if ← keywords ["START", "TRANSACTION"] then return some ()
  if ← keyword "COMMENT" then
    discard (symbol "=")
    discard singleQuoted
    return some ()
  if ← keyword "ENGINE" then
    discard (symbol "=")
    match ← next with
    | .word .. => discard (ifParenthesized (commaList ident))
    | _ => refuse
    return some ()
  if ← keyword "TABLESPACE" then
    discard (symbol "=")
    tableSpace
    if ← keyword "STORAGE" then
      discard (symbol "=")
      discard (expectOneOf ["DISK", "MEMORY"])
    return some ()
  if ← keyword "UNION" then
    discard (symbol "=")
    discard (parenthesized (commaListBefore ")" ident))
    return some ()
  if ← anyKeywords optionNames then
    discard (symbol "=")
    if (← attempt (literalValue d)).isNone then wordValue
    return some ()
  return none

def plainOptions (d : Dialect) : Reader Unit :=
  discard <| repeated do
    match ← plainOption d with
    | some _ =>
      discard (symbol ",")
      return some ()
    | none => return none

def settings (nest : Nest) : Reader Bool := do
  return !(← parenthesized (commaListBefore ")" (assignment nest))).isEmpty

def settingsAfter (key : String) (nest : Nest) : Reader Bool := do
  if ← keyword key then settings nest else return false

def storageClause (nest : Nest) : Reader (Option Unit) := do
  if ← keyword "ROW" then
    expectKeyword "FORMAT"
    if ← keyword "SERDE" then discard singleQuoted else expectKeyword "DELIMITED"
    return some ()
  if ← keywords ["STORED", "AS"] then
    if ← keyword "INPUTFORMAT" then
      nest.expr .general
      expectKeyword "OUTPUTFORMAT"
      nest.expr .general
    else
      discard (expectOneOf
        ["TEXTFILE", "SEQUENCEFILE", "ORC", "PARQUET", "AVRO", "RCFILE", "JSONFILE"])
    return some ()
  if ← keyword "LOCATION" then
    discard singleQuoted
    return some ()
  if ← keywords ["WITH", "SERDEPROPERTIES"] then
    discard (settings nest)
    return some ()
  return none

def commitAction : Reader Unit := do
  if ← keywords ["DELETE", "ROWS"] then pure ()
  else if ← keywords ["PRESERVE", "ROWS"] then pure ()
  else expectKeyword "DROP"

def initialRows (d : Dialect) (nest : Nest) : Reader Unit := do
  if ← keyword "AS" then nest.query
  else if d = .mysql then
    if ← nextIsKeyword "SELECT" then nest.query

def tableOptions (d : Dialect) (nest : Nest) : Reader Unit := do
  optional ["WITHOUT"] (expectKeyword "ROWID")
  optional ["PARTITIONED", "BY"] <| discard <| parenthesized <| commaList do
    discard ident
    discard (attempt (dataType d))
  discard (repeated (storageClause nest))
  optional ["INHERITS"] (discard (parenthesized (commaList objectName)))
  let withSettings ← settingsAfter "WITH" nest
  let properties ← settingsAfter "TBLPROPERTIES" nest
  if d = .postgres ∨ d = .generic then optional ["PARTITION", "BY"] (nest.expr .general)
  let given ←
    if d = .generic then
      optional ["CLUSTER", "BY"] (nest.exprs .general)
      clause ["OPTIONS"] (discard (settings nest))
    else pure false
  -- Settings in parentheses take the place of options without them.
  unless withSettings || properties || given do plainOptions d
  if d = .generic then optional ["PRIMARY", "KEY"] (nest.expr .general)
  optional ["ORDER", "BY"] do
    if ← nextIsSymbol "(" then discard (parenthesized (commaListBefore ")" (nest.expr .general)))
    else nest.expr .general
  optional ["ON", "COMMIT"] commitAction
  discard (keyword "STRICT")
  initialRows d nest

end TableLoader.Sql
