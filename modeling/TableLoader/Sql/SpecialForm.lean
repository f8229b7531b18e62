import TableLoader.Sql.Call

/-!
# Special forms

Expressions that a keyword begins and that have a grammar of their own.
-/
namespace TableLoader.Sql

open Reader

def caseBranch (nest : Nest) (scope : Scope) : Reader (Option Unit) := do
  if ← keyword "WHEN" then
    nest.expr scope
    expectKeyword "THEN"
    nest.expr scope
    return some ()
  else return none

def caseExpression (nest : Nest) (scope : Scope) : Reader Unit := do
  unless ← nextIsKeyword "WHEN" do nest.expr scope
  let branches ← repeated (caseBranch nest scope)
  require !branches.isEmpty
  if ← keyword "ELSE" then nest.expr scope
  expectKeyword "END"

def castExpression (d : Dialect) (nest : Nest) (scope : Scope) : Reader Unit := parenthesized do
  nest.expr scope
  expectKeyword "AS"
  discard (dataType d)
  if ← keyword "FORMAT" then
    literalValue d
    if ← keywords ["AT", "TIME", "ZONE"] then literalValue d

def convertExpression (d : Dialect) (nest : Nest) (scope : Scope) : Reader Unit :=
  parenthesized do
    nest.expr scope
    if ← keyword "USING" then discard objectName
    else
      expectSymbol ","
      discard (dataType d)
      if ← keywords ["CHARACTER", "SET"] then discard objectName

def extractExpression (d : Dialect) (nest : Nest) (scope : Scope) : Reader Unit :=
  parenthesized do
    discard (temporalField d)
    unless ← keyword "FROM" do
      require (d == .generic)
      expectSymbol ","
    nest.expr scope

def roundingExpression (d : Dialect) (nest : Nest) (scope : Scope) : Reader Unit :=
  parenthesized do
    nest.expr scope
    if ← keyword "TO" then discard (temporalField d)
    else if ← symbol "," then
      match ← next with
      | .number _ => pure ()
      | _ => refuse

def substringExpression (nest : Nest) (scope : Scope) : Reader Unit := parenthesized do
  nest.expr scope
  if ← symbol "," then nest.expr scope else if ← keyword "FROM" then nest.expr scope
  if ← symbol "," then nest.expr scope else if ← keyword "FOR" then nest.expr scope

def overlayExpression (nest : Nest) (scope : Scope) : Reader Unit := parenthesized do
  nest.expr scope
  expectKeyword "PLACING"
  nest.expr scope
  expectKeyword "FROM"
  nest.expr scope
  if ← keyword "FOR" then nest.expr scope

def trimExpression (d : Dialect) (nest : Nest) (scope : Scope) : Reader Unit := parenthesized do
  discard (oneOf ["BOTH", "LEADING", "TRAILING"])
  nest.expr scope
  if ← keyword "FROM" then nest.expr scope
  else if ← symbol "," then
    require (d == .generic || d == .sqlite)
    nest.exprs scope

def positionExpression (d : Dialect) (nest : Nest) (scope : Scope) : Reader Unit :=
  parenthesized do
    discard (nest.expression scope (Strength.between.level d))
    expectKeyword "IN"
    nest.expr scope

def existsExpression (nest : Nest) : Reader Unit := parenthesized nest.query

def arrayElements (nest : Nest) (scope : Scope) : Reader Unit := do
  discard (commaListBefore "]" (nest.expr scope))
  expectSymbol "]"

def matchAgainst (d : Dialect) : Reader Unit := do
  discard (parenthesized (commaList objectName))
  expectKeyword "AGAINST"
  parenthesized do
    literalValue d
    if ← keywords ["IN", "NATURAL", "LANGUAGE", "MODE", "WITH", "QUERY", "EXPANSION"] then pure ()
    else if ← keywords ["IN", "NATURAL", "LANGUAGE", "MODE"] then pure ()
    else if ← keywords ["IN", "BOOLEAN", "MODE"] then pure ()
    else discard (keywords ["WITH", "QUERY", "EXPANSION"])

def mapEntries (key : Reader Unit) (nest : Nest) (scope : Scope) : Reader Unit := do
  discard (commaListBefore "\x7d" do
    key
    expectSymbol ":"
    nest.expr scope)
  expectSymbol "\x7d"

def structFields (nest : Nest) (scope : Scope) : Reader Unit :=
  discard <| parenthesized <| commaList do
    nest.expr scope
    if ← keyword "AS" then discard ident

/-- Keywords that name no column, even where the expression they begin cannot be read. -/
def neverNames : List String := ["EXISTS", "INTERVAL", "STRUCT", "TRIM"]

/-- The expression that a keyword begins, after it; nothing if it begins none. -/
def keywordExpression (d : Dialect) (nest : Nest) (scope : Scope) (operand : Reader Shape)
    (key : String) : Reader (Option Shape) := do
  match key with
  | "TRUE" | "FALSE" | "NULL" => return some .value
  | "CURRENT_CATALOG" | "CURRENT_USER" | "SESSION_USER" | "USER" =>
    if d = .postgres ∨ d = .generic then return some .call else return none
  | "CURRENT_TIMESTAMP" | "CURRENT_TIME" | "CURRENT_DATE" | "LOCALTIME" | "LOCALTIMESTAMP" =>
    if ← symbol "(" then arguments d nest scope
    return some .call
  | "CASE" =>
    caseExpression nest scope
    return some .other
  | "CONVERT" =>
    convertExpression d nest scope
    return some .other
  | "TRY_CONVERT" =>
    if d = .generic then
      convertExpression d nest scope
      return some .other
    return none
  | "CAST" | "TRY_CAST" | "SAFE_CAST" =>
    castExpression d nest scope
    return some .other
  | "EXISTS" =>
    existsExpression nest
    return some .other
  | "EXTRACT" =>
    extractExpression d nest scope
    return some .other
  | "CEIL" | "FLOOR" =>
    roundingExpression d nest scope
    return some .other
  | "POSITION" =>
    if ← nextIsSymbol "(" then
      match ← attempt (positionExpression d nest scope) with
      | some _ => return some .other
      | none =>
        call d nest scope
        return some .call
    return none
  | "SUBSTR" | "SUBSTRING" =>
    substringExpression nest scope
    return some .other
  | "OVERLAY" =>
    overlayExpression nest scope
    return some .other
  | "TRIM" =>
    trimExpression d nest scope
    return some .other
  | "INTERVAL" =>
    intervalValue d nest scope operand
    return some .other
  | "ARRAY" =>
    if ← symbol "[" then
      arrayElements nest scope
      return some .other
    if ← symbol "(" then
      nest.query
      expectSymbol ")"
      return some .call
    return none
  | "NOT" =>
    if ← keyword "EXISTS" then existsExpression nest
    else discard (nest.expression scope (Strength.negation.level d))
    return some .other
  | "MATCH" =>
    if d = .mysql ∨ d = .generic then
      matchAgainst d
      return some .other
    return none
  | "STRUCT" =>
    if d = .generic then
      structFields nest scope
      return some .other
    return none
  | "MAP" =>
    if d = .generic then
      if ← symbol "\x7b" then
        mapEntries (nest.expr scope) nest scope
        return some .other
    return none
  | _ => return none

end TableLoader.Sql
