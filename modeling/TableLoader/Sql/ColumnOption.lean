import TableLoader.Sql.Expression

/-!
# Column options

What may follow the type of a column: constraints, a default, a collation and so on, in any order and number.
Some options of single dialects are introduced by a keyword that is taken even where the dialect, or what
follows, does not fit; the alternatives after it are then tried at the next token.
-/
namespace TableLoader.Sql

open Reader

inductive ColumnOption where
  | notNull
  | other
  deriving DecidableEq, Repr

def referentialAction : Reader Unit := do
  match ← expectOneOf ["RESTRICT", "CASCADE", "SET", "NO"] with
  | "SET" => discard (expectOneOf ["NULL", "DEFAULT"])
  | "NO" => expectKeyword "ACTION"
  | _ => pure ()

def clause (keys : List String) (rest : Reader Unit) : Reader Bool := do
  if ← keywords keys then
    rest
    return true
  else return false

def characteristics : Reader Unit :=
  eachOnce [
    (do if ← keywords ["NOT", "DEFERRABLE"] then return true else keyword "DEFERRABLE"),
    clause ["INITIALLY"] (discard (expectOneOf ["DEFERRED", "IMMEDIATE"])),
    (do if ← keyword "ENFORCED" then return true else keywords ["NOT", "ENFORCED"])]

def reference : Reader Unit := do
  discard objectName
  discard (ifParenthesized (commaList ident))
  eachOnce [
    clause ["MATCH"] (discard (expectOneOf ["FULL", "PARTIAL", "SIMPLE"])),
    clause ["ON", "DELETE"] referentialAction,
    clause ["ON", "UPDATE"] referentialAction]
  characteristics

def check (nest : Nest) : Reader Unit := do
  parenthesized (nest.expr .general)
  unless ← keyword "ENFORCED" do discard (keywords ["NOT", "ENFORCED"])

def commentText : Reader Unit := do
  match ← next with
  | .string .single _ | .string .dollar _ => pure ()
  | _ => refuse

/-- The expression of an option, which is a single operand when it begins with a parenthesis. -/
def optionExpression (d : Dialect) (nest : Nest) : Reader Unit := do
  if ← nextIsSymbol "(" then discard (operand d nest .general) else nest.expr .column

def assignment (nest : Nest) : Reader Unit := do
  discard ident
  expectSymbol "="
  nest.expr .general

def sequenceOptions : Reader Unit := do
  if ← keyword "INCREMENT" then
    discard (keyword "BY")
    signedNumber
  if ← keyword "MINVALUE" then signedNumber else discard (keywords ["NO", "MINVALUE"])
  if ← keyword "MAXVALUE" then signedNumber else discard (keywords ["NO", "MAXVALUE"])
  if ← keyword "START" then
    discard (keyword "WITH")
    signedNumber
  if ← keyword "CACHE" then signedNumber
  unless ← keywords ["NO", "CYCLE"] do discard (keyword "CYCLE")

/-- What follows `GENERATED`; nothing if that is no way to generate a column. -/
def generated (d : Dialect) (nest : Nest) : Reader (Option ColumnOption) := do
  if ← anyOf [["ALWAYS", "AS", "IDENTITY"], ["BY", "DEFAULT", "AS", "IDENTITY"]] then
    discard (ifParenthesized sequenceOptions)
    return some .other
  if ← keywords ["ALWAYS", "AS"] then
    if ← nextIsSymbol "(" then
      parenthesized (nest.expr .general)
      unless ← keyword "STORED" do
        require (d != .postgres)
        discard (keyword "VIRTUAL")
      return some .other
  return none
where
  anyOf : List (List String) → Reader Bool
    | [] => pure false
    | keys :: rest => do
      if ← keywords keys then return true else anyOf rest

def introduced (keys : List String) (rest : Reader Unit) : Reader (Option ColumnOption) := do
  if ← keywords keys then
    rest
    return some .other
  else return none

/-- The option that keywords introduce where the dialect has it; elsewhere they are taken for nothing. -/
def introducedIn (fits : Bool) (keys : List String) (rest : Reader Unit) :
    Reader (Option ColumnOption) := do
  if ← keywords keys then
    if fits then
      rest
      return some .other
    else return none
  else return none

def onlyIn (fits : Bool) (option : Reader (Option ColumnOption)) :
    Reader (Option ColumnOption) :=
  if fits then option else pure none

def computed (nest : Nest) : Reader Unit := do
  parenthesized (nest.expr .column)
  unless ← keyword "STORED" do discard (keyword "VIRTUAL")

def plainColumnOption (d : Dialect) (nest : Nest) : Reader (Option ColumnOption) :=
  -- In the order of trial, which counts where an option is taken for nothing.
  let inMysql := d == .mysql || d == .generic
  let inSqlite := d == .sqlite || d == .generic
  let inGeneric := d == .generic
  firstOf [
    introduced ["CHARACTER", "SET"] (discard objectName),
    introduced ["COLLATE"] (discard objectName),
    (do if ← keywords ["NOT", "NULL"] then return some .notNull else return none),
    introduced ["COMMENT"] commentText,
    introduced ["NULL"] (pure ()),
    introduced ["DEFAULT"] (optionExpression d nest),
    onlyIn inGeneric (introduced ["MATERIALIZED"] (optionExpression d nest)),
    onlyIn inGeneric (introduced ["ALIAS"] (optionExpression d nest)),
    onlyIn inGeneric <| introduced ["EPHEMERAL"] do
      unless ← look fun ts => ts.head?.any fun t => t.isSymbol "," || t.isSymbol ")" do
        optionExpression d nest,
    introduced ["PRIMARY", "KEY"] characteristics,
    introduced ["UNIQUE"] characteristics,
    introduced ["REFERENCES"] reference,
    introduced ["CHECK"] (check nest),
    introducedIn inMysql ["AUTO_INCREMENT"] (pure ()),
    introducedIn inSqlite ["AUTOINCREMENT"] (pure ()),
    introducedIn inSqlite ["ASC"] (pure ()),
    introducedIn inSqlite ["DESC"] (pure ()),
    introducedIn inMysql ["ON", "UPDATE"] (optionExpression d nest)]

def rareColumnOption (d : Dialect) (nest : Nest) : Reader (Option ColumnOption) :=
  let inMysql := d == .mysql || d == .generic
  let inSqlite := d == .sqlite || d == .generic
  let inGeneric := d == .generic
  firstOf [
    onlyIn inGeneric <| introduced ["OPTIONS"]
      (discard (parenthesized (commaListBefore ")" (assignment nest)))),
    introducedIn (d != .postgres) ["AS"] (computed nest),
    introducedIn inMysql ["SRID"] (optionExpression d nest),
    introducedIn inGeneric ["IDENTITY"] <| discard <| ifParenthesized do
      signedNumber
      expectSymbol ","
      signedNumber,
    onlyIn inSqlite <| introduced ["ON", "CONFLICT"]
      (discard (expectOneOf ["ROLLBACK", "ABORT", "FAIL", "IGNORE", "REPLACE"])),
    introduced ["INVISIBLE"] (pure ())]

/-- An option of a column, if one comes next. The word `GENERATED` without a way to generate the column is
taken and ends the options. -/
def columnOption (d : Dialect) (nest : Nest) : Reader (Option ColumnOption) := do
  match ← plainColumnOption d nest with
  | some option => return some option
  | none =>
    if ← keyword "GENERATED" then generated d nest else rareColumnOption d nest

/-- An option with an optional name; a name must have an option after it. -/
def namedColumnOption (d : Dialect) (nest : Nest) : Reader (Option ColumnOption) := do
  if ← keyword "CONSTRAINT" then
    discard ident
    match ← columnOption d nest with
    | some option => return some option
    | none => refuse
  else columnOption d nest

def columnOptions (d : Dialect) (nest : Nest) : Reader (List ColumnOption) :=
  repeated (namedColumnOption d nest)

end TableLoader.Sql
