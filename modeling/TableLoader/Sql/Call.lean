import TableLoader.Sql.Value

/-!
# Calls

The arguments of functions, and the clauses that may follow them.
-/
namespace TableLoader.Sql

open Reader

def nullTreatment : Reader Unit := do
  match ← oneOf ["IGNORE", "RESPECT"] with
  | some _ => expectKeyword "NULLS"
  | none => pure ()

def orderItem (nest : Nest) (scope : Scope) : Reader Unit := do
  nest.expr scope
  discard (oneOf ["ASC", "DESC"])
  unless ← keywords ["NULLS", "FIRST"] do discard (keywords ["NULLS", "LAST"])

def orderItems (nest : Nest) (scope : Scope) : Reader Unit :=
  discard (commaList (orderItem nest scope))

/-- The names after a name and a dot, the last of which may be an asterisk; whether it is. -/
def starPathUpTo : Nat → Reader Bool
  | 0 => refuse
  | bound + 1 => do
    if ← symbol "." then
      match ← next with
      | .symbol "*" => return true
      | .word .. | .string .single _ | .placeholder _ => starPathUpTo bound
      | _ => refuse
    else return false

def star : Reader Bool := fun ts =>
  match ts with
  | .symbol "*" :: rest => .read true rest
  | .symbol "(" :: .symbol "*" :: .symbol ")" :: rest => .read true rest
  | .word .. :: .symbol "." :: rest | .string .single _ :: .symbol "." :: rest =>
    match starPathUpTo ts.length (.symbol "." :: rest) with
    | .read true rest => .read true rest
    | .read false _ => .read false ts
    | .refused => .refused
    | .tooDeep => .tooDeep
  | _ => .read false ts

def exprOrStar (nest : Nest) (scope : Scope) : Reader Unit := do
  unless ← star do nest.expr scope

def namedArgumentMark (d : Dialect) : Reader Unit := do
  if ← keyword "VALUE" then pure ()
  else
    match ← next with
    | .symbol "=>" => pure ()
    | .symbol ":=" => require (d == .generic)
    | .symbol ":" => require (d == .postgres)
    | _ => refuse

def argument (d : Dialect) (nest : Nest) (scope : Scope) : Reader Unit :=
  orElse
    (do
      if d = .postgres then nest.expr scope else discard ident
      namedArgumentMark d
      exprOrStar nest scope)
    (exprOrStar nest scope)

def arguments (d : Dialect) (nest : Nest) (scope : Scope) : Reader Unit := do
  discard (orElse (keywords ["NULL", "ON", "NULL"]) (pure false))
  discard (keywords ["ABSENT", "ON", "NULL"])
  if ← symbol ")" then pure ()
  else
    let all ← keyword "ALL"
    let distinct ← keyword "DISTINCT"
    require !(all && distinct)
    if distinct then require !(← keyword "ALL")
    discard (commaList (argument d nest scope))
    if d = .generic then nullTreatment
    if ← keywords ["ORDER", "BY"] then orderItems nest scope
    if ← keyword "LIMIT" then nest.expr scope
    if d = .generic then
      if ← keyword "HAVING" then
        discard (expectOneOf ["MIN", "MAX"])
        nest.expr scope
    if d = .generic ∨ d = .mysql then
      if ← keyword "SEPARATOR" then literalValue d
    unless ← keywords ["NULL", "ON", "NULL"] do discard (keywords ["ABSENT", "ON", "NULL"])
    expectSymbol ")"

def frameBound (nest : Nest) (scope : Scope) : Reader Unit := do
  if ← keywords ["CURRENT", "ROW"] then pure ()
  else
    unless ← keyword "UNBOUNDED" do nest.expr scope
    discard (expectOneOf ["PRECEDING", "FOLLOWING"])

def window (nest : Nest) (scope : Scope) : Reader Unit := do
  let ts ← look id
  match ts with
  | .word _ key quote :: _ =>
    unless quote.isNone && ["PARTITION", "ORDER", "ROWS", "RANGE", "GROUPS"].contains key do
      discard ident
  | _ => pure ()
  if ← keywords ["PARTITION", "BY"] then nest.exprs scope
  if ← keywords ["ORDER", "BY"] then orderItems nest scope
  match ← oneOf ["ROWS", "RANGE", "GROUPS"] with
  | some _ =>
    if ← keyword "BETWEEN" then
      frameBound nest scope
      expectKeyword "AND"
      frameBound nest scope
    else frameBound nest scope
  | none => pure ()
  expectSymbol ")"

def call (d : Dialect) (nest : Nest) (scope : Scope) : Reader Unit := do
  expectSymbol "("
  arguments d nest scope
  if d = .generic then
    if ← symbol "(" then arguments d nest scope
  if ← keywords ["WITHIN", "GROUP"] then
    parenthesized do
      expectKeywords ["ORDER", "BY"]
      orderItems nest scope
  if d ≠ .mysql then
    if ← keyword "FILTER" then
      if ← symbol "(" then
        if ← keyword "WHERE" then
          nest.expr scope
          expectSymbol ")"
  nullTreatment
  if ← keyword "OVER" then
    if ← symbol "(" then window nest scope else discard ident

end TableLoader.Sql
