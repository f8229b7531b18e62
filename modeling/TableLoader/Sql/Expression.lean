import TableLoader.Sql.Operand

/-!
# Expressions

Operands with their members and subscripts, and the operators that join them.
-/
namespace TableLoader.Sql

open Reader

inductive Access where
  | name
  | part
  | star
  deriving DecidableEq, Repr

def subscript (nest : Nest) (scope : Scope) : Reader Unit := do
  unless ← symbol ":" do
    nest.expr scope
    if ← symbol "]" then return
    expectSymbol ":"
  if ← symbol "]" then return
  nest.expr scope
  if ← symbol "]" then return
  expectSymbol ":"
  if ← symbol "]" then return
  nest.expr scope
  expectSymbol "]"

def member (d : Dialect) (nest : Nest) (scope : Scope) : Reader Access := do
  let found ← attempt do
    let shape ← nest.expression scope (Strength.period.level d)
    require shape.mayFollowDot
    return shape
  match found with
  | some .name | some .path => return .name
  | some _ => return .part
  | none =>
    discard ident
    return .name

def access (d : Dialect) (nest : Nest) (scope : Scope) : Reader (Option Access) := do
  let ts ← look id
  match ts with
  | .symbol "." :: .symbol "*" :: _ =>
    if d = .postgres then
      discard next
      discard next
      return some .star
    else return none
  | .symbol "." :: .string .single _ :: _ =>
    discard next
    discard next
    return some .name
  | .symbol "." :: _ =>
    discard next
    return some (← member d nest scope)
  | .symbol "[" :: _ =>
    discard next
    subscript nest scope
    return some .part
  | _ => return none

/-- The shape of an operand with its dots and subscripts. An asterisk stands last and after names only. -/
def accessed (shape : Shape) (steps : List Access) : Reader Shape :=
  if steps = [] then pure shape
  else if steps.all (· == .name) then pure (if shape = .name then .path else .access)
  else if steps.contains .star then do
    require (shape == .name && steps.getLast? == some .star && steps.dropLast.all (· == .name))
    return .other
  else pure .access

def rightSide (nest : Nest) (scope : Scope) (level : Nat) (comparison : Bool) :
    Reader Unit := do
  match ← oneOf ["ANY", "ALL", "SOME"] with
  | some _ =>
    if (← nextIsSymbol "(") && (← look fun ts =>
        ((ts.drop 1).head?.bind Token.keyword?).any ["SELECT", "WITH"].contains) then
      discard (nest.expression scope level)
    else
      discard (parenthesized (nest.expression scope level))
    require comparison
  | none => discard (nest.expression scope level)

/-- Operators that compare, and so may compare with any or all of several values. -/
def comparisons : List String :=
  [">", "<", ">=", "<=", "=", "==", "<>", "~", "~*", "!~", "!~*", "~~", "~~*", "!~~", "!~~*"]

def isOperator (d : Dialect) (text : String) : Bool :=
  match text with
  | "<<" | ">>" => d == .postgres || d == .generic
  | "^@" => d == .postgres || d == .generic
  | "//" => d == .generic
  | "#" => d == .postgres
  | "&&" => d == .postgres || d == .mysql
  | "." | "::" | "!" | "[" => false
  | _ => Strength.ofSymbol d text != .absent

def normalizedTest : Reader Unit := do
  discard (keyword "NOT")
  discard (oneOf ["NFC", "NFD", "NFKC", "NFKD"])
  expectKeyword "NORMALIZED"

def isTest (nest : Nest) (scope : Scope) : Reader Unit := do
  if ← keyword "NULL" then return
  if ← keywords ["NOT", "NULL"] then return
  match ← attempt (do
      discard (keyword "NOT")
      expectOneOf ["TRUE", "FALSE", "UNKNOWN"]) with
  | some _ => return
  | none => pure ()
  if ← keywords ["DISTINCT", "FROM"] then return (← nest.expr scope)
  if ← keywords ["NOT", "DISTINCT", "FROM"] then return (← nest.expr scope)
  normalizedTest

def escapeClause (d : Dialect) : Reader Unit := do
  if ← keyword "ESCAPE" then literalValue d

def membership (d : Dialect) (nest : Nest) (scope : Scope) : Reader Unit := do
  if ← keyword "UNNEST" then parenthesized (nest.expr scope)
  else
    parenthesized do
      match ← attempt nest.query with
      | some _ => pure ()
      | none =>
        if d = .sqlite then discard (commaListBefore ")" (nest.expr scope)) else nest.exprs scope

def negatableTest (d : Dialect) (nest : Nest) (scope : Scope) : Reader Unit := do
  let pattern := discard (nest.expression scope (Strength.pattern.level d))
  let negated ← keyword "NOT"
  let regexp ← keyword "REGEXP"
  let rlike ← keyword "RLIKE"
  let null ← if scope = .general then keyword "NULL" else pure false
  if regexp || rlike then pattern
  else if negated && null then pure ()
  else if ← keyword "IN" then membership d nest scope
  else if ← keyword "BETWEEN" then
    discard (nest.expression scope (Strength.between.level d))
    expectKeyword "AND"
    discard (nest.expression scope (Strength.between.level d))
  else if ← keyword "LIKE" then
    discard (keyword "ANY")
    pattern
    escapeClause d
  else if ← keyword "ILIKE" then
    discard (keyword "ANY")
    pattern
    escapeClause d
  else
    expectKeywords ["SIMILAR", "TO"]
    pattern
    escapeClause d

def operatorName : Reader Unit := do
  let part : Reader (Option Unit) := do
    if ← symbol "." then
      discard next
      return some ()
    else return none
  discard next
  discard (repeated part)

def wordOperation (d : Dialect) (nest : Nest) (scope : Scope) (level : Nat) (key : String) :
    Reader Unit := do
  let right := rightSide nest scope level
  match key with
  | "AND" | "OR" | "XOR" | "OVERLAPS" =>
    discard next
    right false
  | "OPERATOR" =>
    discard next
    require (d == .postgres || d == .generic)
    parenthesized operatorName
    right false
  | "DIV" =>
    discard next
    require (d == .mysql)
    nest.expr scope
  | "IS" =>
    discard next
    isTest nest scope
  | "AT" =>
    expectKeywords ["AT", "TIME", "ZONE"]
    discard (nest.expression scope level)
  | "REGEXP" =>
    if d = .sqlite then
      discard next
      nest.expr scope
    else negatableTest d nest scope
  | "MATCH" =>
    discard next
    require (d == .sqlite)
    nest.expr scope
  | "NOT" | "IN" | "BETWEEN" | "LIKE" | "ILIKE" | "SIMILAR" | "RLIKE" => negatableTest d nest scope
  | "NOTNULL" => discard next
  | "MEMBER" =>
    expectKeywords ["MEMBER", "OF"]
    parenthesized (nest.expr scope)
  | _ => refuse

def operation (d : Dialect) (nest : Nest) (scope : Scope) (level : Nat) : Reader Unit := do
  let ts ← look id
  match ts with
  | .word _ key none :: _ => wordOperation d nest scope level key
  | .operator _ :: _ =>
    discard next
    rightSide nest scope level false
  | .symbol "::" :: _ =>
    discard next
    discard (dataType d)
  | .symbol "!" :: _ =>
    discard next
    require (d == .postgres)
  | .symbol text :: _ =>
    discard next
    require (isOperator d text)
    rightSide nest scope level (comparisons.contains text)
  | _ => refuse

def tighterOperation (d : Dialect) (nest : Nest) (scope : Scope) (bound : Nat) :
    Reader (Option Unit) := do
  let strength ← look (Strength.ofTokens d scope)
  if strength.level d ≤ bound ∨ strength = .period then return none
  else
    operation d nest scope (strength.level d)
    return some ()

def expression (d : Dialect) (nest : Nest) (scope : Scope) (bound : Nat) : Reader Shape := do
  let shape ← operand d nest scope
  let shape ← accessed shape (← repeated (access d nest scope))
  let shape ← collation scope shape
  let operations ← repeated (tighterOperation d nest scope bound)
  return if operations.isEmpty then shape else .other

end TableLoader.Sql
