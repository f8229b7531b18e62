import TableLoader.Sql.SpecialForm

/-!
# Operands

What stands between the operators of an expression.
-/
namespace TableLoader.Sql

open Reader

/-- What a word is that begins no expression of its own: a function with its arguments, a string with its
character set, or a name. -/
def plainWord (d : Dialect) (nest : Nest) (scope : Scope) (text : String) : Reader Shape := do
  let ts ← look id
  match ts with
  | .symbol "(" :: _ =>
    call d nest scope
    return .call
  | .string .single _ :: _ | .string .double _ :: _ | .string .hex _ :: _ =>
    if text.toList.head? = some '_' then
      literalValue d
      return .other
    else return .name
  | _ => return .name

def braced (d : Dialect) (nest : Nest) (scope : Scope) : Reader Unit :=
  orElse
    (do
      match ← next with
      | .word text key none =>
        if key = "FN" then
          discard objectName
          call d nest scope
        else
          require (["d", "t", "ts"].contains text)
          literalValue d
      | _ => refuse
      expectSymbol "\x7d")
    (do
      require (d == .generic)
      mapEntries (discard ident) nest scope)

def grouped (nest : Nest) : Reader Unit := do
  if ← nextIsOneOf ["SELECT", "WITH"] then nest.query else nest.exprs .general
  expectSymbol ")"

def collation (scope : Scope) (shape : Shape) : Reader Shape := do
  if scope = .general then
    if ← keyword "COLLATE" then
      discard objectName
      return .other
  return shape

/-- Signs before an operand that bind as tightly as a sum. -/
def isSign (d : Dialect) (text : String) : Bool :=
  text == "~" ||
    d == .postgres && ["!!", "|/", "||/", "@", "#", "@-@", "@@", "?-", "?|"].contains text

def signed (d : Dialect) (nest : Nest) (scope : Scope) (strength : Strength) : Reader Shape := do
  discard (nest.expression scope (strength.level d))
  return .other

/-- An operand, after an attempt to read it as a literal with its type. -/
def untypedOperand (d : Dialect) (nest : Nest) (scope : Scope) (operand : Reader Shape) :
    Reader Shape := do
  let ts ← look id
  match ← next with
  | .word text key quote =>
    let special :=
      if quote = none then keywordExpression d nest scope operand key else pure none
    let retry :=
      if quote = none ∧ neverNames.contains key then refuse
      else do return some (← plainWord d nest scope text)
    match ← orRetry special retry with
    | some shape => pure shape
    | none => plainWord d nest scope text
  | .symbol "[" =>
    arrayElements nest scope
    return .other
  | .symbol "-" | .symbol "+" => signed d nest scope .product
  | .symbol "(" =>
    grouped nest
    return .other
  | .symbol "\x7b" =>
    braced d nest scope
    return .other
  | .symbol text =>
    if isSign d text then signed d nest scope .sum
    else
      fun _ => (do
        literalValue d
        return .value : Reader Shape) ts
  | _ =>
    fun _ => (do
      literalValue d
      return .value : Reader Shape) ts

def operandUpTo (d : Dialect) (nest : Nest) (scope : Scope) : Nat → Reader Shape
  | 0 => refuse
  | bound + 1 => do
    let operand := operandUpTo d nest scope bound
    match ← attempt (typedLiteral d nest scope operand) with
    | some _ => return .other
    | none => collation scope (← untypedOperand d nest scope operand)

def operand (d : Dialect) (nest : Nest) (scope : Scope) : Reader Shape := fun ts =>
  operandUpTo d nest scope (ts.length + 1) ts

end TableLoader.Sql
