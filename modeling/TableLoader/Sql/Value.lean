import TableLoader.Sql.Nest

/-!
# Literals

Literal values, with or without their types, and intervals.
-/
namespace TableLoader.Sql

open Reader

/-- Adjacent strings make up one string in MySQL. -/
def furtherStrings (d : Dialect) : Reader Unit :=
  if d = .mysql then
    fun ts => .read () (ts.dropWhile fun t =>
      match t with
      | .string .single _ | .string .double _ => true
      | _ => false)
  else pure ()

def literalValue (d : Dialect) : Reader Unit := do
  match ← next with
  | .word _ key none => require (["TRUE", "FALSE", "NULL"].contains key)
  | .word _ _ (some quote) => require (quote == '\"' || quote == '\'')
  | .number _ | .placeholder _ => pure ()
  | .string .single _ | .string .double _ => furtherStrings d
  | .string _ _ => pure ()
  | .symbol ":" | .symbol "@" =>
    match ← next with
    | .word .. | .number _ => pure ()
    | _ => refuse
  | _ => refuse

def temporalUnits : List String :=
  ["YEAR", "YEARS", "MONTH", "MONTHS", "WEEK", "WEEKS", "DAY", "DAYS", "DAYOFWEEK", "DAYOFYEAR",
    "DATE", "DATETIME", "HOUR", "HOURS", "MINUTE", "MINUTES", "SECOND", "SECONDS", "CENTURY",
    "DECADE", "DOW", "DOY", "EPOCH", "ISODOW", "ISOYEAR", "ISOWEEK", "JULIAN", "MICROSECOND",
    "MICROSECONDS", "MILLENIUM", "MILLENNIUM", "MILLISECOND", "MILLISECONDS", "NANOSECOND",
    "NANOSECONDS", "QUARTER", "TIME", "TIMEZONE", "TIMEZONE_ABBR", "TIMEZONE_HOUR",
    "TIMEZONE_MINUTE", "TIMEZONE_REGION", "NODATE"]

/-- A field of a date or a time; whether it is the seconds. -/
def temporalField (d : Dialect) : Reader Bool := do
  let free := d == .postgres || d == .generic
  match ← next with
  | .word _ key none =>
    require (free || temporalUnits.contains key)
    return key == "SECOND"
  | .word .. | .string .single _ =>
    require free
    return false
  | _ => refuse

/-- The unit after the value of an interval; MySQL demands one. -/
def intervalUnit (d : Dialect) : Reader Unit := do
  if ← nextIsOneOf temporalUnits then
    if ← temporalField d then discard scaledMeasure
    else
      discard lengthMeasure
      if ← keyword "TO" then
        if ← temporalField d then discard lengthMeasure
  else
    require (d != .mysql)
    discard lengthMeasure
    if ← keyword "TO" then
      if ← temporalField d then discard lengthMeasure

def intervalValue (d : Dialect) (nest : Nest) (scope : Scope) (operand : Reader Shape) :
    Reader Unit := do
  if d = .mysql then nest.expr scope else discard operand
  intervalUnit d

def typedLiteral (d : Dialect) (nest : Nest) (scope : Scope) (operand : Reader Shape) :
    Reader Unit := do
  match ← dataType d with
  | .interval .. => intervalValue d nest scope operand
  | .custom .. | .unspecified => refuse
  | .known "BINARY" _ _ => if d = .mysql then nest.expr scope else literalValue d
  | _ => literalValue d

end TableLoader.Sql
