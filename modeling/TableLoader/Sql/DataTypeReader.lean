import TableLoader.Sql.DataType
import TableLoader.Sql.Keyword

/-!
# Reading data types

How tokens declare a type. A word that begins no known type begins the name of a type of the user.
-/
namespace TableLoader

namespace Dialect

def hasSignedSuffix (d : Dialect) : Bool := d == .mysql || d == .generic

def hasIntervalOptions (d : Dialect) : Bool := d == .postgres || d == .generic

def hasBracketArrays (d : Dialect) : Bool := d == .postgres || d == .generic

def hasTextSearchTypes (d : Dialect) : Bool := d == .postgres || d == .generic

def hasGeometry (d : Dialect) : Bool := d == .postgres

end Dialect

namespace Sql

open Reader

def lengthMeasure : Reader Measure := do
  match ← ifParenthesized natural with
  | some n => return .length n
  | none => return .absent

def scale : Reader Int := do
  if ← symbol "-" then
    let n ← natural
    require (n ≤ twoTo 63)
    return -(n : Int)
  else
    discard (symbol "+")
    let n ← natural
    require (n < twoTo 63)
    return n

def scaledMeasure : Reader Measure := do
  let measure ← ifParenthesized do
    let precision ← natural
    if ← symbol "," then return Measure.scaled precision (← scale) else return .length precision
  return measure.getD .absent

def characterMeasure : Reader Measure := do
  let measure ← ifParenthesized do
    if ← keyword "MAX" then return Measure.maximum
    let n ← natural
    match ← oneOf ["CHARACTERS", "OCTETS"] with
    | some unit => return .lengthIn n unit
    | none => return .length n
  return measure.getD .absent

def binaryMeasure : Reader Measure := do
  let measure ← ifParenthesized do
    if ← keyword "MAX" then return Measure.maximum else return .length (← natural)
  return measure.getD .absent

def optionalSuffix (key : String) : Reader (List String) := do
  if ← keyword key then return [key] else return []

def unsignedSuffix : Reader (List String) := optionalSuffix "UNSIGNED"

/-- The word `UNSIGNED` is part of an integer type, and `SIGNED` is not. -/
def signSuffix (d : Dialect) : Reader (List String) := do
  let suffix ← unsignedSuffix
  if suffix = [] ∧ d.hasSignedSuffix then discard (keyword "SIGNED")
  return suffix

def zoneSuffix : Reader (List String) := do
  match ← oneOf ["WITH", "WITHOUT"] with
  | some word =>
    expectKeywords ["TIME", "ZONE"]
    return [word, "TIME", "ZONE"]
  | none => return []

def lastFields : String → List String
  | "YEAR" => ["MONTH"]
  | "DAY" => ["HOUR", "MINUTE", "SECOND"]
  | "HOUR" => ["MINUTE", "SECOND"]
  | "MINUTE" => ["SECOND"]
  | _ => []

def intervalFields : Reader (List String) := do
  match ← oneOf ["YEAR", "MONTH", "DAY", "HOUR", "MINUTE", "SECOND"] with
  | none => return []
  | some first =>
    if lastFields first = [] then return [first]
    if ← keyword "TO" then return [first, "TO", ← expectOneOf (lastFields first)]
    return [first]

/-- The mark that closes an angle bracket; the first half of two that stand together. -/
def closeAngle : Reader Unit
  | .symbol ">" :: rest => .read () rest
  | .symbol ">>" :: rest => .read () (.symbol ">" :: rest)
  | _ => .refused

def labelText (d : Dialect) : Reader String := do
  match ← next with
  | .word text key none => if isKeyword key then refuse else pure text
  | .word text _ (some _) => pure text
  | .string .single text | .string .double text | .string .unicode text => pure text
  | .string .escaped text => if d.hasEscapeStrings then pure text else refuse
  | _ => refuse

def signText : Reader String := do
  if ← symbol "+" then return "+"
  if ← symbol "-" then return "-"
  return ""

def label (d : Dialect) : Reader Label := do
  let text ← labelText d
  if ← symbol "=" then
    let sign ← signText
    match ← next with
    | .number number => return ⟨text, some (sign ++ number)⟩
    | _ => refuse
  else return ⟨text, none⟩

def plainTypes : List (String × String) :=
  (["BOOLEAN", "BOOL", "FLOAT4", "FLOAT8", "FLOAT64", "INT64", "HUGEINT", "UBIGINT", "UHUGEINT",
    "USMALLINT", "UTINYINT", "UUID", "DATE", "JSON", "JSONB", "REGCLASS", "TEXT", "TINYTEXT",
    "MEDIUMTEXT", "LONGTEXT", "TINYBLOB", "MEDIUMBLOB", "LONGBLOB", "BYTEA", "TRIGGER"].map
    fun name => (name, name)) ++
  [("INT16", "Int16"), ("INT32", "Int32"), ("INT128", "Int128"), ("INT256", "Int256"),
    ("UINT8", "UInt8"), ("UINT16", "UInt16"), ("UINT32", "UInt32"), ("UINT64", "UInt64"),
    ("UINT128", "UInt128"), ("UINT256", "UInt256"), ("FLOAT32", "Float32"), ("DATE32", "Date32")]

def measuredTypes : List String :=
  ["CLOB", "BINARY", "BLOB", "BYTES", "VARBIT", "DATETIME", "STRING", "TIMESTAMP_NTZ"]

def signableTypes : List String :=
  ["TINYINT", "SMALLINT", "MEDIUMINT", "INT", "INTEGER", "BIGINT"]

def unsignableTypes : List String := ["INT2", "INT4", "INT8"]

def scaledTypes : List String := ["NUMERIC", "BIGNUMERIC", "BIGDECIMAL"]

def unsignableScaledTypes : List String := ["FLOAT", "DECIMAL", "DEC"]

def zonedTypes : List String := ["TIMESTAMP", "TIME"]

def enumerations : List String := ["ENUM", "ENUM8", "ENUM16"]

def geometricTypes : List String := ["POINT", "LINE", "LSEG", "BOX", "PATH", "POLYGON", "CIRCLE"]

/-- A known type that begins with a keyword, which has been taken; nothing if it begins none. `inner` reads
the types inside it. -/
def knownType (d : Dialect) (inner : Reader DataType) (key : String) :
    Reader (Option DataType) := do
  if let some (_, name) := plainTypes.find? (·.1 == key) then return some (.plain name)
  if measuredTypes.contains key then return some (.known key (← lengthMeasure) [])
  if signableTypes.contains key then
    let measure ← lengthMeasure
    return some (.known key measure (← signSuffix d))
  if unsignableTypes.contains key then
    let measure ← lengthMeasure
    return some (.known key measure (← unsignedSuffix))
  if scaledTypes.contains key then return some (.known key (← scaledMeasure) [])
  if unsignableScaledTypes.contains key then
    let measure ← scaledMeasure
    return some (.known key measure (← unsignedSuffix))
  if zonedTypes.contains key then
    let measure ← lengthMeasure
    return some (.known key measure (← zoneSuffix))
  if enumerations.contains key then
    return some (.labelled key (← parenthesized (commaList (label d))))
  if d.hasGeometry && geometricTypes.contains key then
    return some (.plain (String.ofList (key.toList.map Char.toLower)))
  match key with
  | "REAL" => return some (.known "REAL" .absent (← unsignedSuffix))
  | "DOUBLE" =>
    if ← keyword "PRECISION" then
      return some (.known "DOUBLE PRECISION" .absent (← unsignedSuffix))
    let measure ← scaledMeasure
    return some (.known "DOUBLE" measure (← unsignedSuffix))
  | "VARCHAR" | "NVARCHAR" => return some (.known key (← characterMeasure) [])
  | "CHARACTER" | "CHAR" =>
    if ← keyword "VARYING" then
      return some (.known (key ++ " VARYING") (← characterMeasure) [])
    if ← keywords ["LARGE", "OBJECT"] then
      return some (.known (key ++ " LARGE OBJECT") (← lengthMeasure) [])
    return some (.known key (← characterMeasure) [])
  | "VARBINARY" => return some (.known key (← binaryMeasure) [])
  | "BIT" =>
    if ← keyword "VARYING" then return some (.known "BIT VARYING" (← lengthMeasure) [])
    return some (.known "BIT" (← lengthMeasure) [])
  | "DATETIME64" =>
    let (precision, zone) ← parenthesized do
      let precision ← natural
      if ← symbol "," then return (precision, some (← singleQuoted)) else return (precision, none)
    match zone with
    | some zone => return some (.known "DateTime64" (.zoned precision zone) [])
    | none => return some (.known "DateTime64" (.length precision) [])
  | "TIMESTAMPTZ" | "TIMETZ" => return some (.known key (← lengthMeasure) [])
  | "INTERVAL" =>
    if d.hasIntervalOptions then
      let fields ← intervalFields
      return some (.interval fields (← lengthMeasure))
    return some (.interval [] .absent)
  | "SET" =>
    let labels ← parenthesized (commaList singleQuoted)
    return some (.labelled "SET" (labels.map fun text => ⟨text, none⟩))
  | "ARRAY" =>
    expectSymbol "<"
    let element ← inner
    closeAngle
    return some (.around "ARRAY<" element ">")
  | "FIXEDSTRING" => return some (.known "FixedString" (.length (← parenthesized natural)) [])
  | "NULLABLE" =>
    if d = .generic then return some (.around "Nullable(" (← parenthesized inner) ")")
    return none
  | "LOWCARDINALITY" =>
    if d = .generic then return some (.around "LowCardinality(" (← parenthesized inner) ")")
    return none
  | "SIGNED" | "UNSIGNED" => return some (.known key .absent (← optionalSuffix "INTEGER"))
  | "TSVECTOR" | "TSQUERY" =>
    if d.hasTextSearchTypes then return some (.plain key)
    return none
  | "ANY" =>
    if ← keyword "TYPE" then return some (.plain "ANY TYPE")
    return none
  | "TABLE" => return some (.plain "TABLE")
  | _ => return none

def modifierOfWord (text : String) (quote : Option Char) : String :=
  match quote with
  | none => text
  | some '[' => "[" ++ text ++ "]"
  | some quote => String.singleton quote ++ text ++ String.singleton quote

/-- The modifiers of a custom type up to the closing parenthesis; commas may stand anywhere. -/
def modifier : Reader (Option (List String)) := do
  match ← next with
  | .symbol ")" => return none
  | .symbol "," => return some []
  | .word text _ quote => return some [modifierOfWord text quote]
  | .number text | .string .single text => return some [text]
  | _ => refuse

def customType : Reader DataType := do
  let name ← objectName
  if ← symbol "(" then return .custom name (← repeated modifier).flatten
  else return .custom name []

def brackets : Reader (Option (Option Nat)) := do
  if ← symbol "[" then
    let size ← attempt natural
    expectSymbol "]"
    return some size
  else return none

def dataTypeWithin (d : Dialect) : Nat → Reader DataType
  | 0 => refuse
  | depth + 1 => do
    let ts ← look id
    let element ←
      match ts with
      | .word _ key none :: _ => do
        discard next
        match ← knownType d (dataTypeWithin d depth) key with
        | some type => pure type
        | none => fun _ => customType ts
      | .word _ _ (some _) :: _ => customType
      | _ => refuse
    if d.hasBracketArrays then
      let sizes ← repeated brackets
      return sizes.foldl DataType.array element
    else return element

def dataType (d : Dialect) : Reader DataType := fun ts => dataTypeWithin d (ts.length + 1) ts

end Sql

end TableLoader
