import TableLoader.Json.Decode
import TableLoader.Text.LetterCase

/-!
# Settings

The dialects whose grammar an import may follow, the ways to quote identifiers, and the settings that
choose among them.
-/
namespace TableLoader

def natString (n : Nat) : String := String.ofList (natText n)

def lowerName (s : String) : String := String.ofList (Text.toLower s.toList)

inductive Dialect where
  | mysql
  | postgres
  | sqlite
  | generic
  deriving DecidableEq, Repr

namespace Dialect

def name : Dialect → String
  | .mysql => "mysql"
  | .postgres => "postgres"
  | .sqlite => "sqlite"
  | .generic => "generic"

def ofName? (s : String) : Option Dialect :=
  [mysql, postgres, sqlite, generic].find? (·.name = s)

def parse (s : String) : Except String Dialect :=
  match lowerName s with
  | "mysql" | "mariadb" => .ok .mysql
  | "postgres" | "postgresql" => .ok .postgres
  | "sqlite" => .ok .sqlite
  | "generic" => .ok .generic
  | _ => .error ("Unknown SQL dialect: " ++ s)

end Dialect

inductive IdentifierQuote where
  | backtick
  | double
  | bracket
  deriving DecidableEq, Repr

namespace IdentifierQuote

def name : IdentifierQuote → String
  | .backtick => "backtick"
  | .double => "double"
  | .bracket => "bracket"

def ofName? (s : String) : Option IdentifierQuote :=
  [backtick, double, bracket].find? (·.name = s)

def delimiters : IdentifierQuote → Char × Char
  | .backtick => ('\x60', '\x60')
  | .double => ('\"', '\"')
  | .bracket => ('[', ']')

def parse (s : String) : Except String IdentifierQuote :=
  match lowerName s with
  | "backtick" | "mysql" => .ok .backtick
  | "double" | "postgres" | "ansi" => .ok .double
  | "bracket" | "sqlserver" | "mssql" => .ok .bracket
  | _ => .error ("Unknown identifier quote style: " ++ s)

end IdentifierQuote

structure Settings where
  /-- The largest dump that is read, in bytes of UTF-8. -/
  maxInputSize : Nat := 50 * 1024 * 1024
  identifierQuote : IdentifierQuote := .backtick
  /-- Whether rows that violate their columns keep a statement from being written. -/
  validateBeforeGenerate : Bool := true
  dialect : Dialect := .mysql
  deriving DecidableEq, Repr

namespace Settings

def keys : List String :=
  ["max_input_size", "identifier_quote", "validate_before_generate", "dialect"]

def toJson (s : Settings) : Json :=
  .record [
    ("max_input_size", .ofNat s.maxInputSize),
    ("identifier_quote", .ofString s.identifierQuote.name),
    ("validate_before_generate", .bool s.validateBeforeGenerate),
    ("dialect", .ofString s.dialect.name)]

def ofMembers? (size quote validate dialect : Option Json) : Option Settings := do
  let standard : Settings := {}
  let size ← Json.memberOr standard.maxInputSize Json.asNat? size
  let quote ←
    Json.memberOr standard.identifierQuote (·.asCase?.bind IdentifierQuote.ofName?) quote
  let validate ← Json.memberOr standard.validateBeforeGenerate Json.asBool? validate
  let dialect ← Json.memberOr standard.dialect (·.asCase?.bind Dialect.ofName?) dialect
  pure ⟨size, quote, validate, dialect⟩

/-- Settings as JSON: absent members take their defaults, and no other key may stand. -/
def ofJson? (value : Json) : Option Settings := do
  match ← Json.members? keys .refused value with
  | [size, quote, validate, dialect] => ofMembers? size quote validate dialect
  | _ => none

def parseJson? (s : String) : Option Settings := (Json.parse? s).bind ofJson?

end Settings

end TableLoader
