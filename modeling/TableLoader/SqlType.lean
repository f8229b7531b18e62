import TableLoader.Number.Numeral
import TableLoader.Text.LetterTable
import TableLoader.Text.Line
import TableLoader.Text.LetterCase

/-!
# Declared types

What a declared column type says about the values of its column: a category found from the words it holds,
a bound on the length of character types, and a range for narrow integers.
-/
namespace TableLoader

inductive Category where
  | numeric
  | boolean
  | datetime
  | text
  deriving DecidableEq, Repr

def Category.name : Category → String
  | .numeric => "numeric"
  | .boolean => "boolean"
  | .datetime => "datetime"
  | .text => "text"

inductive IntWidth where
  | tiny
  | small
  deriving DecidableEq, Repr

namespace IntWidth

def range : IntWidth → Int × Int
  | .tiny => (-128, 127)
  | .small => (-32768, 32767)

def name : IntWidth → String
  | .tiny => "Tiny"
  | .small => "Small"

def keyword : IntWidth → String
  | .tiny => "TINYINT"
  | .small => "SMALLINT"

def contains (w : IntWidth) (x : Binary64) : Bool := x.between w.range.1 w.range.2

end IntWidth

structure SqlType where
  declared : String
  category : Category
  maxLength : Option Nat
  intWidth : Option IntWidth
  deriving DecidableEq, Repr

namespace SqlType

def numericWords : List String :=
  ["int", "integer", "tinyint", "smallint", "mediumint", "bigint", "decimal", "numeric", "float",
    "double", "real", "serial", "bigserial"]

def booleanWords : List String := ["bool", "bit"]

def datetimeWords : List String := ["date", "time", "timestamp", "datetime", "year"]

def holdsAny (words : List String) (cs : List Char) : Bool :=
  words.any fun word => Text.holds word.toList cs

def categoryOf (lowered : List Char) : Category :=
  if holdsAny numericWords lowered then .numeric
  else if holdsAny booleanWords lowered then .boolean
  else if holdsAny datetimeWords lowered then .datetime
  else .text

def intWidthOf (lowered : List Char) : Option IntWidth :=
  if Text.holds "int".toList lowered then
    if Text.holds "tinyint".toList lowered then some .tiny
    else if Text.holds "smallint".toList lowered then some .small
    else none
  else none

/-- The digits, of any script, of the first group of digits alone in parentheses. -/
def firstDigitGroup? : List Char → Option (List Char)
  | [] => none
  | c :: cs =>
    let digits := cs.takeWhile Text.isDecimalDigit
    if c = '(' ∧ digits ≠ [] ∧ (cs.drop digits.length).head? = some ')' then some digits
    else firstDigitGroup? cs

/-- A number of 64 bits written with ASCII digits. -/
def boundOfDigits? (digits : List Char) : Option Nat :=
  if digits.all Char.isDigit ∧ natOfDigits digits < twoTo 64 then some (natOfDigits digits) else none

def maxLengthOf (lowered : List Char) : Option Nat :=
  if Text.holds "char".toList lowered then (firstDigitGroup? lowered).bind boundOfDigits? else none

def parse (declared : String) : SqlType :=
  let lowered := Text.toLower declared.toList
  ⟨declared, categoryOf lowered, maxLengthOf lowered, intWidthOf lowered⟩

def isNumeric (t : SqlType) : Bool := t.category == .numeric

def isBoolean (t : SqlType) : Bool := t.category == .boolean

def isDatetime (t : SqlType) : Bool := t.category == .datetime

def zeroDates : List String := ["0", "0000-00-00", "0000-00-00 00:00:00"]

def isZeroDate (t : SqlType) (trimmed : List Char) : Bool :=
  t.isDatetime && zeroDates.any (·.toList == trimmed)

end SqlType

end TableLoader
