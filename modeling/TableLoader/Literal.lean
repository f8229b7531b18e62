import TableLoader.Calendar
import TableLoader.Cell
import TableLoader.SqlType

/-!
# Literals

How a cell is written in a statement: as a literal of its column's type, or as `NULL` when it has none.
-/
namespace TableLoader.Literal

def null : List Char := "NULL".toList

/-- One character inside single quotes. Quotes and backslashes are doubled, NUL is left out, and line
breaks and tabs become escapes. -/
def quoteChar : Char → List Char
  | '\\' => ['\\', '\\']
  | '\'' => ['\'', '\'']
  | '\x00' => []
  | '\n' => ['\\', 'n']
  | '\r' => ['\\', 'r']
  | '\t' => ['\\', 't']
  | c => [c]

def quote (cs : List Char) : List Char := '\'' :: (cs.flatMap quoteChar ++ ['\''])

def ofBool (b : Bool) : List Char := if b then "TRUE".toList else "FALSE".toList

def numeric (cs : List Char) : List Char := if (Binary64.ofText? cs).isSome then cs else null

def trueWords : List String := ["true", "1", "yes", "y", "t"]

def falseWords : List String := ["false", "0", "no", "n", "f"]

def boolean (cs : List Char) : List Char :=
  let lowered := Text.toLower cs
  if trueWords.any (·.toList == lowered) then ofBool true
  else if falseWords.any (·.toList == lowered) then ofBool false
  else null

def datetime (t : SqlType) (cs : List Char) : List Char :=
  if t.isZeroDate cs then null
  else if Calendar.isRecognized cs then quote cs
  else null

def ofText (t : SqlType) (trimmed : List Char) : List Char :=
  match t.category with
  | .numeric => numeric trimmed
  | .boolean => boolean trimmed
  | .datetime => datetime t trimmed
  | .text => quote trimmed

def format (t : SqlType) (cell : Cell) : List Char :=
  match cell with
  -- Elsewhere a truth value is written as its own text would be.
  | .bool b => if t.isBoolean then ofBool b else ofText t cell.trimmed
  | _ => if cell.isNullLike then null else ofText t cell.trimmed

end TableLoader.Literal
