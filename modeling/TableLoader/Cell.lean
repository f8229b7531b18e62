import TableLoader.Json.Decode
import TableLoader.Text.Blank
import TableLoader.Text.LetterCase

/-!
# Cells

One value of an input row, as spreadsheets and JSON requests give it.
-/
namespace TableLoader

inductive Cell where
  | null
  | bool (b : Bool)
  | number (n : Number)
  | text (s : String)
  deriving DecidableEq, Repr

/-- One input row, its cells in the order of the columns. -/
abbrev Row := List Cell

namespace Cell

def content? : Cell → Option (List Char)
  | .null => none
  | .bool b => some (if b then "true".toList else "false".toList)
  | .number n => some n.text
  | .text s => some s.toList

def trimmed? (c : Cell) : Option (List Char) := c.content?.map Text.trim

def trimmed (c : Cell) : List Char := c.trimmed?.getD []

/-- Whether a text is blank or the word `null` in any case, once it is trimmed. -/
def isNullWord (trimmed : List Char) : Bool :=
  trimmed.isEmpty || Text.equalsIgnoringCase "null".toList trimmed

def isNullLike (c : Cell) : Bool := c.trimmed?.all isNullWord

def display (c : Cell) : List Char := c.content?.getD "null".toList

def toJson : Cell → Json
  | .null => .null
  | .bool b => .bool b
  | .number n => .number (some n)
  | .text s => .ofString s

def ofJson? : Json → Option Cell
  | .null => some .null
  | .bool b => some (.bool b)
  | .number value => value.map .number
  | .text value => value.map .text
  | _ => none

/-- A double as a cell; a number that is not finite has no place in one. -/
def ofDouble? : Option Binary64 → Cell
  | some x => .number (.double x)
  | none => .null

end Cell

end TableLoader
