import TableLoader.Cell
import TableLoader.Settings
import TableLoader.Table

/-!
# Violations

What is wrong with a cell under its column, and the list of all faults in a batch of rows.
-/
namespace TableLoader

inductive Violation where
  | nullNotAllowed
  | notNumeric (value : String)
  | outOfRange (value : String) (width : IntWidth)
  | tooLong (length max : Nat) (declaredType : String)
  deriving DecidableEq, Repr

def Violation.message : Violation → String
  | .nullNotAllowed => "cannot be NULL"
  | .notNumeric value => "expected numeric value, got '" ++ value ++ "'"
  | .outOfRange value width => "value " ++ value ++ " out of range for " ++ width.keyword
  | .tooLong length max declaredType =>
    "value length " ++ natString length ++ " exceeds maximum " ++ natString max ++ " for " ++
      declaredType

/-- A violation with the row, counted from one, and the field it was found in. -/
structure RowFault where
  row : Nat
  fieldName : String
  violation : Violation
  deriving DecidableEq, Repr

def RowFault.describe (f : RowFault) : String :=
  match f.violation with
  | .nullNotAllowed =>
    "Row " ++ natString f.row ++ ": Field '" ++ f.fieldName ++ "' " ++ f.violation.message
  | _ => "Row " ++ natString f.row ++ ", Field '" ++ f.fieldName ++ "': " ++ f.violation.message

def checkLength (t : SqlType) (cs : List Char) : Option Violation :=
  t.maxLength.bind fun max =>
    if max < cs.length then some (.tooLong cs.length max t.declared) else none

/-- The violation of a text that must denote a finite number, in range if the type is narrow. -/
def checkNumber (t : SqlType) (cs : List Char) : Option Violation :=
  match Binary64.ofText? cs with
  | none => some (.notNumeric (String.ofList cs))
  | some x =>
    t.intWidth.bind fun width =>
      if width.contains x then none else some (.outOfRange (String.ofList cs) width)

def checkCell (cell : Cell) (field : Field) (t : SqlType) : Option Violation :=
  let cs := cell.trimmed
  if cell.isNullLike || t.isZeroDate cs then
    if field.nullable then none else some .nullNotAllowed
  else
    -- Of two violations the one of the number is reported.
    (if t.isNumeric then checkNumber t cs else none).or (checkLength t cs)

/-- The faults of one row, whose cells are paired with the fields by position. -/
def checkRow (number : Nat) (row : Row) (fields : List Field) : List RowFault :=
  (row.zip fields).filterMap fun (cell, field) =>
    (checkCell cell field field.sqlType).map fun violation => ⟨number, field.name, violation⟩

def checkRowsFrom (fields : List Field) : Nat → List Row → List RowFault
  | _, [] => []
  | number, row :: rows => checkRow number row fields ++ checkRowsFrom fields (number + 1) rows

def checkRows (rows : List Row) (fields : List Field) : List RowFault :=
  checkRowsFrom fields 1 rows

end TableLoader
