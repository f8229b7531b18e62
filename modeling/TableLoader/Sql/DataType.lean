import TableLoader.Number.Numeral
import TableLoader.Sql.Reader

/-!
# Data types

The types that a column definition may declare, and the one way each of them is written: known types in
capitals with their measure, types of the user as they stand in the dump.
-/
namespace TableLoader.Sql

inductive Measure where
  | absent
  | length (n : Nat)
  | lengthIn (n : Nat) (unit : String)
  | maximum
  | scaled (precision : Nat) (scale : Int)
  | zoned (precision : Nat) (zone : String)
  deriving DecidableEq, Repr

structure Label where
  text : String
  value : Option String
  deriving DecidableEq, Repr

inductive DataType where
  | unspecified
  | known (name : String) (measure : Measure) (suffix : List String)
  | interval (fields : List String) (measure : Measure)
  | labelled (name : String) (labels : List Label)
  /-- A type known by the name of an object alone, with modifiers. -/
  | custom (name : List Ident) (modifiers : List String)
  | array (element : DataType) (size : Option Nat)
  /-- A type around another, written between two texts. -/
  | around (opening : String) (inner : DataType) (closing : String)
  deriving DecidableEq, Repr

namespace DataType

def plain (name : String) : DataType := .known name .absent []

end DataType

/-- Escapes a text for quotes: a quote that stands alone is doubled, a pair of quotes and a quote after a
backslash stay as they are. -/
def escapeQuotes (quote : Char) : Bool → List Char → List Char
  | _, [] => []
  | afterBackslash, [c] =>
    if c = quote ∧ !afterBackslash then [c, c] else [c]
  | afterBackslash, c :: next :: cs =>
    if c = quote then
      if afterBackslash then c :: escapeQuotes quote true (next :: cs)
      else if next = quote then c :: next :: escapeQuotes quote false cs
      else c :: c :: escapeQuotes quote false (next :: cs)
    else c :: escapeQuotes quote (c == '\\') (next :: cs)

def inQuotes (quote : Char) (s : String) : String :=
  String.ofList (quote :: (escapeQuotes quote false s.toList ++ [quote]))

def Ident.render (i : Ident) : String :=
  match i.quote with
  | none => i.text
  | some '[' => "[" ++ i.text ++ "]"
  | some quote => inQuotes quote i.text

def renderName (name : List Ident) : String := ".".intercalate (name.map Ident.render)

def Measure.render : Measure → String
  | .absent => ""
  | .length n => "(" ++ String.ofList (natText n) ++ ")"
  | .lengthIn n unit => "(" ++ String.ofList (natText n) ++ " " ++ unit ++ ")"
  | .maximum => "(MAX)"
  | .scaled precision scale =>
    "(" ++ String.ofList (natText precision) ++ "," ++ (if scale < 0 then "-" else "") ++
      String.ofList (natText scale.natAbs) ++ ")"
  | .zoned precision zone =>
    "(" ++ String.ofList (natText precision) ++ ", '" ++ zone ++ "')"

def Label.render (l : Label) : String :=
  inQuotes '\'' l.text ++
    match l.value with
    | none => ""
    | some value => " = " ++ value

namespace DataType

def render : DataType → String
  | .unspecified => ""
  | .known name measure suffix => " ".intercalate ((name ++ measure.render) :: suffix)
  | .interval fields measure => " ".intercalate ("INTERVAL" :: fields) ++ measure.render
  | .labelled name labels => name ++ "(" ++ ", ".intercalate (labels.map Label.render) ++ ")"
  | .custom name [] => renderName name
  | .custom name modifiers => renderName name ++ "(" ++ ", ".intercalate modifiers ++ ")"
  | .array element none => element.render ++ "[]"
  | .array element (some n) => element.render ++ "[" ++ String.ofList (natText n) ++ "]"
  | .around opening inner closing => opening ++ inner.render ++ closing

end DataType

end TableLoader.Sql
