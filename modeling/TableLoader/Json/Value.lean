import TableLoader.Number.Numeral

/-!
# JSON values

JSON values, their numbers and their written form. Two numbers are different when their texts are: a whole
number and a double never coincide.
-/
namespace TableLoader

/-- A number of a JSON text: a whole number that fits 64 bits with or without a sign, or else a double. -/
inductive Number where
  | natural (n : Fin 18446744073709551616)
  /-- The number `-1 - n`. -/
  | negative (n : Fin 9223372036854775808)
  | double (x : Binary64)
  deriving DecidableEq, Repr

def Number.text : Number → List Char
  | .natural n => natText n.val
  | .negative n => '-' :: natText (n.val + 1)
  | .double x => x.text

/-- A JSON value. A number out of range and a text with half of a surrogate pair stand for nothing and are
kept as `none`: they do no harm where nothing reads them. -/
inductive Json where
  | null
  | bool (b : Bool)
  | number (value : Option Number)
  | text (value : Option String)
  | array (items : List Json)
  | object (entries : List (Option String × Json))

namespace Json

def ofNat (n : Nat) : Json := .number (some (.natural (Fin.ofNat _ n)))

def ofString (s : String) : Json := .text (some s)

def ofStrings (ss : List String) : Json := .array (ss.map ofString)

def record (entries : List (String × Json)) : Json :=
  .object (entries.map fun entry => (some entry.1, entry.2))

def hexDigit (n : Nat) : Char := Nat.digitChar (n % 16)

def escapeChar (c : Char) : List Char :=
  match c with
  | '\"' => ['\\', '\"']
  | '\\' => ['\\', '\\']
  | '\n' => ['\\', 'n']
  | '\r' => ['\\', 'r']
  | '\t' => ['\\', 't']
  | '\x08' => ['\\', 'b']
  | '\x0c' => ['\\', 'f']
  | c =>
    if c.toNat < 32 then ['\\', 'u', '0', '0', hexDigit (c.toNat / 16), hexDigit c.toNat] else [c]

def quoted (s : String) : List Char :=
  '\"' :: (s.toList.flatMap escapeChar ++ ['\"'])

def numberText : Option Number → List Char
  | some n => n.text
  | none => "null".toList

def textText : Option String → List Char
  | some s => quoted s
  | none => "null".toList

mutual

def compact : Json → List Char
  | .null => "null".toList
  | .bool b => if b then "true".toList else "false".toList
  | .number value => numberText value
  | .text value => textText value
  | .array items => '[' :: (compactItems items ++ [']'])
  | .object entries => '{' :: (compactEntries entries ++ ['}'])

def compactItems : List Json → List Char
  | [] => []
  | [item] => compact item
  | item :: next :: items => compact item ++ ',' :: compactItems (next :: items)

def compactEntries : List (Option String × Json) → List Char
  | [] => []
  | [(key, value)] => textText key ++ ':' :: compact value
  | (key, value) :: next :: entries =>
    textText key ++ ':' :: (compact value ++ ',' :: compactEntries (next :: entries))

end

def newLine (depth : Nat) : List Char := '\n' :: List.replicate (2 * depth) ' '

mutual

def pretty (depth : Nat) : Json → List Char
  | .array items =>
    if items.isEmpty then ['[', ']']
    else '[' :: (prettyItems (depth + 1) items ++ newLine depth ++ [']'])
  | .object entries =>
    if entries.isEmpty then ['{', '}']
    else '{' :: (prettyEntries (depth + 1) entries ++ newLine depth ++ ['}'])
  | .null => "null".toList
  | .bool b => if b then "true".toList else "false".toList
  | .number value => numberText value
  | .text value => textText value

def prettyItems (depth : Nat) : List Json → List Char
  | [] => []
  | [item] => newLine depth ++ pretty depth item
  | item :: next :: items =>
    newLine depth ++ pretty depth item ++ ',' :: prettyItems depth (next :: items)

def prettyEntries (depth : Nat) : List (Option String × Json) → List Char
  | [] => []
  | [(key, value)] => newLine depth ++ textText key ++ ':' :: ' ' :: pretty depth value
  | (key, value) :: next :: entries =>
    newLine depth ++ textText key ++ ':' :: ' ' ::
      (pretty depth value ++ ',' :: prettyEntries depth (next :: entries))

end

def render (value : Json) : String := String.ofList value.compact

def renderPretty (value : Json) : String := String.ofList (value.pretty 0)

end Json

end TableLoader
