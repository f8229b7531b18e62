import TableLoader.Settings
import TableLoader.Text.CharCode

/-!
# Settings files

Settings as a TOML document of keys with scalar values, one on a line. No setting is a table, an array, a
float or a date, so a document with any of these is refused as one with an unknown key is.
-/
namespace TableLoader.Toml

abbrev Step (α : Type) := Option (α × List Char)

def prepend (cs : List Char) (step : Step (List Char)) : Step (List Char) :=
  step.map fun r => (cs ++ r.1, r.2)

def isSpace (c : Char) : Bool := c == ' ' || c == '\t'

def skipSpace (cs : List Char) : List Char := cs.dropWhile isSpace

def isPrintable (c : Char) : Bool := c == '\t' || (32 ≤ c.toNat && c.toNat != 127)

def afterNewline? : List Char → Option (List Char)
  | '\n' :: cs => some cs
  | '\r' :: '\n' :: cs => some cs
  | _ => none

def afterLine? (cs : List Char) : Option (List Char) :=
  let cs := skipSpace cs
  let cs :=
    match cs with
    | '#' :: rest => rest.dropWhile isPrintable
    | _ => cs
  if cs = [] then some [] else afterNewline? cs

def readEscape : List Char → Step Char
  | '\"' :: cs => some ('\"', cs)
  | '\\' :: cs => some ('\\', cs)
  | 'b' :: cs => some ('\x08', cs)
  | 'f' :: cs => some ('\x0c', cs)
  | 'n' :: cs => some ('\n', cs)
  | 'r' :: cs => some ('\r', cs)
  | 't' :: cs => some ('\t', cs)
  | 'u' :: cs => Text.readCode 4 cs
  | 'U' :: cs => Text.readCode 8 cs
  | _ => none

def readBasic : Nat → List Char → Step (List Char)
  | 0, _ => none
  | _ + 1, [] => none
  | _ + 1, '\"' :: cs => some ([], cs)
  | fuel + 1, '\\' :: cs => (readEscape cs).bind fun (c, cs) => prepend [c] (readBasic fuel cs)
  | fuel + 1, c :: cs => if isPrintable c then prepend [c] (readBasic fuel cs) else none

def readLiteral (cs : List Char) : Step (List Char) :=
  let inside (c : Char) := isPrintable c && c != '\''
  match cs.dropWhile inside with
  | '\'' :: rest => some (cs.takeWhile inside, rest)
  | _ => none

def afterFold? (cs : List Char) : Option (List Char) :=
  (afterNewline? (skipSpace cs)).map fun rest =>
    rest.dropWhile fun c => isSpace c || c == '\n' || c == '\r'

/-- A text between triple quotes after the opening ones. Up to two more quotes may stand before those that
close it. Only in double quotes a backslash escapes. -/
def readMultiline (quote : Char) : Nat → List Char → Step (List Char)
  | 0, _ => none
  | _ + 1, [] => none
  | fuel + 1, c :: cs =>
    let quotes := ((c :: cs).takeWhile (· == quote)).length
    if 3 ≤ quotes then
      let inside := min (quotes - 3) 2
      some (List.replicate inside quote, (c :: cs).drop (3 + inside))
    else if c = '\\' ∧ quote = '\"' then
      match afterFold? cs with
      | some rest => readMultiline quote fuel rest
      | none => (readEscape cs).bind fun (c, cs) => prepend [c] (readMultiline quote fuel cs)
    else if isPrintable c then prepend [c] (readMultiline quote fuel cs)
    else (afterNewline? (c :: cs)).bind fun rest => prepend ['\n'] (readMultiline quote fuel rest)

def afterOpening (cs : List Char) : List Char := (afterNewline? cs).getD cs

def readText : List Char → Step (List Char)
  | '\"' :: '\"' :: '\"' :: cs => readMultiline '\"' (cs.length + 1) (afterOpening cs)
  | '\'' :: '\'' :: '\'' :: cs => readMultiline '\'' (cs.length + 1) (afterOpening cs)
  | '\"' :: cs => readBasic (cs.length + 1) cs
  | '\'' :: cs => readLiteral cs
  | _ => none

/-- The value of digits in which single underscores may stand between two digits. -/
def digitsValue? (radix : Nat) (cs : List Char) : Option Nat :=
  let groups := cs.splitOnP (· == '_')
  let digit? (c : Char) := (Text.hexValue? c).bind fun n => if n < radix then some n else none
  if groups.any List.isEmpty then none
  else groups.flatten.foldlM (fun n c => (digit? c).map (radix * n + ·)) 0

def decimalValue? (cs : List Char) : Option Nat :=
  match cs with
  -- No zeros stand in front of other digits.
  | '0' :: _ :: _ => none
  | _ => digitsValue? 10 cs

/-- A whole number of 64 bits. Only in base ten it may have a sign. -/
def integer? (cs : List Char) : Option Int :=
  let value : Option Int :=
    match cs with
    | '0' :: 'x' :: digits => (digitsValue? 16 digits).map (fun n => (n : Int))
    | '0' :: 'o' :: digits => (digitsValue? 8 digits).map (fun n => (n : Int))
    | '0' :: 'b' :: digits => (digitsValue? 2 digits).map (fun n => (n : Int))
    | '+' :: digits => (decimalValue? digits).map (fun n => (n : Int))
    | '-' :: digits => (decimalValue? digits).map (fun n => -(n : Int))
    | digits => (decimalValue? digits).map (fun n => (n : Int))
  value.filter fun n => -(twoTo 63 : Int) ≤ n && n < (twoTo 63 : Int)

def isWordChar (c : Char) : Bool := c.isAlphanum || c == '_' || c == '-' || c == '+'

def scalar? (cs : List Char) : Option Json :=
  if cs = "true".toList then some (.bool true)
  else if cs = "false".toList then some (.bool false)
  -- No setting is negative.
  else (integer? cs).bind fun n => if 0 ≤ n then some (.ofNat n.toNat) else none

def readValue (cs : List Char) : Step Json :=
  match readText cs with
  | some (text, rest) => some (.ofString (String.ofList text), rest)
  | none => (scalar? (cs.takeWhile isWordChar)).map fun value => (value, cs.dropWhile isWordChar)

def isKeyChar (c : Char) : Bool := c.isAlphanum || c == '_' || c == '-'

def readKey : List Char → Step (List Char)
  | '\"' :: cs => readBasic (cs.length + 1) cs
  | '\'' :: cs => readLiteral cs
  | cs => if cs.takeWhile isKeyChar = [] then none
    else some (cs.takeWhile isKeyChar, cs.dropWhile isKeyChar)

def readEntry (cs : List Char) : Option ((Option String × Json) × List Char) := do
  let (key, rest) ← readKey cs
  match skipSpace rest with
  | '=' :: rest =>
    let (value, rest) ← readValue (skipSpace rest)
    pure ((some (String.ofList key), value), rest)
  | _ => none

def readEntries : Nat → List Char → Option (List (Option String × Json))
  | _, [] => some []
  | 0, _ => none
  | fuel + 1, cs =>
    match afterLine? cs with
    | some rest => readEntries fuel rest
    | none => do
      let (entry, rest) ← readEntry (skipSpace cs)
      let entries ← readEntries fuel (← afterLine? rest)
      pure (entry :: entries)

def withoutMark : List Char → List Char
  | '\uFEFF' :: cs => cs
  | cs => cs

end TableLoader.Toml

namespace TableLoader.Settings

def parseToml? (s : String) : Option Settings :=
  (Toml.readEntries (s.length + 1) (Toml.withoutMark s.toList)).bind fun entries =>
    ofJson? (.object entries)

end TableLoader.Settings
