import TableLoader.Json.Source
import TableLoader.Text.CharCode

/-!
# Reading JSON

A reader of JSON texts.
-/
namespace TableLoader.Json

def isSpace (c : Char) : Bool := c == ' ' || c == '\n' || c == '\t' || c == '\r'

def skipSpace (cs : List Char) : List Char := cs.dropWhile isSpace

inductive TextUnit where
  | char (c : Char)
  | half (n : Nat)

def readHex4 : List Char → Option (Nat × List Char)
  | a :: b :: c :: d :: cs => do
    let a ← Text.hexValue? a
    let b ← Text.hexValue? b
    let c ← Text.hexValue? c
    let d ← Text.hexValue? d
    pure (((a * 16 + b) * 16 + c) * 16 + d, cs)
  | _ => none

def unitOfCode (n : Nat) : TextUnit :=
  if 0xD800 ≤ n ∧ n ≤ 0xDFFF then .half n else .char (Char.ofNat n)

def readEscape : List Char → Option (TextUnit × List Char)
  | 'u' :: cs => (readHex4 cs).map fun r => (unitOfCode r.1, r.2)
  | '\"' :: cs => some (.char '\"', cs)
  | '\\' :: cs => some (.char '\\', cs)
  | '/' :: cs => some (.char '/', cs)
  | 'b' :: cs => some (.char '\x08', cs)
  | 'f' :: cs => some (.char '\x0c', cs)
  | 'n' :: cs => some (.char '\n', cs)
  | 'r' :: cs => some (.char '\r', cs)
  | 't' :: cs => some (.char '\t', cs)
  | _ => none

def readUnits : Nat → List Char → Option (List TextUnit × List Char)
  | 0, _ => none
  | _ + 1, [] => none
  | _ + 1, '\"' :: cs => some ([], cs)
  | fuel + 1, '\\' :: cs => do
    let (unit, cs) ← readEscape cs
    let (units, cs) ← readUnits fuel cs
    pure (unit :: units, cs)
  | fuel + 1, c :: cs =>
    if c.toNat < 32 then none
    else (readUnits fuel cs).map fun r => (.char c :: r.1, r.2)

/-- The characters of the elements, two halves of a surrogate pair giving one; `none` when a half stands
alone. -/
def joinUnits : List TextUnit → Option (List Char)
  | [] => some []
  | .char c :: units => (joinUnits units).map (c :: ·)
  | .half high :: .half low :: units =>
    if high ≤ 0xDBFF ∧ 0xDC00 ≤ low then
      (joinUnits units).map
        (Char.ofNat (0x10000 + (high - 0xD800) * 0x400 + (low - 0xDC00)) :: ·)
    else none
  | .half _ :: _ => none

def readText (cs : List Char) : Option (Option String × List Char) :=
  (readUnits (cs.length + 1) cs).map fun r => ((joinUnits r.1).map String.ofList, r.2)

def readWord (word : String) (value : Source) (cs : List Char) :
    Option (Source × List Char) :=
  if word.toList.isPrefixOf cs then some (value, cs.drop word.toList.length) else none

def readScalar : List Char → Option (Source × List Char)
  | '\"' :: cs => (readText cs).map fun r => (.text r.1, r.2)
  | 'n' :: cs => readWord "null" .null ('n' :: cs)
  | 't' :: cs => readWord "true" (.bool true) ('t' :: cs)
  | 'f' :: cs => readWord "false" (.bool false) ('f' :: cs)
  | cs => (NumberLiteral.read cs).map fun r => (.number r.1, r.2)

def readItems (value : List Char → Option (Source × List Char)) :
    Nat → List Char → Option (List Source × List Char)
  | 0, _ => none
  | fuel + 1, cs => do
    let (item, cs) ← value (skipSpace cs)
    match skipSpace cs with
    | ',' :: cs =>
      let (items, cs) ← readItems value fuel cs
      pure (item :: items, cs)
    | ']' :: cs => pure ([item], cs)
    | _ => none

def readEntries (value : List Char → Option (Source × List Char)) :
    Nat → List Char → Option (List (Option String × Source) × List Char)
  | 0, _ => none
  | fuel + 1, cs =>
    match skipSpace cs with
    | '\"' :: cs => do
      let (key, cs) ← readText cs
      match skipSpace cs with
      | ':' :: cs =>
        let (item, cs) ← value (skipSpace cs)
        match skipSpace cs with
        | ',' :: cs =>
          let (entries, cs) ← readEntries value fuel cs
          pure ((key, item) :: entries, cs)
        | '}' :: cs => pure ([(key, item)], cs)
        | _ => none
      | _ => none
    | _ => none

def readValue : Nat → List Char → Option (Source × List Char)
  | 0, cs => readScalar cs
  | depth + 1, cs =>
    match cs with
    | '[' :: cs =>
      match skipSpace cs with
      | ']' :: cs => some (.array [], cs)
      | cs => (readItems (readValue depth) (cs.length + 1) cs).map fun r => (.array r.1, r.2)
    | '{' :: cs =>
      match skipSpace cs with
      | '}' :: cs => some (.object [], cs)
      | cs => (readEntries (readValue depth) (cs.length + 1) cs).map fun r => (.object r.1, r.2)
    | cs => readScalar cs

/-- What a whole text says. No value is deeper than its text is long. -/
def Source.parse? (s : String) : Option Source := do
  let (source, rest) ← readValue s.length (skipSpace s.toList)
  if skipSpace rest = [] then pure source else none

def parse? (s : String) : Option Json := (Source.parse? s).map Source.value

end TableLoader.Json
