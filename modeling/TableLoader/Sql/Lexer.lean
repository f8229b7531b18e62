import TableLoader.Sql.Token
import TableLoader.Text.CharCode

/-!
# Reading tokens

How an SQL text falls into tokens under a dialect. Blanks and comments separate tokens and leave no trace; a
string, a quoted word or a comment that does not end makes the whole text unreadable.
-/
namespace TableLoader.Sql

/-- What a backslash and the character after it stand for. `\%` and `\_` may keep the backslash, for
patterns to come. -/
def backslashEscape (keepWildcards : Bool) (c : Char) : List Char :=
  match c with
  | '0' => ['\x00']
  | 'a' => ['\x07']
  | 'b' => ['\x08']
  | 'f' => ['\x0c']
  | 'n' => ['\n']
  | 'r' => ['\r']
  | 't' => ['\t']
  | 'Z' => ['\x1a']
  | '%' => if keepWildcards then ['\\', '%'] else ['%']
  | '_' => if keepWildcards then ['\\', '_'] else ['_']
  | c => [c]

def prepend (cs : List Char) (r : List Char × List Char) : List Char × List Char :=
  (cs ++ r.1, r.2)

/-- The text up to the closing quote, which stands doubled for itself, and what follows. -/
def readQuoted (quote : Char) : List Char → Option (List Char × List Char)
  | [] => none
  | [c] => if c = quote then some ([], []) else none
  | c :: next :: cs =>
    if c = quote then
      if next = quote then (readQuoted quote cs).map (prepend [quote]) else some ([], next :: cs)
    else (readQuoted quote (next :: cs)).map (prepend [c])

/-- As `readQuoted`, where a backslash takes the next character with it. -/
def readBackslashed (quote : Char) (keepWildcards : Bool) :
    List Char → Option (List Char × List Char)
  | [] => none
  | [c] => if c = quote then some ([], []) else none
  | c :: next :: cs =>
    if c = quote then
      if next = quote then (readBackslashed quote keepWildcards cs).map (prepend [quote])
      else some ([], next :: cs)
    else if c = '\\' then
      (readBackslashed quote keepWildcards cs).map (prepend (backslashEscape keepWildcards next))
    else (readBackslashed quote keepWildcards (next :: cs)).map (prepend [c])

def charOfByte? (n : Nat) : Option Char :=
  if n % 256 ≤ 127 then Text.charOfCode? (n % 256) else none

def takeUpTo (p : Char → Bool) (limit : Nat) (cs : List Char) : List Char :=
  (cs.take limit).takeWhile p

def isOctalDigit (c : Char) : Bool := '0' ≤ c && c ≤ '7'

def readEscape : List Char → Option (Char × List Char)
  | [] => none
  | 'b' :: cs => some ('\x08', cs)
  | 'f' :: cs => some ('\x0c', cs)
  | 'n' :: cs => some ('\n', cs)
  | 'r' :: cs => some ('\r', cs)
  | 't' :: cs => some ('\t', cs)
  | 'u' :: cs => Text.readCode 4 cs
  | 'U' :: cs => Text.readCode 8 cs
  | 'x' :: cs =>
    let digits := takeUpTo Text.isHexDigit 2 cs
    if digits = [] then some ('x', cs)
    else ((Text.hexNumber? digits).bind charOfByte?).map fun c => (c, cs.drop digits.length)
  | c :: cs =>
    if isOctalDigit c then
      let digits := takeUpTo isOctalDigit 2 cs
      (charOfByte? (Nat.ofDigitChars 8 (c :: digits) 0)).map fun c => (c, cs.drop digits.length)
    else some (c, cs)

/-- An escape string up to its closing quote. No character of it may be NUL. -/
def readEscaped : Nat → List Char → Option (List Char × List Char)
  | 0, _ => none
  | _ + 1, [] => none
  | fuel + 1, '\'' :: '\'' :: cs => (readEscaped fuel cs).map (prepend ['\''])
  | _ + 1, '\'' :: cs => some ([], cs)
  | fuel + 1, '\\' :: cs =>
    (readEscape cs).bind fun (c, cs) =>
      if c = '\x00' then none else (readEscaped fuel cs).map (prepend [c])
  | fuel + 1, c :: cs => (readEscaped fuel cs).map (prepend [c])

def readUnicode : Nat → List Char → Option (List Char × List Char)
  | 0, _ => none
  | _ + 1, [] => none
  | fuel + 1, '\'' :: '\'' :: cs => (readUnicode fuel cs).map (prepend ['\''])
  | _ + 1, '\'' :: cs => some ([], cs)
  | fuel + 1, '\\' :: '\\' :: cs => (readUnicode fuel cs).map (prepend ['\\'])
  | fuel + 1, '\\' :: '+' :: cs =>
    (Text.readCode 6 cs).bind fun (c, cs) => (readUnicode fuel cs).map (prepend [c])
  | fuel + 1, '\\' :: cs =>
    (Text.readCode 4 cs).bind fun (c, cs) => (readUnicode fuel cs).map (prepend [c])
  | fuel + 1, c :: cs => (readUnicode fuel cs).map (prepend [c])

def readUntil (stop : List Char) : List Char → Option (List Char × List Char)
  | [] => none
  | c :: cs =>
    if stop.isPrefixOf (c :: cs) then some ([], (c :: cs).drop stop.length)
    else (readUntil stop cs).map (prepend [c])

/-- What follows a block comment that is open `depth` times. -/
def skipComment (nested : Bool) : Nat → List Char → Option (List Char)
  | _, [] => none
  | _, [_] => none
  | depth, a :: b :: cs =>
    if nested ∧ a = '/' ∧ b = '*' then skipComment nested (depth + 1) cs
    else if a = '*' ∧ b = '/' then
      if depth ≤ 1 then some cs else skipComment nested (depth - 1) cs
    else skipComment nested depth (b :: cs)

def skipLine (d : Dialect) (cs : List Char) : List Char :=
  (cs.dropWhile fun c => c != '\n' && !(d == .postgres && c == '\r')).drop 1

def stringStart? (d : Dialect) : List Char → Option (StringStyle × Char × List Char)
  | '\'' :: cs => some (.single, '\'', cs)
  | '\"' :: cs => if d.closingQuote? '\"' = none then some (.double, '\"', cs) else none
  | c :: '\'' :: cs =>
    match c.toLower with
    | 'b' => if d = .sqlite then none else some (.byte, '\'', cs)
    | 'r' => if d = .generic then some (.raw, '\'', cs) else none
    | 'n' => some (.national, '\'', cs)
    | 'e' => if d.hasEscapeStrings then some (.escaped, '\'', cs) else none
    | 'x' => some (.hex, '\'', cs)
    | _ => none
  | c :: '\"' :: cs =>
    match c.toLower with
    | 'b' => if d = .sqlite then none else some (.byte, '\"', cs)
    | 'r' => if d = .generic then some (.raw, '\"', cs) else none
    | _ => none
  | c :: '&' :: '\'' :: cs =>
    if c.toLower = 'u' ∧ d.hasEscapeStrings then some (.unicode, '\'', cs) else none
  | _ => none

def readString (d : Dialect) (style : StringStyle) (quote : Char) (cs : List Char) :
    Option (List Char × List Char) :=
  match style with
  | .escaped => readEscaped (cs.length + 1) cs
  | .unicode => readUnicode (cs.length + 1) cs
  | .hex => readBackslashed quote (d == .mysql) cs
  | .single | .double | .national =>
    if d.hasBackslashEscapes then readBackslashed quote (d == .mysql) cs else readQuoted quote cs
  | _ => readQuoted quote cs

def readDollar (d : Dialect) (cs : List Char) : Option (Token × List Char) :=
  let isNamePart (c : Char) :=
    Text.isLetterOrNumeric c || c == '_' || (d == .sqlite && c == '$')
  let tag := cs.takeWhile isNamePart
  match cs.dropWhile isNamePart with
  | '$' :: rest =>
    (readUntil ('$' :: (tag ++ ['$'])) rest).map fun r =>
      (.string .dollar (String.ofList r.1), r.2)
  | rest => some (.placeholder (String.ofList ('$' :: tag)), rest)

def takeNumber (d : Dialect) (isDigit : Char → Bool) : List Char → List Char
  | [] => []
  | c :: cs =>
    if isDigit c then c :: takeNumber d isDigit cs
    else if d = .postgres ∧ c = '_' ∧ (cs.head?.any Text.isHexDigit) then
      c :: takeNumber d isDigit cs
    else []

def takeExponent : List Char → List Char
  | e :: cs =>
    if e = 'e' ∨ e = 'E' then
      let sign :=
        match cs with
        | c :: _ => if c = '+' ∨ c = '-' then [c] else []
        | [] => []
      let digits := (cs.drop sign.length).takeWhile Char.isDigit
      if digits = [] then [] else e :: (sign ++ digits)
    else []
  | [] => []

/-- What the token before was, as far as numbers and dots depend on it. -/
inductive Before where
  | word
  | dot
  | other
  deriving DecidableEq, Repr

def Before.ofToken : Token → Before
  | .word .. => .word
  | .symbol text => if text = "." then .dot else .other
  | _ => .other

def readNumber (d : Dialect) (before : Before) (cs : List Char) : Option (Token × List Char) :=
  match cs with
  | '.' :: '_' :: rest => if before = .word then some (.symbol ".", '_' :: rest) else none
  | _ =>
    let whole := takeNumber d Char.isDigit cs
    let rest := cs.drop whole.length
    match whole, rest with
    | ['0'], 'x' :: rest =>
      let digits := takeNumber d Text.isHexDigit rest
      some (.string .hex (String.ofList digits), rest.drop digits.length)
    | _, _ =>
      let dot := if rest.head? = some '.' then ['.'] else []
      let rest := rest.drop dot.length
      if whole ++ dot = ['.'] ∧ d.hasNumericWords ∧ before = .word then some (.symbol ".", rest)
      else
        let fraction := takeNumber d Char.isDigit rest
        let rest := rest.drop fraction.length
        let text := whole ++ dot ++ fraction
        if text = ['.'] then some (.symbol ".", rest)
        else
          let exponent := takeExponent rest
          let rest := rest.drop exponent.length
          let word := if exponent = [] then rest.takeWhile d.isWordPart else []
          if d.hasNumericWords ∧ word ≠ [] then
            some (.bareWord (text ++ word), rest.drop word.length)
          -- Behind a dot `5e3` is the name of a column.
          else if d.hasNumericWords ∧ exponent ≠ [] ∧ before = .dot then
            some (.bareWord (text ++ exponent), rest)
          else
            some (.number (String.ofList (text ++ exponent)),
              if rest.head? = some 'L' then rest.drop 1 else rest)

def readMark (d : Dialect) (cs : List Char) : Option (Token × List Char) :=
  match longestMark? d cs with
  | none =>
    match cs with
    | [] => none
    | c :: rest => some (.symbol (String.singleton c), rest)
  | some (text, extension) =>
    let rest := cs.drop text.length
    let more := if extension = .closed then [] else rest.takeWhile d.isOperatorPart
    if more ≠ [] then
      some (.operator (text ++ String.ofList more), rest.drop more.length)
    else if extension = .unfinished then none
    else some (.symbol (if text = "!=" then "<>" else text), rest)

/-- A word that begins with the given characters, the next character being part of it in any case. -/
def readSignWord (d : Dialect) (start : List Char) (next : Char) (cs : List Char) :
    Token × List Char :=
  (.bareWord (start ++ next :: cs.takeWhile d.isWordPart), cs.dropWhile d.isWordPart)

def readAt (d : Dialect) : List Char → Token × List Char
  | '>' :: cs => (.symbol "@>", cs)
  | '?' :: cs => (.symbol "@?", cs)
  | '@' :: cs =>
    match cs with
    | [] => (.symbol "@@", [])
    | c :: rest =>
      if c = ' ' ∨ !d.isWordStart '@' then (.symbol "@@", cs) else readSignWord d ['@', '@'] c rest
  | c :: rest =>
    if c = ' ' ∨ c = '\'' ∨ c = '\"' ∨ c = '\x60' ∨ !d.isWordStart '@' then
      (.symbol "@", c :: rest)
    else readSignWord d ['@'] c rest
  | [] => (.symbol "@", [])

def readSharp (d : Dialect) (cs : List Char) : Option (Token × List Char) :=
  match cs with
  | c :: rest =>
    if c = '-' ∨ c = '>' ∨ c = ' ' ∨ !d.isWordStart '#' then readMark d ('#' :: cs)
    else some (readSignWord d ['#'] c rest)
  | [] => readMark d ['#']

def isLineComment (d : Dialect) (cs : List Char) : Bool :=
  d != .mysql || cs.head?.any Text.isBlank

/-- The next token of a text, or `none` in its place for blanks and comments, and what follows. A MySQL
comment that opens with an exclamation mark and a version is read as if it were no comment. -/
def readToken (d : Dialect) (before : Before) (cs : List Char) :
    Option (Option Token × List Char) :=
  match stringStart? d cs with
  | some (style, quote, rest) =>
    (readString d style quote rest).map fun r =>
      (some (.string style (String.ofList r.1)), r.2)
  | none =>
    match cs with
    | [] => none
    | '-' :: '-' :: rest =>
      if isLineComment d rest then some (none, skipLine d rest)
      else (readMark d cs).map fun r => (some r.1, r.2)
    | '/' :: '*' :: rest =>
      match rest with
      | '!' :: hint =>
        if d = .mysql then
          (readUntil ['*', '/'] hint).map fun r =>
            -- The inside of the comment is read next, in front of what follows it.
            (none, r.1.dropWhile Char.isDigit ++ ' ' :: r.2)
        else (skipComment d.hasNestedComments 1 rest).map fun rest => (none, rest)
      | _ => (skipComment d.hasNestedComments 1 rest).map fun rest => (none, rest)
    | c :: rest =>
      if c.isWhitespace then some (none, rest)
      else if c.isDigit || c == '.' then (readNumber d before cs).map fun r => (some r.1, r.2)
      else if c == '#' then
        if d = .mysql then some (none, skipLine d rest)
        else (readSharp d rest).map fun r => (some r.1, r.2)
      else if c == '@' && d != .postgres then
        let r := readAt d rest
        some (some r.1, r.2)
      else if c == '?' && d != .postgres then
        let digits := rest.takeWhile Text.isNumeric
        some (some (.placeholder (String.ofList ('?' :: digits))), rest.drop digits.length)
      else
        match d.closingQuote? c with
        | some close => (readQuoted close rest).map fun r => (some (.quotedWord c r.1), r.2)
        | none =>
          if d.isWordStart c then
            some (some (.bareWord (c :: rest.takeWhile d.isWordPart)), rest.dropWhile d.isWordPart)
          else if c == '$' then (readDollar d rest).map fun r => (some r.1, r.2)
          else if Text.isBlank c then some (none, rest)
          else (readMark d cs).map fun r => (some r.1, r.2)

def readTokens (d : Dialect) : Nat → Before → List Char → Option (List Token)
  | _, _, [] => some []
  | 0, _, _ :: _ => none
  | fuel + 1, before, c :: cs =>
    match readToken d before (c :: cs) with
    | none => none
    | some (none, rest) => readTokens d fuel .other rest
    | some (some token, rest) =>
      (readTokens d fuel (.ofToken token) rest).map (token :: ·)

def tokens? (d : Dialect) (cs : List Char) : Option (List Token) :=
  readTokens d cs.length .other cs

end TableLoader.Sql
