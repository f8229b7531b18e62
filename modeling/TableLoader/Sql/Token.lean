import TableLoader.Settings
import TableLoader.Text.Blank
import TableLoader.Text.LetterTable

/-!
# Tokens

The tokens of SQL texts and what the dialects disagree on when they form them: the characters of words, the
quotes of identifiers, and the operators.
-/
namespace TableLoader

namespace Sql

inductive StringStyle where
  | single
  | double
  | national
  | escaped
  | unicode
  | hex
  | byte
  | raw
  | dollar
  deriving DecidableEq, Repr

inductive Token where
  /-- A word with its upper-case form, which is empty when the word is quoted. -/
  | word (text key : String) (quote : Option Char)
  | number (text : String)
  | string (style : StringStyle) (text : String)
  | placeholder (text : String)
  | symbol (text : String)
  /-- An operator made of operator characters that has no name of its own. -/
  | operator (text : String)
  deriving DecidableEq, Repr

def Token.bareWord (cs : List Char) : Token :=
  .word (String.ofList cs) (String.ofList (Text.toUpper cs)) none

def Token.quotedWord (quote : Char) (cs : List Char) : Token :=
  .word (String.ofList cs) "" (some quote)

end Sql

namespace Dialect

open Sql

def isWordStart : Dialect → Char → Bool
  | .mysql, c => c.isAlpha || c == '_' || c == '$' || c == '@' || 128 ≤ c.toNat
  | .postgres, c => c.isAlpha || c == '_' || 128 ≤ c.toNat
  | .sqlite, c => c.isAlpha || c == '_' || (0x7F ≤ c.toNat && c.toNat ≤ 0xFFFF)
  | .generic, c => Text.isLetter c || c == '_' || c == '#' || c == '@'

def isWordPart : Dialect → Char → Bool
  | .mysql, c => isWordStart .mysql c || c.isDigit
  | .postgres, c => isWordStart .postgres c || c.isDigit || c == '$'
  | .sqlite, c => isWordStart .sqlite c || c.isDigit
  | .generic, c => isWordStart .generic c || c.isDigit || c == '$'

def closingQuote? : Dialect → Char → Option Char
  | .mysql, '\x60' => some '\x60'
  | .postgres, '\"' => some '\"'
  | .sqlite, '\x60' => some '\x60'
  | .sqlite, '\"' => some '\"'
  | .sqlite, '[' => some ']'
  | .generic, '\x60' => some '\x60'
  | .generic, '\"' => some '\"'
  | _, _ => none

def hasBackslashEscapes (d : Dialect) : Bool := d == .mysql

def hasNestedComments (d : Dialect) : Bool := d == .postgres || d == .generic

def hasEscapeStrings (d : Dialect) : Bool := d == .postgres || d == .generic

def hasNumericWords (d : Dialect) : Bool := d == .mysql

def isOperatorPart (d : Dialect) (c : Char) : Bool :=
  d == .postgres && "+-*/<>=~!@#%^&|\x60?".toList.contains c

end Dialect

namespace Sql

/-- Whether operator characters may extend an operator. -/
inductive Extension where
  | closed
  | extensible
  | unfinished
  deriving DecidableEq, Repr

def marks (extension : Extension) (texts : List String) : List (String × Extension) :=
  texts.map fun text => (text, extension)

/-- Marks and operators of every dialect, the longer before the shorter. -/
def commonMarks : List (String × Extension) :=
  marks .closed ["!~~*"] ++
  marks .extensible ["->>", "||/", "<=>", "~~*", "#>>"] ++
  marks .closed ["!~~", "!~*"] ++
  marks .extensible ["->", "||", "|/", "<=", "<>", "<<", "<@", ">=", ">>", "&&", "~~", "~*", "#>",
    "#-"] ++
  marks .closed ["=>", "==", "!~", "!!", "!=", "::", ":=", "^@"] ++
  marks .extensible ["-", "|", "<", ">", "&", "~", "#", "%"] ++
  marks .closed ["=", "!", ":", "^", "(", ")", ",", "+", "*", "/", ";", "\\", "[", "]", "\x7b",
    "\x7d"]

def ownMarks : Dialect → List (String × Extension)
  | .postgres =>
    marks .extensible ["|&>", "|>>", "<<|", "<->"] ++ marks .closed ["&<|", "@-@", "?||", "?-|"] ++
      marks .extensible ["<|", "<^", ">^", "~=", "##", "&<"] ++
      marks .closed ["&>", "@@", "@>", "@?", "?|", "?&", "?-", "?#"] ++
      marks .unfinished ["|&", "|>", "<-", "@-"] ++ marks .closed ["@", "?"]
  | .generic => marks .closed ["//", "|>"]
  | _ => []

def longestMark? (d : Dialect) (cs : List Char) : Option (String × Extension) :=
  ((ownMarks d ++ commonMarks).filter fun mark => mark.1.toList.isPrefixOf cs).foldl
    (fun best mark =>
      match best with
      | none => some mark
      | some old => if old.1.length < mark.1.length then some mark else some old) none

end Sql

end TableLoader
