import TableLoader.Settings
import TableLoader.Text.LetterTable

/-!
# Identifiers

Whether a name can be used in SQL without quotes, and the reason when it cannot.
-/
namespace TableLoader

inductive IdentifierFault where
  | empty
  | tooLong (length : Nat)
  | badStart
  | badCharacter (c : Char)
  | reserved (word : String)
  deriving DecidableEq, Repr

namespace IdentifierFault

def maxLength : Nat := 64

def message (kind : String) : IdentifierFault → String
  | .empty => kind ++ " cannot be empty"
  | .tooLong length =>
    kind ++ " exceeds maximum length (max: " ++ natString maxLength ++ ", got: " ++
      natString length ++ ")"
  | .badStart => kind ++ ": must start with a letter or underscore"
  | .badCharacter c =>
    kind ++ " contains invalid characters: invalid character: '" ++ String.singleton c ++ "'"
  | .reserved word => kind ++ " is a reserved word: " ++ word

end IdentifierFault

def reservedWords : List String :=
  ["select", "from", "where", "insert", "update", "delete", "create", "drop", "alter", "table",
    "index", "view", "database", "schema", "grant", "revoke", "commit", "rollback", "primary",
    "foreign", "key", "references", "constraint", "unique", "check", "default", "not", "null",
    "and", "or", "in", "between", "like", "is", "case", "when", "then", "else", "as", "on", "join",
    "group", "by", "having", "order", "limit", "union", "all", "distinct", "values", "set", "into"]

def isIdentifierChar (c : Char) : Bool := Text.isLetterOrNumeric c || c == '_' || c == '$'

/-- The first thing that makes a name unusual. -/
def identifierFault? (name : String) : Option IdentifierFault :=
  match name.toList with
  | [] => some .empty
  | first :: rest =>
    let length := rest.length + 1
    if IdentifierFault.maxLength < length then some (.tooLong length)
    else if !(Text.isLetter first || first == '_') then some .badStart
    else
      match (first :: rest).find? (!isIdentifierChar ·) with
      | some c => some (.badCharacter c)
      | none => if reservedWords.contains (lowerName name) then some (.reserved name) else none

end TableLoader
