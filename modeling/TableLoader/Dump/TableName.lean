import TableLoader.Text.Blank
import TableLoader.Text.LetterCase

/-!
# Table names

Where a statement names its table. Two patterns are known: a plain name, with a schema before it or not,
that a parenthesis follows; and a name that may stand between backticks.
-/
namespace TableLoader.Dump

def afterWord : List Char → List Char → Option (List Char)
  | [], cs => some cs
  | w :: word, c :: cs => if Text.foldsTo w c then afterWord word cs else none
  | _ :: _, [] => none

def afterBlanks : List Char → Option (List Char)
  | [] => none
  | c :: cs => if Text.isBlank c then some (Text.trimStart cs) else none

def afterWords (words : List String) (cs : List Char) : Option (List Char) :=
  words.foldlM (fun cs word => (afterWord word.toList cs).bind afterBlanks) cs

/-- The characters of a plain name: ASCII letters, digits and underscores, and the two letters that fold to
ASCII ones. -/
def isNameChar (c : Char) : Bool :=
  c.isAlphanum || c == '_' || c == '\u017F' || c == '\u212A'

def takeName (cs : List Char) : Option (List Char × List Char) :=
  let name := cs.takeWhile isNameChar
  if name = [] then none else some (name, cs.dropWhile isNameChar)

def nameBeforeParenthesis? (cs : List Char) : Option (List Char) :=
  (takeName cs).bind fun (name, rest) =>
    if (Text.trimStart rest).head? = some '(' then some name else none

def schemaName? (cs : List Char) : Option (List Char) :=
  match takeName cs with
  | some (_, '.' :: rest) => nameBeforeParenthesis? rest
  | _ => nameBeforeParenthesis? cs

def backtickName? (cs : List Char) : Option (List Char) :=
  (takeName (match cs with | '\x60' :: rest => rest | _ => cs)).map (·.1)

/-- The name in a statement that begins here. The words `IF NOT EXISTS` belong to the statement if a name
follows them. -/
def nameHere? (name? : List Char → Option (List Char)) (cs : List Char) : Option (List Char) :=
  (afterWords ["create", "table"] cs).bind fun rest =>
    ((afterWords ["if", "not", "exists"] rest).bind name?).or (name? rest)

def findName? (name? : List Char → Option (List Char)) : List Char → Option (List Char)
  | [] => none
  | c :: cs => (nameHere? name? (c :: cs)).or (findName? name? cs)

end TableLoader.Dump
