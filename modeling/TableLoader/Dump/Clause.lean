import TableLoader.Dump.Fragment
import TableLoader.Table

/-!
# Clauses

The clauses of a definition body: where one ends and the next begins, which of them declare columns, and
the field that such a clause declares.
-/
namespace TableLoader.Dump

/-- The pieces between commas outside parentheses, empty ones included, from a given depth on. -/
def segments : Int → List Char → List (List Char)
  | _, [] => [[]]
  | depth, c :: cs =>
    if c = ',' ∧ depth = 0 then [] :: segments depth cs
    else (segments (depth + nesting [c]) cs).modifyHead (c :: ·)

def splitTopLevel (line : List Char) : List (List Char) :=
  (segments 0 line).filter (· ≠ [])

def clauses (body : List Char) : List (List Char) :=
  -- Each line is split on its own, so no clause runs on over a line feed.
  (((((Text.lines body).map Text.trim).filter (· ≠ [])).flatMap splitTopLevel).map
    Text.trim).filter (· ≠ [])

def constraintStarts : List String :=
  ["PRIMARY KEY", "KEY ", "INDEX", "UNIQUE KEY", "UNIQUE (", "CONSTRAINT", "FOREIGN KEY",
    "CHECK "]

def isConstraint (clause : List Char) : Bool :=
  -- Backticks still stand here, so a quoted name never looks like a keyword.
  constraintStarts.any fun start => start.toList.isPrefixOf (Text.toUpper (Text.trim clause))

def dropComma (cs : List Char) : List Char := if cs.getLast? = some ',' then cs.dropLast else cs

def bare (clause : List Char) : List Char :=
  (dropComma (Text.trim clause)).filter (· != '\x60')

/-- The field that a clause declares: its first word is the name and its second the type. -/
def fieldOf? (clause : List Char) : Option Field :=
  if isConstraint clause then none
  else
    match Text.words (bare clause) with
    | name :: declaredType :: _ =>
      some ⟨String.ofList name, String.ofList declaredType,
        !Text.holds "NOT NULL".toList (Text.toUpper (bare clause))⟩
    | _ => none

def fieldsOf (body : List Char) : List Field := (clauses body).filterMap fieldOf?

end TableLoader.Dump
