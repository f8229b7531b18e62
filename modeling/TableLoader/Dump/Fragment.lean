import TableLoader.Text.Blank
import TableLoader.Text.LetterCase
import TableLoader.Text.Line

/-!
# Fragments

The line scanner that cuts `CREATE TABLE` statements out of a dump. It counts parentheses and reads nothing
else, so whatever a dump tool writes between statements does not matter to it.
-/
namespace TableLoader.Dump

abbrev Line := List Char

/-- A line that opens a statement, wherever on the line the words stand. -/
def isHeader (line : Line) : Bool :=
  Text.holds "CREATE TABLE".toList (Text.toUpper (Text.trim line))

def nesting (cs : List Char) : Int := cs.count '(' - cs.count ')'

/-- What a line must have to end a fragment whose parentheses are balanced. -/
inductive Ending where
  | parenthesis
  | terminator
  deriving DecidableEq, Repr

def Ending.allows : Ending → Line → Bool
  | .parenthesis, line => line.contains ')'
  | .terminator, line => (Text.trim line).getLast? == some ';'

def flush (current : List Line) : List (List Line) := if current = [] then [] else [current]

/-- The fragments of the lines still to come, given the lines in progress and their nesting. A header ends
what is in progress and starts anew; outside a fragment all other lines are skipped. -/
def scan (e : Ending) : List Line → Int → List Line → List (List Line)
  | current, _, [] => flush current
  | current, depth, line :: rest =>
    if isHeader line then
      -- A statement that is still open is cut short here and kept.
      flush current ++
        if nesting line = 0 ∧ e.allows line then [line] :: scan e [] 0 rest
        else scan e [line] (nesting line) rest
    else if current = [] then scan e [] 0 rest
    else if depth + nesting line = 0 ∧ e.allows line then
      (current ++ [line]) :: scan e [] 0 rest
    else scan e (current ++ [line]) (depth + nesting line) rest

def fragments (e : Ending) (dump : List Char) : List (List Char) :=
  (scan e [] 0 (Text.lines dump)).map Text.joinLines

def beforeLast? (stop : Char) (cs : List Char) : Option (List Char) :=
  match cs.reverse.dropWhile (· != stop) with
  | [] => none
  | _ :: before => some before.reverse

/-- What stands between the first opening and the last closing parenthesis. -/
def body? (statement : List Char) : Option (List Char) :=
  match statement.dropWhile (· != '(') with
  | [] => none
  | _ :: rest => beforeLast? ')' rest

end TableLoader.Dump
