/-!
# Lines

How a text falls into lines: a line ends at a line feed, which a carriage return may precede; a last line
without a line feed counts when it is not empty, and keeps its carriage return.
-/
namespace TableLoader.Text

def dropReturn (cs : List Char) : List Char :=
  if cs.getLast? = some '\r' then cs.dropLast else cs

def finishLines : List (List Char) → List (List Char)
  | [] => []
  | [last] => if last = [] then [] else [last]
  | piece :: next :: pieces => dropReturn piece :: finishLines (next :: pieces)

def lines (cs : List Char) : List (List Char) :=
  finishLines (cs.splitOnP (· == '\n'))

def joinLines (ls : List (List Char)) : List Char :=
  ['\n'].intercalate ls

def holds (word : List Char) : List Char → Bool
  | [] => word.isEmpty
  | c :: cs => word.isPrefixOf (c :: cs) || holds word cs

end TableLoader.Text
