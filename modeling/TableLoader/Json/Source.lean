import TableLoader.Json.NumberReader

/-!
# JSON as it is written

A JSON text taken apart, with its numbers still as they are written, and the value that it stands for.
-/
namespace TableLoader.Json

inductive Source where
  | null
  | bool (b : Bool)
  | number (literal : NumberLiteral)
  | text (value : Option String)
  | array (items : List Source)
  | object (entries : List (Option String × Source))

namespace Source

mutual

def value : Source → Json
  | .null => .null
  | .bool b => .bool b
  | .number literal => .number literal.toNumber?
  | .text value => .text value
  | .array items => .array (values items)
  | .object entries => .object (entryValues entries)

def values : List Source → List Json
  | [] => []
  | item :: items => item.value :: values items

def entryValues : List (Option String × Source) → List (Option String × Json)
  | [] => []
  | (key, item) :: entries => (key, item.value) :: entryValues entries

end

end Source

end TableLoader.Json
