import TableLoader.Json.Reader

/-!
# Taking JSON values apart

What the parts of a record are read as. A record is an object, or an array with its members in the order of
their declaration.
-/
namespace TableLoader.Json

def asString? : Json → Option String
  | .text value => value
  | _ => none

def asBool? : Json → Option Bool
  | .bool b => some b
  | _ => none

def asNat? : Json → Option Nat
  | .number (some (.natural n)) => some n.val
  | _ => none

def asArray? : Json → Option (List Json)
  | .array items => some items
  | _ => none

def asList? (item : Json → Option α) (value : Json) : Option (List α) :=
  value.asArray?.bind (·.mapM item)

inductive UnknownKeys where
  | ignored
  | refused
  deriving DecidableEq, Repr

def valuesOf (name : String) (entries : List (Option String × Json)) : List Json :=
  (entries.filter (·.1 = some name)).map (·.2)

/-- The members of a record under their declared names, each absent or present. A key that is no text, a
declared key given twice and an array longer than the declaration are refused. -/
def members? (names : List String) (unknown : UnknownKeys) :
    Json → Option (List (Option Json))
  | .object entries =>
    if entries.all (fun entry =>
        match entry.1 with
        | none => false
        | some key => unknown == .ignored || names.contains key) &&
      names.all (fun name => (valuesOf name entries).length ≤ 1)
    then some (names.map fun name => (valuesOf name entries).head?)
    else none
  | .array items =>
    if items.length ≤ names.length then
      some (items.map some ++ List.replicate (names.length - items.length) none)
    else none
  | _ => none

def memberOr (default : α) (read : Json → Option α) : Option Json → Option α
  | none => some default
  | some value => read value

def member (read : Json → Option α) : Option Json → Option α
  | none => none
  | some value => read value

/-- The name of a case: the text itself, or an object with that key alone and the value `null`. -/
def asCase? : Json → Option String
  | .text value => value
  | .object [(key, .null)] => key
  | _ => none

end TableLoader.Json
