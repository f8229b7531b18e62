import TableLoader.Number.Numeral
import TableLoader.Sql.Token

/-!
# Readers of tokens

A reader takes tokens from the front of a list. It may read a value, refuse, or find the text nested too
deep. Trying a reader takes a refusal back; too deep a nesting is final.
-/
namespace TableLoader.Sql

inductive Reading (α : Type) where
  | read (value : α) (rest : List Token)
  | refused
  | tooDeep
  deriving Repr

def Reader (α : Type) : Type := List Token → Reading α

namespace Reader

instance : Monad Reader where
  pure value := fun ts => .read value ts
  bind r next := fun ts =>
    match r ts with
    | .read value rest => next value rest
    | .refused => .refused
    | .tooDeep => .tooDeep

def refuse {α : Type} : Reader α := fun _ => .refused

def tooDeep {α : Type} : Reader α := fun _ => .tooDeep

def look {α : Type} (f : List Token → α) : Reader α := fun ts => .read (f ts) ts

def require (condition : Bool) : Reader Unit := if condition then pure () else refuse

def next : Reader Token
  | [] => .refused
  | t :: rest => .read t rest

def takes (p : Token → Bool) : Reader Bool
  | [] => .read false []
  | t :: rest => if p t then .read true rest else .read false (t :: rest)

def attempt {α : Type} (r : Reader α) : Reader (Option α) := fun ts =>
  match r ts with
  | .read value rest => .read (some value) rest
  | .refused => .read none ts
  | .tooDeep => .tooDeep

def orElse {α : Type} (r s : Reader α) : Reader α := do
  match ← attempt r with
  | some value => pure value
  | none => s

/-- What the first reader reads, or else, whatever kept it from reading, what the second does. -/
def orRetry {α : Type} (r s : Reader α) : Reader α := fun ts =>
  match r ts with
  | .read value rest => .read value rest
  | failure =>
    match s ts with
    | .read value rest => .read value rest
    | _ => failure

def when {α : Type} (condition : Bool) (r : Reader α) : Reader (Option α) :=
  if condition then do return some (← r) else pure none

/-- The first alternative that finds something. An alternative may find nothing and still have taken
tokens; the later ones then start after these. -/
def firstOf {α : Type} : List (Reader (Option α)) → Reader (Option α)
  | [] => pure none
  | r :: rs => do
    match ← r with
    | some value => pure (some value)
    | none => firstOf rs

def firstTaken : Nat → List (Reader Bool) → Reader (Option Nat)
  | _, [] => pure none
  | i, choice :: choices => do
    if ← choice then return some i else firstTaken (i + 1) choices

/-- Takes choices in any order, each at most once, as long as one can be taken. -/
def eachOnceUpTo : Nat → List (Reader Bool) → Reader Unit
  | 0, _ => pure ()
  | bound + 1, choices => do
    match ← firstTaken 0 choices with
    | none => pure ()
    | some i => eachOnceUpTo bound (choices.eraseIdx i)

def eachOnce (choices : List (Reader Bool)) : Reader Unit := eachOnceUpTo choices.length choices

end Reader

namespace Token

def isKeyword (key : String) : Token → Bool
  | .word _ k none => k == key
  | _ => false

def isSymbol (text : String) : Token → Bool
  | .symbol s => s == text
  | _ => false

def keyword? : Token → Option String
  | .word _ k none => some k
  | _ => none

def isWord : Token → Bool
  | .word .. => true
  | _ => false

end Token

open Reader

def keyword (key : String) : Reader Bool := takes (Token.isKeyword key)

def expectKeyword (key : String) : Reader Unit := do require (← keyword key)

def symbol (text : String) : Reader Bool := takes (Token.isSymbol text)

def expectSymbol (text : String) : Reader Unit := do require (← symbol text)

def expectKeywords : List String → Reader Unit
  | [] => pure ()
  | key :: keys => do
    expectKeyword key
    expectKeywords keys

/-- Whether the keywords come next; takes all of them or none. -/
def keywords (keys : List String) : Reader Bool := do
  return (← attempt (expectKeywords keys)).isSome

def oneOf (keys : List String) : Reader (Option String) := fun ts =>
  match ts with
  | t :: rest =>
    match t.keyword? with
    | some key => if keys.contains key then .read (some key) rest else .read none ts
    | none => .read none ts
  | [] => .read none ts

def expectOneOf (keys : List String) : Reader String := do
  match ← oneOf keys with
  | some key => pure key
  | none => refuse

def nextIsKeyword (key : String) : Reader Bool := look fun ts => ts.head?.any (Token.isKeyword key)

def nextIsOneOf (keys : List String) : Reader Bool :=
  look fun ts => (ts.head?.bind Token.keyword?).any keys.contains

def nextIsSymbol (text : String) : Reader Bool := look fun ts => ts.head?.any (Token.isSymbol text)

def itemsUpTo {α : Type} (item : Reader α) : Nat → Reader (List α)
  | 0 => refuse
  | bound + 1 => do
    let first ← item
    if ← symbol "," then return first :: (← itemsUpTo item bound) else return [first]

def commaList {α : Type} (item : Reader α) : Reader (List α) := fun ts =>
  itemsUpTo item (ts.length + 1) ts

def commaListBefore {α : Type} (close : String) (item : Reader α) : Reader (List α) := do
  if ← nextIsSymbol close then return [] else commaList item

def parenthesized {α : Type} (r : Reader α) : Reader α := do
  expectSymbol "("
  let value ← r
  expectSymbol ")"
  return value

def ifParenthesized {α : Type} (r : Reader α) : Reader (Option α) := do
  if ← nextIsSymbol "(" then return some (← parenthesized r) else return none

def repeatUpTo {α : Type} (step : Reader (Option α)) : Nat → Reader (List α)
  | 0 => refuse
  | bound + 1 => do
    match ← step with
    | none => return []
    | some value => return value :: (← repeatUpTo step bound)

/-- Repeats a step, which takes a token whenever it finds something, until it finds nothing. -/
def repeated {α : Type} (step : Reader (Option α)) : Reader (List α) := fun ts =>
  repeatUpTo step (ts.length + 1) ts

/-- An identifier: a word, or a string in single or double quotes, with the quote it was given. -/
structure Ident where
  text : String
  quote : Option Char
  deriving DecidableEq, Repr

def Ident.ofToken? : Token → Option Ident
  | .word text _ quote => some ⟨text, quote⟩
  | .string .single text => some ⟨text, some '\''⟩
  | .string .double text => some ⟨text, some '\"'⟩
  | _ => none

def ident : Reader Ident := do
  match Ident.ofToken? (← next) with
  | some name => pure name
  | none => refuse

def identList : Reader (List Ident) := parenthesized (commaList ident)

def nameUpTo : Nat → Reader (List Ident)
  | 0 => refuse
  | bound + 1 => do
    let first ← ident
    if ← symbol "." then return first :: (← nameUpTo bound) else return [first]

def objectName : Reader (List Ident) := fun ts => nameUpTo (ts.length + 1) ts

def naturalOf? (text : String) : Option Nat :=
  let digits := text.toList
  if digits ≠ [] ∧ digits.all Char.isDigit ∧ natOfDigits digits < twoTo 64 then
    some (natOfDigits digits)
  else none

def natural : Reader Nat := do
  match ← next with
  | .number text =>
    match naturalOf? text with
    | some n => pure n
    | none => refuse
  | _ => refuse

def signedNumber : Reader Unit := do
  unless ← symbol "+" do discard (symbol "-")
  match ← next with
  | .number _ => pure ()
  | _ => refuse

def singleQuoted : Reader String := do
  match ← next with
  | .string .single text => pure text
  | _ => refuse

end TableLoader.Sql
