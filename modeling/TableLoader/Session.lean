import TableLoader.Service

/-!
# Sessions

A user's work from dump to statement: settings, the tables read last, and a request under construction. Each
command takes a session to its next state or is refused, and a refused one changes nothing.
-/
namespace TableLoader

structure Session where
  settings : Settings
  tables : List Table
  request : Request

namespace Session

def start : Session := ⟨{}, [], .empty ""⟩

/-- What a name stands for. Without a name the value in force stays. -/
def named {α : Type} (parse : String → Except String α) (current : α) :
    Option String → Except String α
  | some name => parse name
  | none => .ok current

def configure (s : Session) (size : Option Nat) (validate : Option Bool)
    (quote dialect : Option String) : Except String Session := do
  -- Both names are looked up before anything is set.
  let quote ← named IdentifierQuote.parse s.settings.identifierQuote quote
  let dialect ← named Dialect.parse s.settings.dialect dialect
  pure { s with
    settings := ⟨size.getD s.settings.maxInputSize, quote,
      validate.getD s.settings.validateBeforeGenerate, dialect⟩ }

def readDump (s : Session) (dump : String) : Except Failure Session :=
  (Schema.ofDump (.ofSettings s.settings) dump).map fun schema =>
    { s with tables := schema.tables }

def newRequest (s : Session) (table : String) : Session := { s with request := .empty table }

def map (s : Session) (source target : String) : Session :=
  { s with request := { s.request with mapping := s.request.mapping.insert source target } }

def setFields (s : Session) (fields : List Field) : Session :=
  { s with request := { s.request with fields := fields } }

def setRows (s : Session) (rows : List Row) : Session :=
  { s with request := { s.request with rows := rows } }

def addRow (s : Session) (row : Row) : Session :=
  { s with request := { s.request with rows := s.request.rows ++ [row] } }

def useTable? (s : Session) (index : Nat) : Option Session :=
  s.tables[index]?.map fun t =>
    { s with request := { s.request with table := t.name, fields := t.fields } }

inductive Command where
  | configure (size : Option Nat) (validate : Option Bool) (quote dialect : Option String)
  | readDump (dump : String)
  | newRequest (table : String)
  | map (source target : String)
  | setFields (fields : List Field)
  | setRows (rows : List Row)
  | addRow (row : Row)
  | useTable (index : Nat)

inductive Refusal where
  | setting (message : String)
  | dump (failure : Failure)
  | noSuchTable
  deriving DecidableEq, Repr

def step (s : Session) : Command → Except Refusal Session
  | .configure size validate quote dialect =>
    (s.configure size validate quote dialect).mapError .setting
  | .readDump dump => (s.readDump dump).mapError .dump
  | .newRequest table => .ok (s.newRequest table)
  | .map source target => .ok (s.map source target)
  | .setFields fields => .ok (s.setFields fields)
  | .setRows rows => .ok (s.setRows rows)
  | .addRow row => .ok (s.addRow row)
  | .useTable index =>
    match s.useTable? index with
    | some t => .ok t
    | none => .error .noSuchTable

/-- The session after a command, refused or not. -/
def after (s : Session) (c : Command) : Session :=
  match s.step c with
  | .ok t => t
  | .error _ => s

def run (s : Session) (cs : List Command) : Session := cs.foldl after s

end Session

end TableLoader
