import TableLoader.CommandLine.Invocation
import TableLoader.Service
import TableLoader.Settings.Toml

/-!
# Outcomes

What an invocation does with its settings file and its input. All is decided before anything is written: the
plan of an invocation is either its outcome, or one file to write and the outcome thereafter.
-/
namespace TableLoader.CommandLine

structure Outcome where
  code : Nat
  stdout : String
  stderr : String
  deriving DecidableEq, Repr

inductive Source where
  | text (content : String)
  | absent (reason : String)
  | unreadable (reason : String)
  deriving DecidableEq, Repr

def notUtf8 : String := "stream did not contain valid UTF-8"

def Source.ofBytes (bytes : ByteArray) : Source :=
  match String.fromUTF8? bytes with
  | some content => .text content
  | none => .unreadable notUtf8

inductive Fault where
  | settingsNotFound (path : String)
  | settingsUnreadable (reason : String)
  | settingsInvalid
  | unknownQuote (reason : String)
  | inputUnreadable (path reason : String)
  | stdinUnreadable (reason : String)
  | outputUnwritable (path reason : String)
  | failure (failure : Failure)
  | invalidRows (count : Nat)
  deriving DecidableEq, Repr

namespace Fault

def message : Fault → String
  | .settingsNotFound path => "Configuration file not found: " ++ path
  | .settingsUnreadable reason => "IO error: " ++ reason
  -- The words of the TOML reader are not kept.
  | .settingsInvalid => "Invalid configuration"
  | .unknownQuote reason => reason
  | .inputUnreadable path reason => "Failed to read " ++ path ++ ": " ++ reason
  | .stdinUnreadable reason => "Invalid argument: Failed to read stdin: " ++ reason
  | .outputUnwritable path reason => "Failed to write " ++ path ++ ": " ++ reason
  | .failure f => f.title
  | .invalidRows count => natString count ++ " row constraint violation(s)"

/-- What lies behind the fault, where the message says so too. -/
def cause? : Fault → Option String
  | .settingsUnreadable reason => some reason
  | .failure f => some f.title
  | _ => none

def text (f : Fault) : String :=
  (match f with
    | .failure f => f.report.toJson.renderPretty ++ "\n"
    | _ => "") ++
  "Error: " ++ f.message ++ "\n" ++
  match f.cause? with
  | some cause => "\nCaused by:\n    " ++ cause ++ "\n"
  | none => ""

end Fault

inductive Plan where
  | finish (outcome : Outcome)
  /-- Write a text to a file. `before` and `after` are told of it before and after. -/
  | write (path content before after : String)
  deriving DecidableEq, Repr

namespace Plan

def fail (before : String) (fault : Fault) : Plan := .finish ⟨1, "", before ++ fault.text⟩

def complete (refusal : Option String) : Plan → Outcome
  | .finish outcome => outcome
  | .write path _ before after =>
    match refusal with
    | none => ⟨0, "", before ++ after⟩
    | some reason => ⟨1, "", before ++ (Fault.outputUnwritable path reason).text⟩

end Plan

def told (verbose : Bool) (lines : List String) : String :=
  if verbose then String.join (lines.map (· ++ "\n")) else ""

def settingsFrom (config : Option String) (source : Source) : Except Fault Settings :=
  match config with
  | none => .ok {}
  | some path =>
    match source with
    | .absent _ => .error (.settingsNotFound path)
    | .unreadable reason => .error (.settingsUnreadable reason)
    | .text content =>
      match Settings.parseToml? content with
      | some settings => .ok settings
      | none => .error .settingsInvalid

def inputFrom (input : String) : Source → Except Fault String
  | .text content => .ok content
  | .absent reason | .unreadable reason =>
    .error (if input = "-" then .stdinUnreadable reason else .inputUnreadable input reason)

def requestFrom (text : String) : Except Fault Request :=
  match Request.parse? text with
  | some request => .ok request
  | none => .error (.failure .invalidJson)

def withQuote (settings : Settings) : Option String → Except Fault Settings
  | none => .ok settings
  | some name =>
    match IdentifierQuote.parse name with
    | .ok quote => .ok { settings with identifierQuote := quote }
    | .error reason => .error (.unknownQuote reason)

def planSchema (settings : Settings) (verbose : Bool) (input dump : String) : Plan :=
  let heard := told verbose
    ["Parsing schema...",
      "  Input: " ++ input ++ " (" ++ natString dump.utf8ByteSize ++ " bytes)",
      "  Grammar dialect: " ++ settings.dialect.name]
  match (Importer.ofSettings settings).run dump with
  | .error fault => .fail heard (.failure (.ofImportFault fault))
  | .ok found =>
    .finish ⟨0, (Schema.mk found.tables).toJson.renderPretty ++ "\n",
      heard ++ if verbose then found.summary else ""⟩

def planGenerate (settings : Settings) (verbose : Bool) (output : Option String)
    (request : Request) : Plan :=
  let heard := told verbose
    ["Generating SQL...",
      "  Table: " ++ request.table,
      "  Rows: " ++ natString request.rows.length,
      "  Mapped columns: " ++ natString request.mapping.entries.length,
      "  Identifier quotes: " ++ settings.identifierQuote.name]
  match request.generate settings with
  | .error f => .fail heard (.failure f)
  | .ok sql =>
    match output with
    | none => .finish ⟨0, sql ++ "\n", heard⟩
    | some path =>
      .write path sql heard
        (told verbose ["Wrote " ++ natString sql.utf8ByteSize ++ " bytes to " ++ path])

def planValidate (request : Request) : Plan :=
  let report := request.verdict.toJson.renderPretty ++ "\n"
  if request.verdict.valid then .finish ⟨0, report, ""⟩
  else .finish ⟨1, report, (Fault.invalidRows request.verdict.errors.length).text⟩

/-- The plan of an invocation. Settings come first, then the way to quote, then the input. -/
def plan (i : Invocation) (config input : Source) : Plan :=
  let result : Except Fault Plan := do
    let settings ← settingsFrom i.config config
    match i.task with
    | .parseSchema => return planSchema settings i.verbose i.input (← inputFrom i.input input)
    | .generate output table quote =>
      let settings ← withQuote settings quote
      let request ← requestFrom (← inputFrom i.input input)
      return planGenerate settings i.verbose output { request with table := table.getD request.table }
    | .validate => return planValidate (← requestFrom (← inputFrom i.input input))
  match result with
  | .ok plan => plan
  | .error fault => .fail "" fault

end TableLoader.CommandLine
