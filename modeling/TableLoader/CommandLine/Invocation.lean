/-!
# Invocations

What the arguments of the command line ask for. Options may stand anywhere; those that concern every task may
also stand before the name of the task.
-/
namespace TableLoader.CommandLine

inductive TaskName where
  | parseSchema
  | generate
  | validate
  deriving DecidableEq, Repr

def TaskName.ofName? : String → Option TaskName
  | "parse-schema" => some .parseSchema
  | "generate" => some .generate
  | "validate" => some .validate
  | _ => none

inductive Task where
  | parseSchema
  | generate (output table quote : Option String)
  | validate
  deriving DecidableEq, Repr

structure Invocation where
  config : Option String
  verbose : Bool
  -- The path of a file, or a hyphen for standard input.
  input : String
  task : Task
  deriving DecidableEq, Repr

inductive Refusal where
  | usage
  | help (topic : Option TaskName)
  | version
  deriving DecidableEq, Repr

inductive Switch where
  | config
  | verbose
  | output
  | table
  | quote
  | help
  | version
  deriving DecidableEq, Repr

namespace Switch

def ofShort? : Char → Option Switch
  | 'c' => some .config
  | 'v' => some .verbose
  | 'o' => some .output
  | 't' => some .table
  | 'h' => some .help
  | 'V' => some .version
  | _ => none

def ofLong? : String → Option Switch
  | "config" => some .config
  | "verbose" => some .verbose
  | "output" => some .output
  | "table" => some .table
  | "quote" => some .quote
  | "help" => some .help
  | "version" => some .version
  | _ => none

/-- Whether a switch may stand after the name of a task, or before any. -/
def fits : Switch → Option TaskName → Bool
  | .config, _ | .verbose, _ | .help, _ => true
  | .version, task => task == none
  | .output, task | .table, task | .quote, task => task == some .generate

def takesValue : Switch → Bool
  | .config | .output | .table | .quote => true
  | .verbose | .help | .version => false

end Switch

structure Options where
  config : Option String := none
  verbose : Bool := false
  output : Option String := none
  table : Option String := none
  quote : Option String := none
  deriving DecidableEq, Repr

namespace Options

/-- Sets an option that is not set yet. A path may not be empty. -/
def set (o : Options) (switch : Switch) (value : String) : Except Refusal Options :=
  match switch with
  | .config =>
    if o.config = none ∧ value ≠ "" then .ok { o with config := some value } else .error .usage
  | .output =>
    if o.output = none ∧ value ≠ "" then .ok { o with output := some value } else .error .usage
  | .table => if o.table = none then .ok { o with table := some value } else .error .usage
  | .quote => if o.quote = none then .ok { o with quote := some value } else .error .usage
  | _ => .error .usage

def turnOn (o : Options) (switch : Switch) (task : Option TaskName) : Except Refusal Options :=
  match switch with
  | .verbose => if o.verbose then .error .usage else .ok { o with verbose := true }
  | .help => .error (.help task)
  | .version => .error .version
  | _ => .error .usage

end Options

def isSwitch (argument : String) : Bool :=
  match argument.toList with
  | '-' :: _ :: _ => true
  | _ => false

def takeValue : List String → Except Refusal (String × List String)
  | value :: rest => if isSwitch value then .error .usage else .ok (value, rest)
  | [] => .error .usage

/-- Reads switches of one letter that stand together. What follows the letter of a switch with a value is the
value, with or without an equals sign before it. -/
def readShort (task : Option TaskName) (o : Options) :
    List Char → List String → Except Refusal (Options × List String)
  | [], rest => .ok (o, rest)
  | c :: cs, rest =>
    match Switch.ofShort? c with
    | none => .error .usage
    | some switch =>
      if !switch.fits task then .error .usage
      else if switch.takesValue then
        match cs with
        | [] => do
          let (value, rest) ← takeValue rest
          return (← o.set switch value, rest)
        | '=' :: value => do return (← o.set switch (String.ofList value), rest)
        | value => do return (← o.set switch (String.ofList value), rest)
      else
        match o.turnOn switch task with
        | .ok o => readShort task o cs rest
        | .error refusal => .error refusal

def readLong (task : Option TaskName) (o : Options) (cs : List Char) (rest : List String) :
    Except Refusal (Options × List String) :=
  let name := String.ofList (cs.takeWhile (· != '='))
  match Switch.ofLong? name, cs.dropWhile (· != '=') with
  | none, _ => .error .usage
  | some switch, value =>
    if !switch.fits task then .error .usage
    else if switch.takesValue then
      match value with
      | _ :: value => do return (← o.set switch (String.ofList value), rest)
      | [] => do
        let (value, rest) ← takeValue rest
        return (← o.set switch value, rest)
    else if value = [] then do return (← o.turnOn switch task, rest)
    else .error .usage

def readSwitch (task : Option TaskName) (o : Options) (argument : String) (rest : List String) :
    Except Refusal (Options × List String) :=
  match argument.toList with
  | '-' :: '-' :: cs => readLong task o cs rest
  | _ :: cs => readShort task o cs rest
  | [] => .error .usage

/-- Reads options and other arguments after the name of a task, at most as many as the bound. After two
hyphens every argument stands for itself. -/
def readArguments (task : TaskName) : Nat → Options → List String → List String →
    Except Refusal (Options × List String)
  | 0, _, _, _ => .error .usage
  | _ + 1, o, values, [] => .ok (o, values)
  | bound + 1, o, values, argument :: rest =>
    if argument = "--" then .ok (o, values ++ rest)
    else if isSwitch argument then
      match readSwitch (some task) o argument rest with
      | .ok (o, rest) => readArguments task bound o values rest
      | .error refusal => .error refusal
    else if values = [] then readArguments task bound o [argument] rest
    else .error .usage

def Task.ofOptions (o : Options) : TaskName → Task
  | .parseSchema => .parseSchema
  | .generate => .generate o.output o.table o.quote
  | .validate => .validate

def helpTopic : List String → Refusal
  | [] => .help none
  | [name] =>
    match TaskName.ofName? name with
    | some task => .help (some task)
    | none => .usage
  | _ => .usage

/-- Reads the options before the name of the task, the name, and what follows it. Of an option that stands on
both sides the later one counts. -/
def readTask : Nat → Options → List String → Except Refusal Invocation
  | 0, _, _ => .error .usage
  | _ + 1, _, [] => .error .usage
  | bound + 1, o, argument :: rest =>
    if isSwitch argument then
      match readSwitch none o argument rest with
      | .ok (o, rest) => readTask bound o rest
      | .error refusal => .error refusal
    else if argument = "help" then .error (helpTopic rest)
    else
      match TaskName.ofName? argument with
      | none => .error .usage
      | some name =>
        match readArguments name (rest.length + 1) {} [] rest with
        | .ok (own, [input]) =>
          .ok ⟨own.config.or o.config, own.verbose || o.verbose, input, Task.ofOptions own name⟩
        | .ok _ => .error .usage
        | .error refusal => .error refusal

def Invocation.ofArguments (arguments : List String) : Except Refusal Invocation :=
  readTask (arguments.length + 1) {} arguments

end TableLoader.CommandLine
