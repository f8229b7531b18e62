import TableLoader.CommandLine.Disk

/-!
# The program

The outer layer of the command line: it reads what an invocation needs, asks for its plan and carries it out.
-/
namespace TableLoader.CommandLine

def reasonOf : IO.Error → String
  | .noFileOrDirectory .. => Disk.noSuchFile
  | .inappropriateType _ 20 _ => Disk.notADirectory
  | .inappropriateType _ 21 _ => Disk.isADirectory
  | error => toString error

def sourceOfError : IO.Error → Source
  | .noFileOrDirectory .. => .absent Disk.noSuchFile
  | .inappropriateType _ 20 _ => .absent Disk.notADirectory
  | error => .unreadable (reasonOf error)

def readFile (path : String) : IO Source := do
  try return .ofBytes (← IO.FS.readBinFile path)
  catch error => return sourceOfError error

partial def readAll (stream : IO.FS.Stream) (before : ByteArray) : IO ByteArray := do
  let chunk ← stream.read 65536
  if chunk.isEmpty then return before else readAll stream (before ++ chunk)

def readInput (path : String) : IO Source := do
  if path = "-" then return .ofBytes (← readAll (← IO.getStdin) .empty) else readFile path

def writeFile (path content : String) : IO (Option String) := do
  try
    IO.FS.writeFile path content
    return none
  catch error => return some (reasonOf error)

def perform (i : Invocation) : IO Outcome := do
  let config ←
    match i.config with
    | some path => readFile path
    | none => pure (.absent "")
  match settingsFrom i.config config with
  | .error fault => return (Plan.fail "" fault).complete none
  | .ok _ =>
    let plan := plan i config (← readInput i.input)
    match plan with
    | .finish outcome => return outcome
    | .write path content _ _ => return plan.complete (← writeFile path content)

end TableLoader.CommandLine

open TableLoader.CommandLine

def main (arguments : List String) : IO UInt32 := do
  let outcome ←
    match Invocation.ofArguments arguments with
    | .ok i => perform i
    | .error refusal => pure refusal.outcome
  (← IO.getStdout).putStr outcome.stdout
  (← IO.getStderr).putStr outcome.stderr
  return outcome.code.toUInt32
