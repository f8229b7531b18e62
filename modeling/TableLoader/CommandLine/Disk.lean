import TableLoader.CommandLine.Help
import TableLoader.CommandLine.Outcome

/-!
# Runs on a disk

A disk as far as a run can tell: a directory that holds files under relative paths. A run reads at most two
files and writes at most one, the last thing that it does.
-/
namespace TableLoader.CommandLine

/-- Files by their paths, each the list of its parts. -/
structure Disk where
  files : List (List String × ByteArray)

namespace Disk

/-- The parts of a path; an empty one and a dot lead nowhere. -/
def parts (path : String) : List String :=
  ((path.toList.splitOnP (· == '/')).map String.ofList).filter fun part => part ≠ "" ∧ part ≠ "."

def noSuchFile : String := "No such file or directory (os error 2)"

def notADirectory : String := "Not a directory (os error 20)"

def isADirectory : String := "Is a directory (os error 21)"

def file? (disk : Disk) (path : List String) : Option ByteArray := disk.files.lookup path

def isDirectory (disk : Disk) (path : List String) : Bool :=
  path.isEmpty || disk.files.any fun file => path.isPrefixOf file.1 && path != file.1

def passesFile (disk : Disk) (path : List String) : Bool :=
  disk.files.any fun file => file.1.isPrefixOf path && path != file.1

def endsInSlash (path : String) : Bool := path.toList.getLast? == some '/'

def read (disk : Disk) (path : String) : Source :=
  if path = "" then .absent noSuchFile
  else if disk.isDirectory (parts path) then .unreadable isADirectory
  else
    match disk.file? (parts path) with
    | some bytes => if endsInSlash path then .absent notADirectory else .ofBytes bytes
    | none => .absent (if disk.passesFile (parts path) then notADirectory else noSuchFile)

/-- Why a file cannot be written, if it cannot. -/
def refusal? (disk : Disk) (path : String) : Option String :=
  if path = "" then some noSuchFile
  else if disk.isDirectory (parts path) then some isADirectory
  else if disk.passesFile (parts path) then some notADirectory
  else if !disk.isDirectory (parts path).dropLast then some noSuchFile
  else if endsInSlash path then
    some (if (disk.file? (parts path)).isSome then notADirectory else isADirectory)
  else none

def write (disk : Disk) (path content : String) : Disk :=
  ⟨(parts path, content.toUTF8) :: disk.files.filter (·.1 ≠ parts path)⟩

end Disk

def Refusal.outcome : Refusal → Outcome
  | .usage => ⟨2, "", "Usage: " ++ usageLine none ++ "\n"⟩
  | .help topic => ⟨0, helpText topic, ""⟩
  | .version => ⟨0, versionText, ""⟩

def Invocation.run (i : Invocation) (disk : Disk) (stdin : ByteArray) : Outcome × Disk :=
  let config := (i.config.map disk.read).getD (.absent "")
  let input := if i.input = "-" then .ofBytes stdin else disk.read i.input
  match plan i config input with
  | .finish outcome => (outcome, disk)
  | .write path content before after =>
    let refusal := disk.refusal? path
    ((Plan.write path content before after).complete refusal,
      if refusal = none then disk.write path content else disk)

def run (arguments : List String) (disk : Disk) (stdin : ByteArray) : Outcome × Disk :=
  match Invocation.ofArguments arguments with
  | .ok i => i.run disk stdin
  | .error refusal => (refusal.outcome, disk)

end TableLoader.CommandLine
