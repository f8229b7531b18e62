import TableLoader.Text.Blank
import TableLoader.Text.Line

/-!
# Directives

The lines that dump tools write around the statements of a dump, and the dump without them.
-/
namespace TableLoader.Dump

def directiveStarts : List String :=
  ["--", "/*", "SET ", "START TRANSACTION", "COMMIT", "LOCK TABLES", "UNLOCK TABLES"]

def isDirective (line : List Char) : Bool :=
  let trimmed := Text.trim line
  trimmed.isEmpty || trimmed == "*/".toList ||
    directiveStarts.any fun start => start.toList.isPrefixOf trimmed

def clean (dump : List Char) : List Char :=
  Text.joinLines ((Text.lines dump).filter (!isDirective ·))

end TableLoader.Dump
