import TableLoader.CommandLine.Invocation

/-!
# Help

The descriptions of the program and of its tasks, and what is printed when there is no task to do.
-/
namespace TableLoader.CommandLine

def versionText : String := "db-importer 0.3.0\n"

def about : Option TaskName → String
  | none => "Generate SQL INSERT statements from schema dumps and tabular data"
  | some .parseSchema => "Extract table definitions from a SQL dump"
  | some .generate => "Generate INSERT statements from a JSON request"
  | some .validate => "Check rows against field constraints without generating SQL"

def usageLine : Option TaskName → String
  | none => "db-importer [OPTIONS] <COMMAND>"
  | some .parseSchema => "db-importer parse-schema [OPTIONS] <INPUT>"
  | some .generate => "db-importer generate [OPTIONS] <INPUT>"
  | some .validate => "db-importer validate [OPTIONS] <INPUT>"

def operands : Option TaskName → List String
  | none =>
    ["Commands:",
      "  parse-schema  Extract table definitions from a SQL dump",
      "  generate      Generate INSERT statements from a JSON request",
      "  validate      Check rows against field constraints without generating SQL",
      "  help          Print this message or the help of the given subcommand(s)"]
  | some .parseSchema => ["Arguments:", "  <INPUT>  SQL file, or - for stdin"]
  | some .generate =>
    ["Arguments:",
      "  <INPUT>  Request JSON file (\x7btable, mapping, rows, fields\x7d), or - for stdin"]
  | some .validate => ["Arguments:", "  <INPUT>  Request JSON file, or - for stdin"]

def options : Option TaskName → List String
  | none =>
    ["  -c, --config <CONFIG>  TOML configuration file",
      "  -v, --verbose          Enable verbose output",
      "  -h, --help             Print help",
      "  -V, --version          Print version"]
  | some .generate =>
    ["  -c, --config <CONFIG>  TOML configuration file",
      "  -o, --output <OUTPUT>  Output path for the SQL (defaults to stdout)",
      "  -t, --table <TABLE>    Target table name, overriding the request",
      "  -v, --verbose          Enable verbose output",
      "      --quote <QUOTE>    Identifier quoting style (backtick, double, bracket)",
      "  -h, --help             Print help"]
  | some _ =>
    ["  -c, --config <CONFIG>  TOML configuration file",
      "  -v, --verbose          Enable verbose output",
      "  -h, --help             Print help"]

def helpText (topic : Option TaskName) : String :=
  "\n".intercalate
    ([about topic, "", "Usage: " ++ usageLine topic, ""] ++ operands topic ++ ["", "Options:"] ++
      options topic) ++ "\n"

end TableLoader.CommandLine
