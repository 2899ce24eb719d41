import EntityScaffold.Number.Literal

/-!
# The switches of the command line

Every switch has one or two spellings and takes a value or none. The texts that describe them are
`usageText` and `helpText`.

Model of the switches and help texts that `_build_parser` sets up.
-/

namespace EntityScaffold.CommandLine

/-- A switch. -/
inductive Switch where
  | help
  | version
  | schema
  | output
  | validateOnly
  | dryRun
  | serve
  | strict
  | host
  | port
  | verbose
  | quiet
  deriving DecidableEq

namespace Switch

/-- Every switch, in the order in which messages list them. -/
def all : List Switch :=
  [.help, .version, .schema, .output, .validateOnly, .dryRun, .serve, .strict, .host, .port,
    .verbose, .quiet]

/-- How a switch is written. -/
def spellings : Switch → List String
  | .help => ["-h", "--help"]
  | .version => ["--version"]
  | .schema => ["-s", "--schema"]
  | .output => ["-o", "--output"]
  | .validateOnly => ["--validate-only"]
  | .dryRun => ["--dry-run"]
  | .serve => ["--serve"]
  | .strict => ["--strict"]
  | .host => ["--host"]
  | .port => ["--port"]
  | .verbose => ["-v", "--verbose"]
  | .quiet => ["-q", "--quiet"]

/-- The switch comes with a value. -/
def takesValue : Switch → Bool
  | .schema | .output | .host | .port => true
  | _ => false

/-- A switch in messages: all its spellings. -/
def title (s : Switch) : String := "/".intercalate s.spellings

/-- Every spelling and its switch. -/
def table : List (String × Switch) :=
  all.flatMap fun s => s.spellings.map fun spelling => (spelling, s)

end Switch

/-- How to call the program. -/
def usageText : String :=
  "usage: dbscaffold [-h] [--version] [-s PATH] [-o ZIP] [--validate-only]\n" ++
  "                  [--dry-run] [--serve] [--strict] [--host HOST] [--port PORT]\n" ++
  "                  [-v] [-q]\n"

/-- What the program does and what each switch is for. -/
def helpText : String :=
  usageText ++ "
dbscaffold: Entity Framework Core scaffolding generator.

Compiles a relational schema description (JSON/YAML) into entity, DbContext, repository, service, test and DI source files.

options:
  -h, --help            show this help message and exit
  --version             show program's version number and exit
  -s PATH, --schema PATH
                        Path to the generation request file (JSON or YAML).
  -o ZIP, --output ZIP  Destination of the zip package. Required unless
                        --validate-only or --dry-run.

operation modes:
  --validate-only       Only run request diagnostics.
  --dry-run             Compile and list the files without writing a package.
  --serve               Run the HTTP job service with uvicorn.

behaviour flags:
  --strict              Refuse to package when diagnostics report errors.
  --host HOST           Bind host for --serve.
  --port PORT           Bind port for --serve.

verbosity:
  -v, --verbose         Increase verbosity (-v for INFO, -vv for DEBUG).
  -q, --quiet           Only log errors.

Examples:
  dbscaffold -s shop.yaml -o shop.zip
  dbscaffold -s shop.json --dry-run -v
  dbscaffold -s shop.yaml --validate-only
  dbscaffold --serve --port 8000
"

end EntityScaffold.CommandLine
