import EntityScaffold.CommandLine.Notice
import EntityScaffold.Compile.Report
import EntityScaffold.Intake.Document
import EntityScaffold.Settings

/-!
# Runs of the command line

A run reads its arguments and then does one of three things: it starts the web service, diagnoses
a request file, or generates the files of a request and packages them. `run` gives everything
that is left of a run: how it ended, what it printed and noted, and the files.

A run ends with an exit code:

    0  everything was done
    1  the diagnostics hold errors, and the run was only to diagnose or was to be strict
    2  files could not be generated, or the arguments could not be read
    3  the package could not be written
    4  there is no usable request file

Only a few failures have no exit code; a run that meets one breaks down.

Model of `cli_main`, `_load_request`, `_run_validate_only`, `_run_generation` and `_run_serve`.
-/

namespace EntityScaffold.CommandLine

/-- Where a run takes place. It is taken to last no time. -/
structure Surroundings where
  /-- The working directory. -/
  directory : Path
  tree : FileTree FileBody
  environment : List (String × String) := []
  /-- The directory for the files of the web service, unless settings name another. -/
  defaultRoot : String
  time : String := "00:00:00"

/-- How a run that comes to its end has gone. -/
inductive ExitCode where
  | success
  | diagnostics
  | generation
  | packaging
  | input
  | usage
  deriving DecidableEq

/-- The number of an exit code. -/
def ExitCode.number : ExitCode → Nat
  | .success => 0
  | .diagnostics => 1
  | .generation => 2
  | .usage => 2
  | .packaging => 3
  | .input => 4

/-- A failure that no exit code stands for. -/
inductive Breakdown where
  | file (e : FileError)
  | document (e : DocumentError)
  | package (e : PackageError)
  /-- A length has too many digits to be written. -/
  | unwritableLength
  | settings (faults : List Fault)
  deriving DecidableEq

/-- How a run ends. -/
inductive Ending where
  | exit (c : ExitCode)
  | breakdown (b : Breakdown)
  deriving DecidableEq

/-- Where the web service listens. -/
structure Listening where
  host : String
  port : Int
  logLevel : String
  deriving DecidableEq

/-- What is left of a run. -/
structure Outcome where
  ending : Ending
  printed : String := ""
  notices : List Notice := []
  /-- The level of the log, once arguments were read. -/
  level : Option LogLevel := none
  /-- The web service was started. -/
  listening : Option Listening := none
  tree : FileTree FileBody

namespace Outcome

/-- The outcome with notices before its own. -/
def noting (before : List Notice) (o : Outcome) : Outcome :=
  { o with notices := before ++ o.notices }

/-- What the run wrote to the error stream. -/
def errorText (time : String) (o : Outcome) : String :=
  "".intercalate (o.notices.map (Notice.text (o.level.getD .warning) time))

end Outcome

/-- A run that ends with a code and leaves the files as they are. -/
def Surroundings.exit (w : Surroundings) (c : ExitCode) : Outcome :=
  { ending := .exit c, tree := w.tree }

/-- A run that breaks down and leaves the files as they are. -/
def Surroundings.breakDown (w : Surroundings) (b : Breakdown) : Outcome :=
  { ending := .breakdown b, tree := w.tree }

/-- The place that a path on the command line means. Double dots take back the name before
them. -/
def Surroundings.resolve (w : Surroundings) (text : String) : Except FileError Path :=
  let p := Path.ofText w.directory text
  if FileTree.hasNull p then .error .nullByte else .ok p.collapsed

/-- An error in the log. -/
def errorNotice (message : String) : Notice := .log .error programName message

/-! ## Request files -/

/-- Why there is no request. -/
inductive RequestError where
  | document (e : DocumentError)
  | shape (faults : List Fault)
  deriving DecidableEq

namespace RequestError

/-- What a run breaks down with. All other errors are noted. -/
def breakdown? : RequestError → Option Breakdown
  | .document (.unreadable cause) => some (.document (.unreadable cause))
  | .document (.impossibleValue reason) => some (.document (.impossibleValue reason))
  | .document .outOfRange => some (.document .outOfRange)
  | .document .tooDeep => some (.document .tooDeep)
  | _ => none

/-- What is noted when there is no request. -/
def notices : RequestError → List Notice
  | .document (.missing path) => [errorNotice (DocumentError.missing path).message]
  | .document e => [errorNotice s!"Failed to load request: {e.message}"]
  | .shape fs => errorNotice s!"Failed to load request: {refusalMessage fs}" ::
      fs.map fun f => errorNotice s!"  {f.location}: {f.problem.message}"

/-- The outcome of a run without a request. -/
def outcome (w : Surroundings) (e : RequestError) : Outcome :=
  match e.breakdown? with
  | some b => w.breakDown b
  | none => (w.exit .input).noting e.notices

end RequestError

/-- Reads the request in a file. -/
def loadRequest (w : Surroundings) (file : Path) : Except RequestError Request :=
  match Document.load w.tree file file.display with
  | .error e => .error (.document e)
  | .ok v =>
    match Request.ofDocument v with
    | .error fs => .error (.shape fs)
    | .ok r => .ok r

/-- What is noted of diagnostics. -/
def diagnosticNotices (d : DiagnosticReport) : List Notice :=
  if d.hasErrors then
    [.log .warning s!"{programName}.validators"
      s!"Diagnostics found {d.errors.length} error(s). {d.summary}"]
  else []

/-! ## Diagnosing -/

/-- The report of diagnosing a request file. -/
def diagnosisText (file : Path) (r : Request) (d : DiagnosticReport) : String :=
  let rule := CompileReport.rule '=' 50
  let answer := if d.passes then "Yes" else "No"
  "\n".intercalate [
    "", rule, "  Request Diagnostics", rule,
    s!"  File:     {Path.name file}",
    s!"  Tables:   {r.validTables.length} valid of {r.tables.length}",
    "  Time:     " ++ secondsText 3 0 ++ "s",
    s!"  Valid:    {answer}",
    d.text true, rule, "", ""]

/-- Diagnoses the request in a file. -/
def diagnose (w : Surroundings) (file : Path) : Outcome :=
  match loadRequest w file with
  | .error e => e.outcome w
  | .ok r =>
    match r.validate? r.relationships with
    | none => w.breakDown .unwritableLength
    | some d =>
      { ending := .exit (if d.passes then .success else .diagnostics)
        printed := diagnosisText file r d
        notices := diagnosticNotices d
        tree := w.tree }

/-! ## Generating -/

/-- The end of a run that compiled. -/
def Ending.ofReport (c : CompileReport) : Ending :=
  .exit (if c.success then .success else .generation)

/-- What is noted of a compilation. -/
def reportNotices (c : CompileReport) : List Notice :=
  (c.diagnostics.map diagnosticNotices).getD []

/-- Compiles a request and lists its files. -/
def listFiles (w : Surroundings) (r : Request) : Outcome :=
  let c := r.compile
  { ending := .ofReport c
    printed := c.summary ++ "\n" ++ "".intercalate (c.files.map fun f => s!"  {f.1}\n")
    notices := reportNotices c
    tree := w.tree }

/-- Compiles a request into a package. -/
def writePackage (w : Surroundings) (r : Request) (destination : Path) : Outcome :=
  match r.compileToPackage w.tree destination with
  | (t, .ok c) =>
    { ending := .ofReport c, printed := c.summary ++ "\n", notices := reportNotices c, tree := t }
  | (t, .error e) =>
    if e.isSystem then
      { ending := .exit .packaging
        notices := reportNotices r.compile ++
          [errorNotice s!"Could not write package {destination.display}: {e.message}"]
        tree := t }
    else { ending := .breakdown (.package e), notices := reportNotices r.compile, tree := t }

/-- Generates the files of a request. Without a destination they are only listed; a strict run
refuses to package what has errors. -/
def generate (w : Surroundings) (a : Arguments) (destination : Option Path) (r : Request) :
    Outcome :=
  if r.validTables.isEmpty then
    (w.exit .input).noting [errorNotice "No valid tables were provided."]
  else
    match r.validate? r.relationships with
    | none => w.breakDown .unwritableLength
    | some d =>
      if r.hasUnwritableFiles then (w.breakDown .unwritableLength).noting (diagnosticNotices d)
      else
        match if a.dryRun then none else destination with
        | none => listFiles w r
        | some p =>
          let c := r.compile
          if a.strict && c.hasErrors then
            { ending := .exit .diagnostics
              printed := c.summary ++ "\n"
              notices := reportNotices c
              tree := w.tree }
          else writePackage w r p

/-- An outcome with a last notice if it is an exit without success. -/
def announced (o : Outcome) : Outcome :=
  match o.ending with
  | .exit .success => o
  | .exit c => { o with
      notices := o.notices ++ [errorNotice s!"Generation failed with exit code {c.number}."] }
  | .breakdown _ => o

/-- Generates the files of the request in a file. -/
def generateFrom (w : Surroundings) (a : Arguments) (file : Path) (destination : Option Path) :
    Outcome :=
  announced <|
    match loadRequest w file with
    | .error e => e.outcome w
    | .ok r => generate w a destination r

/-- The destination of the package, if one is named. -/
def destinationOf (w : Surroundings) (a : Arguments) : Except FileError (Option Path) :=
  match a.output with
  | none => .ok none
  | some "" => .ok none
  | some text => (w.resolve text).map some

/-! ## Serving -/

/-- Starts the web service. Arguments count for more than settings, but an empty host and the
port zero count as not given. -/
def serve (w : Surroundings) (a : Arguments) : Outcome :=
  match Settings.ofEnvironment w.defaultRoot w.environment with
  | .error fs => w.breakDown (.settings fs)
  | .ok s =>
    { w.exit .success with
      listening := some {
        host := (a.host.filter (· ≠ "")).getD s.apiHost
        port := (a.port.filter (· ≠ 0)).getD s.apiPort
        logLevel := Text.lowerCase s.logLevel } }

/-! ## Runs -/

/-- Works on a request file. -/
def workOn (w : Surroundings) (a : Arguments) (schema : String) : Outcome :=
  match w.resolve schema with
  | .error e => w.breakDown (.file e)
  | .ok file =>
    match w.tree.present? file with
    | .error e => w.breakDown (.file e)
    | .ok (some (.file _)) =>
      if a.validateOnly then diagnose w file
      else if a.output.isNone && !a.dryRun then
        (w.exit .input).noting
          [errorNotice
            "An output path is required. Use -o/--output, --dry-run or --validate-only.",
            .plain usageText]
      else
        match destinationOf w a with
        | .error e => w.breakDown (.file e)
        | .ok destination => generateFrom w a file destination
    | .ok _ =>
      (w.exit .input).noting [errorNotice s!"Schema file not found: {file.display}"]

/-- Acts on arguments. -/
def perform (w : Surroundings) (a : Arguments) : Outcome :=
  let o :=
    if a.serve then serve w a
    else
      match a.schema with
      | none => (w.exit .input).noting
          [errorNotice "A schema file is required unless --serve is set.", .plain usageText]
      | some schema => workOn w a schema
  { o with level := some (.ofArguments a) }

/-- A run that ends while its arguments are read. -/
def Stop.outcome (w : Surroundings) : Stop → Outcome
  | .help => { w.exit .success with printed := helpText }
  | .version => { w.exit .success with
      printed := s!"{programName} v" ++ EntityScaffold.version ++ "\n" }
  | .error e => (w.exit .usage).noting
      [.plain usageText, .plain s!"{programName}: error: {e.message}\n"]

/-- Runs a command line. -/
def run (w : Surroundings) (words : List String) : Outcome :=
  match Arguments.ofWords words with
  | .error stop => stop.outcome w
  | .ok a => perform w a

end EntityScaffold.CommandLine
