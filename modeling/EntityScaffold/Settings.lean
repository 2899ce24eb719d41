import EntityScaffold.FileTree.Path
import EntityScaffold.Intake.Record
import EntityScaffold.Text.Case

/-!
# Settings

Where files are staged and packaged, how many jobs run at once, and where the web service listens.
Settings come from environment variables, whose names may be written in any case; what is not set
has a default.

Model of `PipelineSettings`.
-/

namespace EntityScaffold

/-- The settings of a process. -/
structure Settings where
  stagingRoot : String
  packageDirectory : String
  maxConcurrentJobs : Option Int := none
  apiHost : String := "127.0.0.1"
  apiPort : Int := 8000
  logLevel : String := "INFO"
  deriving DecidableEq

namespace Settings

/-- What the names of all variables start with, in lower case. -/
def variableStart : String := "dbscaffold_"

/-- A path in its shortest form. -/
def pathCodec : Codec String := ⟨fun _ v => (readText v).map Path.normalText, .text⟩

/-- The fields of the settings. Without a setting, files are kept below `defaultRoot`. -/
def shape (defaultRoot : String) : RecordShape Settings where
  title := "PipelineSettings"
  initial :=
    { stagingRoot := defaultRoot ++ "/staging", packageDirectory := defaultRoot ++ "/packages" }
  camel := false
  unknownKeys := .ignored
  fields := [
    .of "staging_root" pathCodec (·.stagingRoot) fun v s => { s with stagingRoot := v },
    .of "package_dir" pathCodec (·.packageDirectory) fun v s => { s with packageDirectory := v },
    .of "max_concurrent_jobs" (.optional (.intFrom 1)) (·.maxConcurrentJobs)
      fun v s => { s with maxConcurrentJobs := v },
    .of "api_host" .text (·.apiHost) fun v s => { s with apiHost := v },
    .of "api_port" .int (·.apiPort) fun v s => { s with apiPort := v },
    .of "log_level" .text (·.logLevel) fun v s => { s with logLevel := v }]

/-- The field that a variable sets, by its name. -/
def fieldOfVariable? (name : String) : Option String :=
  let name := Text.lowerCase name
  if name.startsWith variableStart then some (name.drop variableStart.length).toString else none

/-- The values that variables give to fields; of several for one field the last counts. -/
def membersOf (environment : List (String × String)) : List (Scalar × Value) :=
  collectMembers (environment.filterMap fun (name, value) =>
    (fieldOfVariable? name).map fun f => (.text f, .text value))

/-- The settings under environment variables. -/
def ofEnvironment (defaultRoot : String) (environment : List (String × String)) :
    Reading Settings :=
  (shape defaultRoot).read .document (.object (membersOf environment))

/-- How many jobs may run at once. -/
def limit (s : Settings) : Option Nat := s.maxConcurrentJobs.map Int.toNat

end Settings

end EntityScaffold
