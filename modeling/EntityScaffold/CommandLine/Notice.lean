import EntityScaffold.CommandLine.Arguments
import EntityScaffold.Program

/-!
# Notices

What a run says beside its results goes to the error stream: lines of a log, and texts as they
are. A run reports down to a level, so that a log line of a finer level is not shown.

* `LogLevel.ofArguments`: the level that was asked for.
* `Notice.text`: a notice as a run of a level shows it.

Model of `_setup_logging` and of the log lines of a run.
-/

namespace EntityScaffold.CommandLine

/-- How much a run reports, from little to much. -/
inductive LogLevel where
  | error
  | warning
  | info
  | debug
  deriving DecidableEq

namespace LogLevel

def name : LogLevel → String
  | .error => "ERROR"
  | .warning => "WARNING"
  | .info => "INFO"
  | .debug => "DEBUG"

/-- A finer level has a higher rank. -/
def rank : LogLevel → Nat
  | .error => 0
  | .warning => 1
  | .info => 2
  | .debug => 3

/-- A run of the level `reported` shows lines of the level `l`. -/
def shows (reported l : LogLevel) : Bool := l.rank ≤ reported.rank

/-- The level that was asked for. To be quiet counts for more than to be verbose. -/
def ofArguments (a : Arguments) : LogLevel :=
  if a.quiet then .error
  else
    match a.verbose with
    | 0 => .warning
    | 1 => .info
    | _ => .debug

end LogLevel

/-- What goes to the error stream. -/
inductive Notice where
  /-- A line of the log. -/
  | log (level : LogLevel) (source : String) (message : String)
  /-- A text as it is. -/
  | plain (text : String)
  deriving DecidableEq

namespace Notice

/-- A line of the log at a time of day. -/
def logLine (time : String) (level : LogLevel) (source message : String) : String :=
  let name := level.name
  s!"{time} │ " ++ name ++ String.ofList (List.replicate (8 - name.length) ' ') ++
    s!" │ {source} │ {message}\n"

/-- A notice as a run of a level shows it. Texts that are no log lines are always shown. -/
def text (reported : LogLevel) (time : String) : Notice → String
  | .log level source message =>
    if reported.shows level then logLine time level source message else ""
  | .plain text => text

end Notice

end EntityScaffold.CommandLine
