import EntityScaffold.Code.Artifact
import EntityScaffold.Compile.Stopwatch
import EntityScaffold.Diagnostics.Check
import EntityScaffold.Package.Archive

/-!
# Compiling a request

A request is compiled in steps: its relationships are resolved, it is diagnosed, its files are
generated and, if wanted, packaged. Diagnostics never keep files from being generated. The
report holds the files in the order of generation and what is known of each step.

Model of `CompileStepMetric`, `CompileReport` and of `compile` and `compile_to_package` of
`ScaffoldGenerator`. These two give up on a length of more than 4300 digits, which only a request
file in YAML can hold. Here they are total, and meant for requests without such lengths:
`Request.hasUnwritableFindings` and `Request.hasUnwritableFiles` tell, and a run of the command line
asks them before it compiles.
-/

namespace EntityScaffold

/-- The files that a generator gives, up to the point where it may give up. -/
structure Generation where
  files : List (String × String)
  failure : Option String := none

/-- A source of generated files. -/
abbrev Generator := Request → Generation

/-- The generator of all files of a request whose lengths can all be written. -/
def Generator.standard : Generator := fun r => { files := r.artifacts }

/-- One step of a compilation. -/
structure CompileStep where
  name : String
  success : Bool := true
  /-- Microseconds. -/
  elapsed : Nat := 0
  detail : String

/-- What a compilation gives. -/
structure CompileReport where
  rootNamespace : String
  tablesCompiled : Nat
  steps : List CompileStep
  skippedTables : List String
  failure : Option String
  diagnostics : Option DiagnosticReport
  /-- Texts by path, in the order of generation. -/
  files : List (String × String)
  packagePath : Option Path := none
  manifest : Option Manifest := none

namespace CompileReport

/-- Files were generated for at least one table. -/
def success (c : CompileReport) : Bool := c.failure.isNone && 0 < c.tablesCompiled

def totalFiles (c : CompileReport) : Nat := c.files.length

def totalBytes (c : CompileReport) : Nat := totalOf (fun f => f.2.utf8ByteSize) c.files

def totalLines (c : CompileReport) : Nat := totalOf (fun f => Text.countLines f.2) c.files

/-- Microseconds over all steps. -/
def totalElapsed (c : CompileReport) : Nat := totalOf (·.elapsed) c.steps

/-- The diagnostics hold an error. -/
def hasErrors (c : CompileReport) : Bool :=
  (c.diagnostics.map DiagnosticReport.hasErrors).getD false

/-- A character repeated. -/
def rule (c : Char) (n : Nat) : String := String.ofList (List.replicate n c)

/-- A text with blanks after it up to a width. -/
def padRight (width : Nat) (s : String) : String := s ++ rule ' ' (width - s.length)

/-- A text with blanks before it up to a width. -/
def padLeft (width : Nat) (s : String) : String := rule ' ' (width - s.length) ++ s

/-- The line of a step. -/
def stepLine (s : CompileStep) : String :=
  let icon := if s.success then "✓" else "✗"
  s!"    {icon} " ++ padRight 28 s.name ++ " " ++ padLeft 7 (secondsText 3 s.elapsed) ++
    s!"s  {s.detail}"

/-- Lines after a thin rule, if there are any. -/
def afterRule (ls : List String) : List String := if ls.isEmpty then [] else rule '─' 60 :: ls

/-- Errors and then warnings, after a thin rule if there are diagnostics at all. -/
def diagnosticLines (c : CompileReport) : List String :=
  match c.diagnostics with
  | none => []
  | some [] => []
  | some d => rule '─' 60 :: (d.errors ++ d.warnings).map fun x =>
      s!"    {x.severity.mark} {x.message}"

/-- The tables that were left out. -/
def skippedLines (c : CompileReport) : List String :=
  if c.skippedTables.isEmpty then []
  else s!"  Skipped Tables ({c.skippedTables.length}):" ::
    c.skippedTables.map fun n => "    ⊘ " ++ if n.isEmpty then "<blank>" else n

/-- The report as text. -/
def summary (c : CompileReport) : String :=
  let status := if c.success then "SUCCESS" else "FAILED"
  "\n".intercalate <|
    [rule '=' 60, "  dbscaffold: Compile Report", rule '=' 60,
      s!"  Status:           {status}",
      s!"  Namespace:        {c.rootNamespace}",
      s!"  Tables compiled:  {c.tablesCompiled}",
      s!"  Files generated:  {c.totalFiles}",
      "  Total lines:      " ++ groupedText c.totalLines,
      "  Total bytes:      " ++ groupedText c.totalBytes,
      "  Total time:       " ++ secondsText 3 c.totalElapsed ++ "s"] ++
    (c.packagePath.map fun p => "  Package:          " ++ p.display).toList ++
    [rule '─' 60] ++
    (if c.steps.isEmpty then [] else "  Steps:" :: c.steps.map stepLine) ++
    c.diagnosticLines ++
    afterRule c.skippedLines ++
    afterRule (c.failure.map fun m => s!"    ✗ {m}").toList ++
    [rule '=' 60]

end CompileReport

namespace Request

/-- The step that resolves relationships. -/
def resolveStep (r : Request) : CompileStep :=
  { name := "Resolve Relationships"
    detail := s!"{r.relationships.linkCount} inverse link(s)" }

/-- The step that diagnoses a request. -/
def diagnosticsStep (d : DiagnosticReport) : CompileStep :=
  { name := "Diagnostics", success := d.passes, detail := d.summary }

/-- The step that generates files. -/
def generationStep (files : List (String × String)) (failure : Option String) : CompileStep :=
  { name := "Code Generation"
    success := failure.isNone
    detail := s!"{files.length} files, ~" ++
      groupedText (totalOf (fun f => Text.countLines f.2) files) ++ " lines" }

/-- Compiles a request whose lengths can all be written. A generator that gives up leaves no
files. -/
def compileWith (generate : Generator) (diagnostics : Bool) (r : Request) : CompileReport :=
  let generation := generate r
  let files := if generation.failure.isNone then collectMembers generation.files else []
  let report := if diagnostics then some r.diagnose else none
  { rootNamespace := r.rootNamespace
    tablesCompiled := r.validTables.length
    steps := [r.resolveStep] ++ (report.map diagnosticsStep).toList ++
      [generationStep files generation.failure]
    skippedTables := (r.tables.filter (!·.isValid)).map (·.name)
    failure := generation.failure
    diagnostics := report
    files := files }

/-- Compiles a request whose lengths can all be written, with its own files and its diagnostics. -/
def compile (r : Request) : CompileReport := r.compileWith .standard true

/-- Adds the package of a report that succeeded. -/
def packaged (c : CompileReport) (t : FileTree FileBody) (destination : Path) :
    FileTree FileBody × Except PackageError CompileReport :=
  if c.success then
    match Package.ofFiles t c.files destination with
    | (t', .error e) => (t', .error e)
    | (t', .ok m) => (t', .ok { c with
        packagePath := some destination
        manifest := some m
        steps := c.steps ++ [{ name := "Package", detail := s!"{m.totalFiles} entries" }] })
  else (t, .ok c)

/-- Compiles a request whose lengths can all be written into a package. -/
def compileToPackage (r : Request) (t : FileTree FileBody) (destination : Path) :
    FileTree FileBody × Except PackageError CompileReport :=
  packaged r.compile t destination

end Request

end EntityScaffold
