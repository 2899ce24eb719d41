import EntityScaffold.CommandLine.Run
import EntityScaffold.Package.ZipFile

/-!
# The program

Gathers what a run of the command line depends on, runs it, and brings what it left to the
console and the disk.

Model of `main`.
-/

namespace EntityScaffold.Console

/-- What stands at a place on the disk, if anything does. -/
def probe (p : Path) : IO (Option (Node FileBody)) := do
  try
    let place ← IO.FS.realPath p.display
    if ← place.isDir then return some .directory
    else return some (.file (.bytes (← IO.FS.readBinFile place)))
  catch _ => return none

/-- Adds what stands at a path and above it to a tree. -/
def gather (t : FileTree FileBody) (p : Path) : IO (FileTree FileBody) := do
  let mut t := t
  for n in List.range p.length do
    let place := p.take (n + 1)
    if let some node ← probe place then t := t.put place node
  return t

/-- The paths that the arguments name. -/
def pathsOf (w : CommandLine.Surroundings) (words : List String) : List Path :=
  match CommandLine.Arguments.ofWords words with
  | .error _ => []
  | .ok a => (a.schema.toList ++ a.output.toList).filterMap fun s =>
      match w.resolve s with
      | .ok p => some p
      | .error _ => none

/-- The environment variables that are set. -/
def settingVariables : IO (List (String × String)) := do
  let names := ["staging_root", "package_dir", "max_concurrent_jobs", "api_host", "api_port",
    "log_level"].map fun n => Text.upperCase (Settings.variableStart ++ n)
  let values ← names.mapM fun n => do return (n, ← IO.getEnv n)
  return values.filterMap fun v => v.2.map (v.1, ·)

/-- Brings what is new in a tree to the disk. -/
def store (before after : FileTree FileBody) : IO Unit := do
  for (p, node) in after.entries do
    match node with
    | .directory => if !before.isDirectory p then IO.FS.createDirAll p.display
    | .file (.bytes _) => pure ()
    | .file (.archive es) =>
      let built := (p.parent ++ [FileTree.temporaryName p.name "00000000"]).display
      IO.FS.writeBinFile built (Zip.encode es)
      IO.FS.rename built p.display

/-- The message of a breakdown. -/
def breakdownText : CommandLine.Breakdown → String
  | .file e => e.message
  | .document e => e.message
  | .package e => e.message
  | .unwritableLength => unwritableNumber
  | .settings fs => "\n".intercalate (fs.map fun f => s!"{f.location}: {f.problem.message}")

end EntityScaffold.Console

open EntityScaffold Console in
/-- Runs the command line on the console. -/
def main (words : List String) : IO UInt32 := do
  let directory := Path.ofText [""] (← IO.currentDir).toString
  let blank : CommandLine.Surroundings :=
    { directory, tree := {}, environment := ← settingVariables, defaultRoot := "/tmp/dbscaffold" }
  let tree ← (pathsOf blank words).foldlM gather {}
  let w := { blank with tree := (← gather tree directory) }
  let o := CommandLine.run w words
  store w.tree o.tree
  IO.print o.printed
  IO.eprint (o.errorText w.time)
  for s in o.listening do
    IO.eprintln s!"The service is configured for {s.host}:{s.port} at level {s.logLevel}."
  match o.ending with
  | .exit c => return c.number.toUInt32
  | .breakdown b =>
    IO.eprintln (breakdownText b)
    return 1
