import EntityScaffold.CommandLine.Run
import EntityScaffold.Proofs.Findings
import EntityScaffold.Proofs.Package.Compiling

/-!
# Exit codes

The documentation gives each way in which a run can go a code of its own. The run itself goes
through its stages one after the other, and what it does not expect ends it: there is no code then.

* `documentedCode`: the code that the documentation gives a run, by what is true of its arguments,
  its request and its package.
* `Departure`: the runs that do not end with it, by cause, and how they end.

Results:
* `ends_or_departs`: a run ends with its documented code, or it is one of these.
* `Departure.ending_eq`, `Departure.number_ne`: these do end so, and never with the documented code.
* `ends_as_documented_iff`: so the list of causes is complete, and has none too many.

Complete it is for request files without escapes for lone surrogates and without tags for binaries,
sets, pairs or ordered maps. What these do to a run is beyond the readers of `Data`.
-/

namespace EntityScaffold.CommandLine

/-! ## What is documented -/

/-- The words ask for help, for the version or for the web service. -/
def asksElsewhere (words : List String) : Bool :=
  match Arguments.ofWords words with
  | .error .help => true
  | .error .version => true
  | .error (.error _) => false
  | .ok a => a.serve

/-- Arguments name a request file and, where files are generated, say what to do with them. -/
def Arguments.complete (w : Surroundings) (a : Arguments) : Bool :=
  a.schema.isSome &&
    (a.validateOnly || ((a.output.isSome || a.dryRun) && (destinationOf w a).toOption.isSome))

/-- The request that arguments name, if its file is there and can be read as one. -/
def requestOf? (w : Surroundings) (a : Arguments) : Option Request :=
  a.schema.bind fun text =>
    (w.resolve text).toOption.bind fun file => (loadRequest w file).toOption

/-- Where a run is to put a package, unless it only diagnoses or lists. -/
def packagePath? (w : Surroundings) (a : Arguments) : Option Path :=
  if a.validateOnly || a.dryRun then none else (destinationOf w a).toOption.join

/-- The code for files that go into a package, if they go into one. -/
def packagingCode (w : Surroundings) (r : Request) : Option Path → ExitCode
  | none => .success
  | some p =>
    match (r.compileToPackage w.tree p).2 with
    | .ok _ => .success
    | .error (.file _) => .packaging
    | .error _ => .generation

/-- The code of a run with a request. -/
def requestCode (w : Surroundings) (a : Arguments) (r : Request) : ExitCode :=
  if !a.complete w || (!a.validateOnly && r.validTables.isEmpty) then .input
  else if r.diagnose.hasErrors && (a.validateOnly || a.strict) then .diagnostics
  else if a.validateOnly then .success
  else if r.compile.failure.isSome then .generation
  else packagingCode w r (packagePath? w a)

/-- **The documented code of a run**: that of an input error for arguments that cannot be used and
for files that hold no request; otherwise that of diagnostics, if these have errors and count;
otherwise that of a generation or of a package that failed; otherwise that of success. -/
def documentedCode (w : Surroundings) (words : List String) : ExitCode :=
  match Arguments.ofWords words with
  | .error _ => .input
  | .ok a => ((requestOf? w a).map (requestCode w a)).getD .input

/-! ## Departures -/

/-- A run finds the file that its arguments name. -/
structure Opens (w : Surroundings) (words : List String) (a : Arguments) (file : Path) : Prop where
  read : Arguments.ofWords words = .ok a
  named : ∃ text, a.schema = some text ∧ w.resolve text = .ok file
  present : ∃ body, w.tree.present? file = .ok (some (.file body))

/-- A run comes to read its request file. -/
structure Loads (w : Surroundings) (words : List String) (a : Arguments) (file : Path) : Prop
    extends Opens w words a file where
  complete : a.complete w = true

/-- A run comes to the files of a request with tables. -/
structure Generates (w : Surroundings) (words : List String) (a : Arguments) (r : Request) :
    Prop where
  loads : ∃ file, Loads w words a file ∧ loadRequest w file = .ok r
  generating : a.validateOnly = false
  tables : r.validTables ≠ []

/-- A run comes to generate the files of its request, all of which can be written. -/
structure Compiles (w : Surroundings) (words : List String) (a : Arguments) (r : Request) : Prop
    extends Generates w words a r where
  findings : r.hasUnwritableFindings = false
  files : r.hasUnwritableFiles = false

/-- **A run that does not end with its documented code**, and how it ends. Request files are taken
as the readers of this library take them: an escape for a surrogate alone is the replacement
character, and tags for binaries, sets, pairs and ordered maps are refused. -/
inductive Departure (w : Surroundings) (words : List String) : Ending → Prop
  /-- Words that cannot be read end a run with a code of their own. -/
  | words {e : ArgumentError} (read : Arguments.ofWords words = .error (.error e)) :
    Departure w words (.exit .usage)
  /-- A path of a request file holds a null character. -/
  | schemaPath {a : Arguments} {text : String} (read : Arguments.ofWords words = .ok a)
    (schema : a.schema = some text) (null : w.resolve text = .error .nullByte) :
    Departure w words (.breakdown (.file .nullByte))
  /-- A path of a request file is too long to ask for. -/
  | schemaFile {a : Arguments} {text : String} {file : Path}
    (read : Arguments.ofWords words = .ok a) (schema : a.schema = some text)
    (resolved : w.resolve text = .ok file) (long : w.tree.present? file = .error .nameTooLong) :
    Departure w words (.breakdown (.file .nameTooLong))
  /-- A path of a package holds a null character. -/
  | output {a : Arguments} {file : Path} (opens : Opens w words a file)
    (generating : a.validateOnly = false) (null : destinationOf w a = .error .nullByte) :
    Departure w words (.breakdown (.file .nullByte))
  /-- A document has a fault that is not reported as one: it is no text, or holds an impossible
  value, or a number out of range, or is nested too deeply. -/
  | document {a : Arguments} {file : Path} {e : RequestError} {b : Breakdown}
    (loads : Loads w words a file) (load : loadRequest w file = .error e)
    (fault : e.breakdown? = some b) : Departure w words (.breakdown b)
  /-- A length that contradicts another has too many digits to be shown. -/
  | findings {a : Arguments} {file : Path} {r : Request} (loads : Loads w words a file)
    (load : loadRequest w file = .ok r) (diagnosing : a.validateOnly = true)
    (unwritable : r.hasUnwritableFindings = true) : Departure w words (.breakdown .unwritableLength)
  /-- A length of a table that is generated has too many digits to be written. -/
  | lengths {a : Arguments} {r : Request} (generates : Generates w words a r)
    (unwritable : (r.hasUnwritableFindings || r.hasUnwritableFiles) = true) :
    Departure w words (.breakdown .unwritableLength)
  /-- Files are only listed, and a strict run does not look at the diagnostics. -/
  | listing {a : Arguments} {r : Request} (compiles : Compiles w words a r)
    (unpackaged : packagePath? w a = none) (strict : a.strict = true)
    (errors : r.diagnose.hasErrors = true) : Departure w words (.exit .success)
  /-- The path of a generated file is refused. -/
  | refusal {a : Arguments} {r : Request} {p : Path} {path : String}
    (compiles : Compiles w words a r) (packaged : packagePath? w a = some p)
    (lenient : (a.strict && r.diagnose.hasErrors) = false)
    (refused : (r.compileToPackage w.tree p).2 = .error (.unsafePath path)) :
    Departure w words (.breakdown (.package (.unsafePath path)))
  /-- The path of a generated file is too long for an archive. -/
  | longEntry {a : Arguments} {r : Request} {p : Path}
    (compiles : Compiles w words a r) (packaged : packagePath? w a = some p)
    (lenient : (a.strict && r.diagnose.hasErrors) = false)
    (long : (r.compileToPackage w.tree p).2 = .error (.file .longEntry)) :
    Departure w words (.breakdown (.package (.file .longEntry)))

variable {w : Surroundings} {words : List String} {a : Arguments} {file : Path} {r : Request}
  {e : Ending}

/-! ## Paths -/

theorem eq_nullByte_of_resolve {text : String} {cause : FileError}
    (h : w.resolve text = .error cause) : cause = .nullByte := by
  unfold Surroundings.resolve at h
  simp only at h
  split_ifs at h
  cases h
  rfl

theorem hasNull_of_resolve {text : String} {p : Path} (h : w.resolve text = .ok p) :
    FileTree.hasNull p = false := by
  unfold Surroundings.resolve at h
  simp only at h
  split_ifs at h with hnull
  cases h
  exact FileTree.hasNull_collapsed (by simpa using hnull)

theorem eq_nullByte_of_destinationOf {cause : FileError} (h : destinationOf w a = .error cause) :
    cause = .nullByte := by
  unfold destinationOf at h
  split at h
  · cases h
  · cases h
  · rename_i text _ _
    cases hresolve : w.resolve text with
    | error cause' =>
      rw [hresolve] at h
      cases h
      exact eq_nullByte_of_resolve hresolve
    | ok p =>
      rw [hresolve] at h
      cases h

/-- A package has a path that leads somewhere. -/
theorem hasNull_of_packagePath? {p : Path} (h : packagePath? w a = some p) :
    FileTree.hasNull p = false := by
  unfold packagePath? at h
  split_ifs at h
  unfold destinationOf at h
  split at h
  · cases h
  · cases h
  · rename_i text _ _
    cases hresolve : w.resolve text with
    | error cause =>
      rw [hresolve] at h
      cases h
    | ok p' =>
      rw [hresolve] at h
      cases h
      exact hasNull_of_resolve hresolve

/-! ## How runs end -/

@[simp] theorem ending_noting (before : List Notice) (o : Outcome) :
    (o.noting before).ending = o.ending := rfl

@[simp] theorem ending_announced (o : Outcome) : (announced o).ending = o.ending := by
  unfold announced
  split <;> rfl

/-- A run without arguments to act on ends while it reads them. -/
theorem ending_run_of_error {cause : ArgumentError}
    (read : Arguments.ofWords words = .error (.error cause)) :
    (run w words).ending = .exit .usage := by
  unfold run
  rw [read]
  rfl

/-- Otherwise it acts on them. -/
theorem ending_run (read : Arguments.ofWords words = .ok a) (hserve : a.serve = false) :
    (run w words).ending =
      match a.schema with
      | none => .exit .input
      | some text => (workOn w a text).ending := by
  unfold run perform
  rw [read]
  simp only [hserve, Bool.false_eq_true, if_false]
  cases a.schema <;> rfl

/-- Where the file is there, the arguments decide. -/
theorem Opens.ending_eq (opens : Opens w words a file) (hserve : a.serve = false) :
    (run w words).ending =
      if a.validateOnly then (diagnose w file).ending
      else if !(a.output.isSome || a.dryRun) then .exit .input
      else
        match destinationOf w a with
        | .error cause => .breakdown (.file cause)
        | .ok destination => (generateFrom w a file destination).ending := by
  obtain ⟨text, hschema, hresolve⟩ := opens.named
  obtain ⟨body, hpresent⟩ := opens.present
  have hmissing : (a.output.isNone && !a.dryRun) = !(a.output.isSome || a.dryRun) := by
    cases a.output <;> cases a.dryRun <;> rfl
  rw [ending_run opens.read hserve, hschema]
  unfold workOn
  simp only [hresolve, hpresent, hmissing]
  split_ifs
  · rfl
  · rfl
  · cases destinationOf w a <;> rfl

/-- A run that cannot read its request ends without it. -/
theorem ending_outcome (cause : RequestError) :
    (cause.outcome w).ending =
      match cause.breakdown? with
      | some b => .breakdown b
      | none => .exit .input := by
  unfold RequestError.outcome
  cases cause.breakdown? <;> rfl

theorem ending_diagnose (load : loadRequest w file = .ok r) :
    (diagnose w file).ending =
      if r.hasUnwritableFindings then .breakdown .unwritableLength
      else .exit (if r.diagnose.passes then .success else .diagnostics) := by
  unfold diagnose
  rw [load]
  simp only
  cases hfindings : r.hasUnwritableFindings with
  | true =>
    rw [Request.validate?_of_unwritable hfindings]
    rfl
  | false =>
    rw [Request.validate?_of_writable hfindings]
    rfl

theorem Loads.output (loads : Loads w words a file) (generating : a.validateOnly = false) :
    (a.output.isSome || a.dryRun) = true ∧ ∃ destination, destinationOf w a = .ok destination := by
  have hcomplete := loads.complete
  unfold Arguments.complete at hcomplete
  simp only [generating, Bool.false_or, Bool.and_eq_true] at hcomplete
  refine ⟨hcomplete.2.1, ?_⟩
  cases hdestination : destinationOf w a with
  | error cause =>
    rw [hdestination] at hcomplete
    cases hcomplete.2.2
  | ok destination => exact ⟨destination, rfl⟩

/-- A run that comes to read its request file diagnoses it or generates from it. -/
theorem Loads.ending_eq (loads : Loads w words a file) (hserve : a.serve = false) :
    (run w words).ending =
      if a.validateOnly then (diagnose w file).ending
      else (generateFrom w a file (destinationOf w a).toOption.join).ending := by
  rw [loads.toOpens.ending_eq hserve]
  cases hgenerating : a.validateOnly with
  | true => rfl
  | false =>
    obtain ⟨houtput, destination, hdestination⟩ := loads.output hgenerating
    rw [houtput, hdestination]
    rfl

theorem Loads.ending_of_load_error (loads : Loads w words a file) (hserve : a.serve = false)
    {cause : RequestError} (load : loadRequest w file = .error cause) :
    (run w words).ending =
      match cause.breakdown? with
      | some b => .breakdown b
      | none => .exit .input := by
  rw [loads.ending_eq hserve, ← ending_outcome (w := w)]
  split_ifs
  · unfold diagnose
    rw [load]
  · unfold generateFrom
    rw [ending_announced, load]

/-- A run that comes to the files of a request generates them. -/
theorem Generates.ending_eq (generates : Generates w words a r) (hserve : a.serve = false) :
    (run w words).ending = (generate w a (destinationOf w a).toOption.join r).ending := by
  obtain ⟨file, loads, load⟩ := generates.loads
  rw [loads.ending_eq hserve, generates.generating]
  unfold generateFrom
  rw [if_neg Bool.false_ne_true, ending_announced, load]

theorem ending_writePackage (tables : r.validTables ≠ []) (p : Path) :
    (writePackage w r p).ending =
      match (r.compileToPackage w.tree p).2 with
      | .ok _ => .exit .success
      | .error cause =>
        if cause.isSystem then .exit .packaging else .breakdown (.package cause) := by
  unfold writePackage
  rcases hpackage : r.compileToPackage w.tree p with ⟨t, cause | c⟩
  · simp only
    split_ifs <;> rfl
  · obtain ⟨hsuccess, -⟩ := Request.compileToPackage_eq_ok tables hpackage
    simp [Ending.ofReport, hsuccess]

/-- A length that cannot be written ends the run. -/
theorem Generates.ending_of_unwritable (generates : Generates w words a r)
    (hserve : a.serve = false) (h : (r.hasUnwritableFindings || r.hasUnwritableFiles) = true) :
    (run w words).ending = .breakdown .unwritableLength := by
  have htables : r.validTables.isEmpty = false := by simpa using generates.tables
  rw [generates.ending_eq hserve]
  unfold generate
  rw [htables]
  cases hfindings : r.hasUnwritableFindings with
  | true =>
    rw [Request.validate?_of_unwritable hfindings]
    rfl
  | false =>
    rw [hfindings, Bool.false_or] at h
    rw [Request.validate?_of_writable hfindings, h]
    rfl

/-- A run that comes to generate files lists them or packages them. -/
theorem Compiles.ending_eq (compiles : Compiles w words a r) (hserve : a.serve = false) :
    (run w words).ending =
      match packagePath? w a with
      | none => .exit .success
      | some p =>
        if a.strict && r.diagnose.hasErrors then .exit .diagnostics
        else (writePackage w r p).ending := by
  have htables : r.validTables.isEmpty = false := by simpa using compiles.tables
  have hpath : (if a.dryRun then none else (destinationOf w a).toOption.join) =
      packagePath? w a := by
    unfold packagePath?
    rw [compiles.generating, Bool.false_or]
  rw [compiles.toGenerates.ending_eq hserve]
  unfold generate
  rw [htables, Request.validate?_of_writable compiles.findings, compiles.files, hpath]
  simp only [Bool.false_eq_true, if_false]
  cases packagePath? w a with
  | none =>
    have hsuccess := Request.success_compile_iff.mpr compiles.tables
    simp [listFiles, Ending.ofReport, hsuccess]
  | some p =>
    have herrors : r.compile.hasErrors = r.diagnose.hasErrors := rfl
    simp only [herrors]
    split_ifs <;> rfl

/-! ## The documented codes of runs -/

theorem documentedCode_of_read (read : Arguments.ofWords words = .ok a) :
    documentedCode w words = ((requestOf? w a).map (requestCode w a)).getD .input := by
  unfold documentedCode
  rw [read]

theorem Opens.requestOf?_eq (opens : Opens w words a file) :
    requestOf? w a = (loadRequest w file).toOption := by
  obtain ⟨text, hschema, hresolve⟩ := opens.named
  unfold requestOf?
  rw [hschema, Option.bind_some, hresolve]
  rfl

theorem documentedCode_of_no_request (read : Arguments.ofWords words = .ok a)
    (h : requestOf? w a = none) : documentedCode w words = .input := by
  rw [documentedCode_of_read read, h]
  rfl

theorem documentedCode_of_not_complete (read : Arguments.ofWords words = .ok a)
    (h : a.complete w = false) : documentedCode w words = .input := by
  rw [documentedCode_of_read read]
  cases requestOf? w a with
  | none => rfl
  | some r => simp [requestCode, h]

theorem Opens.documentedCode_of_load_error (opens : Opens w words a file) {cause : RequestError}
    (load : loadRequest w file = .error cause) : documentedCode w words = .input := by
  refine documentedCode_of_no_request opens.read ?_
  rw [opens.requestOf?_eq, load]
  rfl

theorem Loads.documentedCode_eq (loads : Loads w words a file) (load : loadRequest w file = .ok r) :
    documentedCode w words =
      if !a.validateOnly && r.validTables.isEmpty then .input
      else if r.diagnose.hasErrors && (a.validateOnly || a.strict) then .diagnostics
      else if a.validateOnly then .success
      else packagingCode w r (packagePath? w a) := by
  have hfailure : r.compile.failure.isSome = false := rfl
  rw [documentedCode_of_read loads.read, loads.toOpens.requestOf?_eq, load]
  show requestCode w a r = _
  unfold requestCode
  rw [loads.complete, hfailure]
  rfl

theorem Generates.documentedCode_eq (generates : Generates w words a r) :
    documentedCode w words =
      if r.diagnose.hasErrors && a.strict then .diagnostics
      else packagingCode w r (packagePath? w a) := by
  obtain ⟨file, loads, load⟩ := generates.loads
  have htables : r.validTables.isEmpty = false := by simpa using generates.tables
  rw [loads.documentedCode_eq load, generates.generating, htables]
  rfl

/-! ## Causes -/

/-- **A run that comes to generate files** ends with its documented code or departs from it. -/
theorem Compiles.ends_or_departs (compiles : Compiles w words a r) (hserve : a.serve = false) :
    (run w words).ending = .exit (documentedCode w words) ∨
      Departure w words (run w words).ending := by
  have hending := compiles.ending_eq hserve
  have hcode := compiles.toGenerates.documentedCode_eq
  cases hpath : packagePath? w a with
  | none =>
    rw [hpath] at hending hcode
    rw [hending, hcode]
    cases hcounts : r.diagnose.hasErrors && a.strict with
    | false => exact .inl rfl
    | true =>
      rw [Bool.and_eq_true] at hcounts
      exact .inr (.listing compiles hpath hcounts.2 hcounts.1)
  | some p =>
    rw [hpath] at hending hcode
    rw [hending, hcode, Bool.and_comm r.diagnose.hasErrors]
    cases hlenient : a.strict && r.diagnose.hasErrors with
    | true => exact .inl rfl
    | false =>
      simp only [Bool.false_eq_true, if_false]
      rw [ending_writePackage compiles.tables]
      unfold packagingCode
      simp only
      cases hpackage : (r.compileToPackage w.tree p).2 with
      | ok c => exact .inl rfl
      | error cause =>
        rcases Request.error_of_compileToPackage (hasNull_of_packagePath? hpath) hpackage with
          hsystem | ⟨path, -, rfl⟩ | rfl
        · -- what the system reports is a failure of a file
          obtain ⟨e, rfl⟩ : ∃ e, cause = .file e := by
            cases cause with
            | file e => exact ⟨e, rfl⟩
            | unsafePath path => cases hsystem
            | noStagingDirectory path => cases hsystem
            | generator message => cases hsystem
          simp [hsystem]
        · exact .inr (.refusal compiles hpath hlenient hpackage)
        · exact .inr (.longEntry compiles hpath hlenient hpackage)

/-- A run that comes to read its request ends with its documented code or departs from it. -/
theorem Loads.ends_or_departs (loads : Loads w words a file) (hserve : a.serve = false) :
    (run w words).ending = .exit (documentedCode w words) ∨
      Departure w words (run w words).ending := by
  cases load : loadRequest w file with
  | error cause =>
    have hending := loads.ending_of_load_error hserve load
    rw [hending, loads.toOpens.documentedCode_of_load_error load]
    cases hfault : cause.breakdown? with
    | none => exact .inl rfl
    | some b => exact .inr (.document loads load hfault)
  | ok r =>
    have hcode := loads.documentedCode_eq load
    have hending := loads.ending_eq hserve
    cases hmode : a.validateOnly with
    | true =>
      rw [hmode] at hcode hending
      rw [hending, if_pos rfl, ending_diagnose load, hcode]
      cases hunwritable : r.hasUnwritableFindings with
      | true => exact .inr (.findings loads load hmode hunwritable)
      | false =>
        left
        cases herrors : r.diagnose.hasErrors <;> simp [DiagnosticReport.passes, herrors]
    | false =>
      rw [hmode] at hcode hending
      by_cases htables : r.validTables = []
      · left
        rw [hending, hcode, htables]
        unfold generateFrom generate
        simp [load, htables, Surroundings.exit]
      · have generates : Generates w words a r := ⟨⟨file, loads, load⟩, hmode, htables⟩
        cases hunwritable : r.hasUnwritableFindings || r.hasUnwritableFiles with
        | false =>
          rw [Bool.or_eq_false_iff] at hunwritable
          exact Compiles.ends_or_departs ⟨generates, hunwritable.1, hunwritable.2⟩ hserve
        | true =>
          rw [generates.ending_of_unwritable hserve hunwritable]
          exact .inr (.lengths generates hunwritable)

/-- A run that finds the file of its request ends with its documented code or departs from it. -/
theorem Opens.ends_or_departs (opens : Opens w words a file) (hserve : a.serve = false) :
    (run w words).ending = .exit (documentedCode w words) ∨
      Departure w words (run w words).ending := by
  have hschema : a.schema.isSome = true := by
    obtain ⟨text, hschema, -⟩ := opens.named
    rw [hschema]
    rfl
  cases hcomplete : a.complete w with
  | true => exact Loads.ends_or_departs ⟨opens, hcomplete⟩ hserve
  | false =>
    rw [opens.ending_eq hserve, documentedCode_of_not_complete opens.read hcomplete]
    unfold Arguments.complete at hcomplete
    rw [hschema, Bool.true_and, Bool.or_eq_false_iff] at hcomplete
    obtain ⟨hgenerating, houtput⟩ := hcomplete
    rw [hgenerating, if_neg Bool.false_ne_true]
    cases hnamed : a.output.isSome || a.dryRun with
    | false => exact .inl rfl
    | true =>
      cases hdestination : destinationOf w a with
      | error cause =>
        obtain rfl := eq_nullByte_of_destinationOf hdestination
        exact .inr (.output opens hgenerating hdestination)
      | ok destination =>
        rw [hnamed, hdestination] at houtput
        cases houtput

theorem serve_of_asksElsewhere (h : asksElsewhere words = false)
    (read : Arguments.ofWords words = .ok a) : a.serve = false := by
  unfold asksElsewhere at h
  rwa [read] at h

section Absent

variable {text : String} {found : Option (Node FileBody)}

/-- There is no request where there is no file. -/
theorem requestOf?_of_absent (schema : a.schema = some text) (resolved : w.resolve text = .ok file)
    (present : w.tree.present? file = .ok found) (absent : ∀ body, found ≠ some (.file body)) :
    requestOf? w a = none := by
  have hload : (loadRequest w file).toOption = none := by
    unfold loadRequest Document.load
    split
    · rfl
    · rename_i v hload
      split at hload
      · cases hload
      · cases hload
      · cases hload
      · rename_i body hbody
        rw [present] at hbody
        exact absurd (Except.ok.inj hbody) (absent body)
  unfold requestOf?
  rw [schema, Option.bind_some, resolved]
  exact hload

/-- And the run says so, whether a directory is there or nothing. -/
theorem ending_of_absent (resolved : w.resolve text = .ok file)
    (present : w.tree.present? file = .ok found) (absent : ∀ body, found ≠ some (.file body)) :
    (workOn w a text).ending = .exit .input := by
  unfold workOn
  simp only [resolved, present]
  rfl

end Absent

/-- **A run ends with its documented code or departs from it.** -/
theorem ends_or_departs (h : asksElsewhere words = false) :
    (run w words).ending = .exit (documentedCode w words) ∨
      Departure w words (run w words).ending := by
  cases read : Arguments.ofWords words with
  | error stop =>
    cases stop with
    | help => simp [asksElsewhere, read] at h
    | version => simp [asksElsewhere, read] at h
    | error cause =>
      rw [ending_run_of_error read]
      exact .inr (.words read)
  | ok a =>
    have hserve := serve_of_asksElsewhere h read
    have hending := ending_run (w := w) read hserve
    cases schema : a.schema with
    | none =>
      rw [schema] at hending
      refine .inl (hending.trans ?_)
      rw [documentedCode_of_no_request read (by rw [requestOf?, schema, Option.bind_none])]
    | some text =>
      rw [schema] at hending
      cases resolved : w.resolve text with
      | error cause =>
        obtain rfl := eq_nullByte_of_resolve resolved
        rw [hending]
        simp only [workOn, resolved]
        exact .inr (.schemaPath read schema resolved)
      | ok file =>
        cases present : w.tree.present? file with
        | error cause =>
          obtain rfl := FileTree.eq_nameTooLong_of_present? present
          rw [hending]
          unfold workOn
          simp only [resolved, present]
          exact .inr (.schemaFile read schema resolved present)
        | ok found =>
          by_cases hfile : ∃ body, found = some (.file body)
          · obtain ⟨body, rfl⟩ := hfile
            exact Opens.ends_or_departs ⟨read, ⟨text, schema, resolved⟩, body, present⟩ hserve
          · -- a directory or nothing: the loader would find no file either
            have absent : ∀ body, found ≠ some (.file body) := fun body hbody =>
              hfile ⟨body, hbody⟩
            have hnone := requestOf?_of_absent schema resolved present absent
            rw [documentedCode_of_no_request read hnone]
            exact .inl (hending.trans (ending_of_absent resolved present absent))

/-- **Every cause ends its run as it says.** -/
theorem Departure.ending_eq (h : asksElsewhere words = false) (d : Departure w words e) :
    (run w words).ending = e := by
  cases d with
  | words read => exact ending_run_of_error read
  | schemaPath read schema null =>
    rw [ending_run read (serve_of_asksElsewhere h read), schema]
    simp only [workOn, null]
    rfl
  | schemaFile read schema resolved long =>
    rw [ending_run read (serve_of_asksElsewhere h read), schema]
    simp only [workOn, resolved, long]
    rfl
  | @output a file opens generating null =>
    -- only an output that was given can hold the character
    have hnamed : (a.output.isSome || a.dryRun) = true := by
      unfold destinationOf at null
      split at null
      · cases null
      · cases null
      · rename_i text _ houtput
        rw [houtput]
        rfl
    rw [opens.ending_eq (serve_of_asksElsewhere h opens.read), generating, hnamed, null]
    rfl
  | document loads load fault =>
    rw [loads.ending_of_load_error (serve_of_asksElsewhere h loads.read) load, fault]
  | findings loads load diagnosing unwritable =>
    rw [loads.ending_eq (serve_of_asksElsewhere h loads.read), diagnosing, if_pos rfl,
      ending_diagnose load, unwritable, if_pos rfl]
  | lengths generates unwritable =>
    obtain ⟨file, loads, -⟩ := generates.loads
    exact generates.ending_of_unwritable (serve_of_asksElsewhere h loads.read) unwritable
  | listing compiles unpackaged strict errors =>
    obtain ⟨file, loads, -⟩ := compiles.loads
    rw [compiles.ending_eq (serve_of_asksElsewhere h loads.read), unpackaged]
  | refusal compiles packaged lenient refused =>
    obtain ⟨file, loads, -⟩ := compiles.loads
    rw [compiles.ending_eq (serve_of_asksElsewhere h loads.read), packaged]
    simp only [lenient, Bool.false_eq_true, if_false]
    rw [ending_writePackage compiles.tables, refused]
    rfl
  | longEntry compiles packaged lenient long =>
    obtain ⟨file, loads, -⟩ := compiles.loads
    rw [compiles.ending_eq (serve_of_asksElsewhere h loads.read), packaged]
    simp only [lenient, Bool.false_eq_true, if_false]
    rw [ending_writePackage compiles.tables, long]
    rfl

/-- **No cause ends a run with the documented code**, or with another code of the same number. -/
theorem Departure.number_ne (d : Departure w words e) {c : ExitCode} (he : e = .exit c) :
    c.number ≠ (documentedCode w words).number := by
  cases d with
  | @words cause read =>
    have hcode : documentedCode w words = .input := by
      unfold documentedCode
      rw [read]
    cases he
    rw [hcode]
    decide
  | listing compiles unpackaged strict errors =>
    have hcode := compiles.toGenerates.documentedCode_eq
    rw [errors, strict, Bool.and_self, if_pos rfl] at hcode
    cases he
    rw [hcode]
    decide
  | schemaPath => cases he
  | schemaFile => cases he
  | output => cases he
  | document => cases he
  | findings => cases he
  | lengths => cases he
  | refusal => cases he
  | longEntry => cases he

/-- **Exit codes.** A run that is asked neither for help nor for the version or the web service ends
with its documented code exactly when none of the causes is there, whatever the words, the files and
their contents. A run with one of the causes ends as that says: it breaks down, or its code has
another number than the documented one. -/
theorem ends_as_documented_iff (w : Surroundings) {words : List String}
    (h : asksElsewhere words = false) :
    ((run w words).ending = .exit (documentedCode w words) ↔ ∀ e, ¬ Departure w words e) ∧
      ∀ e, Departure w words e → (run w words).ending = e ∧
        ∀ c, e = .exit c → c.number ≠ (documentedCode w words).number := by
  refine ⟨⟨fun hending e d => ?_, fun hnone => ?_⟩, fun e d =>
    ⟨d.ending_eq h, fun c he => d.number_ne he⟩⟩
  · exact d.number_ne ((d.ending_eq h).symm.trans hending) rfl
  · exact (ends_or_departs h).resolve_right (hnone _)

/-- A run without words ends as documented; one with a word that is no switch does not. -/
theorem ends_as_documented_iff_stray_word :
    let w : Surroundings := { directory := ["", "home"], tree := {}, defaultRoot := "/tmp" }
    (run w []).ending = .exit .input ∧ (∀ e, ¬ Departure w [] e) ∧
      (run w ["shop.yaml"]).ending = .exit .usage ∧ documentedCode w ["shop.yaml"] = .input := by
  intro w
  have hread : Arguments.ofWords ["shop.yaml"] = .error (.error (.unrecognized ["shop.yaml"])) := by
    decide +kernel
  have hnothing : asksElsewhere [] = false := by decide +kernel
  have hstray : asksElsewhere ["shop.yaml"] = false := by decide +kernel
  have hending : (run w []).ending = .exit (documentedCode w []) := rfl
  exact ⟨hending, (ends_as_documented_iff w hnothing).1.mp hending,
    ((ends_as_documented_iff w hstray).2 _ (.words hread)).1, by rw [documentedCode, hread]⟩

end EntityScaffold.CommandLine
