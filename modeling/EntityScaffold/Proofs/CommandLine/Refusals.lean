import EntityScaffold.Proofs.CommandLine.Packaging
import EntityScaffold.Proofs.ErrorCounts

/-!
# Runs that errors decide

The errors of a report follow from the columns of a request, and two kinds of runs look at nothing
else of a report: one that only diagnoses, and a strict one that is to package. Before they look, a
length with too many digits ends them, for a report shows the lengths that contradict each other and
the files show them all.

* `ErrorsDecide`: what the errors of a request mean for the runs that come to it.

Results:
* `errors_decide_runs`: how many errors a report has, and what they decide.
-/

namespace EntityScaffold.CommandLine

variable {w : Surroundings} {words : List String} {a : Arguments} {file : Path} {r : Request}

theorem passes_diagnose_iff : r.diagnose.passes = true ↔ r.IsConsistent :=
  r.passes_reportUnder_iff r.relationships

theorem hasErrors_diagnose_iff : r.diagnose.hasErrors = true ↔ ¬ r.IsConsistent := by
  rw [← passes_diagnose_iff, DiagnosticReport.passes, Bool.not_eq_true', Bool.not_eq_false]

/-- A strict run keeps its package back when it is to package a request that is not consistent. -/
theorem Generates.ending_diagnostics_iff (generates : Generates w words a r)
    (hserve : a.serve = false) :
    (run w words).ending = .exit .diagnostics ↔
      hasUnwritableLengths r = false ∧ a.strict = true ∧ (packagePath? w a).isSome = true ∧
        ¬ r.IsConsistent := by
  cases hunwritable : hasUnwritableLengths r with
  | true =>
    rw [generates.ending_of_unwritable hserve hunwritable]
    exact ⟨nofun, nofun⟩
  | false =>
    have hwritable := Bool.or_eq_false_iff.mp hunwritable
    have compiles : Compiles w words a r := ⟨generates, hwritable.1, hwritable.2⟩
    rw [compiles.ending_eq hserve, ← hasErrors_diagnose_iff]
    cases packagePath? w a with
    | none => exact ⟨nofun, nofun⟩
    | some p =>
      have hpackage : (writePackage w r p).ending ≠ .exit .diagnostics := by
        rw [ending_writePackage generates.tables]
        split
        · exact nofun
        · split_ifs <;> exact nofun
      cases a.strict <;> cases r.diagnose.hasErrors <;> simp [hpackage]

/-- And then it leaves the files as they are. -/
theorem Generates.tree_eq (generates : Generates w words a r) (strict : a.strict = true)
    (inconsistent : ¬ r.IsConsistent) (hserve : a.serve = false) : (run w words).tree = w.tree := by
  obtain ⟨file, loads, load⟩ := generates.loads
  have hrequest : requestOf? w a = some r := by
    rw [loads.toOpens.requestOf?_eq, load]
    rfl
  have hwithholds : a.withholds r = true := by
    unfold Arguments.withholds
    rw [strict, hasErrors_diagnose_iff.mpr inconsistent, Bool.and_self, Bool.or_true]
  have hnone : packing? w words = none := by
    unfold packing? Arguments.packing?
    simp only [loads.read, hserve, hrequest]
    simp [hwithholds]
  rw [tree_run, hnone]
  rfl

/-- What the errors of a request mean for the runs that come to it. -/
structure ErrorsDecide (r : Request) : Prop where
  /-- A run that only diagnoses ends with success or not as the request is consistent or not. Only a
  report that cannot be written keeps it from that. -/
  diagnosing : ∀ {w words a file}, Loads w words a file → loadRequest w file = .ok r →
    a.serve = false → a.validateOnly = true →
      (run w words).ending =
        if r.hasUnwritableFindings then .breakdown .unwritableLength
        else .exit (if r.IsConsistent then .success else .diagnostics)
  /-- A report cannot be written exactly if reversed lengths have too many digits. -/
  unwritable : r.hasUnwritableFindings = true ↔ ∃ t ∈ r.validTables, ∃ p ∈ t.properties,
    p.lengthsReversed = true ∧ p.lengths.any isUnwritable = true
  /-- A run that generates is refused exactly if it is strict and is to package a request that is
  not consistent, whose lengths can all be written. -/
  refusing : ∀ {w words a}, Generates w words a r → a.serve = false →
    ((run w words).ending = .exit .diagnostics ↔
      hasUnwritableLengths r = false ∧ a.strict = true ∧ (packagePath? w a).isSome = true ∧
        ¬ r.IsConsistent)
  /-- No strict run changes a file for a request that is not consistent. -/
  keeping : ∀ {w words a}, Generates w words a r → a.strict = true → ¬ r.IsConsistent →
    a.serve = false → (run w words).tree = w.tree

/-- **The errors of a report are counted by the columns of the valid tables, and decide the runs
that diagnose and the strict ones that package.** -/
theorem errors_decide_runs (r : Request) (m : RelationshipMap) :
    r.ErrorsCounted m ∧ ErrorsDecide r where
  left := r.errorsCounted m
  right := {
    diagnosing := by
      intro w words a file loads load hserve hdiagnosing
      rw [loads.ending_eq hserve, if_pos hdiagnosing, ending_diagnose load]
      simp only [passes_diagnose_iff]
    unwritable := Request.hasUnwritableFindings_iff
    refusing := fun generates hserve => generates.ending_diagnostics_iff hserve
    keeping := fun generates strict inconsistent hserve =>
      generates.tree_eq strict inconsistent hserve }

/-- A request with a repeated member and reversed lengths has two errors, and a run that diagnoses
it ends without success. -/
theorem errors_decide_runs_two_errors :
    let text := "\x7b\"tables\": [\x7b\"name\": \"a\", " ++
      "\"properties\": [\x7b\"name\": \"id\"\x7d, " ++
      "\x7b\"name\": \"Id\", \"minLength\": 9, \"maxLength\": 1\x7d]\x7d]\x7d"
    let w : Surroundings := {
      directory := ["", "home"]
      tree := ⟨[(["", "home"], .directory), (["", "home", "shop.json"], .file (.ofText text))]⟩
      defaultRoot := "/tmp" }
    let words := ["-s", "shop.json", "--validate-only"]
    let r : Request := { tables := [{ name := "a", properties :=
      [{ name := "id" }, { name := "Id", minLength := some 9, maxLength := some 1 }] }] }
    (∃ d, r.validate? r.relationships = some d ∧ d.errors.length = 2) ∧
      (run w words).ending = .exit .diagnostics := by
  intro text w words r
  obtain ⟨hcounted, hdecide⟩ := errors_decide_runs r r.relationships
  have hread : Arguments.ofWords words =
      .ok { schema := some "shop.json", validateOnly := true } := by decide +kernel
  have hload : (loadRequest w ["", "home", "shop.json"]).toOption = some r := by decide +kernel
  have loads : Loads w words { schema := some "shop.json", validateOnly := true }
      ["", "home", "shop.json"] :=
    ⟨⟨hread, ⟨"shop.json", rfl, by decide +kernel⟩,
      present?_of_loadRequest (eq_ok_of_toOption hload)⟩, by decide +kernel⟩
  have hinconsistent : ¬ r.IsConsistent := by decide +kernel
  have hreport : r.validate? r.relationships = some r.diagnose := by
    refine (hcounted.written _).mpr ⟨rfl, ?_⟩
    rw [← Request.hasUnwritableFindings_iff]
    decide +kernel
  refine ⟨⟨r.diagnose, hreport, (hcounted.count _ hreport).trans (by decide +kernel)⟩, ?_⟩
  rw [hdecide.diagnosing loads (eq_ok_of_toOption hload) rfl rfl, if_neg hinconsistent]
  rfl

end EntityScaffold.CommandLine
