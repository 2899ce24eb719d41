import EntityScaffold.Compile.Report
import EntityScaffold.Proofs.Package.Archives

/-!
# When a compilation makes a package

A request with a valid table is compiled with success and its files are packaged; one without is
compiled too, and nothing is written.

Results:
* `Request.success_compile_iff`: which requests are compiled with success.
* `Request.compileToPackage_of_no_tables`, `compileToPackage_eq_ok`, `compileToPackage_eq_error`: a
  compilation packages just the files that it keeps.
* `Request.error_of_compileToPackage`: why it fails.
-/

namespace EntityScaffold.Request

variable {r : Request} {t t' : FileTree FileBody} {destination : Path}

/-- **Requests with valid tables are compiled with success.** -/
theorem success_compile_iff : r.compile.success = true ↔ r.validTables ≠ [] := by
  have hfailure : r.compile.failure = none := rfl
  have htables : r.compile.tablesCompiled = r.validTables.length := rfl
  unfold CompileReport.success
  rw [hfailure, htables, Option.isNone_none, Bool.true_and, decide_eq_true_eq, List.length_pos_iff]

/-- A request without valid tables is compiled, but not packaged. -/
theorem compileToPackage_of_no_tables (h : r.validTables = []) (t : FileTree FileBody)
    (destination : Path) : r.compileToPackage t destination = (t, .ok r.compile) := by
  have hfailed : ¬ r.compile.success = true := fun hsuccess => success_compile_iff.mp hsuccess h
  unfold compileToPackage packaged
  rw [if_neg hfailed]

/-- **A compilation that succeeds has packaged the files that it keeps.** -/
theorem compileToPackage_eq_ok {c : CompileReport} (tables : r.validTables ≠ [])
    (h : r.compileToPackage t destination = (t', .ok c)) :
    c.success = true ∧ ∃ m, c.manifest = some m ∧ c.files = r.compile.files ∧
      Package.ofFiles t r.compile.files destination = (t', .ok m) := by
  have hsuccess := success_compile_iff.mpr tables
  unfold compileToPackage packaged at h
  rw [if_pos hsuccess] at h
  split at h
  · cases h
  · rename_i m hfiles
    cases h
    exact ⟨hsuccess, m, rfl, rfl, hfiles⟩

/-- One that fails could not package them. -/
theorem compileToPackage_eq_error {e : PackageError}
    (h : r.compileToPackage t destination = (t', .error e)) :
    Package.ofFiles t r.compile.files destination = (t', .error e) := by
  unfold compileToPackage packaged at h
  split at h
  · split at h
    · rename_i hfiles
      cases h
      exact hfiles
    · cases h
  · cases h

/-- **Why a compilation makes no package.** -/
theorem error_of_compileToPackage {e : PackageError}
    (hdestination : FileTree.hasNull destination = false)
    (h : (r.compileToPackage t destination).2 = .error e) :
    e.isSystem = true ∨ (∃ path, Package.firstUnsafe? r.compile.files = some path ∧
      e = .unsafePath path) ∨ e = .file .longEntry :=
  Package.error_of_ofFiles hdestination
    (congrArg Prod.snd (compileToPackage_eq_error (Prod.ext rfl h)))

end EntityScaffold.Request
