import EntityScaffold.Package.Staging
import EntityScaffold.Proofs.FileTree.Listing
import EntityScaffold.Proofs.Package.Archives

/-!
# From staged files to a package

A staging area is filled file by file, and a path that is staged again takes the new text. What a
package of the area holds is fixed by the files in the order in which they were staged.

* `Staged`: the files below a place are those that were staged there.
* `Package.listed`, `Package.contents`: files and entries by path, each with its last text.

Results:
* `Staged.write`: one more file is staged.
* `Package.filesBelow_of_staged`, `entriesBelow_of_staged`: which files there are, and what a
  package of the area holds.
-/

namespace EntityScaffold

variable {t t' : FileTree FileBody} {place : Path} {files : List (String × String)}

/-- A file with the names that its path leads through. -/
def stagedFile (f : String × String) : List String × FileBody :=
  (Path.parts f.1, FileBody.ofText f.2)

/-- The files below a place are those that were staged there, each with its last text. -/
def Staged (t : FileTree FileBody) (place : Path) (files : List (String × String)) : Prop :=
  ∀ names, t.content? (place ++ names) = (collectMembers (files.map stagedFile)).lookup names

/-- What is recorded of a file. -/
def stagedRecord (f : String × String) : FileRecord := .of (Path.normalText f.1) f.2

/-- Paths that a staging area takes: they lead strictly below it, without null characters, and are
no longer than a path of the file system. -/
def PathsSafe (files : List (String × String)) : Prop :=
  ∀ f ∈ files, (Path.relativeParts? f.1).isSome = true ∧
    FileTree.hasNull (Path.parts f.1) = false ∧
    (Path.normalText f.1).utf8ByteSize ≤ FileTree.pathLimit

theorem staged_nil (h : ∀ q, place <+: q → t.content? q = none) : Staged t place [] :=
  fun names => h _ (List.prefix_append place names)

/-- Only contents matter. -/
theorem Staged.congr (h : Staged t place files)
    (hsame : ∀ q, place <+: q → t'.content? q = t.content? q) : Staged t' place files :=
  fun names => (hsame _ (List.prefix_append place names)).trans (h names)

/-- A staging area is a place. -/
structure StagingArea.IsPlace (a : StagingArea) : Prop where
  collapsed : a.path.collapsed = a.path
  ne_nil : a.path ≠ []

theorem StagingArea.IsPlace.collapsed_append {a : StagingArea} (h : a.IsPlace)
    {names : List String} (hnames : ".." ∉ names) :
    Path.collapsed (a.path ++ names) = a.path ++ names := by
  rw [Path.collapsed_append h.ne_nil hnames, h.collapsed]

theorem StagingArea.isPlace_of {root : Path} (hroot : root ≠ []) {job : String} {a : StagingArea}
    (h : StagingArea.of root job = .ok a) : a.IsPlace := by
  simp only [StagingArea.of] at h
  split_ifs at h
  cases h
  refine ⟨Path.collapsed_collapsed _, Path.collapsed_ne_nil ?_⟩
  unfold Path.ofText
  split_ifs
  · exact List.cons_ne_nil _ _
  · simp [hroot]

/-- What a successful write of a staging area is. -/
theorem StagingArea.written_of_write {a : StagingArea} {path text : String} {r}
    (h : a.write t path text = (t', .ok r)) (ha : a.path ≠ []) :
    ∃ names, Path.relativeParts? path = some names ∧
      FileTree.Written t t' (a.path ++ names) (.ofText text) ∧
      r.1.path = a.path ∧ r.1.records = a.records ++ [stagedRecord (path, text)] := by
  unfold write at h
  cases hnames : Path.relativeParts? path with
  | none => simp [hnames] at h
  | some names =>
    simp only [hnames] at h
    split at h
    · cases h
    · rename_i t₁ hwrite
      cases h
      refine ⟨names, rfl, FileTree.written_of_writeAtomically (by simp [ha]) hwrite, rfl, ?_⟩
      rw [stagedRecord, Path.normalText_of_relativeParts? hnames]

/-- The path of a file that is staged is safe. -/
theorem PathsSafe.concat (h : PathsSafe files) {path text : String} {names : List String}
    {c : FileBody} (hnames : Path.relativeParts? path = some names)
    (hwritten : FileTree.Written t t' (place ++ names) c) :
    PathsSafe (files ++ [(path, text)]) := by
  intro f hf
  rcases List.mem_append.mp hf with hf | hf
  · exact h f hf
  · obtain rfl := List.mem_singleton.mp hf
    have hwalk := (FileTree.find_eq_ok_iff.mp hwritten.find).1
    have hnull := FileTree.hasNull_of_walk hwalk
    have hsize := Nat.le_trans (Path.utf8ByteSize_intercalate_le place names)
      (FileTree.utf8ByteSize_of_walk hwalk)
    rw [← Path.normalText_of_relativeParts? hnames] at hsize
    obtain ⟨rfl, -⟩ := Path.relativeParts?_eq_some_iff.mp hnames
    unfold FileTree.hasNull at hnull ⊢
    rw [List.any_append, Bool.or_eq_false_iff] at hnull
    exact ⟨by rw [hnames]; rfl, hnull.2, hsize⟩

/-- A safe path has no null character. -/
theorem PathsSafe.null_not_mem (h : PathsSafe files) {f : String × String} (hf : f ∈ files) :
    '\x00' ∉ (Path.normalText f.1).toList := by
  obtain ⟨hrelative, hnull, -⟩ := h f hf
  obtain ⟨names, hnames⟩ := Option.isSome_iff_exists.mp hrelative
  rw [Path.normalText_of_relativeParts? hnames]
  obtain ⟨rfl, -⟩ := Path.relativeParts?_eq_some_iff.mp hnames
  refine Path.not_mem_intercalate (by decide) fun n hn => ?_
  unfold FileTree.hasNull at hnull
  simpa using List.any_eq_false.mp hnull n hn

theorem StagingArea.keyed_write (h : t.Keyed) (a : StagingArea) (path text : String) :
    (a.write t path text).1.Keyed := by
  unfold write
  cases Path.relativeParts? path with
  | none => exact h
  | some names =>
    have hwrite := FileTree.keyed_writeAtomically h (a.path ++ names) (FileBody.ofText text)
    simp only
    split <;> rename_i heq <;> rw [heq] at hwrite <;> exact hwrite

/-- Staging a file takes no directory away. -/
theorem StagingArea.isDirectory_write {a : StagingArea} (ha : a.path ≠ []) (path text : String)
    {q : Path} (hq : t.isDirectory q = true) : (a.write t path text).1.isDirectory q = true := by
  unfold write
  cases Path.relativeParts? path with
  | none => exact hq
  | some names =>
    have hne : a.path ++ names ≠ [] := by simp [ha]
    simp only
    split
    · rename_i t₁ e hwrite
      exact (FileTree.grown_of_writeAtomically hne hwrite).isDirectory hq
    · rename_i t₁ hwrite
      exact (FileTree.written_of_writeAtomically hne hwrite).isDirectory hq

/-- **One more file is staged.** -/
theorem Staged.write {a : StagingArea} (ha : a.IsPlace) (h : Staged t a.path files)
    {path text : String} {names : List String} (hnames : Path.relativeParts? path = some names)
    (hwritten : FileTree.Written t t' (a.path ++ names) (.ofText text)) :
    Staged t' a.path (files ++ [(path, text)]) := by
  obtain ⟨rfl, -, hdots, -⟩ := Path.relativeParts?_eq_some_iff.mp hnames
  intro names
  rw [hwritten.content?_eq, ha.collapsed_append hdots, List.map_append, List.map_singleton,
    collectMembers_concat, lookup_putMember, h names]
  by_cases heq : names = Path.parts path
  · simp [heq, stagedFile]
  · have hb : (names == Path.parts path) = false := beq_false_of_ne heq
    simp [heq, hb, stagedFile]

/-! ## Listings and packages -/

namespace Package

/-- Files with their paths in the shortest form, each with its last text, in the order of their
paths. -/
def listed (files : List (String × String)) : List (String × String) :=
  ordered (collectMembers (files.map fun f => (Path.normalText f.1, f.2)))

/-- The entries for files with their paths, each with its last text. -/
def contents (files : List (String × String)) : List ArchiveEntry :=
  (ordered (collectMembers (files.map fun f => (Path.normalText f.1, f.2)))).map
    fun f => .of f.1 f.2.toUTF8

theorem nodup_keys_ordered (h : (files.map Prod.fst).Nodup) :
    ((ordered files).map Prod.fst).Nodup :=
  ((List.mergeSort_perm files _).map Prod.fst).nodup_iff.mpr h

/-- Files with different paths are in strictly ascending order. -/
theorem pairwise_ordered (h : (files.map Prod.fst).Nodup) :
    (ordered files).Pairwise fun a b => a.1 < b.1 := by
  refine ((pairwise_mergeSort_key files).and
    (List.pairwise_map.mp (nodup_keys_ordered h))).imp ?_
  rintro a b ⟨hle, hne⟩
  exact String.not_le.mp fun hge => hne (String.le_antisymm hle hge)

/-- What is collected of staged files goes by their paths. -/
theorem map_fst_places (files : List (String × String)) :
    (files.map fun f => (Path.normalText f.1, f.2)).map Prod.fst =
      files.map fun f => Path.normalText f.1 := by
  simp only [List.map_map, Function.comp_def]

theorem length_listed (files : List (String × String)) : (listed files).length =
    (collectMembers (files.map fun f => (Path.normalText f.1, f.2))).length := by
  unfold listed ordered
  rw [List.length_mergeSort]

/-- **As many files are listed as were staged exactly when these have different places.** -/
theorem length_listed_eq_iff (files : List (String × String)) :
    (listed files).length = files.length ↔ (files.map fun f => Path.normalText f.1).Nodup := by
  have hcollected :=
    length_collectMembers_eq_iff (files.map fun f => (Path.normalText f.1, f.2))
  rw [List.length_map, map_fst_places] at hcollected
  rw [length_listed]
  exact hcollected

/-- Files with different places are all listed, each with its own text. -/
theorem listed_of_nodup (h : (files.map fun f => Path.normalText f.1).Nodup) :
    listed files = ordered (files.map fun f => (Path.normalText f.1, f.2)) := by
  unfold listed
  rw [(collectMembers_eq_self_iff _).mpr (by rwa [map_fst_places])]

/-- **What is listed of staged files.** -/
theorem filesBelow_of_staged (h : t.Keyed) (hplace : place ≠ []) (hsafe : PathsSafe files)
    (hstaged : Staged t place files) :
    t.filesBelow place = (listed files).map fun f => (f.1, .ofText f.2) := by
  have hparts : ∀ f ∈ files, ∃ names, Path.relativeParts? f.1 = some names ∧
      names = Path.parts f.1 ∧ names ≠ [] := by
    intro f hf
    obtain ⟨names, hnames⟩ := Option.isSome_iff_exists.mp (hsafe f hf).1
    obtain ⟨rfl, -, -, hne⟩ := Path.relativeParts?_eq_some_iff.mp hnames
    exact ⟨_, hnames, rfl, hne⟩
  have hwritten : ∀ w ∈ files.map stagedFile, w.1 ≠ [] ∧ ∀ n ∈ w.1, Path.IsPart n := by
    intro w hw
    obtain ⟨f, hf, rfl⟩ := List.mem_map.mp hw
    obtain ⟨names, -, rfl, hne⟩ := hparts f hf
    exact ⟨hne, fun n hn => Path.isPart_of_mem_parts hn⟩
  have hnormal : (files.map stagedFile).map (fun w => ("/".intercalate w.1, w.2)) =
      files.map fun f => (Path.normalText f.1, FileBody.ofText f.2) := by
    rw [List.map_map]
    refine List.map_congr_left fun f hf => ?_
    obtain ⟨names, hnames, rfl, -⟩ := hparts f hf
    rw [Path.normalText_of_relativeParts? hnames]
    rfl
  have hbodies : collectMembers (files.map fun f => (Path.normalText f.1, FileBody.ofText f.2)) =
      (collectMembers (files.map fun f => (Path.normalText f.1, f.2))).map
        fun f => (f.1, FileBody.ofText f.2) := by
    rw [map_collectMembers (g := fun s => s) FileBody.ofText fun _ _ _ _ heq => heq, List.map_map]
    rfl
  unfold listed ordered
  rw [FileTree.filesBelow_eq h hplace hwritten hstaged, hnormal, hbodies,
    ← List.map_mergeSort (r := fun a b => decide (a.1 ≤ b.1)) (fun _ _ _ _ => rfl)]

/-- **What a package of staged files holds.** -/
theorem entriesBelow_of_staged (h : t.Keyed) (hplace : place ≠ []) (hsafe : PathsSafe files)
    (hstaged : Staged t place files) : entriesBelow t place = contents files := by
  unfold entriesBelow contents
  rw [filesBelow_of_staged h hplace hsafe hstaged, List.map_map]
  rfl

end Package

end EntityScaffold
