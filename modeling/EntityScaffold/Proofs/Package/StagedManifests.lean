import EntityScaffold.Proofs.Package.Isolation

/-!
# What the manifest of a staging area says of its files

A staging area keeps two accounts: the files below its directory, and a record for each write that
it took. A write to a path that was written before, however the path is spelled, replaces the file
but not the record. So the manifest has the current record of every file, as the last one for its
path, but it counts the writes and not the files.

* `StagingArea.after`: a history of calls on an area.
* `StagingArea.accepted`: the writes of a history that were taken.
* `Manifest.Lists`: a manifest lists just the given files, in strictly ascending order, and totals
  them.

Results:
* `StagingArea.Filled.perform`, `StagingArea.Filled.after`: both accounts follow from the accepted
  writes, after one call and after any history.
* `StagingArea.manifest_lists_iff`: a manifest lists the files of the directory exactly when no two
  accepted writes had one place.
-/

namespace EntityScaffold

/-- **A manifest lists files**: each once, in strictly ascending order of the paths, with its size,
its lines and its digest, and the totals are those of the files. -/
structure Manifest.Lists (m : Manifest) (files : List (String × String)) : Prop where
  each : m.files = files.map fun f => .of f.1 f.2
  ascending : m.files.Pairwise fun a b => a.path < b.path
  totalFiles : m.totalFiles = files.length
  totalBytes : m.totalBytes = totalOf (fun f => f.2.utf8ByteSize) files
  totalLines : m.totalLines = totalOf (fun f => Text.countLines f.2) files

/-! ## Records by path -/

namespace Package

variable {files : List (String × String)}

theorem lookup_ordered (h : (files.map Prod.fst).Nodup) (path : String) :
    (ordered files).lookup path = files.lookup path := by
  refine Option.ext fun text => ?_
  rw [← mem_iff_lookup (nodup_keys_ordered h), ← mem_iff_lookup h]
  exact List.mem_mergeSort

/-- **A file that is listed has the last text that was staged for its path.** -/
theorem lookup_listed (files : List (String × String)) (path : String) :
    (listed files).lookup path =
      (files.reverse.map fun f => (Path.normalText f.1, f.2)).lookup path := by
  unfold listed
  rw [lookup_ordered (nodup_keys_collectMembers _), lookup_collectMembers, List.map_reverse]

/-- The last record of a path is that of the text that is collected under it. -/
theorem find?_stagedRecord (files : List (String × String)) (path : String) :
    (files.map stagedRecord).find? (fun record => record.path = path) =
      ((files.map fun f => (Path.normalText f.1, f.2)).lookup path).map (.of path) := by
  induction files with
  | nil => rfl
  | cons f files ih =>
    rw [List.map_cons, List.map_cons, List.find?_cons, List.lookup_cons, ih]
    have hrecord : (stagedRecord f).path = Path.normalText f.1 := FileRecord.path_of _ _
    by_cases hpath : Path.normalText f.1 = path
    · subst hpath
      rw [hrecord, decide_eq_true rfl, beq_self_eq_true]
      rfl
    · have hother : (path == Path.normalText f.1) = false := beq_false_of_ne (Ne.symm hpath)
      rw [hrecord, decide_eq_false hpath, hother]

end Package

namespace StagingArea

variable {t t' : FileTree FileBody} {a : StagingArea} {files : List (String × String)}

/-! ## Histories -/

/-- The tree and the area after calls, one after the other. -/
def after (a : StagingArea) (t : FileTree FileBody) :
    List StagingCall → FileTree FileBody × StagingArea
  | [] => (t, a)
  | call :: calls => after (a.perform t call).2.1 (a.perform t call).1 calls

/-- What a call writes, if it is a write and is taken. -/
def acceptedBy (a : StagingArea) (t : FileTree FileBody) : StagingCall → List (String × String)
  | .write path text =>
    match (a.write t path text).2 with
    | .ok _ => [(path, text)]
    | .error _ => []
  | .create => []
  | .remove => []

/-- The writes of a history that were taken, in their order. -/
def accepted (a : StagingArea) (t : FileTree FileBody) : List StagingCall → List (String × String)
  | [] => []
  | call :: calls =>
    a.acceptedBy t call ++ accepted (a.perform t call).2.1 (a.perform t call).1 calls

/-- An area and its directory after files were written, each with its path and its text. -/
structure Filled (t : FileTree FileBody) (a : StagingArea) (files : List (String × String)) :
    Prop where
  keyed : t.Keyed
  place : a.IsPlace
  staged : Staged t a.path files
  safe : PathsSafe files
  records : a.records = files.map stagedRecord

/-- Directories that are made on the way to the area leave its files. -/
theorem Filled.create (h : Filled t a files) : Filled (a.create t).1 a files where
  keyed := FileTree.keyed_makeDirectories h.keyed a.path
  place := h.place
  staged := h.staged.congr fun q _ => (FileTree.grown_makeDirectories t a.path).content?_eq q
  safe := h.safe
  records := h.records

/-- A write that is refused leaves the files, one that is taken adds its own. -/
theorem Filled.write (h : Filled t a files) (path text : String) :
    Filled (a.perform t (.write path text)).1 (a.perform t (.write path text)).2.1
      (files ++ a.acceptedBy t (.write path text)) := by
  have hkeyed := keyed_write h.keyed a path text
  rcases hresult : a.write t path text with ⟨t', e | ⟨a', record⟩⟩
  · -- nothing is recorded, and no file is changed
    have hcontent : ∀ q, t'.content? q = t.content? q := by
      unfold StagingArea.write at hresult
      split at hresult
      · cases hresult
        exact fun q => rfl
      · rename_i names _
        split at hresult
        · rename_i hwrite
          cases hresult
          have hne : a.path ++ names ≠ [] := by simp [h.place.ne_nil]
          exact (FileTree.grown_of_writeAtomically hne hwrite).content?_eq
        · cases hresult
    rw [hresult] at hkeyed
    simp only [perform, acceptedBy, hresult, List.append_nil]
    exact ⟨hkeyed, h.place, h.staged.congr fun q _ => hcontent q, h.safe, h.records⟩
  · obtain ⟨names, hnames, hwritten, hpath, hrecords⟩ := written_of_write hresult h.place.ne_nil
    rw [hresult] at hkeyed
    simp only [perform, acceptedBy, hresult]
    have hplace : a'.IsPlace := ⟨hpath ▸ h.place.collapsed, hpath ▸ h.place.ne_nil⟩
    refine ⟨hkeyed, hplace, ?_, h.safe.concat hnames hwritten, ?_⟩
    · rw [hpath]
      exact h.staged.write h.place hnames hwritten
    · rw [hrecords, h.records, List.map_append, List.map_singleton]

/-- **Both accounts follow from the accepted writes**, whatever is called but the removal. -/
theorem Filled.perform (h : Filled t a files) {call : StagingCall} (hcall : call ≠ .remove) :
    Filled (a.perform t call).1 (a.perform t call).2.1 (files ++ a.acceptedBy t call) := by
  cases call with
  | create =>
    simp only [acceptedBy, List.append_nil]
    exact h.create
  | write path text => exact h.write path text
  | remove => exact absurd rfl hcall

/-- **After any history** both accounts follow from the accepted writes. -/
theorem Filled.after (h : Filled t a files) {calls : List StagingCall}
    (hcalls : StagingCall.remove ∉ calls) :
    Filled (a.after t calls).1 (a.after t calls).2 (files ++ a.accepted t calls) := by
  induction calls generalizing t a files with
  | nil => rwa [accepted, List.append_nil]
  | cons call calls ih =>
    rw [List.mem_cons, not_or] at hcalls
    have hnext := ih (h.perform (Ne.symm hcalls.1)) hcalls.2
    rwa [List.append_assoc] at hnext

theorem path_after (a : StagingArea) (t : FileTree FileBody) (calls : List StagingCall) :
    (a.after t calls).2.path = a.path := by
  induction calls generalizing t a with
  | nil => rfl
  | cons call calls ih => exact (ih _ _).trans (path_perform a t call)

/-! ## Manifests -/

/-- The records of a manifest are those of the area, in another order. -/
theorem manifest_perm (a : StagingArea) (name : String) :
    (a.manifest name).files.Perm a.records := List.mergeSort_perm _ _

/-- **The last record of each path is that of the file**, and only files have records. -/
theorem Filled.getLast?_manifest (h : Filled t a files) (name path : String) :
    ((a.manifest name).files.filter fun record => record.path = path).getLast? =
      ((Package.listed files).lookup path).map (.of path) := by
  rw [Package.lookup_listed, ← Package.find?_stagedRecord]
  unfold manifest
  rw [filter_mergeSort_by FileRecord.path, List.getLast?_eq_head?_reverse, ← List.filter_reverse,
    List.head?_filter, h.records, List.map_reverse]

/-- **A manifest lists the files exactly when no two writes had one place.** -/
theorem Filled.lists_iff (h : Filled t a files) (name : String) :
    (a.manifest name).Lists (Package.listed files) ↔
      (files.map fun f => Path.normalText f.1).Nodup := by
  constructor
  · intro hlists
    have htotal : (a.manifest name).totalFiles = files.length := by
      unfold Manifest.totalFiles
      rw [(manifest_perm a name).length_eq, h.records, List.length_map]
    rw [← Package.length_listed_eq_iff, ← hlists.totalFiles, htotal]
  · intro hnodup
    have hlisted := Package.listed_of_nodup hnodup
    have hkeys : ((files.map fun f => (Path.normalText f.1, f.2)).map Prod.fst).Nodup := by
      rwa [Package.map_fst_places]
    have hfiles : (a.manifest name).files = (Package.listed files).map fun f => .of f.1 f.2 := by
      have hsorted : (Package.ordered (files.map fun f => (Path.normalText f.1, f.2))).map
          (fun f => FileRecord.of f.1 f.2) =
          ((files.map fun f => (Path.normalText f.1, f.2)).map fun f => .of f.1 f.2).mergeSort
            fun x y => decide (x.path ≤ y.path) :=
        List.map_mergeSort fun _ _ _ _ => rfl
      rw [hlisted, hsorted, List.map_map]
      unfold manifest
      rw [h.records]
      rfl
    constructor
    · exact hfiles
    · rw [hfiles, hlisted]
      exact List.pairwise_map.mpr (Package.pairwise_ordered hkeys)
    · rw [Manifest.totalFiles, hfiles, List.length_map]
    · rw [Manifest.totalBytes, hfiles, totalOf_map]
      rfl
    · rw [Manifest.totalLines, hfiles, totalOf_map]
      rfl

/-- The totals of a manifest are those of the accepted writes. -/
theorem Filled.totals (h : Filled t a files) (name : String) :
    (a.manifest name).totalFiles = files.length ∧
      (a.manifest name).totalBytes = totalOf (fun f => f.2.utf8ByteSize) files ∧
      (a.manifest name).totalLines = totalOf (fun f => Text.countLines f.2) files := by
  have hperm := manifest_perm a name
  rw [h.records] at hperm
  refine ⟨?_, ?_, ?_⟩
  · rw [Manifest.totalFiles, hperm.length_eq, List.length_map]
  · rw [Manifest.totalBytes, totalOf_perm _ hperm, totalOf_map]
    rfl
  · rw [Manifest.totalLines, totalOf_perm _ hperm, totalOf_map]
    rfl

/-- **Manifests and staged files.** After any history of making the directory and writing files of a
fresh area, whatever the paths and the texts, and whichever calls fail:

1. the files below the directory are those of the accepted writes, each with the text that was
   written last to its path in any spelling;
2. the manifest is in ascending order, and the last record that it has for a path is the current
   one of the file there, if there is a file;
3. its totals are those of all accepted writes;
4. so it lists the files of the directory exactly when no two accepted writes had one place. -/
theorem manifest_lists_iff {root : Path} (hroot : root ≠ []) {job : String} {a : StagingArea}
    (ha : StagingArea.of root job = .ok a) {t : FileTree FileBody} (ht : t.Keyed)
    (hfresh : ∀ q, a.path <+: q → t.content? q = none) {calls : List StagingCall}
    (hcalls : StagingCall.remove ∉ calls) (name : String) :
    let written := a.accepted t calls
    let m := (a.after t calls).2.manifest name
    ∃ files : List (String × String),
      ((a.after t calls).1.filesBelow a.path = files.map (fun f => (f.1, .ofText f.2)) ∧
        files.Pairwise (fun x y => x.1 < y.1) ∧
        ∀ path, files.lookup path =
          (written.reverse.map fun f => (Path.normalText f.1, f.2)).lookup path) ∧
      m.files.Pairwise (fun x y => x.path ≤ y.path) ∧
      (∀ path, (m.files.filter fun record => record.path = path).getLast? =
        (files.lookup path).map (.of path)) ∧
      (m.totalFiles = written.length ∧
        m.totalBytes = totalOf (fun f => f.2.utf8ByteSize) written ∧
        m.totalLines = totalOf (fun f => Text.countLines f.2) written) ∧
      (m.Lists files ↔ (written.map fun f => Path.normalText f.1).Nodup) := by
  intro written m
  have hstart : Filled t a [] := by
    refine ⟨ht, isPlace_of hroot ha, staged_nil hfresh, nofun, ?_⟩
    simp only [StagingArea.of] at ha
    split_ifs at ha
    cases ha
    rfl
  have hfilled : Filled (a.after t calls).1 (a.after t calls).2 written := hstart.after hcalls
  have hlisting := Package.filesBelow_of_staged hfilled.keyed hfilled.place.ne_nil hfilled.safe
    hfilled.staged
  rw [path_after] at hlisting
  exact ⟨Package.listed written,
    ⟨hlisting, Package.pairwise_ordered (nodup_keys_collectMembers _),
      Package.lookup_listed written⟩,
    pairwise_mergeSort_by FileRecord.path _, hfilled.getLast?_manifest name,
    hfilled.totals name, hfilled.lists_iff name⟩

/-- A file that is written twice, under two spellings of its path, is counted twice. -/
theorem manifest_lists_iff_written_twice :
    let a : StagingArea := ⟨["", "tmp", "GeneratedCode_1"], []⟩
    let calls : List StagingCall :=
      [.create, .write "a.cs" "one", .write "../b.cs" "no", .write "./a.cs" "two"]
    let m := (a.after {} calls).2.manifest "p.zip"
    StagingArea.of ["", "tmp"] "1" = .ok a ∧
      a.accepted {} calls = [("a.cs", "one"), ("./a.cs", "two")] ∧
      ∃ files, (a.after {} calls).1.filesBelow a.path = files.map (fun f => (f.1, .ofText f.2)) ∧
        m.totalFiles = 2 ∧ ¬ m.Lists files := by
  intro a calls m
  have hroot : ["", "tmp"] ≠ [] := by decide
  have ha : StagingArea.of ["", "tmp"] "1" = .ok a := (of_eq hroot (by decide)).trans rfl
  have hkeyed : ({} : FileTree FileBody).Keyed := List.nodup_nil
  have hfresh : ∀ q, a.path <+: q → ({} : FileTree FileBody).content? q = none := by
    intro q _
    unfold FileTree.content? FileTree.node?
    split_ifs <;> rfl
  have hcalls : StagingCall.remove ∉ calls := by simp [calls]
  have haccepted : a.accepted {} calls = [("a.cs", "one"), ("./a.cs", "two")] := by decide +kernel
  obtain ⟨files, ⟨hlisting, -⟩, -, -, htotals, hlists⟩ :=
    manifest_lists_iff hroot ha hkeyed hfresh hcalls "p.zip"
  rw [haccepted] at htotals hlists
  exact ⟨ha, haccepted, files, hlisting, htotals.1, fun h => absurd (hlists.mp h) (by decide)⟩

end StagingArea

end EntityScaffold
