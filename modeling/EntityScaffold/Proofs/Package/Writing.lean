import EntityScaffold.Proofs.Package.Compiling
import EntityScaffold.Proofs.Package.Isolation

/-!
# One file or none

Texts are written, files are staged and packages are made by operations that each write one file.
An operation that succeeds has created or replaced that file and touched no other; one that fails
has changed no file and left none behind. Directories on the way to the file may have been made in
both cases, but a path that is refused as unsafe changes nothing at all.

* `FileWrite`, `FileWrite.perform`: the operations, and what comes of one.
* `FileWrite.target`, `FileWrite.body`: which file an operation writes, and what it puts there.

Results:
* `FileWrite.written_of_ok`: the file is there, and all else is as before.
* `FileWrite.grown_of_error`: no file is changed, made or removed, and nothing is recorded.
* `FileWrite.perform_of_refused`: a refused path changes nothing.
* `FileWrite.one_file_or_none`: all of this, for every operation on every tree.
-/

namespace EntityScaffold

/-- An operation that writes one file. -/
inductive FileWrite where
  /-- A text is written to a path. -/
  | text (path : Path) (content : String)
  /-- A text is written to a path of a staging area. -/
  | staged (area : StagingArea) (path content : String)
  /-- The files below a directory are packaged. -/
  | directory (source destination : Path)
  /-- Texts are packaged by path. -/
  | files (contents : List (String × String)) (destination : Path)

namespace FileWrite

/-- The tree after an operation, and its outcome. -/
def perform (t : FileTree FileBody) : FileWrite → FileTree FileBody × Except PackageError Unit
  | .text p content =>
    let (t', r) := t.writeAtomically p (.ofText content)
    (t', r.mapError .file)
  | .staged a path content =>
    let (t', _, r) := a.perform t (.write path content)
    (t', r)
  | .directory source destination => Package.ofDirectory t source destination
  | .files contents destination =>
    let (t', r) := Package.ofFiles t contents destination
    (t', r.map fun _ => ())

/-- The staging area that an operation works on. -/
def area? : FileWrite → Option StagingArea
  | .staged a _ _ => some a
  | _ => none

/-- The staging area after an operation. -/
def areaAfter? (t : FileTree FileBody) : FileWrite → Option StagingArea
  | .staged a path content => some (a.perform t (.write path content)).2.1
  | _ => none

/-- The path of the file that an operation writes. -/
def target : FileWrite → Path
  | .text p _ => p
  | .staged a path _ => a.path ++ Path.parts path
  | .directory _ destination => destination
  | .files _ destination => destination

/-- What an operation puts into its file. -/
def body (t : FileTree FileBody) : FileWrite → FileBody
  | .text _ content => .ofText content
  | .staged _ _ content => .ofText content
  | .directory source _ => .archive (Package.entriesBelow t source.collapsed)
  | .files contents _ =>
    .archive ((Package.ordered contents).map fun f => .of f.1 f.2.toUTF8)

/-- The path that an operation refuses, if it is given one that leads out of its directory. -/
def refused? : FileWrite → Option String
  | .staged _ path _ => if (Path.relativeParts? path).isNone then some path else none
  | .files contents _ => Package.firstUnsafe? contents
  | _ => none

variable {t : FileTree FileBody} {w : FileWrite}

/-- **A refused path changes nothing.** -/
theorem perform_of_refused {path : String} (h : w.refused? = some path) (t : FileTree FileBody) :
    w.perform t = (t, .error (.unsafePath path)) := by
  cases w with
  | text p content => cases h
  | directory source destination => cases h
  | staged a path' content =>
    simp only [refused?, Option.isNone_iff_eq_none] at h
    split_ifs at h with hnone
    cases h
    simp [perform, StagingArea.perform, StagingArea.write, hnone]
  | files contents destination =>
    have hfirst : Package.firstUnsafe? contents = some path := h
    simp [perform, Package.ofFiles, hfirst, Except.map]

/-- A staging area that takes a path writes below its directory. -/
theorem perform_staged {a : StagingArea} {path content : String} {names : List String}
    (hnames : Path.relativeParts? path = some names) {t' : FileTree FileBody}
    {r : Except FileError Unit}
    (hwrite : t.writeAtomically (a.path ++ names) (.ofText content) = (t', r)) :
    (FileWrite.staged a path content).perform t = (t', r.mapError .file) ∧
      (FileWrite.staged a path content).areaAfter? t = some (match r with
        | .ok () => { a with records := a.records ++ [.of ("/".intercalate names) content] }
        | .error _ => a) := by
  cases r <;>
    simp [perform, areaAfter?, StagingArea.perform, StagingArea.write, hnames, hwrite,
      Except.mapError]

/-- **An operation that fails changes no file**, makes none and records none. -/
theorem grown_of_error (hw : w.target ≠ []) {e : PackageError} (h : (w.perform t).2 = .error e) :
    FileTree.Grown t (w.perform t).1 (Path.parent w.target) ∧ w.areaAfter? t = w.area? := by
  cases w with
  | text p content =>
    rcases hwrite : t.writeAtomically p (.ofText content) with ⟨t', e' | u⟩
    · simp only [perform, hwrite]
      exact ⟨FileTree.grown_of_writeAtomically hw hwrite, rfl⟩
    · simp [perform, hwrite, Except.mapError] at h
  | directory source destination =>
    exact ⟨Package.grown_of_ofDirectory hw (Prod.ext rfl h), rfl⟩
  | files contents destination =>
    rcases hwrite : Package.ofFiles t contents destination with ⟨t', e' | m⟩
    · simp only [perform, hwrite]
      exact ⟨Package.grown_of_ofFiles hw hwrite, rfl⟩
    · simp [perform, hwrite, Except.map] at h
  | staged a path content =>
    cases hnames : Path.relativeParts? path with
    | none =>
      have hrefused : (FileWrite.staged a path content).refused? = some path := by
        simp [refused?, hnames]
      rw [perform_of_refused hrefused t]
      exact ⟨.refl t _, by simp [areaAfter?, area?, StagingArea.perform, StagingArea.write, hnames]⟩
    | some names =>
      have hparts := (Path.relativeParts?_eq_some_iff.mp hnames).1
      rcases hwrite : t.writeAtomically (a.path ++ names) (.ofText content) with ⟨t', e' | u⟩
      · obtain ⟨hperform, harea⟩ := perform_staged hnames hwrite
        rw [hperform, harea]
        refine ⟨?_, rfl⟩
        simp only [target] at hw ⊢
        rw [← hparts] at hw ⊢
        exact FileTree.grown_of_writeAtomically hw hwrite
      · obtain ⟨hperform, -⟩ := perform_staged hnames hwrite
        rw [hperform] at h
        cases h

/-- **An operation that succeeds has written its file** and touched no other. -/
theorem written_of_ok (hw : w.target ≠ []) (h : (w.perform t).2 = .ok ()) :
    FileTree.Written t (w.perform t).1 w.target (w.body t) := by
  cases w with
  | text p content =>
    rcases hwrite : t.writeAtomically p (.ofText content) with ⟨t', e' | u⟩
    · simp [perform, hwrite, Except.mapError] at h
    · simp only [perform, hwrite]
      exact FileTree.written_of_writeAtomically hw hwrite
  | directory source destination => exact Package.written_of_ofDirectory hw (Prod.ext rfl h)
  | files contents destination =>
    rcases hwrite : Package.ofFiles t contents destination with ⟨t', e' | m⟩
    · simp [perform, hwrite, Except.map] at h
    · simp only [perform, hwrite]
      exact (Package.written_of_ofFiles hw hwrite).1
  | staged a path content =>
    cases hnames : Path.relativeParts? path with
    | none =>
      have hrefused : (FileWrite.staged a path content).refused? = some path := by
        simp [refused?, hnames]
      rw [perform_of_refused hrefused t] at h
      cases h
    | some names =>
      have hparts := (Path.relativeParts?_eq_some_iff.mp hnames).1
      rcases hwrite : t.writeAtomically (a.path ++ names) (.ofText content) with ⟨t', e' | u⟩
      · obtain ⟨hperform, -⟩ := perform_staged hnames hwrite
        rw [hperform] at h
        cases h
      · obtain ⟨hperform, -⟩ := perform_staged hnames hwrite
        rw [hperform]
        simp only [target] at hw ⊢
        rw [← hparts] at hw ⊢
        exact FileTree.written_of_writeAtomically hw hwrite

/-- **One file or none.** Whatever the tree, the path and the content:

1. an operation that fails leaves every file with its content, leaves no file where there was none,
   and records nothing; at most directories were made on the way to its file;
2. an operation that succeeds leaves its content at its place, which was no directory; any other
   place is as before, but for directories that were made on the way;
3. an operation that refuses a path leaves the whole tree as it was;
4. so does the packaging of a request without valid tables. -/
theorem one_file_or_none (t : FileTree FileBody) :
    (∀ w : FileWrite, w.target ≠ [] →
      (∀ e, (w.perform t).2 = .error e →
        (∀ q, (w.perform t).1.content? q = t.content? q) ∧
        FileTree.Grown t (w.perform t).1 (Path.parent w.target) ∧ w.areaAfter? t = w.area?) ∧
      ((w.perform t).2 = .ok () →
        (∀ q, (w.perform t).1.content? q =
          if q = w.target.collapsed then some (w.body t) else t.content? q) ∧
        FileTree.Written t (w.perform t).1 w.target (w.body t)) ∧
      ∀ path, w.refused? = some path → w.perform t = (t, .error (.unsafePath path))) ∧
    ∀ (r : Request) (destination : Path), r.validTables = [] →
      r.compileToPackage t destination = (t, .ok r.compile) := by
  refine ⟨fun w hw => ⟨fun e h => ?_, fun h => ?_, fun path h => perform_of_refused h t⟩,
    fun r destination h => r.compileToPackage_of_no_tables h t destination⟩
  · obtain ⟨hgrown, harea⟩ := grown_of_error hw h
    exact ⟨hgrown.content?_eq, hgrown, harea⟩
  · have hwritten := written_of_ok hw h
    exact ⟨hwritten.content?_eq, hwritten⟩

/-- A directory in the way of a text stays with all its files, and takes a staged file. -/
theorem one_file_or_none_directory_in_the_way :
    let t : FileTree FileBody :=
      ⟨[(["", "d"], .directory), (["", "d", "old"], .file (.ofText "kept"))]⟩
    let onto : FileWrite := .text ["", "d"] "lost"
    let into : FileWrite := .staged ⟨["", "d"], []⟩ "./b//A.cs" "class A"
    (onto.perform t).2 = .error (.file .isDirectory) ∧
      (∀ q, (onto.perform t).1.content? q = t.content? q) ∧
      (into.perform t).2 = .ok () ∧
      ∀ q, (into.perform t).1.content? q =
        if q = ["", "d", "b", "A.cs"] then some (.ofText "class A") else t.content? q := by
  intro t onto into
  have honto : onto.target ≠ [] := by decide
  have hinto : into.target ≠ [] := by decide +kernel
  have hfailed : (onto.perform t).2 = .error (.file .isDirectory) := by decide +kernel
  have hdone : (into.perform t).2 = .ok () := by decide +kernel
  have htarget : into.target.collapsed = ["", "d", "b", "A.cs"] := by decide +kernel
  obtain ⟨hall, -⟩ := one_file_or_none t
  have hcontent := ((hall into hinto).2.1 hdone).1
  rw [htarget] at hcontent
  exact ⟨hfailed, ((hall onto honto).1 _ hfailed).1, hdone, hcontent⟩

end FileWrite

end EntityScaffold
