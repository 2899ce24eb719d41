import EntityScaffold.Proofs.FileNames
import EntityScaffold.Proofs.FileTree.PathTexts
import EntityScaffold.Proofs.Package.InProgress

/-!
# Downloads stay in the package directory

A package is asked for by name, and the name is all that guards the files. One that is accepted
starts with a letter or a digit and has no slash, so it leads to what stands in the package
directory itself, whatever the directories hold. A temporary file starts with a dot, so it cannot be
asked for; and what can be asked for is never the part of an archive that is still being written.

* `Pipeline.DirectChild`: a path leads to a file in the package directory.
* `Pipeline.DeliversSafely`: what is said of all that a name can get.

Results:
* `Text.exists_first_of_isSafeFileName`: an accepted name starts with a letter or a digit.
* `Pipeline.directChild_of_packagePath`: what is found under a name.
* `Pipeline.packagePath_temporaryName`: temporary files are refused.
* `Pipeline.delivers_safely`: all of it, for every name and every content of the directories.
-/

namespace EntityScaffold

open Relation (ReflTransGen)
open FileTree (IsTemporary temporaryName)

/-! ## Names that are accepted -/

namespace Text

variable {name : String}

/-- An accepted name starts with a letter or a digit. -/
theorem exists_first_of_isSafeFileName (h : isSafeFileName name = true) :
    ∃ c rest, name.toList = c :: rest ∧ c ∈ lettersAndDigits := by
  have first : ∀ {s : List Char}, IsFileName s →
      ∃ c rest, s = c :: rest ∧ c ∈ lettersAndDigits := by
    intro s hs
    obtain ⟨c, rest, rfl⟩ := List.exists_cons_of_ne_nil hs.ne_nil
    exact ⟨c, rest, rfl, hs.first c rfl⟩
  rcases isSafeFileName_iff.mp h with h | ⟨front, hname, -, h⟩
  · exact first h
  · obtain ⟨c, rest, rfl, hc⟩ := first h
    exact ⟨c, rest ++ ['\n'], hname, hc⟩

/-- So it does not start with a dot. -/
theorem ne_of_isSafeFileName (h : isSafeFileName name = true) {other : String} {rest : List Char}
    (hother : other.toList = '.' :: rest) : name ≠ other := by
  rintro rfl
  obtain ⟨c, rest', hname, hc⟩ := exists_first_of_isSafeFileName h
  rw [hother] at hname
  rw [← (List.cons.inj hname).1] at hc
  exact absurd (isAsciiAlnum_iff.mpr hc) (by decide)

/-- An accepted name leads to one thing in a directory. -/
theorem isPart_of_isSafeFileName (h : isSafeFileName name = true) :
    Path.IsPart name ∧ name ≠ ".." := by
  obtain ⟨⟨hne, -⟩, -, hslash, -⟩ := isSafeFileName_iff_parts.mp h
  refine ⟨⟨?_, ne_of_isSafeFileName h rfl, hslash⟩, ne_of_isSafeFileName h rfl⟩
  rintro rfl
  exact hne rfl

theorem not_isTemporary_of_isSafeFileName (h : isSafeFileName name = true) :
    ¬ IsTemporary name := by
  rintro ⟨package, random, hname⟩
  exact ne_of_isSafeFileName h (FileTree.toList_temporaryName package random) hname

end Text

namespace Pipeline

variable {p : Pipeline} {name : String} {path : Path}

/-! ## What is found -/

/-- The path leads to a file in the package directory, of the given name, that no writer is
building. -/
structure DirectChild (p : Pipeline) (name : String) (path : Path) : Prop where
  child : path = p.setup.packageDirectory ++ [name]
  /-- The name is that of one thing, and neither the directory itself nor the one above it. -/
  part : Path.IsPart name ∧ name ≠ ".."
  permanent : ¬ IsTemporary name
  directory : p.tree.node? p.setup.packageDirectory.collapsed = some .directory
  /-- There is no way around: the path leads below the place of the directory, and to a file. -/
  file : p.tree.walk path = .ok (p.setup.packageDirectory.collapsed ++ [name]) ∧
    ∃ body, p.tree.content? (p.setup.packageDirectory.collapsed ++ [name]) = some body

theorem packagePath_eq_ok_iff : p.packagePath name = .ok path ↔
    Text.isSafeFileName name = true ∧ path = p.setup.packageDirectory ++ [name] ∧
      ∃ body, p.tree.read path = .ok body := by
  unfold packagePath
  cases Text.isSafeFileName name with
  | false => exact iff_of_false nofun fun h => nomatch h.1
  | true =>
    simp only [if_true, true_and]
    cases hread : p.tree.read (p.setup.packageDirectory ++ [name]) with
    | error e =>
      refine iff_of_false nofun ?_
      rintro ⟨rfl, body, hbody⟩
      rw [hread] at hbody
      cases hbody
    | ok body =>
      constructor
      · rintro ⟨⟩
        exact ⟨rfl, body, hread⟩
      · rintro ⟨rfl, -⟩
        rfl

/-- There is nothing but a directory where there are no names. -/
theorem packageDirectory_ne_nil {t : FileTree FileBody} {body : FileBody}
    (h : t.read (p.setup.packageDirectory ++ [name]) = .ok body) :
    p.setup.packageDirectory ≠ [] := by
  intro hnil
  obtain ⟨-, hnode⟩ := FileTree.find_eq_ok_iff.mp (FileTree.read_eq_ok_iff.mp h)
  rw [hnil, FileTree.node?_of_length_le t (by exact Nat.le_refl 1)] at hnode
  cases hnode

/-- What is read under an accepted name is the content of a file in the package directory. -/
theorem content?_of_read (hsafe : Text.isSafeFileName name = true) {t : FileTree FileBody}
    {body : FileBody} (h : t.read (p.setup.packageDirectory ++ [name]) = .ok body) :
    t.walk (p.setup.packageDirectory ++ [name]) =
        .ok (p.setup.packageDirectory.collapsed ++ [name]) ∧
      t.content? (p.setup.packageDirectory.collapsed ++ [name]) = some body := by
  have hdirectory := packageDirectory_ne_nil h
  have hfind := FileTree.find_eq_ok_iff.mp (FileTree.read_eq_ok_iff.mp h)
  rw [Path.collapsed_concat_of_ne hdirectory (Text.isPart_of_isSafeFileName hsafe).2] at hfind
  exact ⟨hfind.1, FileTree.content?_eq_some_iff.mpr hfind.2⟩

/-- **A path that is given out leads to a file in the package directory.** -/
theorem directChild_of_packagePath (h : p.packagePath name = .ok path) :
    p.DirectChild name path := by
  obtain ⟨hsafe, rfl, body, hread⟩ := packagePath_eq_ok_iff.mp h
  obtain ⟨hwalk, hcontent⟩ := content?_of_read hsafe hread
  exact {
    child := rfl
    part := Text.isPart_of_isSafeFileName hsafe
    permanent := Text.not_isTemporary_of_isSafeFileName hsafe
    directory := FileTree.node?_of_walk_concat (packageDirectory_ne_nil hread) hwalk
    file := ⟨hwalk, body, hcontent⟩ }

/-- **Temporary files are refused**, whatever package they are for. -/
theorem packagePath_temporaryName (p : Pipeline) (package random : String) :
    p.packagePath (temporaryName package random) =
      .error (.invalidName (temporaryName package random)) := by
  refine p.packagePath_eq_invalidName_iff.mpr ⟨Bool.eq_false_iff.mpr fun hsafe => ?_, rfl⟩
  exact Text.not_isTemporary_of_isSafeFileName hsafe ⟨package, random, rfl⟩

/-! ## What is read -/

theorem download_eq_ok_iff {later : FileTree FileBody} {outcome : Except FileError FileBody} :
    p.download later name = .ok outcome ↔
      ∃ path, p.packagePath name = .ok path ∧ outcome = later.read path := by
  unfold download
  cases p.packagePath name <;> simp [Except.map, eq_comm]

/-- What is delivered is the content of a file in the package directory, when it is read. -/
theorem content?_of_download {later : FileTree FileBody} {body : FileBody}
    (h : p.download later name = .ok (.ok body)) :
    later.content? (p.setup.packageDirectory.collapsed ++ [name]) = some body := by
  obtain ⟨path, hpath, hread⟩ := download_eq_ok_iff.mp h
  obtain ⟨hsafe, rfl, -⟩ := packagePath_eq_ok_iff.mp hpath
  exact (content?_of_read hsafe hread.symm).2

/-- What a name can get. -/
structure DeliversSafely (p : Pipeline) (name : String) : Prop where
  /-- A path that is given out leads to a file in the package directory. -/
  contained : ∀ path, p.packagePath name = .ok path → p.DirectChild name path
  /-- What is delivered is in such a file. -/
  delivered : ∀ later body, p.download later name = .ok (.ok body) →
    p.DirectChild name (p.setup.packageDirectory ++ [name]) ∧
      later.content? (p.setup.packageDirectory.collapsed ++ [name]) = some body
  /-- Temporary files are refused, and not looked up. -/
  temporary : ∀ package random later,
    p.packagePath (temporaryName package random) =
        .error (.invalidName (temporaryName package random)) ∧
      p.download later (temporaryName package random) =
        .error (.invalidName (temporaryName package random))
  /-- Packaging a directory goes by the steps of a writer. -/
  writing : ∀ (t : FileTree FileBody) (source : Path) (package : String),
    p.setup.packageDirectory ≠ [] →
      ReflTransGen (Package.BuildStep p.setup.packageDirectory.collapsed fun n entries =>
          n = package ∧ ∃ place, t.walk source = .ok place ∧
            entries = Package.entriesBelow t place) t
        (Package.ofDirectory t source (p.setup.packageDirectory ++ [package])).1
  /-- While there are writers, what is delivered was there before them or is a complete archive. -/
  complete : ∀ wanted seen later body,
    ReflTransGen (Package.BuildStep p.setup.packageDirectory.collapsed wanted) p.tree seen →
    ReflTransGen (Package.BuildStep p.setup.packageDirectory.collapsed wanted) seen later →
    ({ p with tree := seen } : Pipeline).download later name = .ok (.ok body) →
      p.tree.content? (p.setup.packageDirectory.collapsed ++ [name]) = some body ∨
        ∃ entries, wanted name entries ∧ body = .archive entries

/-- **Downloads stay in the package directory and deliver nothing that is half written**, whatever
the name and whatever the directories hold. -/
theorem delivers_safely (p : Pipeline) (name : String) : p.DeliversSafely name where
  contained _ := directChild_of_packagePath
  delivered later body h := by
    obtain ⟨path, hpath, -⟩ := download_eq_ok_iff.mp h
    have hchild := directChild_of_packagePath hpath
    exact ⟨hchild.child ▸ hchild, content?_of_download h⟩
  temporary package random later := by
    have hrefused := p.packagePath_temporaryName package random
    refine ⟨hrefused, ?_⟩
    unfold download
    rw [hrefused]
    rfl
  writing t source _ hdirectory := Package.run_ofDirectory hdirectory t source
  complete wanted seen later body hseen hlater h := by
    obtain ⟨path, hpath, hread⟩ := download_eq_ok_iff.mp h
    obtain ⟨hsafe, rfl, -⟩ := packagePath_eq_ok_iff.mp hpath
    have hcontent := content?_of_download h
    exact Package.origin_of_run (hseen.trans hlater)
      (Path.collapsed_ne_nil (packageDirectory_ne_nil hread.symm))
      (Text.not_isTemporary_of_isSafeFileName hsafe) hcontent

/-- A package is found and delivered while part of another one with the same name is there. -/
theorem delivers_safely_orders :
    let setup : PipelineSetup :=
      { stagingRoot := ["", "tmp"]
        packageDirectory := ["", "out"]
        generate := .standard }
    let tree : FileTree FileBody :=
      ⟨[(["", "out"], .directory), (["", "out", "orders.zip"], .file (.archive [])),
        (["", "out", ".orders.zip.00000000.tmp"], .file (.bytes ⟨#[80, 75]⟩))]⟩
    let p := start setup tree
    p.DirectChild "orders.zip" ["", "out", "orders.zip"] ∧
      p.packagePath ".orders.zip.00000000.tmp" =
        .error (.invalidName ".orders.zip.00000000.tmp") := by
  intro setup tree p
  have hfound : p.packagePath "orders.zip" = .ok ["", "out", "orders.zip"] := by rfl
  have hsafely := p.delivers_safely "orders.zip"
  exact ⟨hsafely.contained _ hfound, (hsafely.temporary "orders.zip" "00000000" tree).1⟩

end Pipeline

end EntityScaffold
