import EntityScaffold.Package.Archive
import EntityScaffold.Proofs.FileTree.Failures

/-!
# What packaging leaves

A package is made from a directory or from texts, and either way it is written as one archive: it is
at its place with all its entries, and no other file is touched, or nothing was written.

Results:
* `Package.written_of_writeArchive`, `grown_of_writeArchive`: what the writing of an archive leaves.
* `Package.written_of_ofDirectory`, `grown_of_ofDirectory`: what the packaging of a directory
  leaves.
* `Package.written_of_ofFiles`, `grown_of_ofFiles`: what the packaging of texts leaves, and the
  manifest that it gives.
* `Package.error_of_ofFiles`: why texts are not packaged.
-/

namespace EntityScaffold.Package

variable {t t' : FileTree FileBody} {place destination : Path}

/-! ## Archives -/

theorem archiveOf_eq_ok {entries : List ArchiveEntry} {body : FileBody}
    (h : archiveOf entries = .ok body) : body = .archive entries := by
  unfold archiveOf at h
  split_ifs at h
  cases h
  rfl

/-- An archive has room for names that are no longer than a path. -/
theorem archiveOf_of_le {entries : List ArchiveEntry}
    (h : ∀ e ∈ entries, e.name.utf8ByteSize ≤ FileTree.pathLimit) :
    archiveOf entries = .ok (.archive entries) := by
  refine if_neg fun hany => ?_
  obtain ⟨e, he, hlong⟩ := List.any_eq_true.mp hany
  have hlimit : FileTree.pathLimit ≤ entryNameLimit := by decide
  exact absurd (Nat.le_trans (h e he) hlimit) (Nat.not_le.mpr (of_decide_eq_true hlong))

/-- **An archive that is written is there, and no other file is touched.** -/
theorem written_of_writeArchive {archive : Except FileError FileBody}
    (hdestination : destination ≠ []) (h : writeArchive t destination archive = (t', .ok ())) :
    ∃ body, archive = .ok body ∧ FileTree.Written t t' destination body := by
  unfold writeArchive at h
  split at h
  · rename_i t₁ hwrite
    cases h
    exact FileTree.written_of_buildAtomically hdestination hwrite
  · cases h

/-- An archive that is not written meets a failure of a file. Directories may have been made. -/
theorem grown_of_writeArchive {archive : Except FileError FileBody} {e : PackageError}
    (hdestination : destination ≠ [])
    (h : writeArchive t destination archive = (t', .error e)) :
    (∃ cause, e = .file cause) ∧ FileTree.Grown t t' (Path.parent destination) := by
  unfold writeArchive at h
  split at h
  · cases h
  · rename_i t₁ cause hwrite
    cases h
    exact ⟨⟨cause, rfl⟩, FileTree.grown_of_buildAtomically hdestination hwrite⟩

/-- An archive is not written only for reasons that are reported, or for want of room for a name. -/
theorem error_of_writeArchive {entries : List ArchiveEntry} {e : PackageError}
    (hdestination : FileTree.hasNull destination = false)
    (h : writeArchive t destination (archiveOf entries) = (t', .error e)) :
    e.isSystem = true ∨ e = .file .longEntry := by
  unfold writeArchive at h
  split at h
  · cases h
  · rename_i t₁ cause hbuild
    cases h
    rcases FileTree.isSystem_of_buildAtomically hdestination hbuild with hsystem | hcontent
    · exact .inl hsystem
    · unfold archiveOf at hcontent
      split_ifs at hcontent
      cases hcontent
      exact .inr rfl

theorem keyed_writeArchive (h : t.Keyed) (destination : Path)
    (archive : Except FileError FileBody) : (writeArchive t destination archive).1.Keyed := by
  have hwrite := FileTree.keyed_buildAtomically h destination archive
  unfold writeArchive
  split <;> rename_i heq <;> rw [heq] at hwrite <;> exact hwrite

/-! ## Directories -/

theorem keyed_ofDirectory (h : t.Keyed) (source destination : Path) :
    (ofDirectory t source destination).1.Keyed := by
  unfold ofDirectory
  split
  · exact h
  · split
    · exact h
    · exact keyed_writeArchive h destination _
  · exact h

/-- A package is made of what stands below the directory where its path leads. -/
theorem written_of_ofDirectory {source : Path} (hdestination : destination ≠ [])
    (h : ofDirectory t source destination = (t', .ok ())) :
    FileTree.Written t t' destination (.archive (entriesBelow t source.collapsed)) := by
  unfold ofDirectory at h
  split at h
  · cases h
  · split at h
    · cases h
    · rename_i q hwalk
      rw [FileTree.eq_of_walk hwalk] at h
      obtain ⟨body, hbody, hwritten⟩ := written_of_writeArchive hdestination h
      cases hbody
      exact hwritten
  · cases h

/-- A package is made of what stands below its directory. -/
theorem exists_written_of_ofDirectory (hplace : place.collapsed = place)
    (hdestination : destination ≠ [])
    (h : ofDirectory t place destination = (t', .ok ())) :
    FileTree.Written t t' destination (.archive (entriesBelow t place)) :=
  hplace ▸ written_of_ofDirectory hdestination h

/-- Where no package can be made, directories may have been. -/
theorem grown_of_ofDirectory {source : Path} {e : PackageError}
    (hdestination : destination ≠ []) (h : ofDirectory t source destination = (t', .error e)) :
    FileTree.Grown t t' (Path.parent destination) := by
  unfold ofDirectory at h
  split at h
  · cases h
    exact .refl t _
  · split at h
    · cases h
      exact .refl t _
    · exact (grown_of_writeArchive hdestination h).2
  · cases h
    exact .refl t _

/-! ## Texts -/

variable {files : List (String × String)}

/-- A package of texts holds them in the order of their paths, and the manifest records them in the
same order. -/
theorem written_of_ofFiles {m : Manifest} (hdestination : destination ≠ [])
    (h : ofFiles t files destination = (t', .ok m)) :
    FileTree.Written t t' destination
        (.archive ((ordered files).map fun f => .of f.1 f.2.toUTF8)) ∧
      m = ⟨destination.name, (ordered files).map fun f => .of f.1 f.2⟩ ∧
      firstUnsafe? files = none := by
  unfold ofFiles at h
  split at h
  · cases h
  · rename_i hsafe
    simp only at h
    split at h
    · cases h
    · rename_i t₁ hwrite
      cases h
      obtain ⟨body, hbody, hwritten⟩ := written_of_writeArchive hdestination hwrite
      exact ⟨archiveOf_eq_ok hbody ▸ hwritten, rfl, hsafe⟩

/-- Where texts are not packaged, directories may have been made. -/
theorem grown_of_ofFiles {e : PackageError} (hdestination : destination ≠ [])
    (h : ofFiles t files destination = (t', .error e)) :
    FileTree.Grown t t' (Path.parent destination) := by
  unfold ofFiles at h
  split at h
  · cases h
    exact .refl t _
  · simp only at h
    split at h
    · rename_i t₁ cause hwrite
      cases h
      exact (grown_of_writeArchive hdestination hwrite).2
    · cases h

/-- **Why texts are not packaged**: one of their paths is refused, a name is too long for an
archive, or for a reason that is reported. -/
theorem error_of_ofFiles {e : PackageError} (hdestination : FileTree.hasNull destination = false)
    (h : (ofFiles t files destination).2 = .error e) :
    e.isSystem = true ∨ (∃ path, firstUnsafe? files = some path ∧ e = .unsafePath path) ∨
      e = .file .longEntry := by
  unfold ofFiles at h
  split at h
  · rename_i path hunsafe
    cases h
    exact .inr (.inl ⟨path, hunsafe, rfl⟩)
  · simp only at h
    split at h
    · rename_i t₁ cause hwrite
      cases h
      exact (error_of_writeArchive hdestination hwrite).imp_right .inr
    · cases h

end EntityScaffold.Package
