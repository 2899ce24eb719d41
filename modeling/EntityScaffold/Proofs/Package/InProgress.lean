import EntityScaffold.Package.Archive
import EntityScaffold.Proofs.FileTree.Operations
import Mathlib.Logic.Relation

/-!
# Packages in progress

A package is written over some time, and there may be several writers in one directory. Others see
the files of the directory in between: an archive of which only a part is there, in the temporary
file that it is built in, until the file is complete and moved to the name of the package. What they
find under any other name was there before anyone began to write, or is a complete archive.

* `FileTree.IsTemporary`: the names of temporary files.
* `Package.BuildStep`: what a writer does to the files, step by step.

Results:
* `Package.BuildStep.origin`, `Package.origin_of_run`: where the content of a file comes from.
* `Package.run_writeArchive`, `Package.run_ofDirectory`: writing a package goes by these steps.
-/

namespace EntityScaffold

open Relation (ReflTransGen)

/-- The name is that of a temporary file for a package. -/
def FileTree.IsTemporary (name : String) : Prop :=
  ∃ package random, name = FileTree.temporaryName package random

namespace Package

/-- What writers of packages do to the files of a directory, a step at a time. Which archives are
complete, and for which package, is said by `wanted`; a temporary file may hold anything. -/
inductive BuildStep (directory : Path) (wanted : String → List ArchiveEntry → Prop) :
    FileTree FileBody → FileTree FileBody → Prop
  /-- Directories are made on the way somewhere. -/
  | grow {t t' : FileTree FileBody} {p : Path} (grown : FileTree.Grown t t' p) :
    BuildStep directory wanted t t'
  /-- A temporary file gets what there is of an archive so far. -/
  | build (t : FileTree FileBody) (package random : String) (body : FileBody) :
    BuildStep directory wanted t
      (t.put (directory ++ [FileTree.temporaryName package random]) (.file body))
  /-- A file is removed, or there was none. -/
  | remove (t : FileTree FileBody) (name : String) :
    BuildStep directory wanted t (t.erase (directory ++ [name]))
  /-- An archive is complete and gets the name of its package. -/
  | move {t : FileTree FileBody} {package random : String} {entries : List ArchiveEntry}
    (complete : wanted package entries)
    (built : t.content? (directory ++ [FileTree.temporaryName package random]) =
      some (.archive entries)) :
    BuildStep directory wanted t
      ((t.erase (directory ++ [FileTree.temporaryName package random])).put
        (directory ++ [package]) (.file (.archive entries)))

variable {directory : Path} {wanted : String → List ArchiveEntry → Prop}
  {t t' : FileTree FileBody} {name : String} {body : FileBody}

/-! ## What is found meanwhile -/

theorem not_length_le_of_ne_nil (hdirectory : directory ≠ []) (name : String) :
    ¬ (directory ++ [name]).length ≤ 1 := by
  have := List.length_pos_iff.mpr hdirectory
  rw [List.length_append, List.length_singleton]
  omega

theorem content?_put_file (hdirectory : directory ≠ []) (n : String) (q : Path) :
    (t.put (directory ++ [n]) (.file body)).content? q =
      if q = directory ++ [n] then some body else t.content? q := by
  have hnode := t.node?_put (directory ++ [n]) q (.file body) (not_length_le_of_ne_nil hdirectory n)
  split_ifs with hq
  · rw [if_pos hq] at hnode
    exact FileTree.content?_eq_some_iff.mpr hnode
  · rw [if_neg hq] at hnode
    exact FileTree.content?_congr hnode

/-- What is found after a file was removed was there before. -/
theorem content?_of_erase (hdirectory : directory ≠ []) {n : String} {q : Path}
    (h : (t.erase (directory ++ [n])).content? q = some body) : t.content? q = some body := by
  have hnode := t.node?_erase (directory ++ [n]) q (not_length_le_of_ne_nil hdirectory n)
  split_ifs at hnode with hq
  · rw [FileTree.content?_of_none hnode] at h
    cases h
  · rwa [FileTree.content?_congr hnode] at h

/-- **A step puts nothing but complete archives under names that are not temporary.** -/
theorem BuildStep.origin (step : BuildStep directory wanted t t') (hdirectory : directory ≠ [])
    (hname : ¬ FileTree.IsTemporary name)
    (h : t'.content? (directory ++ [name]) = some body) :
    t.content? (directory ++ [name]) = some body ∨
      ∃ entries, wanted name entries ∧ body = .archive entries := by
  cases step with
  | grow grown => exact .inl (grown.content?_eq _ ▸ h)
  | build package random partly =>
    have hne : directory ++ [name] ≠ directory ++ [FileTree.temporaryName package random] := by
      intro heq
      exact hname ⟨package, random, List.singleton_inj.mp (List.append_cancel_left heq)⟩
    rw [content?_put_file hdirectory, if_neg hne] at h
    exact .inl h
  | remove n => exact .inl (content?_of_erase hdirectory h)
  | @move package random entries complete built =>
    rw [content?_put_file hdirectory] at h
    split_ifs at h with heq
    · obtain rfl := List.singleton_inj.mp (List.append_cancel_left heq)
      exact .inr ⟨entries, complete, (Option.some.inj h).symm⟩
    · exact .inl (content?_of_erase hdirectory h)

/-- **Neither does any number of steps**, of however many writers. -/
theorem origin_of_run (run : ReflTransGen (BuildStep directory wanted) t t')
    (hdirectory : directory ≠ []) (hname : ¬ FileTree.IsTemporary name)
    (h : t'.content? (directory ++ [name]) = some body) :
    t.content? (directory ++ [name]) = some body ∨
      ∃ entries, wanted name entries ∧ body = .archive entries := by
  induction run with
  | refl => exact .inl h
  | tail _ step ih =>
    rcases step.origin hdirectory hname h with hbefore | hcomplete
    · exact ih hbefore
    · exact .inr hcomplete

/-! ## Writing a package -/

section Writing

variable {package : String} (hdirectory : directory ≠ [])

include hdirectory

theorem parent_package : Path.parent (directory ++ [package]) = directory := by
  rw [Path.parent, if_neg (not_length_le_of_ne_nil hdirectory package), List.dropLast_concat]

theorem name_package : Path.name (directory ++ [package]) = package := by
  rw [Path.name, if_neg (not_length_le_of_ne_nil hdirectory package)]
  simp

/-- A temporary file that is complete is moved to its place or removed. -/
theorem run_moveFile {built : Path} {random : String} {entries : List ArchiveEntry}
    (hbuilt : built = directory.collapsed ++ [FileTree.temporaryName package random])
    (hcontent : t.content? built = some (.archive entries)) (hwanted : wanted package entries) :
    BuildStep directory.collapsed wanted t
      (match t.moveFile built (directory ++ [package]) with
        | .ok t' => t'
        | .error _ => t.erase built) := by
  subst hbuilt
  cases hmoved : t.moveFile _ (directory ++ [package]) with
  | error e => exact .remove t _
  | ok t' =>
    obtain ⟨-, hlast, -, c, hc, rfl⟩ := FileTree.moveFile_eq_ok hmoved
    obtain rfl := Option.some.inj (hc.symm.trans hcontent)
    have hne : package ≠ ".." := fun heq => hlast (by rw [heq, List.getLast?_concat])
    rw [Path.collapsed_concat_of_ne hdirectory hne]
    exact .move hwanted hcontent

/-- **Writing an archive goes by these steps**, whether it comes to an end or not. -/
theorem run_buildAtomically {content : Except FileError FileBody}
    (hcontent : ∀ c, content = .ok c → ∃ entries, wanted package entries ∧ c = .archive entries)
    (t : FileTree FileBody) :
    ReflTransGen (BuildStep directory.collapsed wanted) t
      (t.buildAtomically (directory ++ [package]) content).1 := by
  have hgrown := FileTree.grown_makeDirectories t (Path.parent (directory ++ [package]))
  unfold FileTree.buildAtomically
  split
  · rename_i t₁ e hmade
    rw [hmade] at hgrown
    exact .single (.grow hgrown)
  · rename_i t₁ hmade
    rw [hmade] at hgrown
    have hfirst : ReflTransGen (BuildStep directory.collapsed wanted) t t₁ := .single (.grow hgrown)
    simp only
    split_ifs
    · exact hfirst
    · split
      · exact hfirst
      · exact hfirst
      · rename_i built c hwalk
        obtain ⟨entries, hwanted, rfl⟩ := hcontent c rfl
        obtain ⟨hnone, random, hbuilt⟩ := FileTree.node?_of_walk_temporary (by simp) hwalk
        rw [parent_package hdirectory, name_package hdirectory] at hbuilt
        have hstored : (t₁.put built (.file (.archive entries))).content? built =
            some (.archive entries) := by
          rw [hbuilt, content?_put_file (Path.collapsed_ne_nil hdirectory), if_pos rfl]
        have hlast := run_moveFile (t := t₁.put built (.file (.archive entries))) hdirectory hbuilt
          hstored hwanted
        have hbuild : BuildStep directory.collapsed wanted t₁
            (t₁.put built (.file (.archive entries))) := hbuilt ▸ .build t₁ package random _
        refine (hfirst.tail hbuild).tail ?_
        revert hlast
        cases (t₁.put built (.file (.archive entries))).moveFile built (directory ++ [package]) <;>
          exact id

theorem run_writeArchive {archive : Except FileError FileBody}
    (harchive : ∀ c, archive = .ok c → ∃ entries, wanted package entries ∧ c = .archive entries)
    (t : FileTree FileBody) :
    ReflTransGen (BuildStep directory.collapsed wanted) t
      (writeArchive t (directory ++ [package]) archive).1 := by
  have hrun := run_buildAtomically hdirectory harchive t
  unfold writeArchive
  revert hrun
  rcases t.buildAtomically (directory ++ [package]) archive with ⟨t', e | _⟩ <;> exact id

/-- **So does packaging a directory**, and only the archive of its files is moved to the place of
the package. -/
theorem run_ofDirectory (t : FileTree FileBody) (source : Path) :
    ReflTransGen (BuildStep directory.collapsed fun n entries => n = package ∧
        ∃ place, t.walk source = .ok place ∧ entries = entriesBelow t place) t
      (ofDirectory t source (directory ++ [package])).1 := by
  unfold ofDirectory
  split
  · exact .refl
  · split
    · exact .refl
    · rename_i place hwalk
      refine run_writeArchive hdirectory (fun c hc => ?_) t
      cases hc
      exact ⟨_, ⟨rfl, place, hwalk, rfl⟩, rfl⟩
  · exact .refl

end Writing

end Package

end EntityScaffold
