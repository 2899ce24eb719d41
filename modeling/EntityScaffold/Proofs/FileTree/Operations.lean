import EntityScaffold.Proofs.FileTree.Places
import Mathlib.Data.List.Perm.Subperm

/-!
# What the operations on files change

Every operation is described by what stands at each place afterwards. An operation that fails
changes no file: at most directories were added on the way to its place.

Results:
* `FileTree.grown_makeDirectories`, `find_of_makeDirectories`: directories are added on the way,
  and after a success the whole way is there.
* `FileTree.node?_freeTemporary`: the temporary name is free.
* `FileTree.Written`, `written_of_buildAtomically`, `grown_of_buildAtomically`: a file is written
  at its place and nowhere else, or not at all.
* `FileTree.node?_removeDirectory`, `node?_removeFile`: what a removal leaves.
-/

namespace EntityScaffold.FileTree

variable {α : Type} {t t' : FileTree α} {p q : Path} {c : α}

/-! ## Directories -/

theorem makeDirectory_eq_ok (h : t.makeDirectory p = .ok t') :
    t.walk p = .ok p.collapsed ∧ t.node? p.collapsed = none ∧
      t' = t.put p.collapsed .directory := by
  unfold makeDirectory at h
  cases hwalk : t.walk p with
  | error e => simp [hwalk, bind, Except.bind] at h
  | ok place =>
    obtain rfl := eq_of_walk hwalk
    cases hnode : t.node? p.collapsed with
    | some n => simp [hwalk, hnode, bind, Except.bind] at h
    | none =>
      simp only [hwalk, hnode, bind, Except.bind, pure, Except.pure, Except.ok.injEq] at h
      exact ⟨rfl, rfl, h.symm⟩

/-- Only below the anchors is there nothing. -/
theorem not_length_le_of_node? (h : t.node? q = none) : ¬ q.length ≤ 1 := by
  intro hq
  rw [node?_of_length_le t hq] at h
  cases h

theorem grown_of_makeDirectory (h : t.makeDirectory p = .ok t') : Grown t t' p := by
  obtain ⟨-, hnone, rfl⟩ := makeDirectory_eq_ok h
  intro q
  rw [node?_put _ _ _ _ (not_length_le_of_node? hnone)]
  by_cases hq : q = p.collapsed
  · subst hq
    exact .inr ⟨hnone, if_pos rfl, Path.OnWay.collapsed p⟩
  · exact .inl (if_neg hq)

theorem find_of_makeDirectory (h : t.makeDirectory p = .ok t') :
    t'.find p = .ok (p.collapsed, .directory) := by
  have hgrown := grown_of_makeDirectory h
  obtain ⟨hwalk, hnone, rfl⟩ := makeDirectory_eq_ok h
  refine find_eq_ok_iff.mpr ⟨walk_mono (fun q _ hq => hgrown.isDirectory hq) hwalk, ?_⟩
  rw [node?_put _ _ _ _ (not_length_le_of_node? hnone), if_pos rfl]

theorem find_of_unlessDirectory {e : FileError} (h : t.unlessDirectory p e = .ok ()) :
    t.find p = .ok (p.collapsed, .directory) := by
  unfold unlessDirectory at h
  split_ifs at h
  cases hpresent : t.present? p with
  | error e' => simp [hpresent] at h
  | ok n =>
    match n, hpresent with
    | some .directory, hpresent => exact exists_find_of_present? hpresent
    | some (.file c), hpresent => simp [hpresent] at h
    | none, hpresent => simp [hpresent] at h

/-- **Directories are added on the way of the path only.** -/
theorem grown_makeDirectories (t : FileTree α) (p : Path) : Grown t (t.makeDirectories p).1 p := by
  fun_induction makeDirectories t p with
  | case1 p t' h => exact grown_of_makeDirectory h
  | case2 p h hlength => exact Grown.refl t p
  | case3 p h hlength t' e hrest ih =>
    rw [hrest] at ih
    exact ih.of_prefix (List.dropLast_prefix p)
  | case4 p h hlength t' hrest t'' hlast ih =>
    rw [hrest] at ih
    exact (ih.of_prefix (List.dropLast_prefix p)).trans (grown_of_makeDirectory hlast)
  | case5 p h hlength t' hrest hlast ih =>
    rw [hrest] at ih
    exact ih.of_prefix (List.dropLast_prefix p)
  | case6 p h hlength t' hrest e hne hlast ih =>
    rw [hrest] at ih
    exact ih.of_prefix (List.dropLast_prefix p)
  | case7 p e hne h => exact Grown.refl t p

/-- **After a success the directory is there.** -/
theorem find_of_makeDirectories (h : t.makeDirectories p = (t', .ok ())) :
    t'.find p = .ok (p.collapsed, .directory) := by
  unfold makeDirectories at h
  split at h
  · rename_i t₁ hmade
    cases h
    exact find_of_makeDirectory hmade
  · split_ifs at h with hlength
    · cases h
    split at h
    · cases h
    · rename_i t₁ hrest
      split at h
      · rename_i t₂ hmade
        cases h
        exact find_of_makeDirectory hmade
      · cases h
      · rename_i e hne hlast
        injection h with ht hr
        subst ht
        exact find_of_unlessDirectory hr
  · injection h with ht hr
    subst ht
    exact find_of_unlessDirectory hr

/-- After a failure the directory itself was not made. -/
theorem grown_of_makeDirectories_error {e : FileError} (h : t.makeDirectories p = (t', .error e)) :
    Grown t t' p.dropLast := by
  have hrest := grown_makeDirectories t p.dropLast
  unfold makeDirectories at h
  split at h
  · cases h
  · split_ifs at h with hlength
    · cases h
      exact .refl t _
    · split at h
      · rename_i t₁ e₁ hparent
        cases h
        rwa [hparent] at hrest
      · rename_i t₁ hparent
        rw [hparent] at hrest
        split at h
        · cases h
        · cases h
          exact hrest
        · injection h with ht hr
          exact ht ▸ hrest
  · injection h with ht hr
    exact ht ▸ .refl t _

theorem keyed_makeDirectory (h : t.Keyed) (hmade : t.makeDirectory p = .ok t') : t'.Keyed := by
  obtain ⟨-, -, rfl⟩ := makeDirectory_eq_ok hmade
  exact keyed_put h _ _

theorem keyed_makeDirectories (h : t.Keyed) (p : Path) : (t.makeDirectories p).1.Keyed := by
  fun_induction makeDirectories t p with
  | case1 p t' hmade => exact keyed_makeDirectory h hmade
  | case2 p hfailed hlength => exact h
  | case3 p hfailed hlength t' e hrest ih =>
    rw [hrest] at ih
    exact ih
  | case4 p hfailed hlength t' hrest t'' hlast ih =>
    rw [hrest] at ih
    exact keyed_makeDirectory ih hlast
  | case5 p hfailed hlength t' hrest hlast ih =>
    rw [hrest] at ih
    exact ih
  | case6 p hfailed hlength t' hrest e hne hlast ih =>
    rw [hrest] at ih
    exact ih
  | case7 p e hne hfailed => exact h

/-! ## Temporary names -/

/-- The random part of a name reads back as its number. -/
theorem randomPart_injective : Function.Injective randomPart := by
  intro k k' h
  unfold randomPart at h
  have hread : ∀ k n : Nat,
      Nat.ofDigitChars 10 (List.replicate n '0' ++ Nat.toDigits 10 k) 0 = k := by
    intro k n
    rw [Nat.ofDigitChars_append, Nat.ofDigitChars_replicate_zero, Nat.mul_zero,
      Nat.ofDigitChars_ten_toDigits]
  have hchars := congrArg (fun s => Nat.ofDigitChars 10 s.toList 0) h
  simpa only [String.toList_ofList, hread] using hchars

theorem toList_temporaryName (name random : String) :
    (temporaryName name random).toList =
      '.' :: (name.toList ++ '.' :: (random.toList ++ ".tmp".toList)) := by
  have hplain : temporaryName name random = "." ++ name ++ "." ++ random ++ ".tmp" := rfl
  rw [hplain]
  simp [String.toList_append]

theorem temporaryName_injective (name : String) : Function.Injective (temporaryName name) := by
  intro random random' h
  have hchars := congrArg String.toList h
  simp only [toList_temporaryName, List.cons.injEq, true_and] at hchars
  have htail := List.append_cancel_left hchars
  simp only [List.cons.injEq, true_and] at htail
  exact String.toList_inj.mp (List.append_cancel_right htail)

/-- A temporary name is not the name that it is made for. -/
theorem temporaryName_ne (name random : String) : temporaryName name random ≠ name := by
  intro h
  have hlength := congrArg (fun s => s.toList.length) h
  simp [toList_temporaryName] at hlength
  omega

theorem temporaryName_ne_dotdot (name random : String) : temporaryName name random ≠ ".." := by
  intro h
  have hlength := congrArg (fun s => s.toList.length) h
  simp [toList_temporaryName] at hlength
  omega

theorem exists_freeTemporary (t : FileTree α) (directory : Path) (name : String) :
    ∃ random, t.freeTemporary directory name = temporaryName name random := by
  unfold freeTemporary
  cases hfind : List.find? (fun n => (t.node? (directory ++ [n])).isNone)
      ((List.range (t.entries.length + 1)).map fun k => temporaryName name (randomPart k)) with
  | none => exact ⟨"", by simp only [hfind, Option.getD_none]⟩
  | some n =>
    obtain ⟨k, -, rfl⟩ := List.mem_map.mp (List.mem_of_find?_eq_some hfind)
    exact ⟨randomPart k, by simp only [hfind, Option.getD_some]⟩

/-- **Nothing has the temporary name yet.** There is one more candidate than there are entries. -/
theorem node?_freeTemporary {directory : Path} (hdirectory : directory ≠ []) (name : String) :
    t.node? (directory ++ [t.freeTemporary directory name]) = none := by
  unfold freeTemporary
  set candidates := (List.range (t.entries.length + 1)).map fun k =>
    temporaryName name (randomPart k) with hcandidates
  cases hfind : candidates.find? fun n => (t.node? (directory ++ [n])).isNone with
  | some n =>
    simp only [hfind, Option.getD_some]
    simpa using List.find?_some hfind
  | none =>
    exfalso
    have hnodup : (candidates.map fun n => directory ++ [n]).Nodup := by
      refine List.Nodup.map (fun n n' h => ?_) (List.Nodup.map ?_ List.nodup_range)
      · simpa using h
      · exact fun k k' h => randomPart_injective (temporaryName_injective name h)
    have hsubset : (candidates.map fun n => directory ++ [n]) ⊆ t.entries.map Prod.fst := by
      intro q hq
      obtain ⟨n, hn, rfl⟩ := List.mem_map.mp hq
      have hsome := List.find?_eq_none.mp hfind n hn
      have hlength : ¬ (directory ++ [n]).length ≤ 1 := by
        have hpos := List.length_pos_iff.mpr hdirectory
        simp
        omega
      rw [node?_eq_lookup _ hlength] at hsome
      cases hlookup : t.entries.lookup (directory ++ [n]) with
      | none => simp [hlookup] at hsome
      | some m =>
        obtain ⟨front, back, hentries, -⟩ := List.lookup_eq_some_iff.mp hlookup
        rw [hentries]
        simp
    have hle := (List.subperm_of_subset hnodup hsubset).length_le
    rw [hcandidates, List.length_map, List.length_map, List.length_range, List.length_map] at hle
    omega

/-! ## Files -/

/-- The second tree is the first with the file written at the end of the path, and perhaps with
directories added above it. -/
structure Written (t t' : FileTree α) (p : Path) (c : α) : Prop where
  find : t'.find p = .ok (p.collapsed, .file c)
  replaced : t.node? p.collapsed ≠ some .directory
  others : ∀ q ≠ p.collapsed, t'.node? q = t.node? q ∨
    (t.node? q = none ∧ t'.node? q = some .directory ∧ Path.OnWay q (Path.parent p))

namespace Written

theorem node?_self (h : Written t t' p c) : t'.node? p.collapsed = some (.file c) :=
  (find_eq_ok_iff.mp h.find).2

/-- **One file is written and no other touched.** -/
theorem content?_eq (h : Written t t' p c) (q : Path) :
    t'.content? q = if q = p.collapsed then some c else t.content? q := by
  split_ifs with hq
  · subst hq
    exact content?_eq_some_iff.mpr h.node?_self
  · rcases h.others q hq with heq | ⟨hnone, hdir, -⟩
    · exact content?_congr heq
    · rw [content?_of_directory hdir, content?_of_none hnone]

theorem isDirectory (h : Written t t' p c) (hq : t.isDirectory q = true) :
    t'.isDirectory q = true := by
  have hdir := isDirectory_iff.mp hq
  have hne : q ≠ p.collapsed := by
    rintro rfl
    exact h.replaced hdir
  rcases h.others q hne with heq | ⟨hnone, -, -⟩
  · exact isDirectory_iff.mpr (heq.trans hdir)
  · rw [hdir] at hnone
    cases hnone

end Written

theorem moveFile_eq_ok {source : Path} (h : t.moveFile source p = .ok t') :
    t.walk p = .ok p.collapsed ∧ p.getLast? ≠ some ".." ∧ t.node? p.collapsed ≠ some .directory ∧
      ∃ c, t.content? source = some c ∧ t' = (t.erase source).put p.collapsed (.file c) := by
  unfold moveFile at h
  cases hwalk : t.walk p with
  | error e => simp [hwalk, bind, Except.bind] at h
  | ok place =>
    obtain rfl := eq_of_walk hwalk
    simp only [hwalk, bind, Except.bind] at h
    split_ifs at h with hlast
    split at h
    · cases h
    · cases h
    · rename_i c hcontent hnot
      refine ⟨rfl, hlast, fun hdir => hnot hdir, c, hcontent, ?_⟩
      simpa [pure, Except.pure, eq_comm] using h

/-- The place of a path is the place above it and its last name, unless that is a double dot. -/
theorem collapsed_eq_parent_concat (hlength : 2 ≤ p.length) (hlast : p.getLast? ≠ some "..") :
    p.collapsed = (Path.parent p).collapsed ++ [Path.name p] := by
  have hp := Path.parent_append_name hlength
  have hname : Path.name p ≠ ".." := by
    intro h
    rw [h] at hp
    rw [← hp] at hlast
    simp at hlast
  have hparent : Path.parent p ≠ [] := by
    refine Path.parent_ne_nil ?_
    rintro rfl
    simp at hlength
  conv_lhs => rw [← hp]
  exact Path.collapsed_concat_of_ne hparent hname

/-- The temporary file of a path stands beside its place, where nothing was. -/
theorem node?_of_walk_temporary (hp : p ≠ []) {built : Path}
    (h : t.walk (Path.parent p ++ [t.freeTemporary (Path.parent p).collapsed (Path.name p)]) =
      .ok built) :
    t.node? built = none ∧
      ∃ random, built =
        (Path.parent p).collapsed ++ [temporaryName (Path.name p) random] := by
  have hparent := Path.parent_ne_nil hp
  have hfree := node?_freeTemporary (t := t) (Path.collapsed_ne_nil hparent) (Path.name p)
  obtain ⟨random, hrandom⟩ := exists_freeTemporary t (Path.parent p).collapsed (Path.name p)
  have hbuilt := eq_of_walk h
  rw [hrandom, Path.collapsed_concat_of_ne hparent (temporaryName_ne_dotdot _ _)] at hbuilt
  rw [hrandom, ← hbuilt] at hfree
  exact ⟨hfree, random, hbuilt⟩

/-- The place of a path that is no directory lies below an anchor. -/
theorem two_le_length_of_node? (hp : p ≠ []) (h : t.node? p.collapsed ≠ some .directory) :
    2 ≤ p.length := by
  obtain ⟨anchor, names, rfl⟩ := List.exists_cons_of_ne_nil hp
  cases names with
  | nil => exact absurd (node?_of_length_le t (q := [anchor]) (Nat.le_refl 1)) h
  | cons n names => simp

/-- The temporary file moves to the place of its path. -/
theorem written_of_moveFile (hp : p ≠ []) {built : Path}
    (hbuilt : t.walk (Path.parent p ++ [t.freeTemporary (Path.parent p).collapsed (Path.name p)]) =
      .ok built) (hmoved : (t.put built (.file c)).moveFile built p = .ok t') :
    Written t t' p c := by
  obtain ⟨hnone, random, hplace⟩ := node?_of_walk_temporary hp hbuilt
  have hlow := not_length_le_of_node? hnone
  obtain ⟨hwalk, hlast, hdir, d, hd, rfl⟩ := moveFile_eq_ok hmoved
  obtain rfl : d = c := by
    rw [content?_eq_some_iff, node?_put _ _ _ _ hlow, if_pos rfl] at hd
    simpa using hd.symm
  have hlength := two_le_length_of_node? hp hdir
  have hne : p.collapsed ≠ built := by
    rw [hplace, collapsed_eq_parent_concat hlength hlast]
    intro h
    simp only [List.append_cancel_left_eq, List.cons.injEq, and_true] at h
    exact temporaryName_ne _ _ h.symm
  rw [node?_put _ _ _ _ hlow, if_neg hne] at hdir
  have hplaceLow : ¬ p.collapsed.length ≤ 1 := fun h => hdir (node?_of_length_le t h)
  -- the temporary file is gone again, and nothing was there before it
  have hnode : ∀ q, (((t.put built (.file d)).erase built).put p.collapsed (.file d)).node? q =
      if q = p.collapsed then some (.file d) else t.node? q := by
    intro q
    rw [node?_put _ _ _ _ hplaceLow, node?_erase _ _ _ hlow, node?_put _ _ _ _ hlow]
    by_cases hq : q = built
    · subst hq
      simp [hne.symm, hnone]
    · simp [hq]
  refine ⟨find_eq_ok_iff.mpr ⟨walk_mono ?_ hwalk, ?_⟩, hdir, fun q hq => .inl ?_⟩
  · intro q _ hq
    rw [isDirectory_iff, node?_put _ _ _ _ hlow] at hq
    rw [isDirectory_iff, hnode]
    split_ifs at hq with hqbuilt
    · cases hq
    · have hqplace : q ≠ p.collapsed := by
        rintro rfl
        exact hdir hq
      rw [if_neg hqplace, hq]
  · rw [hnode, if_pos rfl]
  · rw [hnode, if_neg hq]

/-- Directories may be added first. -/
theorem Written.of_grown {t₁ : FileTree α} (hgrown : Grown t t₁ (Path.parent p))
    (h : Written t₁ t' p c) : Written t t' p c := by
  refine ⟨h.find, fun hdir => h.replaced (hgrown.node?_eq_of_some hdir), fun q hq => ?_⟩
  rcases h.others q hq with heq | ⟨hnone, hdir, hway⟩
  · rcases hgrown q with heq' | ⟨hnone', hdir', hway'⟩
    · exact .inl (heq.trans heq')
    · exact .inr ⟨hnone', heq.trans hdir', hway'⟩
  · refine .inr ⟨?_, hdir, hway⟩
    rcases hgrown q with heq' | ⟨hnone', -, -⟩
    · exact heq'.symm.trans hnone
    · exact hnone'

/-- **A successful write puts the file at the end of its path and changes no other file.** -/
theorem written_of_buildAtomically (hp : p ≠ []) {content : Except FileError α}
    (h : t.buildAtomically p content = (t', .ok ())) :
    ∃ c, content = .ok c ∧ Written t t' p c := by
  have hgrown := grown_makeDirectories t (Path.parent p)
  unfold buildAtomically at h
  split at h
  · cases h
  · rename_i t₁ hmade
    rw [hmade] at hgrown
    simp only at h
    split_ifs at h
    · cases h
    · split at h
      · cases h
      · cases h
      · rename_i built c hbuilt
        split at h
        · rename_i t₃ hmoved
          cases h
          exact ⟨c, rfl, (written_of_moveFile hp hbuilt hmoved).of_grown hgrown⟩
        · cases h

/-- **A write that fails changes no file.** -/
theorem grown_of_buildAtomically (hp : p ≠ []) {content : Except FileError α} {e : FileError}
    (h : t.buildAtomically p content = (t', .error e)) : Grown t t' (Path.parent p) := by
  have hgrown := grown_makeDirectories t (Path.parent p)
  unfold buildAtomically at h
  split at h
  · rename_i t₁ e' hmade
    rw [hmade] at hgrown
    cases h
    exact hgrown
  · rename_i t₁ hmade
    rw [hmade] at hgrown
    simp only at h
    split_ifs at h
    · cases h
      exact hgrown
    · split at h
      · cases h
        exact hgrown
      · cases h
        exact hgrown
      · rename_i built c hbuilt
        obtain ⟨hnone, -⟩ := node?_of_walk_temporary hp hbuilt
        have hlow := not_length_le_of_node? hnone
        split at h
        · cases h
        · cases h
          -- the temporary file is removed again
          refine hgrown.trans fun q => .inl ?_
          rw [node?_erase _ _ _ hlow, node?_put _ _ _ _ hlow]
          by_cases hq : q = built
          · subst hq
            simp [hnone]
          · simp [hq]

theorem keyed_buildAtomically (h : t.Keyed) (p : Path) (content : Except FileError α) :
    (t.buildAtomically p content).1.Keyed := by
  have hmade := keyed_makeDirectories h (Path.parent p)
  unfold buildAtomically
  split
  · rename_i t₁ e hresult
    rw [hresult] at hmade
    exact hmade
  · rename_i t₁ hresult
    rw [hresult] at hmade
    simp only
    split_ifs
    · exact hmade
    · split
      · exact hmade
      · exact hmade
      · rename_i built c hbuilt
        have hput := keyed_put hmade built (.file c)
        split
        · rename_i t₃ hmoved
          obtain ⟨-, -, -, d, -, rfl⟩ := moveFile_eq_ok hmoved
          exact keyed_put (keyed_erase hput built) _ _
        · exact keyed_erase hput built

theorem written_of_writeAtomically (hp : p ≠ []) (h : t.writeAtomically p c = (t', .ok ())) :
    Written t t' p c := by
  obtain ⟨d, hd, hwritten⟩ := written_of_buildAtomically hp h
  cases hd
  exact hwritten

theorem grown_of_writeAtomically (hp : p ≠ []) {e : FileError}
    (h : t.writeAtomically p c = (t', .error e)) : Grown t t' (Path.parent p) :=
  grown_of_buildAtomically hp h

theorem keyed_writeAtomically (h : t.Keyed) (p : Path) (c : α) :
    (t.writeAtomically p c).1.Keyed := keyed_buildAtomically h p (.ok c)

/-! ## Removals -/

/-- **A removal touches nothing outside its directory.** -/
theorem node?_removeDirectory (t : FileTree α) (hq : ¬ p.collapsed <+: q) :
    (t.removeDirectory p).1.node? q = t.node? q := by
  unfold removeDirectory
  split
  · rfl
  · rfl
  · rfl
  · split
    · rename_i place hwalk
      obtain rfl := eq_of_walk hwalk
      exact node?_prune_of_not_below t hq
    · rfl

/-- A removal adds nothing. -/
theorem node?_removeDirectory_of_none (h : t.node? q = none) (p : Path) :
    (t.removeDirectory p).1.node? q = none := by
  unfold removeDirectory
  split
  · exact h
  · exact h
  · exact h
  · split
    · rename_i place hwalk
      by_cases hq : place <+: q
      · have hlow := not_length_le_of_node? h
        rw [node?_eq_lookup _ hlow] at h ⊢
        rw [lookup_prune, if_pos hq]
      · rw [node?_prune_of_not_below t hq]
        exact h
    · exact h

/-- **A directory that is there is removed with everything below it.** -/
theorem removeDirectory_of_find (h : t.find p = .ok (p.collapsed, .directory)) :
    t.removeDirectory p = (t.prune p.collapsed, .ok ()) := by
  unfold removeDirectory
  rw [present?_of_find h]
  simp only [(find_eq_ok_iff.mp h).1]

theorem keyed_removeDirectory (h : t.Keyed) (p : Path) : (t.removeDirectory p).1.Keyed := by
  unfold removeDirectory
  split
  · exact h
  · exact h
  · exact h
  · split
    · exact keyed_prune h _
    · exact h

/-- **Removing a file touches no other place.** -/
theorem node?_removeFile (t : FileTree α) (hq : q ≠ p.collapsed) :
    (t.removeFile p).1.node? q = t.node? q := by
  unfold removeFile
  split
  · rename_i place c hfind
    obtain ⟨hwalk, hnode⟩ := find_eq_ok_iff.mp hfind
    obtain rfl := eq_of_walk hwalk
    have hlow : ¬ p.collapsed.length ≤ 1 := by
      intro hle
      rw [node?_of_length_le t hle] at hnode
      cases hnode
    rw [node?_erase _ _ _ hlow, if_neg hq]
  · rfl
  · rfl
  · rfl

/-- **A file that is found is removed.** -/
theorem node?_removeFile_self (h : t.find p = .ok (p.collapsed, .file c)) :
    (t.removeFile p).1.node? p.collapsed = none := by
  have hnode := (find_eq_ok_iff.mp h).2
  have hlow : ¬ p.collapsed.length ≤ 1 := by
    intro hle
    rw [node?_of_length_le t hle] at hnode
    cases hnode
  unfold removeFile
  rw [h]
  simp only
  rw [node?_erase _ _ _ hlow, if_pos rfl]

/-- No directory is removed as a file. -/
theorem isDirectory_removeFile (h : t.isDirectory q = true) (p : Path) :
    (t.removeFile p).1.isDirectory q = true := by
  unfold removeFile
  split
  · rename_i place c hfind
    have hfile := (find_eq_ok_iff.mp hfind).2
    have hlow : ¬ place.length ≤ 1 := by
      intro hle
      rw [node?_of_length_le t hle] at hfile
      cases hfile
    have hdir := isDirectory_iff.mp h
    have hne : q ≠ place := by
      rintro rfl
      rw [hdir] at hfile
      cases hfile
    rw [isDirectory_iff, node?_erase _ _ _ hlow, if_neg hne, hdir]
  · exact h
  · exact h
  · exact h

/-- Where there is nothing, nothing is removed. -/
theorem node?_removeFile_of_none (h : t.node? p.collapsed = none) (q : Path) :
    (t.removeFile p).1.node? q = t.node? q := by
  unfold removeFile
  split
  · rename_i place c hfind
    obtain ⟨hwalk, hnode⟩ := find_eq_ok_iff.mp hfind
    rw [eq_of_walk hwalk, h] at hnode
    cases hnode
  · rfl
  · rfl
  · rfl

theorem keyed_removeFile (h : t.Keyed) (p : Path) : (t.removeFile p).1.Keyed := by
  unfold removeFile
  split
  · exact keyed_erase h _
  · exact h
  · exact h
  · exact h

end EntityScaffold.FileTree
