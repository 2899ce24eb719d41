import EntityScaffold.Proofs.FileTree.Operations

/-!
# Which failures an operation meets

An operation on files fails for a reason that the file system reports, unless a name in its path
holds the character that ends names.

Results:
* `FileTree.error_of_walk`, `FileTree.error_of_find`: why a path leads nowhere.
* `FileTree.eq_nameTooLong_of_present?`: the only reason for which it is not known whether something
  stands where a path leads.
* `FileTree.isSystem_of_makeDirectories`, `FileTree.isSystem_of_buildAtomically`: without that
  character in the path, directories and files are not made only for reasons that are reported.
-/

namespace EntityScaffold.FileTree

variable {α : Type} {t t' : FileTree α} {p : Path} {e : FileError}

/-! ## Paths that lead nowhere -/

/-- The reasons why a path leads nowhere. -/
def FailsToLead (p : Path) (e : FileError) : Prop :=
  (e = .nullByte ∧ hasNull p = true) ∨ e = .nameTooLong ∨ e = .notFound ∨ e = .notDirectory

theorem FailsToLead.isSystem (h : FailsToLead p e) (hp : hasNull p = false) :
    e.isSystem = true := by
  rcases h with ⟨-, hnull⟩ | rfl | rfl | rfl
  · rw [hp] at hnull
    cases hnull
  · rfl
  · rfl
  · rfl

theorem error_of_walkFrom {place : Path} {names : List String}
    (h : t.walkFrom place names = .error e) :
    e = .nameTooLong ∨ e = .notFound ∨ e = .notDirectory := by
  induction names generalizing place with
  | nil => cases h
  | cons n names ih =>
    unfold walkFrom at h
    split at h
    · cases h
      exact .inr (.inl rfl)
    · cases h
      exact .inr (.inr rfl)
    · split_ifs at h
      · exact ih h
      · cases h
        exact .inl rfl
      · exact ih h

theorem error_of_walk (h : t.walk p = .error e) : FailsToLead p e := by
  unfold walk at h
  split_ifs at h with hnull
  · cases h
    exact .inl ⟨rfl, hnull⟩
  · cases h
    exact .inr (.inl rfl)
  · exact .inr (error_of_walkFrom h)

theorem error_of_find (h : t.find p = .error e) : FailsToLead p e := by
  unfold find at h
  cases hwalk : t.walk p with
  | error e' =>
    rw [hwalk] at h
    cases h
    exact error_of_walk hwalk
  | ok place =>
    simp only [hwalk, bind, Except.bind] at h
    split at h
    · cases h
    · cases h
      exact .inr (.inr (.inl rfl))

/-- **Only a name that is too long keeps it unknown whether something is there.** -/
theorem eq_nameTooLong_of_present? (h : t.present? p = .error e) : e = .nameTooLong := by
  unfold present? at h
  split at h
  · cases h
  · cases h
  · cases h
  · cases h
  · rename_i e' hfound hdirectory hnull hfind
    cases h
    rcases error_of_find hfind with ⟨rfl, -⟩ | rfl | rfl | rfl
    · exact absurd rfl hnull
    · rfl
    · exact absurd rfl hfound
    · exact absurd rfl hdirectory

/-! ## Directories -/

theorem hasNull_dropLast (hp : hasNull p = false) : hasNull p.dropLast = false := by
  unfold hasNull at hp ⊢
  rw [List.any_eq_false] at hp ⊢
  exact fun n hn => hp n (List.dropLast_subset _ hn)

theorem hasNull_parent (hp : hasNull p = false) : hasNull (Path.parent p) = false := by
  unfold Path.parent
  split_ifs
  · exact hp
  · exact hasNull_dropLast hp

theorem hasNull_collapsed (hp : hasNull p = false) : hasNull p.collapsed = false := by
  unfold hasNull at hp ⊢
  rw [List.any_eq_false] at hp ⊢
  exact fun n hn => hp n (Path.mem_of_mem_collapsed hn)

theorem isSystem_of_makeDirectory (hp : hasNull p = false) (h : t.makeDirectory p = .error e) :
    e.isSystem = true := by
  unfold makeDirectory at h
  cases hwalk : t.walk p with
  | error e' =>
    rw [hwalk] at h
    cases h
    exact (error_of_walk hwalk).isSystem hp
  | ok place =>
    simp only [hwalk, bind, Except.bind] at h
    split at h
    · cases h
      rfl
    · cases h

theorem isSystem_of_unlessDirectory {e' : FileError} (he : e.isSystem = true)
    (h : t.unlessDirectory p e = .error e') : e'.isSystem = true := by
  unfold unlessDirectory at h
  split_ifs at h
  · cases h
    exact he
  · split at h
    · cases h
    · cases h
      exact he
    · rename_i e'' hpresent
      cases h
      rw [eq_nameTooLong_of_present? hpresent]
      rfl

/-- **Directories are not made only for reasons that are reported.** -/
theorem isSystem_of_makeDirectories (hp : hasNull p = false)
    (h : (t.makeDirectories p).2 = .error e) : e.isSystem = true := by
  fun_induction makeDirectories t p generalizing e with
  | case1 p t' hmade => cases h
  | case2 p hfailed hlength =>
    cases h
    rfl
  | case3 p hfailed hlength t' e' hrest ih =>
    cases h
    exact ih (hasNull_dropLast hp) (congrArg Prod.snd hrest)
  | case4 p hfailed hlength t' hrest t'' hlast ih => cases h
  | case5 p hfailed hlength t' hrest hlast ih =>
    cases h
    rfl
  | case6 p hfailed hlength t' hrest e' hne hlast ih =>
    exact isSystem_of_unlessDirectory (isSystem_of_makeDirectory hp hlast) h
  | case7 p e' hne hfailed =>
    exact isSystem_of_unlessDirectory (isSystem_of_makeDirectory hp hfailed) h

/-! ## Files -/

theorem null_not_mem_randomPart (k : Nat) : '\x00' ∉ (randomPart k).toList := by
  unfold randomPart
  rw [String.toList_ofList, List.mem_append, not_or]
  refine ⟨fun h => ?_, fun h => ?_⟩
  · exact absurd (List.eq_of_mem_replicate h) (by decide)
  · exact absurd (Nat.isDigit_of_mem_toDigits (by decide) (by decide) h) (by decide)

/-- A temporary name is as good a name as the one that it is made for. -/
theorem hasNull_freeTemporary (t : FileTree α) (directory : Path) {name : String}
    (hname : hasNull [name] = false) : hasNull [t.freeTemporary directory name] = false := by
  have htemporary : ∀ random : String, '\x00' ∉ random.toList →
      hasNull [temporaryName name random] = false := by
    intro random hrandom
    have hnot : '\x00' ∉ name.toList := by simpa [hasNull] using hname
    have htext : '\x00' ∉ (temporaryName name random).toList := by
      rw [toList_temporaryName]
      simp [hnot, hrandom]
    simpa [hasNull] using htext
  have hchosen : ∀ candidate : Option String,
      (∀ n, candidate = some n → hasNull [n] = false) →
      hasNull [candidate.getD (temporaryName name "")] = false := by
    intro candidate hcandidate
    cases candidate with
    | none => exact htemporary "" (by decide)
    | some n => exact hcandidate n rfl
  unfold freeTemporary
  refine hchosen _ fun n hn => ?_
  obtain ⟨k, -, rfl⟩ := List.mem_map.mp (List.mem_of_find?_eq_some hn)
  exact htemporary _ (null_not_mem_randomPart k)

theorem isSystem_of_moveFile {source : Path} (hp : hasNull p = false)
    (h : t.moveFile source p = .error e) : e.isSystem = true := by
  unfold moveFile at h
  cases hwalk : t.walk p with
  | error e' =>
    rw [hwalk] at h
    cases h
    exact (error_of_walk hwalk).isSystem hp
  | ok place =>
    simp only [hwalk, bind, Except.bind] at h
    split_ifs at h
    · cases h
      rfl
    · split at h
      · cases h
        rfl
      · cases h
        rfl
      · cases h

theorem hasNull_name (hp : hasNull p = false) : hasNull [Path.name p] = false := by
  unfold Path.name
  split_ifs with hlength
  · decide
  · have hne : p ≠ [] := by
      rintro rfl
      simp at hlength
    rw [List.getLastD_eq_getLast?, List.getLast?_eq_getLast_of_ne_nil hne, Option.getD_some]
    unfold hasNull at hp ⊢
    rw [List.any_eq_false] at hp
    simpa using hp _ (List.getLast_mem hne)

/-- **A file is not made only for reasons that are reported**, or for want of a content. -/
theorem isSystem_of_buildAtomically (hp : hasNull p = false) {content : Except FileError α}
    (h : t.buildAtomically p content = (t', .error e)) :
    e.isSystem = true ∨ content = .error e := by
  unfold buildAtomically at h
  split at h
  · rename_i t₁ e₁ hmade
    cases h
    exact .inl (isSystem_of_makeDirectories (hasNull_parent hp) (congrArg Prod.snd hmade))
  · rename_i t₁ hmade
    simp only [hasNull_name hp, Bool.false_eq_true, if_false] at h
    split at h
    · rename_i e₁ hwalk
      have htemporary : hasNull (Path.parent p ++
          [t₁.freeTemporary (Path.parent p).collapsed (Path.name p)]) = false := by
        have hparent := hasNull_parent hp
        have hfree := hasNull_freeTemporary t₁ (Path.parent p).collapsed (hasNull_name hp)
        unfold hasNull at hparent hfree ⊢
        rw [List.any_append, hparent, hfree]
        rfl
      cases h
      exact .inl ((error_of_walk hwalk).isSystem htemporary)
    · cases h
      exact .inr rfl
    · split at h
      · cases h
      · rename_i hmove
        cases h
        exact .inl (isSystem_of_moveFile hp hmove)

end EntityScaffold.FileTree
