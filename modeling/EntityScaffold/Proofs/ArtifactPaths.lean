import EntityScaffold.Proofs.Artifacts
import EntityScaffold.Proofs.Characters
import EntityScaffold.Proofs.Documents
import EntityScaffold.Proofs.FileTree.PathTexts

/-!
# Paths of generated files

The path of a generated file leads through the directory of its kind to a file that is named for
its type. A type is named for a table and the naming options, so as long as no table has a slash in
its name, a path has just these parts, and is in its shortest form already.

* `Request.NoSlash`: no valid table has a slash in its name.

Results:
* `Request.not_mem_typeName`: the name of a type has a slash, or any other character before the
  digits, only if the name of a table has it, but for a line feed at its end.
* `Request.mem_path_iff`: which characters the paths of a request take from the names of tables.
* `Request.relativeParts?_of_mem_artifacts`: where the path of a generated file leads.
* `Request.normalText_of_mem_artifacts`: it is in its shortest form.
-/

namespace EntityScaffold

/-! ## Names of types -/

namespace Request

/-- No valid table has a slash in its name. -/
def NoSlash (r : Request) : Prop := ∀ t ∈ r.validTables, '/' ∉ t.name.toList

variable {r : Request}

section Characters

variable {c : Char}

/-- Neither part of a name that a family adds has a character that no identifier has. -/
theorem not_mem_of_mem_families (hr : r.WellNamed) (hc : c.toNat < 48) (hline : c ≠ '\n')
    {f : TypeFamily} (hf : f ∈ r.families) : c ∉ f.before.toList ∧ c ∉ f.after.toList := by
  have hclass := Text.not_mem_of_acceptsFragment hc hline hr.naming.repositoryClassSuffix
  have hinterface := Text.not_mem_of_acceptsFragment hc hline hr.naming.repositoryInterfacePrefix
  have hservice := Text.not_mem_of_acceptsFragment hc hline hr.naming.serviceClassSuffix
  have hservices := Text.not_mem_of_acceptsFragment hc hline hr.naming.serviceInterfacePrefix
  have htests : c ∉ "Tests".toList :=
    Text.not_mem_of_acceptsFragment hc hline (by decide : Text.acceptsFragment "Tests" = true)
  simp only [families, List.mem_append, List.mem_cons, List.not_mem_nil, or_false,
    mem_onlyIf] at hf
  rcases hf with ((((rfl | rfl | rfl) | ⟨-, rfl⟩) | ⟨-, rfl⟩) | ⟨-, rfl⟩) | ⟨-, rfl⟩ <;>
    simp only [String.toList_append, String.toList_empty, List.mem_append, List.not_mem_nil,
      not_false_eq_true, not_or, and_self, *]

theorem not_mem_className (hc : c.toNat < 48) (hname : ∀ t ∈ r.validTables, c ∉ t.name.toList)
    {n : String} (hn : n ∈ r.classNames) : c ∉ n.toList := by
  obtain ⟨t, ht, rfl⟩ := List.mem_map.mp hn
  exact Text.not_mem_pascalCase hc (hname t ht)

theorem not_mem_sharedName (hr : r.WellNamed) (hc : c.toNat < 48) (hline : c ≠ '\n')
    {n : ArtifactKind × String} (hn : n ∈ r.sharedNames) : c ∉ n.2.toList := by
  have hcontext := Text.not_mem_of_acceptsIdentifier hc hline hr.contextName
  have hclass := Text.not_mem_of_acceptsFragment hc hline hr.naming.repositoryClassSuffix
  have hinterface := Text.not_mem_of_acceptsFragment hc hline hr.naming.repositoryInterfacePrefix
  have hgeneric : c ∉ r.genericRepository.toList := by
    unfold genericRepository
    split_ifs
    · exact Text.not_mem_of_acceptsFragment hc hline (by decide)
    · exact hclass
  simp only [sharedNames, List.mem_append, List.mem_cons, List.not_mem_nil, or_false,
    mem_onlyIf] at hn
  rcases hn with (rfl | rfl | rfl) | ⟨-, rfl⟩
  · exact hcontext
  · simp [genericRepositoryInterface, hinterface, hgeneric]
  · exact hgeneric
  · exact Text.not_mem_of_acceptsFragment hc hline (by decide)

/-- **A character that no identifier has is in the name of a type only if it is in the name of a
table.** -/
theorem not_mem_typeName (hr : r.WellNamed) (hc : c.toNat < 48) (hline : c ≠ '\n')
    (hname : ∀ t ∈ r.validTables, c ∉ t.name.toList) {a : Artifact} (ha : a ∈ r.allArtifacts) :
    c ∉ a.typeName.toList := by
  have hmem : (a.kind, a.typeName) ∈ r.allArtifacts.map fun a => (a.kind, a.typeName) :=
    List.mem_map_of_mem ha
  rw [allArtifacts_map_name, List.mem_append] at hmem
  rcases hmem with hmem | hmem
  · obtain ⟨n, hn, hmem⟩ := List.mem_flatMap.mp hmem
    obtain ⟨f, hf, heq⟩ := List.mem_map.mp hmem
    obtain ⟨hbefore, hafter⟩ := not_mem_of_mem_families hr hc hline hf
    rw [← (Prod.mk.inj heq).2]
    simp [TypeFamily.name, hbefore, hafter, not_mem_className hc hname hn]
  · exact not_mem_sharedName hr hc hline hmem

end Characters

/-- **No type has a slash in its name.** -/
theorem slash_not_mem_typeName (hr : r.WellNamed) (hslash : r.NoSlash) {a : Artifact}
    (ha : a ∈ r.allArtifacts) : '/' ∉ a.typeName.toList :=
  not_mem_typeName hr (by decide) (by decide) hslash ha

end Request

/-! ## Where the paths lead -/

namespace ArtifactKind

variable {typeName : String}

/-- The path of a file for a type leads through the directory of its kind. -/
theorem path_eq_intercalate (kind : ArtifactKind) (typeName : String) :
    kind.path typeName = "/".intercalate (kind.directory ++ [typeName ++ ".cs"]) := by
  apply String.toList_inj.mp
  rw [String.toList_intercalate]
  cases kind <;> simp [path, directory, List.intercalate, List.intersperse]

theorem isPart_fileName (h : '/' ∉ typeName.toList) : Path.IsPart (typeName ++ ".cs") := by
  refine ⟨fun hempty => ?_, fun hdot => ?_, ?_⟩
  · have hlength := congrArg (fun s => s.toList.length) hempty
    simp at hlength
  · have hlength := congrArg (fun s => s.toList.length) hdot
    simp at hlength
  · rw [String.toList_append, List.mem_append, not_or]
    exact ⟨h, by decide⟩

theorem isPart_of_mem_directory (kind : ArtifactKind) {n : String} (hn : n ∈ kind.directory) :
    Path.IsPart n ∧ n ≠ ".." := by
  have hall : ∀ n ∈ kind.directory, (n ≠ "" ∧ n ≠ "." ∧ '/' ∉ n.toList) ∧ n ≠ ".." := by
    cases kind <;> decide
  obtain ⟨⟨hempty, hdot, hslash⟩, hdots⟩ := hall n hn
  exact ⟨⟨hempty, hdot, hslash⟩, hdots⟩

theorem not_isAbsoluteText_path (kind : ArtifactKind) (typeName : String) :
    Path.isAbsoluteText (kind.path typeName) = false := by
  have hall : ∀ k : ArtifactKind, k.place ≠ [] ∧ k.place.head? ≠ some '/' := by
    intro k
    cases k <;> decide
  obtain ⟨hne, hhead⟩ := hall kind
  unfold Path.isAbsoluteText
  rw [toList_path, List.head?_append_of_ne_nil _ hne, decide_eq_false hhead]

/-- **Where the path of a file for a type leads.** -/
theorem relativeParts?_path (kind : ArtifactKind) (h : '/' ∉ typeName.toList) :
    Path.relativeParts? (kind.path typeName) = some (kind.directory ++ [typeName ++ ".cs"]) := by
  have hparts : ∀ n ∈ kind.directory ++ [typeName ++ ".cs"], Path.IsPart n := by
    intro n hn
    rcases List.mem_append.mp hn with hn | hn
    · exact (isPart_of_mem_directory kind hn).1
    · exact List.mem_singleton.mp hn ▸ isPart_fileName h
  refine Path.relativeParts?_eq_some_iff.mpr
    ⟨?_, not_isAbsoluteText_path kind typeName, fun hdots => ?_, by simp⟩
  · rw [path_eq_intercalate, Path.parts_intercalate hparts (by simp)]
  · rcases List.mem_append.mp hdots with hdots | hdots
    · exact (isPart_of_mem_directory kind hdots).2 rfl
    · have hlength := congrArg (fun s => s.toList.length) (List.mem_singleton.mp hdots)
      simp at hlength

/-- The path of a file for a type is in its shortest form. -/
theorem normalText_path (kind : ArtifactKind) (h : '/' ∉ typeName.toList) :
    Path.normalText (kind.path typeName) = kind.path typeName := by
  rw [Path.normalText_of_relativeParts? (relativeParts?_path kind h), path_eq_intercalate]

end ArtifactKind

namespace Request

variable {r : Request} {f : String × String}

/-- Every file of a request is that of a type. -/
theorem exists_path_of_mem_artifacts (hr : r.WellNamed) (hslash : r.NoSlash)
    (hf : f ∈ r.artifacts) : ∃ kind typeName, '/' ∉ typeName.toList ∧
      f.1 = ArtifactKind.path kind typeName := by
  rw [artifacts_eq] at hf
  obtain ⟨a, ha, rfl⟩ := List.mem_map.mp hf
  exact ⟨a.kind, a.typeName, slash_not_mem_typeName hr hslash ha, rfl⟩

/-- **The path of a generated file is in its shortest form.** -/
theorem normalText_of_mem_artifacts (hr : r.WellNamed) (hslash : r.NoSlash)
    (hf : f ∈ r.artifacts) : Path.normalText f.1 = f.1 := by
  obtain ⟨kind, typeName, hname, hpath⟩ := exists_path_of_mem_artifacts hr hslash hf
  rw [hpath, ArtifactKind.normalText_path kind hname]

/-- **Which characters the paths of a request take from the names of tables.** A character that is
in no place and in no identifier is in some path exactly if it is in the name of some table. -/
theorem mem_path_iff (hr : r.WellNamed) {c : Char} (hc : c.toNat < 48) (hline : c ≠ '\n')
    (hseparator : Text.isSeparator c = false)
    (hplace : ∀ kind : ArtifactKind, c ∉ kind.place ++ ".cs".toList) :
    (∃ f ∈ r.artifacts, c ∈ f.1.toList) ↔ ∃ t ∈ r.validTables, c ∈ t.name.toList := by
  have hpath : ∀ (kind : ArtifactKind) (typeName : String),
      c ∈ (kind.path typeName).toList ↔ c ∈ typeName.toList := by
    intro kind typeName
    have hkind := hplace kind
    rw [List.mem_append, not_or] at hkind
    rw [ArtifactKind.toList_path, String.toList_append, List.mem_append, List.mem_append]
    tauto
  rw [artifacts_eq]
  constructor
  · rintro ⟨f, hf, hcf⟩
    obtain ⟨a, ha, rfl⟩ := List.mem_map.mp hf
    by_contra hnone
    push Not at hnone
    exact not_mem_typeName hr hc hline hnone ha ((hpath a.kind a.typeName).mp hcf)
  · rintro ⟨t, ht, hct⟩
    -- the entity of the table bears the name of its class
    have hentity : (ArtifactKind.entity, t.className) ∈
        r.allArtifacts.map fun a => (a.kind, a.typeName) := by
      rw [allArtifacts_map_name, List.mem_append]
      refine .inl (List.mem_flatMap.mpr ⟨t.className, List.mem_map_of_mem ht, ?_⟩)
      exact List.mem_map.mpr ⟨⟨.entity, "", ""⟩, by simp [families], by simp [TypeFamily.name]⟩
    obtain ⟨a, ha, heq⟩ := List.mem_map.mp hentity
    obtain ⟨hkind, hname⟩ := Prod.mk.inj heq
    refine ⟨(a.path, a.text), List.mem_map_of_mem ha, (hpath a.kind a.typeName).mpr ?_⟩
    rw [hname]
    exact (Text.mem_pascalCase_iff hc hseparator).mpr hct

/-- **The path of a generated file leads strictly below a directory.** -/
theorem relativeParts?_of_mem_artifacts (hr : r.WellNamed) (hslash : r.NoSlash)
    (hf : f ∈ r.artifacts) : (Path.relativeParts? f.1).isSome = true := by
  obtain ⟨kind, typeName, hname, hpath⟩ := exists_path_of_mem_artifacts hr hslash hf
  rw [hpath, ArtifactKind.relativeParts?_path kind hname]
  rfl

end Request

end EntityScaffold
