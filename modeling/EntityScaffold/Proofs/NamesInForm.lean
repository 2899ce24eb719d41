import EntityScaffold.Proofs.Artifacts
import EntityScaffold.Proofs.Documents
import EntityScaffold.Proofs.Identifiers
import EntityScaffold.Proofs.TypeNames

/-!
# The names that a request gives

A request names its root namespace, its context and four fragments for the types of repositories
and services. They are tested when the request is read, with one line feed at the end of each
let through. All paths, namespaces and types of the generated code are made from these names, from
the classes of tables and from fixed words.

Results:
* `Text.isDottedNamespace_iff`: dotted namespaces are identifiers joined by dots.
* `Text.inForm_iff_of_accepts`: of the texts that a test lets through, those without a final line
  feed are in form.
* `Request.typeName_plain`: what types are named for.
* `names_in_form_iff`: the names of a request that was read are in form, and only characters of
  identifiers get from them into paths, namespaces and types, exactly when no name ends in a line
  feed.
-/

namespace EntityScaffold

/-! ## The forms of names -/

namespace Text

theorem dotPieces_eq_splitOn (s : List Char) : dotPieces s = s.splitOn '.' := by
  induction s with
  | nil => rfl
  | cons c s ih =>
    rw [List.splitOn_cons_eq_if_modifyHead, dotPieces, ih]
    by_cases hc : c = '.'
    · simp [hc]
    · have hne : s.splitOn '.' ≠ [] := List.splitOn_ne_nil '.' s
      simp only [hc, if_false, beq_iff_eq]
      cases hs : s.splitOn '.' with
      | nil => exact absurd hs hne
      | cons w ws => rfl

/-- **Dotted namespaces are identifiers joined by dots.** -/
theorem isDottedNamespace_iff (s : List Char) :
    isDottedNamespace s = true ↔
      ∃ ids : List (List Char), ids ≠ [] ∧ (∀ w ∈ ids, isIdentifier w = true) ∧
        s = ['.'].intercalate ids := by
  unfold isDottedNamespace
  rw [dotPieces_eq_splitOn, List.all_eq_true]
  constructor
  · intro h
    exact ⟨s.splitOn '.', List.splitOn_ne_nil '.' s, h, (List.intercalate_splitOn '.').symm⟩
  · rintro ⟨ids, hne, hids, rfl⟩
    -- no identifier holds a dot, so the pieces between dots are the identifiers
    have hdot : ∀ w ∈ ids, '.' ∉ w := fun w hw hmem =>
      absurd (isIdentifierChar_of_mem (hids w hw) hmem) (by decide)
    rw [List.splitOn_intercalate '.' hdot hne]
    exact hids

/-- A character other than a dot is in one of the pieces. -/
theorem exists_mem_dotPieces {s : List Char} {c : Char} (hc : c ∈ s) (hdot : c ≠ '.') :
    ∃ w ∈ dotPieces s, c ∈ w := by
  rw [dotPieces_eq_splitOn]
  have hjoin : ['.'].intercalate (s.splitOn '.') = s := List.intercalate_splitOn '.'
  rw [← hjoin] at hc
  generalize s.splitOn '.' = pieces at hc ⊢
  induction pieces with
  | nil => exact absurd hc List.not_mem_nil
  | cons w pieces ih =>
    cases pieces with
    | nil => exact ⟨w, List.mem_cons_self, by simpa using hc⟩
    | cons w' pieces =>
      rw [List.intercalate_cons_cons, List.append_assoc, List.singleton_append, List.mem_append,
        List.mem_cons] at hc
      rcases hc with hc | rfl | hc
      · exact ⟨w, List.mem_cons_self, hc⟩
      · exact absurd rfl hdot
      · obtain ⟨w'', hw, hmem⟩ := ih hc
        exact ⟨w'', List.mem_cons_of_mem _ hw, hmem⟩

theorem dotPieces_append (s t : List Char) :
    dotPieces (s ++ '.' :: t) = dotPieces s ++ dotPieces t := by
  induction s with
  | nil => rfl
  | cons c s ih =>
    rw [List.cons_append, dotPieces, ih, dotPieces]
    split
    · rfl
    · have hne : dotPieces s ≠ [] := dotPieces_eq_splitOn s ▸ List.splitOn_ne_nil '.' s
      cases hs : dotPieces s with
      | nil => exact absurd hs hne
      | cons w ws => rfl

theorem isDottedNamespace_append (s t : List Char) :
    isDottedNamespace (s ++ '.' :: t) = (isDottedNamespace s && isDottedNamespace t) := by
  unfold isDottedNamespace
  rw [dotPieces_append, List.all_append]

/-! ## Line feeds -/

theorem newline_not_mem_identifier {s : List Char} (hs : isIdentifier s = true) : '\n' ∉ s :=
  fun hmem => absurd (isIdentifierChar_of_mem hs hmem) (by decide)

theorem newline_not_mem_namespace {s : List Char} (hs : isDottedNamespace s = true) : '\n' ∉ s := by
  intro hmem
  obtain ⟨w, hw, hc⟩ := exists_mem_dotPieces hmem (by decide)
  exact newline_not_mem_identifier (List.all_eq_true.mp hs w hw) hc

theorem isIdentifierChar_of_mem_fragment {s : List Char} (hs : isIdentifierFragment s = true)
    {c : Char} (hmem : c ∈ s) : isIdentifierChar c = true :=
  List.all_eq_true.mp hs c hmem

theorem newline_not_mem_fragment {s : List Char} (hs : isIdentifierFragment s = true) : '\n' ∉ s :=
  fun hmem => absurd (isIdentifierChar_of_mem_fragment hs hmem) (by decide)

theorem not_endsInNewline_of_not_mem {s : String} (h : '\n' ∉ s.toList) : ¬ endsInNewline s :=
  fun hlast => h (List.mem_of_getLast? hlast)

/-- **Of the texts that a test lets through, those without a final line feed are in form.** -/
theorem inForm_iff_of_accepts {form : List Char → Bool}
    (hform : ∀ {s : List Char}, form s = true → '\n' ∉ s) {s : String}
    (h : form (dropFinalNewline s.toList) = true) : form s.toList = true ↔ ¬ endsInNewline s := by
  refine ⟨fun hs => not_endsInNewline_of_not_mem (hform hs), fun hlast => ?_⟩
  unfold endsInNewline at hlast
  unfold dropFinalNewline at h
  rwa [if_neg hlast] at h

theorem isDottedNamespace_iff_of_accepts {s : String} (h : acceptsNamespace s = true) :
    isDottedNamespace s.toList = true ↔ ¬ endsInNewline s :=
  inForm_iff_of_accepts newline_not_mem_namespace h

theorem isIdentifierFragment_iff_of_accepts {s : String} (h : acceptsFragment s = true) :
    isIdentifierFragment s.toList = true ↔ ¬ endsInNewline s :=
  inForm_iff_of_accepts newline_not_mem_fragment h

theorem isIdentifierFragment_append (a b : String) :
    isIdentifierFragment (a ++ b).toList =
      (isIdentifierFragment a.toList && isIdentifierFragment b.toList) := by
  unfold isIdentifierFragment
  rw [String.toList_append, List.all_append]

theorem isIdentifierFragment_of_isIdentifier {s : List Char} (hs : isIdentifier s = true) :
    isIdentifierFragment s = true :=
  List.all_eq_true.mpr fun _ hc => isIdentifierChar_of_mem hs hc

/-- The text without one line feed at its end. -/
def withoutFinalNewline (s : String) : String := String.ofList (dropFinalNewline s.toList)

theorem toList_withoutFinalNewline (s : String) :
    (withoutFinalNewline s).toList = dropFinalNewline s.toList :=
  String.toList_ofList

end Text

/-! ## Names in form -/

/-- All options are fragments of identifiers. -/
structure Naming.InForm (n : Naming) : Prop where
  repositoryInterfacePrefix : Text.isIdentifierFragment n.repositoryInterfacePrefix.toList = true
  repositoryClassSuffix : Text.isIdentifierFragment n.repositoryClassSuffix.toList = true
  serviceInterfacePrefix : Text.isIdentifierFragment n.serviceInterfacePrefix.toList = true
  serviceClassSuffix : Text.isIdentifierFragment n.serviceClassSuffix.toList = true

namespace Request

/-- The names that a request gives besides those of its tables. -/
def givenNames (r : Request) : List String :=
  [r.rootNamespace, r.contextName, r.naming.repositoryInterfacePrefix,
    r.naming.repositoryClassSuffix, r.naming.serviceInterfacePrefix, r.naming.serviceClassSuffix]

/-- The given names that files are written with. Services and their interfaces may be switched
off. -/
def writtenNames (r : Request) : List String :=
  [r.rootNamespace, r.contextName, r.naming.repositoryInterfacePrefix,
    r.naming.repositoryClassSuffix] ++
  onlyIf r.emitsServiceInterfaces r.naming.serviceInterfacePrefix ++
  onlyIf r.services r.naming.serviceClassSuffix

/-- The given names have the forms that generated code needs. -/
structure NamesInForm (r : Request) : Prop where
  rootNamespace : ∃ ids : List (List Char), ids ≠ [] ∧
    (∀ w ∈ ids, Text.isIdentifier w = true) ∧ r.rootNamespace.toList = ['.'].intercalate ids
  contextName : Text.isIdentifier r.contextName.toList = true
  naming : r.naming.InForm

/-- The request with one line feed taken from the end of each given name. -/
def trimmed (r : Request) : Request :=
  { r with
    rootNamespace := Text.withoutFinalNewline r.rootNamespace
    contextName := Text.withoutFinalNewline r.contextName
    naming := {
      repositoryInterfacePrefix := Text.withoutFinalNewline r.naming.repositoryInterfacePrefix
      repositoryClassSuffix := Text.withoutFinalNewline r.naming.repositoryClassSuffix
      serviceInterfacePrefix := Text.withoutFinalNewline r.naming.serviceInterfacePrefix
      serviceClassSuffix := Text.withoutFinalNewline r.naming.serviceClassSuffix } }

/-- A name of characters of identifiers, but for the class of a table that it may hold. -/
def IsPlainName (r : Request) (name : String) : Prop :=
  Text.isIdentifierFragment name.toList = true ∨
  ∃ c ∈ r.classNames, ∃ before after, name = before ++ c ++ after ∧
    Text.isIdentifierFragment before.toList = true ∧ Text.isIdentifierFragment after.toList = true

/-- Into the names of types, the paths and the namespaces of a request's files nothing but
characters of identifiers gets from the given names. -/
structure WritesPlainNames (r : Request) : Prop where
  /-- The type that a file declares, but for its parameters, has a plain name. -/
  typeName : ∀ a ∈ r.allArtifacts, r.IsPlainName a.typeName ∧
    ∃ f : Code.SourceFile, a.text = f.text ∧
      ∃ parameters ∈ ["", "<TEntity>"], f.typeNames = [a.typeName ++ parameters]
  path : ∀ a ∈ r.allArtifacts, ∃ name, r.IsPlainName name ∧
    a.path = "/".intercalate a.kind.directory ++ "/" ++ name ++ ".cs"
  /-- The namespace that a file declares is made of identifiers and dots. -/
  home : ∀ a ∈ r.allArtifacts, ∃ f : Code.SourceFile, a.text = f.text ∧ f.home = r.home a.kind ∧
    Text.isDottedNamespace (r.home a.kind).toList = true

/-- The root namespace of a request that was read is accepted. -/
theorem acceptsNamespace_of_read {o : Origin} {v : Value} {r : Request}
    (h : Request.shape.read o v = .ok r) : Text.acceptsNamespace r.rootNamespace = true := by
  refine RecordShape.read_induction
    (P := fun r : Request => Text.acceptsNamespace r.rootNamespace = true) ?_ (by decide) h
  intro f hf o v g hg
  simp only [Request.shape, List.mem_cons, List.not_mem_nil, or_false] at hf
  -- only the first field touches the root namespace
  rcases hf with rfl | rfl | rfl | rfl | rfl | rfl | rfl | rfl | rfl | rfl | rfl
  on_goal 1 => exact Field.keeps_of hg fun a ha s hs => accepts_of_readTextWhere ha
  all_goals exact Field.keeps_of hg fun a ha s hs => hs

variable {r : Request}

/-- **The given names are in form when none ends in a line feed**, and only then. -/
theorem namesInForm_iff (hroot : Text.acceptsNamespace r.rootNamespace = true)
    (hr : r.WellNamed) : r.NamesInForm ↔ ∀ s ∈ r.givenNames, ¬ Text.endsInNewline s := by
  have hform : r.NamesInForm ↔ Text.isDottedNamespace r.rootNamespace.toList = true ∧
      Text.isIdentifier r.contextName.toList = true ∧ r.naming.InForm := by
    rw [Text.isDottedNamespace_iff]
    exact ⟨fun h => ⟨h.1, h.2, h.3⟩, fun h => ⟨h.1, h.2.1, h.2.2⟩⟩
  have hnaming : r.naming.InForm ↔ _ ∧ _ ∧ _ ∧ _ :=
    ⟨fun h => ⟨h.1, h.2, h.3, h.4⟩, fun h => ⟨h.1, h.2.1, h.2.2.1, h.2.2.2⟩⟩
  rw [hform, hnaming, Text.isDottedNamespace_iff_of_accepts hroot,
    Text.isIdentifier_iff_of_accepts hr.contextName,
    Text.isIdentifierFragment_iff_of_accepts hr.naming.repositoryInterfacePrefix,
    Text.isIdentifierFragment_iff_of_accepts hr.naming.repositoryClassSuffix,
    Text.isIdentifierFragment_iff_of_accepts hr.naming.serviceInterfacePrefix,
    Text.isIdentifierFragment_iff_of_accepts hr.naming.serviceClassSuffix]
  simp only [givenNames, List.forall_mem_cons, List.not_mem_nil, false_implies, implies_true,
    and_true]

/-- **But for a final line feed the given names are always in form.** -/
theorem namesInForm_trimmed (hroot : Text.acceptsNamespace r.rootNamespace = true)
    (hr : r.WellNamed) : r.trimmed.NamesInForm where
  rootNamespace := by
    refine (Text.isDottedNamespace_iff _).mp ?_
    rw [trimmed, Text.toList_withoutFinalNewline]
    exact hroot
  contextName := by
    rw [trimmed, Text.toList_withoutFinalNewline]
    exact hr.contextName
  naming := by
    have hfragment : ∀ {s : String}, Text.acceptsFragment s = true →
        Text.isIdentifierFragment (Text.withoutFinalNewline s).toList = true := by
      intro s hs
      rw [Text.toList_withoutFinalNewline]
      exact hs
    exact ⟨hfragment hr.naming.repositoryInterfacePrefix,
      hfragment hr.naming.repositoryClassSuffix, hfragment hr.naming.serviceInterfacePrefix,
      hfragment hr.naming.serviceClassSuffix⟩

/-! ## Plain names -/

/-- What holds of the names of all types: it holds in each family for each class, and of the types
that exist once. -/
theorem forall_typeName_iff {P : String → Prop} :
    (∀ a ∈ r.allArtifacts, P a.typeName) ↔
      (∀ c ∈ r.classNames, ∀ f ∈ r.families, P (f.name c)) ∧ ∀ s ∈ r.sharedNames, P s.2 := by
  have hmap : (∀ a ∈ r.allArtifacts, P a.typeName) ↔
      ∀ s ∈ r.allArtifacts.map fun a => (a.kind, a.typeName), P s.2 := by
    rw [List.forall_mem_map]
  rw [hmap, allArtifacts_map_name, List.forall_mem_append, List.forall_mem_flatMap]
  simp only [List.forall_mem_map]

/-- What is no character of identifiers stands in a plain name only with the class of a table. -/
theorem IsPlainName.exists_mem_className {name : String} (h : r.IsPlainName name) {x : Char}
    (hx : ¬ Text.isIdentifierChar x = true) (hmem : x ∈ name.toList) :
    ∃ c ∈ r.classNames, x ∈ c.toList := by
  have hfragment : ∀ {s : String}, Text.isIdentifierFragment s.toList = true → x ∉ s.toList :=
    fun hs hmem => hx (Text.isIdentifierChar_of_mem_fragment hs hmem)
  rcases h with hname | ⟨c, hc, before, after, rfl, hbefore, hafter⟩
  · exact absurd hmem (hfragment hname)
  · rw [String.toList_append, String.toList_append, List.mem_append, List.mem_append] at hmem
    rcases hmem with (hmem | hmem) | hmem
    · exact absurd hmem (hfragment hbefore)
    · exact ⟨c, hc, hmem⟩
    · exact absurd hmem (hfragment hafter)

/-- A plain name has no blank. -/
theorem IsPlainName.blank_not_mem {name : String} (h : r.IsPlainName name) :
    ' ' ∉ name.toList := by
  intro hmem
  obtain ⟨c, hc, hblank⟩ := h.exists_mem_className (by decide) hmem
  obtain ⟨t, -, rfl⟩ := List.mem_map.mp hc
  exact t.blank_not_mem_className hblank

/-- The names that files are written with are in form. -/
structure WrittenInForm (r : Request) : Prop where
  rootNamespace : Text.isDottedNamespace r.rootNamespace.toList = true
  contextName : Text.isIdentifier r.contextName.toList = true
  repositoryInterfacePrefix :
    Text.isIdentifierFragment r.naming.repositoryInterfacePrefix.toList = true
  repositoryClassSuffix : Text.isIdentifierFragment r.naming.repositoryClassSuffix.toList = true
  serviceInterfacePrefix : r.emitsServiceInterfaces = true →
    Text.isIdentifierFragment r.naming.serviceInterfacePrefix.toList = true
  serviceClassSuffix : r.services = true →
    Text.isIdentifierFragment r.naming.serviceClassSuffix.toList = true

theorem writtenInForm_iff (hroot : Text.acceptsNamespace r.rootNamespace = true)
    (hr : r.WellNamed) : r.WrittenInForm ↔ ∀ s ∈ r.writtenNames, ¬ Text.endsInNewline s := by
  have honlyIf : ∀ (b : Bool) (s : String), (∀ x ∈ onlyIf b s, ¬ Text.endsInNewline x) ↔
      (b = true → ¬ Text.endsInNewline s) := by
    intro b s
    cases b <;> simp
  have hform : r.WrittenInForm ↔ _ ∧ _ ∧ _ ∧ _ ∧ _ ∧ _ :=
    ⟨fun h => ⟨h.1, h.2, h.3, h.4, h.5, h.6⟩,
      fun h => ⟨h.1, h.2.1, h.2.2.1, h.2.2.2.1, h.2.2.2.2.1, h.2.2.2.2.2⟩⟩
  rw [hform, Text.isDottedNamespace_iff_of_accepts hroot,
    Text.isIdentifier_iff_of_accepts hr.contextName,
    Text.isIdentifierFragment_iff_of_accepts hr.naming.repositoryInterfacePrefix,
    Text.isIdentifierFragment_iff_of_accepts hr.naming.repositoryClassSuffix,
    Text.isIdentifierFragment_iff_of_accepts hr.naming.serviceInterfacePrefix,
    Text.isIdentifierFragment_iff_of_accepts hr.naming.serviceClassSuffix]
  simp only [writtenNames, List.forall_mem_append, honlyIf, List.forall_mem_cons, List.not_mem_nil,
    false_implies, implies_true, and_true, and_assoc]

/-- A family adds characters of identifiers to the class. -/
theorem WrittenInForm.fragment_of_mem_families (h : r.WrittenInForm) {f : TypeFamily}
    (hf : f ∈ r.families) : Text.isIdentifierFragment f.before.toList = true ∧
      Text.isIdentifierFragment f.after.toList = true := by
  have hempty : Text.isIdentifierFragment "".toList = true := rfl
  have htests : ∀ {s : String}, Text.isIdentifierFragment s.toList = true →
      Text.isIdentifierFragment (s ++ "Tests").toList = true := by
    intro s hs
    rw [Text.isIdentifierFragment_append, hs]
    rfl
  have hservices : r.emitsServiceInterfaces = true → r.services = true := fun he =>
    (Bool.and_eq_true_iff.mp he).1
  simp only [families, List.mem_append, List.mem_cons, List.not_mem_nil, or_false,
    mem_onlyIf] at hf
  rcases hf with
    ((((rfl | rfl | rfl) | ⟨he, rfl⟩) | ⟨hs, rfl⟩) | ⟨-, rfl⟩) | ⟨hs, rfl⟩
  · exact ⟨hempty, hempty⟩
  · exact ⟨h.repositoryInterfacePrefix, h.repositoryClassSuffix⟩
  · exact ⟨hempty, h.repositoryClassSuffix⟩
  · exact ⟨h.serviceInterfacePrefix he, h.serviceClassSuffix (hservices he)⟩
  · exact ⟨hempty, h.serviceClassSuffix hs⟩
  · exact ⟨hempty, htests h.repositoryClassSuffix⟩
  · exact ⟨hempty, htests (h.serviceClassSuffix (Bool.and_eq_true_iff.mp hs).2)⟩

theorem WrittenInForm.fragment_of_mem_sharedNames (h : r.WrittenInForm)
    {s : ArtifactKind × String} (hs : s ∈ r.sharedNames) :
    Text.isIdentifierFragment s.2.toList = true := by
  have hgeneric : Text.isIdentifierFragment r.genericRepository.toList = true := by
    unfold genericRepository
    split
    · rfl
    · exact h.repositoryClassSuffix
  simp only [sharedNames, List.mem_append, List.mem_cons, List.not_mem_nil, or_false,
    mem_onlyIf] at hs
  rcases hs with (rfl | rfl | rfl) | ⟨-, rfl⟩
  · exact Text.isIdentifierFragment_of_isIdentifier h.contextName
  · rw [genericRepositoryInterface, Text.isIdentifierFragment_append, hgeneric,
      h.repositoryInterfacePrefix]
    rfl
  · exact hgeneric
  · rfl

/-- **A type is named for a class, with nothing but characters of identifiers around it, or has
only such characters in its name.** -/
theorem typeName_plain (h : r.WrittenInForm) : ∀ a ∈ r.allArtifacts, r.IsPlainName a.typeName := by
  refine forall_typeName_iff.mpr ⟨fun c hc f hf => ?_, fun s hs => ?_⟩
  · exact .inr ⟨c, hc, f.before, f.after, rfl, h.fragment_of_mem_families hf⟩
  · exact .inl (h.fragment_of_mem_sharedNames hs)

/-- The namespace of a kind of files is dotted when the root namespace is. -/
theorem isDottedNamespace_home (r : Request) (kind : ArtifactKind) :
    Text.isDottedNamespace (r.home kind).toList =
      Text.isDottedNamespace r.rootNamespace.toList := by
  have hkind : Text.isDottedNamespace (".".intercalate kind.directory).toList = true := by
    cases kind <;> decide
  have hhome : (r.home kind).toList =
      r.rootNamespace.toList ++ '.' :: (".".intercalate kind.directory).toList := by
    unfold home
    rw [String.toList_append, String.toList_append, List.append_assoc]
    rfl
  rw [hhome, Text.isDottedNamespace_append, hkind, Bool.and_true]

theorem WrittenInForm.writesPlainNames (h : r.WrittenInForm) : r.WritesPlainNames where
  typeName a ha := by
    have hplain := typeName_plain h a ha
    obtain ⟨f, htext, -, htypes⟩ := exists_file_of_mem_allArtifacts ha hplain.blank_not_mem
    exact ⟨hplain, f, htext, htypes⟩
  path a ha := ⟨a.typeName, typeName_plain h a ha, rfl⟩
  home a ha := by
    obtain ⟨f, htext, hhome, -⟩ :=
      exists_file_of_mem_allArtifacts ha (typeName_plain h a ha).blank_not_mem
    exact ⟨f, htext, hhome, (r.isDottedNamespace_home a.kind).trans h.rootNamespace⟩

/-- The request for a single table, whose class is `A`. -/
def forPlainTable (r : Request) : Request :=
  { r with tables := [{ name := "a", properties := [{ name := "id", isPrimaryKey := true }] }] }

theorem classNames_forPlainTable (r : Request) : r.forPlainTable.classNames = ["A"] := rfl

/-- **Where the files for a plain table take plain names from a request, no written name ends in a
line feed.** -/
theorem not_endsInNewline_of_writesPlainNames (h : r.forPlainTable.WritesPlainNames) :
    ∀ s ∈ r.writtenNames, ¬ Text.endsInNewline s := by
  have hnames : ∀ a ∈ r.forPlainTable.allArtifacts, '\n' ∉ a.typeName.toList := by
    intro a ha hmem
    obtain ⟨c, hc, hline⟩ := (h.typeName a ha).1.exists_mem_className (by decide) hmem
    rw [classNames_forPlainTable, List.mem_singleton] at hc
    subst hc
    exact absurd hline (by decide)
  obtain ⟨hfamilies, hshared⟩ :=
    (forall_typeName_iff (P := fun name => '\n' ∉ name.toList)).mp hnames
  have hfamily : ∀ f ∈ r.families, '\n' ∉ f.before.toList ∧ '\n' ∉ f.after.toList := by
    intro f hf
    have hname := hfamilies "A" (List.mem_singleton_self "A") f hf
    rw [TypeFamily.name, String.toList_append, String.toList_append, List.mem_append,
      List.mem_append, not_or, not_or] at hname
    exact ⟨hname.1.1, hname.2⟩
  have hroot : '\n' ∉ r.rootNamespace.toList := by
    obtain ⟨a, ha⟩ : ∃ a, a ∈ r.forPlainTable.allArtifacts :=
      ⟨_, List.mem_append_right _ List.mem_cons_self⟩
    obtain ⟨f, -, -, hhome⟩ := h.home a ha
    rw [isDottedNamespace_home] at hhome
    exact Text.newline_not_mem_namespace hhome
  have hcontext : '\n' ∉ r.contextName.toList :=
    hshared (.context, r.contextName) List.mem_cons_self
  have hinterface := hfamily _ r.mem_families_repositoryInterface
  have hservices : ∀ s ∈ onlyIf r.emitsServiceInterfaces r.naming.serviceInterfacePrefix,
      '\n' ∉ s.toList := by
    intro s hs
    obtain ⟨he, rfl⟩ := mem_onlyIf.mp hs
    refine (hfamily ⟨.serviceInterface, r.naming.serviceInterfacePrefix,
      r.naming.serviceClassSuffix⟩ ?_).1
    simp [families, he]
  have hservice : ∀ s ∈ onlyIf r.services r.naming.serviceClassSuffix, '\n' ∉ s.toList := by
    intro s hs
    obtain ⟨he, rfl⟩ := mem_onlyIf.mp hs
    refine (hfamily ⟨.service, "", r.naming.serviceClassSuffix⟩ ?_).2
    simp [families, he]
  intro s hs
  refine Text.not_endsInNewline_of_not_mem ?_
  simp only [writtenNames, List.mem_append, List.mem_cons, List.not_mem_nil, or_false] at hs
  rcases hs with ((rfl | rfl | rfl | rfl) | hs) | hs
  · exact hroot
  · exact hcontext
  · exact hinterface.1
  · exact hinterface.2
  · exact hservices s hs
  · exact hservice s hs

end Request

/-! ## Requests that were read -/

/-- **Which names a request may give.** Whatever is read as a request gives names in form, but for
a line feed at the end of any. They are in form in full exactly when none ends in one, and the
files of all tables take nothing but characters of identifiers from them exactly when no name that
is written ends in one. -/
theorem names_in_form_iff {v : Value} {r : Request} (h : Request.ofDocument v = .ok r) :
    r.trimmed.NamesInForm ∧
    (r.NamesInForm ↔ ∀ s ∈ r.givenNames, ¬ Text.endsInNewline s) ∧
    ((∀ tables, ({ r with tables := tables } : Request).WritesPlainNames) ↔
      ∀ s ∈ r.writtenNames, ¬ Text.endsInNewline s) := by
  have hroot := Request.acceptsNamespace_of_read h
  have hr := Request.wellNamed_of_read h
  refine ⟨Request.namesInForm_trimmed hroot hr, Request.namesInForm_iff hroot hr, ?_⟩
  constructor
  · exact fun hall => Request.not_endsInNewline_of_writesPlainNames (hall _)
  · intro hnames tables
    -- the tables do not matter for the form of the names
    have hform := (Request.writtenInForm_iff hroot hr).mpr hnames
    have htables : ({ r with tables := tables } : Request).WrittenInForm :=
      ⟨hform.1, hform.2, hform.3, hform.4, hform.5, hform.6⟩
    exact htables.writesPlainNames

/-- A document whose root namespace ends in a line feed is read as a request. Its root namespace is
not in form, and files take the line feed from it. -/
theorem names_in_form_final_newline :
    let v : Value := .object [(.text "rootNamespace", .text "Shop\n")]
    let r : Request := { rootNamespace := "Shop\n" }
    Request.ofDocument v = .ok r ∧ ¬ r.NamesInForm ∧
      ¬ ∀ tables, ({ r with tables := tables } : Request).WritesPlainNames := by
  intro v r
  have hread : Request.ofDocument v = .ok r := by decide +kernel
  have hgiven : ¬ ∀ s ∈ r.givenNames, ¬ Text.endsInNewline s := by decide
  have hwritten : ¬ ∀ s ∈ r.writtenNames, ¬ Text.endsInNewline s := by decide
  obtain ⟨-, hform, hplain⟩ := names_in_form_iff hread
  exact ⟨hread, hform.not.mpr hgiven, hplain.not.mpr hwritten⟩

end EntityScaffold
