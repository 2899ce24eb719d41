import EntityScaffold.Proofs.Characters
import EntityScaffold.Proofs.CollectionPlans

/-!
# The member that marks rows as deleted

Rows of a table with soft deletion are hidden by a filter on one member of the entity: the column
that is taken for the flag, or the flag that is added where there is none. A column is taken for
the flag by its name without underscores and case; its member is named by words, which a hyphen or
a blank parts as well. So a column can have the member of the flag and not be taken for it. Its type
is not looked at, nor are the names of reference navigations.

* `Property.marksDeletion`: the column is taken for the flag.
* `Code.SourceFile.DeclaresFlag`: a name is declared once, for a member that is true or false.
* `Request.filtersOf`: the filters in the block of a table.
* `Table.FlagFits`: what keeps the member of the filter a single flag.

Results:
* `Property.marksDeletion_iff`: which columns with the member of the flag are taken for it.
* `declaresFlag_iff`: when the member of the filter is a single flag.
* `filter_is_flag_iff`: where no member of a column is reported twice, the filter is on a flag that
  is declared once exactly when it fits; without soft deletion there is neither filter nor flag.
-/

namespace EntityScaffold

/-! ## Names and their case -/

namespace Text

/-- Outside ASCII these tables map only the characters `except` wholly into `codes`. -/
def MapsOutside (codes except : List Nat) (runs : List CaseRun)
    (expansions : List (Nat × List Nat)) : Prop :=
  (∀ r ∈ runs, ∀ n ∈ codes, r.image ≤ n → n ≤ r.image + (r.last - r.first) →
    r.first = r.last ∧ r.first ∈ except) ∧
  ∀ e ∈ expansions, ∃ n ∈ e.2, n ∉ codes

instance (codes except : List Nat) (runs : List CaseRun) (expansions : List (Nat × List Nat)) :
    Decidable (MapsOutside codes except runs expansions) := by
  unfold MapsOutside
  infer_instance

/-- The letters of the flag. -/
def flagLetters : List Char := softDeleteMember.toList

/-- Only the dotless `ı` becomes a letter of the flag in upper case. -/
theorem mapsOutside_upper :
    MapsOutside (flagLetters.map Char.toNat) ['ı'.toNat] upperRuns upperExpansions := by
  decide +kernel

theorem mapsOutside_lower :
    MapsOutside (flagLetters.map Char.toNat) [] lowerRuns lowerExpansions := by
  decide +kernel

theorem isAscii_of_mem_flagLetters {c : Char} (h : c ∈ flagLetters) : c.toNat < 128 := by
  have hall : flagLetters.all (fun c => c.toNat < 128) = true := by decide
  exact of_decide_eq_true (List.all_eq_true.mp hall c h)

theorem toNat_mem_of_ofNat_mem {n : Nat} (h : Char.ofNat n ∈ flagLetters) :
    n ∈ flagLetters.map Char.toNat := by
  by_cases hn : n.isValidChar
  · exact toNat_ofNat hn ▸ List.mem_map_of_mem h
  · rw [Char.ofNat, dif_neg hn] at h
    exact absurd h (by decide)

/-- What a character outside ASCII maps to is not made of letters of the flag alone. -/
theorem exists_mem_mapped {except : List Nat} {runs : List CaseRun}
    {expansions : List (Nat × List Nat)}
    (h : MapsOutside (flagLetters.map Char.toNat) except runs expansions) {c : Char}
    (hascii : 128 ≤ c.toNat) (hexcept : c.toNat ∉ except) :
    ∃ d ∈ mapped runs expansions c, d ∉ flagLetters := by
  rcases mapped_cases runs expansions c with ⟨r, hr, _, _, himage⟩ | ⟨ns, hentry, hns⟩ | hsame
  · rw [himage]
    refine ⟨_, List.mem_singleton_self _, fun hmem => hexcept ?_⟩
    obtain ⟨hone, hin⟩ := h.1 r hr _ (toNat_mem_of_ofNat_mem hmem) (by omega) (by omega)
    have hfirst : c.toNat = r.first := by omega
    exact hfirst ▸ hin
  · rw [hns]
    obtain ⟨n, hn, hout⟩ := h.2 _ hentry
    exact ⟨_, List.mem_map_of_mem hn, fun hmem => hout (toNat_mem_of_ofNat_mem hmem)⟩
  · rw [hsame]
    refine ⟨c, List.mem_singleton_self c, fun hmem => ?_⟩
    have := isAscii_of_mem_flagLetters hmem
    omega

theorem isAscii_of_lowerAfter {before s : List Char}
    (h : ∀ d ∈ lowerAfter before s, d ∈ flagLetters) : ∀ c ∈ s, c.toNat < 128 := by
  induction s generalizing before with
  | nil => exact fun c hc => absurd hc List.not_mem_nil
  | cons d s ih =>
    unfold lowerAfter at h
    have hrest := ih fun e he => h e (List.mem_append_right _ he)
    have hfirst : d.toNat < 128 := by
      by_contra hascii
      replace hascii : 128 ≤ d.toNat := by omega
      have hmem : ∀ e ∈ lowerBetween before d s, e ∈ flagLetters :=
        fun e he => h e (List.mem_append_left _ he)
      unfold lowerBetween lowerChar at hmem
      rw [if_neg (by omega : ¬ d.toNat < 128)] at hmem
      split_ifs at hmem
      · exact absurd (hmem 'ς' (List.mem_singleton_self _)) (by decide)
      · exact absurd (hmem 'σ' (List.mem_singleton_self _)) (by decide)
      · obtain ⟨e, he, hout⟩ := exists_mem_mapped mapsOutside_lower hascii List.not_mem_nil
        exact hout (hmem e he)
    intro c hc
    rcases List.mem_cons.mp hc with rfl | hc
    · exact hfirst
    · exact hrest c hc

/-- **A word that is titled with letters of the flag is in ASCII**, unless it has a dotless `ı`. -/
theorem isAscii_of_titled {w : List Char} (h : ∀ d ∈ titled w, d ∈ flagLetters)
    (hdotless : 'ı' ∉ w) : ∀ c ∈ w, c.toNat < 128 := by
  cases w with
  | nil => exact fun c hc => absurd hc List.not_mem_nil
  | cons d w =>
    unfold titled at h
    rw [List.mem_cons, not_or] at hdotless
    have hfirst : d.toNat < 128 := by
      by_contra hascii
      replace hascii : 128 ≤ d.toNat := by omega
      have hexcept : d.toNat ∉ ['ı'.toNat] := by
        rw [List.mem_singleton]
        exact fun he => hdotless.1 (Char.toNat_inj.mp he.symm)
      obtain ⟨e, he, hout⟩ := exists_mem_mapped mapsOutside_upper hascii hexcept
      refine hout (h e (List.mem_append_left _ ?_))
      unfold upperChar
      rw [if_neg (by omega : ¬ d.toNat < 128)]
      exact he
    intro c hc
    rcases List.mem_cons.mp hc with rfl | hc
    · exact hfirst
    · exact isAscii_of_lowerAfter (fun e he => h e (List.mem_append_right _ he)) c hc

theorem lowerAfter_of_isAscii {s : List Char} (h : ∀ c ∈ s, c.toNat < 128) (before : List Char) :
    lowerAfter before s = s.map Char.toLower := by
  induction s generalizing before with
  | nil => rfl
  | cons d s ih =>
    have hascii := h d List.mem_cons_self
    have hsigma : d ≠ 'Σ' := by
      rintro rfl
      exact absurd hascii (by decide)
    unfold lowerAfter lowerBetween lowerChar
    rw [if_neg hsigma, if_pos hascii, ih fun c hc => h c (List.mem_cons_of_mem _ hc)]
    rfl

/-- Upper case and lower case undo each other in ASCII, as far as lower case can tell. -/
theorem toLower_toUpper {c : Char} (h : c.toNat < 128) : c.toUpper.toLower = c.toLower :=
  of_code_lt h (by decide)

theorem toLower_toLower {c : Char} (h : c.toNat < 128) : c.toLower.toLower = c.toLower :=
  of_code_lt h (by decide)

/-- A title changes nothing but case. -/
theorem map_toLower_titled {w : List Char} (h : ∀ c ∈ w, c.toNat < 128) :
    (titled w).map Char.toLower = w.map Char.toLower := by
  cases w with
  | nil => rfl
  | cons d w =>
    have hfirst := h d List.mem_cons_self
    have hrest : ∀ c ∈ w, c.toNat < 128 := fun c hc => h c (List.mem_cons_of_mem _ hc)
    have hlower : (w.map Char.toLower).map Char.toLower = w.map Char.toLower := by
      rw [List.map_map]
      exact List.map_congr_left fun c hc => toLower_toLower (hrest c hc)
    have htitled : titled (d :: w) = [d.toUpper] ++ w.map Char.toLower := by
      show upperChar d ++ lower w = _
      unfold lower upperChar
      rw [if_pos hfirst, lowerAfter_of_isAscii hrest]
    rw [htitled, List.map_append, hlower, List.map_singleton, toLower_toUpper hfirst]
    rfl

/-- The words of a name are its characters without the separators. -/
theorem flatten_words (s : List Char) : (words s).flatten = s.filter fun c => !isSeparator c := by
  have hsegments : (segments s).flatten = s.filter fun c => !isSeparator c := by
    induction s with
    | nil => rfl
    | cons d s ih =>
      unfold segments
      cases hd : isSeparator d with
      | true => simp [hd, ih]
      | false =>
        obtain ⟨w, ws, hw⟩ := List.exists_cons_of_ne_nil (segments_ne_nil s)
        rw [hw] at ih ⊢
        simpa [hd] using ih
  unfold words
  rw [List.flatten_filter_not_isEmpty, hsegments]

/-- **A name whose words give the member of the flag reads like the flag without underscores and
case** exactly when no hyphen and no blank parts its words and it has no dotless `ı`. -/
theorem lower_eq_flag_iff {s : List Char} (h : pascal s = flagLetters) :
    lower (s.filter (· ≠ '_')) = lower flagLetters ↔ '-' ∉ s ∧ ' ' ∉ s ∧ 'ı' ∉ s := by
  constructor
  · intro he
    have hfree : ∀ c, c ≠ '_' → lowerChar c = [c] → c ∉ lower flagLetters → c ∉ s := by
      intro c hc hfixed hout hmem
      refine hout (he ▸ mem_lowerAfter hfixed (List.mem_filter.mpr ⟨hmem, ?_⟩) [])
      exact decide_eq_true hc
    exact ⟨hfree '-' (by decide) (by decide +kernel) (by decide +kernel),
      hfree ' ' (by decide) (by decide +kernel) (by decide +kernel),
      hfree 'ı' (by decide) (by decide +kernel) (by decide +kernel)⟩
  · rintro ⟨hhyphen, hblank, hdotless⟩
    have hwords : s.filter (· ≠ '_') = (words s).flatten := by
      rw [flatten_words]
      refine List.filter_congr fun c hc => ?_
      have h₁ : (c == '-') = false := beq_false_of_ne fun e => hhyphen (e ▸ hc)
      have h₂ : (c == ' ') = false := beq_false_of_ne fun e => hblank (e ▸ hc)
      unfold isSeparator
      rw [h₁, h₂, Bool.or_false, Bool.or_false]
      exact decide_not
    have hascii : ∀ w ∈ words s, ∀ c ∈ w, c.toNat < 128 := by
      intro w hw
      refine isAscii_of_titled (fun d hd => h ▸ List.mem_flatMap.mpr ⟨w, hw, hd⟩) fun hmem => ?_
      exact hdotless (mem_of_mem_segments (List.mem_filter.mp hw).1 hmem)
    have hflat : ∀ c ∈ (words s).flatten, c.toNat < 128 := by
      intro c hc
      obtain ⟨w, hw, hcw⟩ := List.mem_flatten.mp hc
      exact hascii w hw c hcw
    calc lower (s.filter (· ≠ '_'))
        = (words s).flatten.map Char.toLower := by rw [hwords]; exact lowerAfter_of_isAscii hflat []
      _ = ((words s).map (List.map Char.toLower)).flatten := List.map_flatten
      _ = ((words s).map fun w => (titled w).map Char.toLower).flatten := by
        rw [List.map_congr_left fun w hw => (map_toLower_titled (hascii w hw)).symm]
      _ = (pascal s).map Char.toLower := by
        rw [pascal, List.map_flatMap, List.flatMap_def]
      _ = lower flagLetters := by rw [h]; decide

end Text

/-! ## Columns that are taken for the flag -/

/-- The name of the column is that of the flag, but for underscores and case. -/
def Property.marksDeletion (p : Property) : Bool :=
  Text.lower (p.name.toList.filter (· ≠ '_')) == Text.lower softDeleteMember.toList

/-- The column that is taken for the flag. -/
def Table.flagColumn? (t : Table) : Option Property := t.properties.find? Property.marksDeletion

/-- The member that the filter of a table with soft deletion looks at. -/
def Table.flagMember (t : Table) : String := t.softDeleteColumn?.getD softDeleteMember

theorem Table.softDeleteColumn?_eq (t : Table) :
    t.softDeleteColumn? = t.flagColumn?.map Property.memberName := rfl

/-- **A column with the member of the flag is taken for it exactly when its name has no hyphen, no
blank and no dotless `ı`.** -/
theorem Property.marksDeletion_iff {p : Property} (h : p.memberName = softDeleteMember) :
    p.marksDeletion = true ↔
      '-' ∉ p.name.toList ∧ ' ' ∉ p.name.toList ∧ 'ı' ∉ p.name.toList := by
  have hpascal : Text.pascal p.name.toList = Text.flagLetters := by
    rw [Text.flagLetters, ← h, Property.memberName, Text.pascalCase, String.toList_ofList]
  unfold marksDeletion
  rw [beq_iff_eq]
  exact Text.lower_eq_flag_iff hpascal

/-! ## The member of the filter -/

/-- The file declares the name once, for a member that is true or false and nothing else. -/
structure Code.SourceFile.DeclaresFlag (f : Code.SourceFile) (name : String) : Prop where
  once : f.memberNames.count name = 1
  type : ∀ d ∈ f.declarations, d.name = name → d.type = "bool"

/-- The filters that the context has for a table. -/
def Request.filtersOf (r : Request) (t : Table) : List (List String) :=
  (r.statementsOf t).filter (Code.opensWith "entity.HasQueryFilter(")

/-- What keeps the member of the filter a single flag. -/
structure Table.FlagFits (t : Table) : Prop where
  /-- A column that is taken for the flag holds true or false, and never nothing. -/
  column : ∀ p, t.flagColumn? = some p → p.dataType = .boolean ∧ p.isNullable = false
  /-- No reference navigation has the name of the member. -/
  reference : t.flagMember ∉ t.referenceNames
  /-- Where no column is taken for the flag, none has the member of the flag that is added. -/
  added : t.flagColumn? = none → softDeleteMember ∉ t.columnNames

theorem fieldType_eq_bool_iff {type : DataType} {nullable : Bool} :
    type.fieldType nullable = "bool" ↔ type = .boolean ∧ nullable = false := by
  cases type <;> cases nullable <;> decide

section Filter

variable {r : Request} {t : Table}

theorem flagMember_of_some {p : Property} (h : t.flagColumn? = some p) :
    p ∈ t.properties ∧ t.flagMember = p.memberName ∧ r.addsFlag t = false := by
  refine ⟨List.mem_of_find?_eq_some h, ?_, ?_⟩
  · rw [Table.flagMember, Table.softDeleteColumn?_eq, h]
    rfl
  · rw [Request.addsFlag, Table.softDeleteColumn?_eq, h]
    exact Bool.and_false _

theorem flagMember_of_none (h : t.flagColumn? = none) (hs : r.softDeletes t = true) :
    t.flagMember = softDeleteMember ∧ r.addsFlag t = true := by
  constructor
  · rw [Table.flagMember, Table.softDeleteColumn?_eq, h]
    rfl
  · rw [Request.addsFlag, Table.softDeleteColumn?_eq, h, hs]
    rfl

/-- No collection has the member of the filter: it avoids columns, and it does not read like the
flag that is added. -/
theorem flagMember_not_mem_collectionNames (tables : List Table) (t : Table) :
    t.flagMember ∉ t.collectionNames (.ofTables tables) := by
  cases h : t.softDeleteColumn? with
  | some name =>
    have hmember : t.flagMember = name := by rw [Table.flagMember, h, Option.getD_some]
    rw [hmember]
    intro hmem
    exact not_mem_reservedNames_of_mem_collectionNames hmem
      (columnNames_subset_reservedNames t (mem_columnNames_of_softDeleteColumn? h))
  | none =>
    have hmember : t.flagMember = softDeleteMember := by rw [Table.flagMember, h, Option.getD_none]
    rw [hmember]
    exact softDeleteMember_not_mem_collectionNames tables t

/-- The member of the filter is declared once exactly when no reference navigation has its name, and
no column the name of an added flag. -/
theorem count_flagMember_eq_one_iff (hc : t.columnNames.Nodup) (hs : r.softDeletes t = true) :
    (r.entityFile t).memberNames.count t.flagMember = 1 ↔
      t.flagMember ∉ t.referenceNames ∧
        (t.flagColumn? = none → softDeleteMember ∉ t.columnNames) := by
  have hcollections := flagMember_not_mem_collectionNames r.validTables t
  unfold Request.entityFile Request.relationships
  rw [Entity.memberNames_file, List.count_append, List.count_append, List.count_append,
    List.count_eq_zero_of_not_mem hcollections, ← List.count_eq_zero,
    ← List.count_eq_zero]
  cases hflag : t.flagColumn? with
  | some p =>
    obtain ⟨hp, hmember, hadds⟩ := flagMember_of_some (r := r) hflag
    have hcolumn : t.columnNames.count t.flagMember = 1 :=
      List.count_eq_one_of_mem hc (hmember ▸ memberName_mem_columnNames hp)
    rw [hcolumn, hadds, onlyIf_false, List.count_nil]
    simp only [reduceCtorEq, false_implies, and_true]
    omega
  | none =>
    obtain ⟨hmember, hadds⟩ := flagMember_of_none hflag hs
    rw [hmember, hadds, onlyIf_true, List.count_singleton_self]
    simp only [forall_const]
    omega

/-- Where the member of the filter is declared once, it is a flag exactly when the column that is
taken for it is one. -/
theorem flagMember_type_iff (hc : t.columnNames.Nodup)
    (hreference : t.flagMember ∉ t.referenceNames)
    (hadded : t.flagColumn? = none → softDeleteMember ∉ t.columnNames) :
    (∀ d ∈ (r.entityFile t).declarations, d.name = t.flagMember → d.type = "bool") ↔
      ∀ p, t.flagColumn? = some p → p.dataType = .boolean ∧ p.isNullable = false := by
  constructor
  · intro h p hflag
    obtain ⟨hp, hmember, -⟩ := flagMember_of_some (r := r) hflag
    have hcolumn : p.column ∈ (r.entityFile t).declarations :=
      Entity.mem_declarations_iff.mpr (.inl ⟨p, hp, rfl⟩)
    exact fieldType_eq_bool_iff.mp (h _ hcolumn hmember.symm)
  · intro h d hd hname
    rcases Entity.mem_declarations_iff.mp hd with
      ⟨q, hq, rfl⟩ | ⟨q, hq, hx⟩ | hcollection | ⟨-, rfl⟩
    · replace hname : q.memberName = t.flagMember := hname
      cases hflag : t.flagColumn? with
      | some p =>
        obtain ⟨hp, hmember, -⟩ := flagMember_of_some (r := r) hflag
        obtain rfl := List.inj_on_of_nodup_map hc hq hp (hname.trans hmember)
        exact fieldType_eq_bool_iff.mpr (h q hflag)
      | none =>
        have hmember : t.flagMember = softDeleteMember := by
          rw [Table.flagMember, Table.softDeleteColumn?_eq, hflag]
          rfl
        exact absurd (hmember ▸ hname ▸ memberName_mem_columnNames hq) (hadded hflag)
    · refine absurd (List.mem_filterMap.mpr ⟨q, hq, ?_⟩) hreference
      rw [hx, ← hname]
      rfl
    · refine absurd ?_ (flagMember_not_mem_collectionNames r.validTables t)
      obtain ⟨plan, hplan, rfl⟩ := List.mem_map.mp hcollection
      exact List.mem_map.mpr ⟨plan, hplan, hname⟩
    · rfl

/-- **When the member of the filter is a single flag.** -/
theorem declaresFlag_iff (hc : t.columnNames.Nodup) (hs : r.softDeletes t = true) :
    (r.entityFile t).DeclaresFlag t.flagMember ↔ t.FlagFits := by
  have honce := count_flagMember_eq_one_iff hc hs
  constructor
  · rintro ⟨hone, htype⟩
    obtain ⟨hreference, hadded⟩ := honce.mp hone
    exact ⟨(flagMember_type_iff hc hreference hadded).mp htype, hreference, hadded⟩
  · rintro ⟨hcolumn, hreference, hadded⟩
    exact ⟨honce.mpr ⟨hreference, hadded⟩,
      (flagMember_type_iff hc hreference hadded).mpr hcolumn⟩

/-- The filters of a table are those of its configuration. -/
theorem filtersOf_eq (ht : t ∈ r.validTables) :
    r.filtersOf t = if r.softDeletes t then
      [[s!"entity.HasQueryFilter(e => !e.{t.flagMember});"]] else [] := by
  unfold Request.filtersOf
  rw [Request.statementsOf_eq ht, EntityConfiguration.filter_opensWith_filter]
  show (EntityConfiguration.filterCode (if r.softDeletes t then some t.flagMember else none)).map
    _ = _
  split_ifs <;> rfl

/-- Without soft deletion no flag is added. -/
theorem declarations_of_not_softDeletes (hs : r.softDeletes t = false) :
    (r.entityFile t).declarations = t.properties.map Property.column ++
      t.properties.filterMap Property.reference? ++ t.collections r.relationships := by
  have hadds : r.addsFlag t = false := by
    unfold Request.addsFlag
    rw [hs, Bool.false_and]
  unfold Request.entityFile Request.relationships
  rw [Entity.declarations_file, hadds, onlyIf_false, List.append_nil]

theorem nodup_columnNames_of_no_duplicates (ht : t ∈ r.validTables)
    (h : "DUPLICATE_PROPERTY_NAME" ∉ r.propertyNameFindings.map Finding.code) :
    t.columnNames.Nodup := by
  have hno : ∀ first property member,
      .duplicateMember t.name first property member ∉ t.propertyNameFindings [] t.properties :=
    fun _ _ _ hm => h (List.mem_map.mpr ⟨_, List.mem_flatMap.mpr ⟨t, ht, hm⟩, rfl⟩)
  exact (nodup_memberNames_of_no_duplicateMember hno).1

end Filter

/-- **When the filter of a table is on a flag of its entity.** With soft deletion, and where no
member of a column is reported twice, the block has one filter, and the member that it is on is
declared once and is true or false exactly when the flag fits. Without soft deletion there is no
filter, and nothing is declared but columns, reference navigations and collections. Of the columns
with the member of the flag, those are taken for it whose names have no hyphen, no blank and no
dotless `ı`. -/
theorem filter_is_flag_iff {r : Request} {t : Table} (ht : t ∈ r.validTables)
    (hduplicates : "DUPLICATE_PROPERTY_NAME" ∉ r.propertyNameFindings.map Finding.code) :
    (r.softDeletes t = true →
      r.filtersOf t = [[s!"entity.HasQueryFilter(e => !e.{t.flagMember});"]] ∧
      ((r.entityFile t).DeclaresFlag t.flagMember ↔ t.FlagFits)) ∧
    (r.softDeletes t = false → r.filtersOf t = [] ∧
      (r.entityFile t).declarations = t.properties.map Property.column ++
        t.properties.filterMap Property.reference? ++ t.collections r.relationships) ∧
    (∀ p ∈ t.properties, p.memberName = softDeleteMember →
      (p.marksDeletion = true ↔
        '-' ∉ p.name.toList ∧ ' ' ∉ p.name.toList ∧ 'ı' ∉ p.name.toList)) := by
  refine ⟨fun hs => ⟨?_, ?_⟩, fun hs => ⟨?_, declarations_of_not_softDeletes hs⟩,
    fun _ _ h => Property.marksDeletion_iff h⟩
  · rw [filtersOf_eq ht, if_pos hs]
  · exact declaresFlag_iff (nodup_columnNames_of_no_duplicates ht hduplicates) hs
  · rw [filtersOf_eq ht, if_neg (hs ▸ Bool.false_ne_true)]

/-- With a hyphen in its name, a column has the member of the flag that is added all the same; with
an underscore it is the flag. -/
theorem filter_is_flag_iff_hyphen :
    let columns (flag : String) : List Property :=
      [{ name := "id" }, { name := flag, dataType := .boolean, isNullable := false }]
    let order : Table := ⟨"order", columns "is-deleted", some true⟩
    let note : Table := ⟨"note", columns "is_deleted", some true⟩
    let r : Request := { tables := [order, note] }
    (r.filtersOf order = [["entity.HasQueryFilter(e => !e.IsDeleted);"]] ∧
      ¬ (r.entityFile order).DeclaresFlag "IsDeleted") ∧
    (r.filtersOf note = [["entity.HasQueryFilter(e => !e.IsDeleted);"]] ∧
      (r.entityFile note).DeclaresFlag "IsDeleted") := by
  intro columns order note r
  have hduplicates : "DUPLICATE_PROPERTY_NAME" ∉ r.propertyNameFindings.map Finding.code := by
    decide
  obtain ⟨hfilter, horder⟩ :=
    (filter_is_flag_iff (t := order) (by decide) hduplicates).1 (by decide)
  obtain ⟨hfilter', hnote⟩ :=
    (filter_is_flag_iff (t := note) (by decide) hduplicates).1 (by decide)
  refine ⟨⟨hfilter, fun h => ?_⟩, hfilter', hnote.mpr ⟨?_, by decide, by decide⟩⟩
  · exact absurd ((horder.mp h).added (by decide)) (by decide)
  · intro p hp
    obtain rfl := Option.some.inj hp
    exact ⟨rfl, rfl⟩

end EntityScaffold
