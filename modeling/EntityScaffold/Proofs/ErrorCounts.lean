import EntityScaffold.Proofs.Findings
import EntityScaffold.Proofs.Number.Order
import Mathlib.Data.Finset.Card
import Mathlib.Data.List.Dedup

/-!
# The errors of a report

Of all findings only three are errors: a column whose member an earlier column of its table has
already, a range whose ends are reversed, and lengths that are. The checks go through the columns
one by one and write down what they find among much else; the number of errors follows from the
columns alone.

* `Property.rangeReversed`, `Property.lengthsReversed`: a column contradicts itself.
* `Request.IsConsistent`: no valid table repeats a member or has such a column.
* `Request.reportUnder`: the report under a relationship map that is given.

Results:
* `Table.countP_propertyNameFindings`: repeats and different members together are all columns.
* `Table.duplicateMember_mem_iff`: a repeat is reported with the first column of its member.
* `Request.errorsCounted`: how many errors a report has, and which.
* `Request.passes_reportUnder_iff`: a report passes exactly for a consistent request.
-/

namespace EntityScaffold

/-! ## Columns that contradict themselves -/

namespace Property

/-- The range has both ends, and the lower one is greater than the upper one. -/
def rangeReversed (p : Property) : Bool :=
  match p.rangeMin, p.rangeMax with
  | some low, some high => high.lt low
  | _, _ => false

/-- Both lengths are given, and the least one is greater than the greatest one. -/
def lengthsReversed (p : Property) : Bool :=
  match p.minLength, p.maxLength with
  | some low, some high => high < low
  | _, _ => false

variable {p : Property}

/-- A range is reversed by what its ends mean, so never by `nan`. -/
theorem rangeReversed_iff : p.rangeReversed = true ↔
    ∃ low high, p.rangeMin.bind Binary64.value? = some low ∧
      p.rangeMax.bind Binary64.value? = some high ∧ high < low := by
  unfold rangeReversed
  cases p.rangeMin with
  | none => simp
  | some low =>
    cases p.rangeMax with
    | none => simp
    | some high =>
      simp only [Binary64.lt_iff, Option.bind_some]
      exact ⟨fun ⟨a, b, ha, hb, hab⟩ => ⟨b, a, hb, ha, hab⟩,
        fun ⟨b, a, hb, ha, hab⟩ => ⟨a, b, ha, hb, hab⟩⟩

theorem lengthsReversed_iff : p.lengthsReversed = true ↔
    ∃ low high, p.minLength = some low ∧ p.maxLength = some high ∧ high < low := by
  unfold lengthsReversed
  cases p.minLength <;> cases p.maxLength <;> simp

end Property

/-! ## Errors among findings -/

/-- The finding is an error. -/
def Finding.isError (f : Finding) : Bool := f.severity == .error

theorem countP_onlyIf {α : Type} (q : α → Bool) (condition : Bool) (a : α) :
    (onlyIf condition a).countP q = if condition && q a then 1 else 0 := by
  cases condition <;> simp [List.countP_cons]

namespace Table

variable (t : Table)

/-- What the bounds and the type of a column give rise to. -/
theorem mem_constraintFindings_iff {p : Property} {f : Finding} :
    f ∈ t.constraintFindings p ↔
      (∃ low high, p.rangeMin = some low ∧ p.rangeMax = some high ∧ high.lt low = true ∧
        f = .rangeReversed t.name p.name low high) ∨
      (∃ low high, p.minLength = some low ∧ p.maxLength = some high ∧ high < low ∧
        f = .lengthReversed t.name p.name low high) ∨
      ((p.isTimestamp && p.dataType != .byteSequence) = true ∧
        f = .timestampNotBytes t.name p.name) := by
  unfold constraintFindings
  rw [List.mem_append, List.mem_append, mem_onlyIf, or_assoc]
  refine or_congr ?_ (or_congr ?_ Iff.rfl)
  · cases p.rangeMin <;> cases p.rangeMax <;> simp [mem_onlyIf]
  · cases p.minLength <;> cases p.maxLength <;> simp [mem_onlyIf]

/-- The bounds of a column give rise to an error for each contradiction. -/
theorem countP_constraintFindings (p : Property) :
    (t.constraintFindings p).countP Finding.isError =
      (if p.rangeReversed then 1 else 0) + if p.lengthsReversed then 1 else 0 := by
  unfold constraintFindings Property.rangeReversed Property.lengthsReversed
  rw [List.countP_append, List.countP_append, countP_onlyIf]
  cases p.rangeMin <;> cases p.rangeMax <;> cases p.minLength <;> cases p.maxLength <;>
    simp [countP_onlyIf, Finding.isError, Finding.severity]

theorem countP_flatMap_constraintFindings (ps : List Property) :
    (ps.flatMap t.constraintFindings).countP Finding.isError =
      ps.countP (·.rangeReversed) + ps.countP (·.lengthsReversed) := by
  induction ps with
  | nil => rfl
  | cons p ps ih =>
    rw [List.flatMap_cons, List.countP_append, ih, countP_constraintFindings, List.countP_cons,
      List.countP_cons]
    omega

end Table

/-! ## Repeated members -/

/-- The first of some columns that has a member. -/
def firstNamed? (member : String) (ps : List Property) : Option Property :=
  ps.find? fun p => p.memberName == member

/-- What is seen of some columns is each member with the first column that has it. -/
def Seen (seen : List (String × String)) (before : List Property) : Prop :=
  ∀ member, seen.lookup member = (firstNamed? member before).map Property.name

section Seen

variable {seen : List (String × String)} {before : List Property} {p : Property}

theorem seen_nil : Seen [] [] := fun _ => rfl

theorem firstNamed?_concat (member : String) (before : List Property) (p : Property) :
    firstNamed? member (before ++ [p]) =
      (firstNamed? member before).or (if p.memberName = member then some p else none) := by
  unfold firstNamed?
  rw [List.find?_append, List.find?_singleton]
  simp

/-- Going on by a column keeps it so, whether its member is new or not. -/
theorem Seen.next (h : Seen seen before) (p : Property) :
    Seen (if (seen.lookup p.memberName).isSome then seen else (p.memberName, p.name) :: seen)
      (before ++ [p]) := by
  intro member
  rw [firstNamed?_concat]
  split_ifs with hseen hsame hsame
  · -- the first column of the member stays the first one
    subst hsame
    rw [h, Option.isSome_map] at hseen
    rw [h, Option.or_of_isSome hseen]
  · rw [h, Option.or_none]
  · subst hsame
    rw [h, Option.isSome_map, Option.not_isSome_iff_eq_none] at hseen
    rw [List.lookup_cons_self, hseen]
    rfl
  · have hother : (member == p.memberName) = false := beq_false_of_ne (Ne.symm hsame)
    rw [List.lookup_cons, hother, Option.or_none]
    exact h member

theorem Seen.isSome_lookup_iff (h : Seen seen before) {member : String} :
    (seen.lookup member).isSome = true ↔ member ∈ (before.map Property.memberName).toFinset := by
  rw [h member, Option.isSome_map, firstNamed?, List.find?_isSome]
  simp

end Seen

namespace Table

variable (t : Table)

/-- What the name of a column gives rise to, and what those after it do. -/
theorem countP_propertyNameFindings_cons (seen : List (String × String)) (p : Property)
    (ps : List Property) :
    (t.propertyNameFindings seen (p :: ps)).countP Finding.isError =
      (if (seen.lookup p.memberName).isSome then 1 else 0) +
        (t.propertyNameFindings
          (if (seen.lookup p.memberName).isSome then seen else (p.memberName, p.name) :: seen)
          ps).countP Finding.isError := by
  conv_lhs => unfold propertyNameFindings
  simp only [List.countP_append, countP_onlyIf]
  cases seen.lookup p.memberName <;> simp [Finding.isError, Finding.severity]

/-- **Repeats and different members together are all columns.** Members of columns before these
count as repeats. -/
theorem countP_propertyNameFindings {seen : List (String × String)} {before : List Property}
    (h : Seen seen before) (ps : List Property) :
    (t.propertyNameFindings seen ps).countP Finding.isError +
      ((ps.map Property.memberName).toFinset \ (before.map Property.memberName).toFinset).card =
        ps.length := by
  induction ps generalizing seen before with
  | nil => simp [propertyNameFindings]
  | cons p ps ih =>
    have ih := ih (h.next p)
    rw [List.map_append, List.map_singleton, List.toFinset_append, List.toFinset_cons,
      List.toFinset_nil, insert_empty_eq, Finset.union_singleton] at ih
    rw [countP_propertyNameFindings_cons, List.map_cons, List.toFinset_cons, List.length_cons, ← ih]
    split_ifs with hseen
    · have hmem := h.isSome_lookup_iff.mp hseen
      rw [Finset.insert_eq_of_mem hmem, Finset.insert_sdiff_of_mem _ hmem]
      omega
    · have hmem := mt h.isSome_lookup_iff.mpr hseen
      rw [Finset.insert_sdiff_of_notMem _ hmem, Finset.sdiff_insert,
        ← Finset.card_erase_add_one (Finset.mem_insert_self _ _), Finset.erase_insert_eq_erase]
      omega

theorem duplicateMember_mem_cons {seen : List (String × String)} {p : Property}
    {ps : List Property} {table first property member : String} :
    .duplicateMember table first property member ∈ t.propertyNameFindings seen (p :: ps) ↔
      (table = t.name ∧ p.name = property ∧ p.memberName = member ∧
        seen.lookup member = some first) ∨
      .duplicateMember table first property member ∈
        t.propertyNameFindings
          (if (seen.lookup p.memberName).isSome then seen else (p.memberName, p.name) :: seen)
          ps := by
  conv_lhs => unfold propertyNameFindings
  simp only [List.mem_append, mem_onlyIf, reduceCtorEq, and_false, false_or, or_false,
    Option.mem_toList, Option.map_eq_some_iff, Finding.duplicateMember.injEq]
  refine or_congr_left ⟨?_, ?_⟩
  · rintro ⟨_, hlookup, rfl, rfl, rfl, rfl⟩
    exact ⟨rfl, rfl, rfl, hlookup⟩
  · rintro ⟨rfl, rfl, rfl, hlookup⟩
    exact ⟨first, hlookup, rfl, rfl, rfl, rfl⟩

/-- **A repeat is reported with the first column of its member.** -/
theorem duplicateMember_mem_iff {seen : List (String × String)} {before : List Property}
    (h : Seen seen before) {ps : List Property} {table first property member : String} :
    .duplicateMember table first property member ∈ t.propertyNameFindings seen ps ↔
      table = t.name ∧ ∃ front q back, ps = front ++ q :: back ∧ q.name = property ∧
        q.memberName = member ∧
        (firstNamed? member (before ++ front)).map Property.name = some first := by
  induction ps generalizing seen before with
  | nil => simp [propertyNameFindings]
  | cons p ps ih =>
    rw [duplicateMember_mem_cons, ih (h.next p)]
    constructor
    · rintro (⟨htable, hname, hmember, hfirst⟩ | ⟨htable, front, q, back, rfl, hrest⟩)
      · exact ⟨htable, [], p, ps, rfl, hname, hmember, by rwa [List.append_nil, ← h]⟩
      · exact ⟨htable, p :: front, q, back, rfl, by rwa [List.append_cons]⟩
    · rintro ⟨htable, front, q, back, hsplit, hname, hmember, hfirst⟩
      cases front with
      | nil =>
        obtain ⟨rfl, rfl⟩ := List.cons.inj hsplit
        exact .inl ⟨htable, hname, hmember, by rwa [List.append_nil, ← h] at hfirst⟩
      | cons p' front =>
        obtain ⟨rfl, rfl⟩ := List.cons.inj hsplit
        exact .inr
          ⟨htable, front, q, back, rfl, hname, hmember, by rwa [List.append_cons] at hfirst⟩

end Table

/-! ## The errors of a request -/

namespace Request

variable (r : Request) (m : RelationshipMap)

/-- No valid table repeats a member, and no column of one contradicts itself. -/
def IsConsistent (r : Request) : Prop :=
  ∀ t ∈ r.validTables, t.columnNames.Nodup ∧
    ∀ p ∈ t.properties, p.rangeReversed = false ∧ p.lengthsReversed = false

instance : Decidable r.IsConsistent := inferInstanceAs (Decidable (∀ t ∈ r.validTables, _ ∧ _))

/-! Four of the six checks find no errors. -/

theorem isError_of_mem_tableNameFindings : ∀ f ∈ r.tableNameFindings, f.isError = false := by
  intro f hf
  obtain ⟨⟨t, index⟩, -, hf⟩ := List.mem_flatMap.mp hf
  change f ∈ t.nameFindings index at hf
  unfold Table.nameFindings at hf
  split_ifs at hf
  · exact List.mem_singleton.mp hf ▸ rfl
  · exact List.mem_singleton.mp hf ▸ rfl
  · exact (mem_onlyIf.mp hf).2 ▸ rfl

theorem isError_of_mem_primaryKeyFindings : ∀ f ∈ r.primaryKeyFindings, f.isError = false := by
  intro f hf
  obtain ⟨t, -, rfl⟩ := List.mem_map.mp hf
  rfl

theorem isError_of_mem_foreignKeyFindings : ∀ f ∈ r.foreignKeyFindings, f.isError = false := by
  intro f hf
  obtain ⟨t, -, hf⟩ := List.mem_flatMap.mp hf
  obtain ⟨p, -, hf⟩ := List.mem_flatMap.mp hf
  unfold Table.foreignKeyFindings at hf
  split at hf
  · exact List.mem_singleton.mp hf ▸ rfl
  · rcases List.mem_append.mp hf with hf | hf
    · exact (mem_onlyIf.mp hf).2 ▸ rfl
    · obtain ⟨w, -, rfl⟩ := Option.map_eq_some_iff.mp (Option.mem_toList.mp hf)
      rfl

theorem isError_of_mem_collectionFindings : ∀ f ∈ r.collectionFindings m, f.isError = false := by
  intro f hf
  obtain ⟨t, -, hf⟩ := List.mem_flatMap.mp hf
  obtain ⟨plan, -, rfl⟩ := List.mem_map.mp hf
  rfl

/-- The errors come from names of columns and from bounds. -/
theorem filter_isError_findings :
    (r.findings m).filter Finding.isError =
      r.propertyNameFindings.filter Finding.isError ++
        r.constraintFindings.filter Finding.isError := by
  have none_of : ∀ {fs : List Finding}, (∀ f ∈ fs, f.isError = false) →
      fs.filter Finding.isError = [] := fun h =>
    List.filter_eq_nil_iff.mpr fun f hf => h f hf ▸ Bool.false_ne_true
  unfold findings
  simp only [List.filter_append, none_of r.isError_of_mem_tableNameFindings,
    none_of r.isError_of_mem_primaryKeyFindings, none_of r.isError_of_mem_foreignKeyFindings,
    none_of (r.isError_of_mem_collectionFindings m), List.nil_append, List.append_nil]

theorem errors_reportUnder :
    (r.reportUnder m).errors = ((r.findings m).filter Finding.isError).map Finding.diagnostic := by
  unfold reportUnder DiagnosticReport.errors DiagnosticReport.ofSeverity
  rw [List.filter_map]
  rfl

/-- How many errors a table gives rise to. -/
theorem countP_table (t : Table) :
    (t.propertyNameFindings [] t.properties).countP Finding.isError =
      t.properties.length - t.columnNames.toFinset.card := by
  have hcount := t.countP_propertyNameFindings seen_nil t.properties
  rw [List.map_nil, List.toFinset_nil, Finset.sdiff_empty] at hcount
  unfold Table.columnNames
  omega

/-- **How many errors there are**: for each valid table, its columns less their different members,
and its columns with a reversed range and with reversed lengths. -/
theorem length_errors :
    (r.reportUnder m).errors.length =
      totalOf (fun t => (t.properties.length - t.columnNames.toFinset.card) +
        t.properties.countP (·.rangeReversed) + t.properties.countP (·.lengthsReversed))
        r.validTables := by
  rw [errors_reportUnder, List.length_map, filter_isError_findings, List.length_append,
    ← List.countP_eq_length_filter, ← List.countP_eq_length_filter]
  unfold propertyNameFindings constraintFindings
  induction r.validTables with
  | nil => rfl
  | cons t ts ih =>
    rw [List.flatMap_cons, List.flatMap_cons, List.countP_append, List.countP_append, countP_table,
      t.countP_flatMap_constraintFindings, totalOf_cons, ← ih]
    omega

/-- A table gives rise to no error exactly when it is consistent. -/
theorem errorsOf_eq_zero_iff {t : Table} :
    (t.properties.length - t.columnNames.toFinset.card) +
        t.properties.countP (·.rangeReversed) + t.properties.countP (·.lengthsReversed) = 0 ↔
      t.columnNames.Nodup ∧
        ∀ p ∈ t.properties, p.rangeReversed = false ∧ p.lengthsReversed = false := by
  have hle : t.columnNames.toFinset.card ≤ t.columnNames.length := List.toFinset_card_le _
  have hlength : t.columnNames.length = t.properties.length := List.length_map _
  have hnodup : t.properties.length - t.columnNames.toFinset.card = 0 ↔ t.columnNames.Nodup := by
    rw [List.card_toFinset, ← List.dedup_eq_self,
      ← (List.dedup_sublist t.columnNames).length_eq, ← hlength]
    rw [List.card_toFinset] at hle
    omega
  rw [Nat.add_eq_zero_iff, Nat.add_eq_zero_iff, hnodup, List.countP_eq_zero, List.countP_eq_zero,
    and_assoc, ← forall₂_and]
  simp only [Bool.not_eq_true]

theorem totalOf_eq_zero_iff {α : Type} {f : α → Nat} {l : List α} :
    totalOf f l = 0 ↔ ∀ a ∈ l, f a = 0 := by
  induction l with
  | nil => simp
  | cons a l ih => rw [totalOf_cons, Nat.add_eq_zero_iff, ih, List.forall_mem_cons]

theorem passes_iff {report : DiagnosticReport} :
    report.passes = true ↔ report.errors.length = 0 := by
  unfold DiagnosticReport.passes DiagnosticReport.hasErrors DiagnosticReport.errors
    DiagnosticReport.ofSeverity
  rw [Bool.not_eq_true', List.length_eq_zero_iff, List.any_eq_false, List.filter_eq_nil_iff]

/-- **A report passes exactly for a consistent request**, whatever the relationship map. -/
theorem passes_reportUnder_iff : (r.reportUnder m).passes = true ↔ r.IsConsistent := by
  rw [passes_iff, length_errors, totalOf_eq_zero_iff]
  exact forall₂_congr fun t _ => errorsOf_eq_zero_iff

/-- Tables that are not compiled have no part in the errors. -/
theorem errors_of_validTables :
    (({ r with tables := r.validTables } : Request).reportUnder m).errors =
      (r.reportUnder m).errors := by
  have hvalid : ({ r with tables := r.validTables } : Request).validTables = r.validTables := by
    unfold validTables
    rw [List.filter_filter]
    simp only [Bool.and_self]
  rw [errors_reportUnder, errors_reportUnder, filter_isError_findings, filter_isError_findings]
  unfold propertyNameFindings constraintFindings
  rw [hvalid]

/-- Only a repeat has its code. -/
theorem eq_duplicateMember_of_code {f : Finding} (h : f.code = "DUPLICATE_PROPERTY_NAME") :
    ∃ table first property member, f = .duplicateMember table first property member := by
  cases f with
  | duplicateMember table first property member => exact ⟨table, first, property, member, rfl⟩
  | _ => simp [Finding.code] at h

variable {r m}

/-- A column is reported as a repeat exactly if it is one, with the first column of its table that
has the member. -/
theorem duplicateMember_mem_findings_iff {table first property member : String} :
    .duplicateMember table first property member ∈ r.findings m ↔
      ∃ t ∈ r.validTables, table = t.name ∧ ∃ front q back, t.properties = front ++ q :: back ∧
        q.name = property ∧ q.memberName = member ∧
        ∃ p ∈ front, firstNamed? member t.properties = some p ∧ p.name = first := by
  have hmem : .duplicateMember table first property member ∈ r.findings m ↔
      .duplicateMember table first property member ∈ r.propertyNameFindings := by
    rw [mem_findings_iff]
    constructor
    · rintro (h | h | h | h | h | h)
      · cases r.isError_of_mem_tableNameFindings _ h
      · exact h
      · cases r.isError_of_mem_primaryKeyFindings _ h
      · cases r.isError_of_mem_foreignKeyFindings _ h
      · obtain ⟨t, -, h⟩ := List.mem_flatMap.mp h
        obtain ⟨p, -, h⟩ := List.mem_flatMap.mp h
        simp [t.mem_constraintFindings_iff] at h
      · cases r.isError_of_mem_collectionFindings m _ h
    · exact fun h => .inr (.inl h)
  rw [hmem]
  unfold propertyNameFindings
  rw [List.mem_flatMap]
  refine exists_congr fun t => and_congr_right fun _ => ?_
  rw [t.duplicateMember_mem_iff seen_nil]
  refine and_congr_right fun _ => exists_congr fun front => exists_congr fun q =>
    exists_congr fun back => and_congr_right fun hsplit => and_congr_right fun _ =>
      and_congr_right fun _ => ?_
  -- the first column of the member in front of the repeat is the first one of the table
  rw [List.nil_append, Option.map_eq_some_iff, hsplit]
  unfold firstNamed?
  constructor
  · rintro ⟨p, hp, hname⟩
    exact ⟨p, List.mem_of_find?_eq_some hp, by rw [List.find?_append, hp]; rfl, hname⟩
  · rintro ⟨p, hmem, hp, hname⟩
    have hmember := List.find?_some hp
    have hsome : (front.find? fun p => p.memberName == member).isSome = true :=
      List.find?_isSome.mpr ⟨p, hmem, hmember⟩
    rw [List.find?_append, Option.or_of_isSome hsome] at hp
    exact ⟨p, hp, hname⟩

/-! ## Reports that cannot be written -/

/-- A report cannot be written exactly if reversed lengths of a column have too many digits. -/
theorem hasUnwritableFindings_iff {r : Request} :
    r.hasUnwritableFindings = true ↔ ∃ t ∈ r.validTables, ∃ p ∈ t.properties,
      p.lengthsReversed = true ∧ p.lengths.any isUnwritable = true := by
  have hlengths : ∀ {p : Property} {low high : Int}, p.minLength = some low →
      p.maxLength = some high →
        p.lengths.any isUnwritable = (isUnwritable low || isUnwritable high) := by
    intro p low high hlow hhigh
    unfold Property.lengths
    rw [hlow, hhigh]
    simp
  unfold hasUnwritableFindings
  rw [List.any_eq_true]
  constructor
  · rintro ⟨f, hf, hunwritable⟩
    obtain ⟨t, ht, hf⟩ := List.mem_flatMap.mp hf
    obtain ⟨p, hp, hf⟩ := List.mem_flatMap.mp hf
    rcases t.mem_constraintFindings_iff.mp hf with
      ⟨_, _, -, -, -, rfl⟩ | ⟨low, high, hlow, hhigh, hlt, rfl⟩ | ⟨-, rfl⟩
    · cases hunwritable
    · exact ⟨t, ht, p, hp, Property.lengthsReversed_iff.mpr ⟨low, high, hlow, hhigh, hlt⟩,
        (hlengths hlow hhigh).trans hunwritable⟩
    · cases hunwritable
  · rintro ⟨t, ht, p, hp, hreversed, hunwritable⟩
    obtain ⟨low, high, hlow, hhigh, hlt⟩ := Property.lengthsReversed_iff.mp hreversed
    refine ⟨.lengthReversed t.name p.name low high, List.mem_flatMap.mpr ⟨t, ht,
      List.mem_flatMap.mpr ⟨p, hp, t.mem_constraintFindings_iff.mpr
        (.inr (.inl ⟨low, high, hlow, hhigh, hlt, rfl⟩))⟩⟩, ?_⟩
    exact (hlengths hlow hhigh).symm.trans hunwritable

/-- What the errors of a report say of the columns of its request. -/
structure ErrorsCounted (r : Request) (m : RelationshipMap) : Prop where
  /-- There is one for each column of a valid table that repeats a member, and one for each
  contradiction of a column. -/
  count : ∀ d, r.validate? m = some d → d.errors.length =
    totalOf (fun t => (t.properties.length - t.columnNames.toFinset.card) +
      t.properties.countP (·.rangeReversed) + t.properties.countP (·.lengthsReversed)) r.validTables
  /-- The checks find as many, whether or not what they find can be written. -/
  found : (r.reportUnder m).errors.length =
    totalOf (fun t => (t.properties.length - t.columnNames.toFinset.card) +
      t.properties.countP (·.rangeReversed) + t.properties.countP (·.lengthsReversed)) r.validTables
  /-- What they find is reported, unless reversed lengths have too many digits to be written. -/
  written : ∀ d, r.validate? m = some d ↔ d = r.reportUnder m ∧
    ¬ ∃ t ∈ r.validTables, ∃ p ∈ t.properties,
      p.lengthsReversed = true ∧ p.lengths.any isUnwritable = true
  /-- Ranges are compared by what their ends mean, and `nan` means nothing. -/
  ranges : ∀ p : Property, p.rangeReversed = true ↔
    ∃ low high, p.rangeMin.bind Binary64.value? = some low ∧
      p.rangeMax.bind Binary64.value? = some high ∧ high < low
  lengths : ∀ p : Property, p.lengthsReversed = true ↔
    ∃ low high, p.minLength = some low ∧ p.maxLength = some high ∧ high < low
  /-- A column is reported as a repeat exactly if its member is that of a column before it, and then
  with the first column of the table that has the member. -/
  repeats : ∀ d, (d ∈ r.reportUnder m ∧ d.code = "DUPLICATE_PROPERTY_NAME") ↔
    ∃ t ∈ r.validTables, ∃ front q back, t.properties = front ++ q :: back ∧
      ∃ p ∈ front, firstNamed? q.memberName t.properties = some p ∧
        d = (Finding.duplicateMember t.name p.name q.name q.memberName).diagnostic
  /-- Tables that are not compiled have no part in the errors. -/
  skipped : (({ r with tables := r.validTables } : Request).reportUnder m).errors =
    (r.reportUnder m).errors
  /-- So a report passes exactly for a consistent request. -/
  passes : (r.reportUnder m).passes = true ↔ r.IsConsistent

variable (r m)

/-- **The errors of a report are counted by the columns of the valid tables alone.** -/
theorem errorsCounted : r.ErrorsCounted m where
  count d hd := by
    obtain ⟨rfl, -⟩ := validate?_eq_some_iff.mp hd
    exact r.length_errors m
  found := r.length_errors m
  written d := by
    rw [validate?_eq_some_iff, ← hasUnwritableFindings_iff, Bool.not_eq_true]
  ranges _ := Property.rangeReversed_iff
  lengths _ := Property.lengthsReversed_iff
  repeats d := by
    constructor
    · rintro ⟨hd, hcode⟩
      obtain ⟨f, hf, rfl⟩ := List.mem_map.mp hd
      obtain ⟨table, first, property, member, rfl⟩ := eq_duplicateMember_of_code hcode
      obtain ⟨t, ht, rfl, front, q, back, hsplit, rfl, rfl, p, hp, hfirst, rfl⟩ :=
        duplicateMember_mem_findings_iff.mp hf
      exact ⟨t, ht, front, q, back, hsplit, p, hp, hfirst, rfl⟩
    · rintro ⟨t, ht, front, q, back, hsplit, p, hp, hfirst, rfl⟩
      exact ⟨List.mem_map_of_mem (duplicateMember_mem_findings_iff.mpr
        ⟨t, ht, rfl, front, q, back, hsplit, rfl, rfl, p, hp, hfirst, rfl⟩), rfl⟩
  skipped := r.errors_of_validTables m
  passes := r.passes_reportUnder_iff m

end Request

end EntityScaffold
