import EntityScaffold.Diagnostics.Check
import EntityScaffold.Proofs.Members

/-!
# What the absence of findings says

The checks of a request list what they find. Read the other way, a report without a certain
finding says something about the request.

Results:
* `Request.validate?_eq_some_iff`: what is found is reported if it can be written.
* `Request.nodup_tableNames`: a request that keeps its own rule has no two tables of one name.
* `Request.nodup_columnNames`: without a finding about duplicate members, the columns of a table
  have different member names.
* `Request.acceptsIdentifier_className`: without a finding about the name of a table, its class is
  named by an identifier.
* `Request.IsClean`: a report without errors and warnings. All that it holds is informative
  (`IsClean.severity_eq_info`), so nothing occurs that another finding would have reported.
-/

namespace EntityScaffold

namespace Request

variable {r : Request} {t : Table}

/-! ## Reports -/

theorem validate?_of_unwritable (h : r.hasUnwritableFindings = true) (m : RelationshipMap) :
    r.validate? m = none := if_pos h

theorem validate?_of_writable (h : r.hasUnwritableFindings = false) (m : RelationshipMap) :
    r.validate? m = some (r.reportUnder m) := if_neg (h ▸ Bool.false_ne_true)

/-- What the checks find is reported if it can be written. -/
theorem validate?_eq_some_iff {m : RelationshipMap} {d : DiagnosticReport} :
    r.validate? m = some d ↔ d = r.reportUnder m ∧ r.hasUnwritableFindings = false := by
  unfold validate?
  cases r.hasUnwritableFindings <;> simp [eq_comm]

/-! ## Names -/

theorem mem_validTables : t ∈ r.validTables ↔ t ∈ r.tables ∧ t.isValid = true := List.mem_filter

theorem isNamed_of_mem_validTables (h : t ∈ r.validTables) : t.isNamed = true := by
  have hv := (mem_validTables.mp h).2
  unfold Table.isValid at hv
  exact (Bool.and_eq_true_iff.mp hv).1

/-- The rule of a request holds exactly when no two tables share a name. -/
theorem uniqueNames_eq_none_iff : r.uniqueNames = none ↔ r.tableNames.Nodup := by
  have hdup : r.uniqueNames = none ↔ r.duplicateNames = [] := by
    unfold uniqueNames
    cases r.duplicateNames <;> simp
  have hdedup : ∀ names : List String, names.eraseDups = [] ↔ names = [] := by
    intro names
    cases names <;> simp [List.eraseDups_cons]
  rw [hdup, List.nodup_iff_count_le_one]
  unfold duplicateNames
  rw [← List.length_eq_zero_iff, List.length_mergeSort, List.length_eq_zero_iff, hdedup,
    List.filter_eq_nil_iff]
  constructor
  · intro h n
    by_cases hn : n ∈ r.tableNames
    · have := h n hn
      simp only [decide_eq_true_eq] at this
      omega
    · rw [List.count_eq_zero_of_not_mem hn]
      exact Nat.zero_le 1
  · intro h n _
    have := h n
    simp only [decide_eq_true_eq]
    omega

/-- Compiled tables have different names. -/
theorem nodup_tableNames (h : r.uniqueNames = none) : (r.validTables.map Table.name).Nodup := by
  have hs : r.validTables.Sublist (r.tables.filter (·.isNamed)) := by
    unfold validTables
    have : r.tables.filter (·.isValid) = (r.tables.filter (·.isNamed)).filter (·.isValid) := by
      rw [List.filter_filter]
      refine List.filter_congr fun t _ => ?_
      unfold Table.isValid
      cases t.isNamed <;> simp
    rw [this]
    exact List.filter_sublist
  exact (uniqueNames_eq_none_iff.mp h).sublist (hs.map _)

/-- A code that is not reported belongs to no finding. -/
theorem code_ne_of_not_mem {code : String} (h : code ∉ r.diagnose.map Diagnostic.code) :
    ∀ f ∈ r.findings r.relationships, f.code ≠ code := by
  intro f hf he
  refine h (List.mem_map.mpr ⟨f.diagnostic, List.mem_map_of_mem hf, he⟩)

/-! ## Where findings stand -/

variable {m : RelationshipMap} {f : Finding}

theorem mem_findings_iff : f ∈ r.findings m ↔
    f ∈ r.tableNameFindings ∨ f ∈ r.propertyNameFindings ∨ f ∈ r.primaryKeyFindings ∨
      f ∈ r.foreignKeyFindings ∨ f ∈ r.constraintFindings ∨ f ∈ r.collectionFindings m := by
  simp only [findings, List.mem_append, or_assoc]

theorem tableNotIdentifier_mem_findings (ht : t ∈ r.validTables)
    (h : Text.acceptsIdentifier t.className = false) :
    .tableNotIdentifier t.name t.className ∈ r.findings m := by
  obtain ⟨hmem, hvalid⟩ := mem_validTables.mp ht
  obtain ⟨index, hindex⟩ := List.mem_iff_getElem?.mp hmem
  refine mem_findings_iff.mpr (.inl (List.mem_flatMap.mpr
    ⟨(t, index), List.mk_mem_zipIdx_iff_getElem?.mpr hindex, ?_⟩))
  unfold Table.isValid at hvalid
  simp only [Bool.and_eq_true, Bool.not_eq_true'] at hvalid
  simp [Table.nameFindings, hvalid.1, hvalid.2, h]

theorem mem_findings_of_mem_propertyNameFindings (ht : t ∈ r.validTables)
    (h : f ∈ t.propertyNameFindings [] t.properties) : f ∈ r.findings m :=
  mem_findings_iff.mpr (.inr (.inl (List.mem_flatMap.mpr ⟨t, ht, h⟩)))

theorem skippedCollection_mem_findings (ht : t ∈ r.validTables) {plan : CollectionPlan}
    (hp : plan ∈ planCollections t m) (h : plan.emitted = false) :
    .skippedCollection t.name plan.link.collection plan.link.referencingTable plan.link.foreignKey
      plan.skipReason ∈ r.findings m := by
  refine mem_findings_iff.mpr (.inr (.inr (.inr (.inr (.inr (List.mem_flatMap.mpr ⟨t, ht, ?_⟩))))))
  exact List.mem_map.mpr ⟨plan, List.mem_filter.mpr ⟨hp, by simp [h]⟩, rfl⟩

end Request

/-! ## Names of columns -/

section Columns

variable {t : Table} {p : Property}

theorem propertyNotIdentifier_mem (seen : List (String × String)) {ps : List Property}
    (hp : p ∈ ps) (h : Text.acceptsIdentifier p.memberName = false) :
    .propertyNotIdentifier t.name p.name p.memberName ∈ t.propertyNameFindings seen ps := by
  induction ps generalizing seen with
  | nil => exact absurd hp List.not_mem_nil
  | cons q ps ih =>
    unfold Table.propertyNameFindings
    rcases List.mem_cons.mp hp with rfl | hp
    · simp [h]
    · exact List.mem_append_right _ (ih _ hp)

theorem namedLikeClass_mem (seen : List (String × String)) {ps : List Property} (hp : p ∈ ps)
    (h : p.memberName = t.className) :
    .namedLikeClass t.name p.name t.className ∈ t.propertyNameFindings seen ps := by
  induction ps generalizing seen with
  | nil => exact absurd hp List.not_mem_nil
  | cons q ps ih =>
    unfold Table.propertyNameFindings
    rcases List.mem_cons.mp hp with rfl | hp
    · simp [h]
    · exact List.mem_append_right _ (ih _ hp)

/-- Without a duplicate, members are different and none of them was seen before. -/
theorem nodup_memberNames_of_no_duplicateMember {seen : List (String × String)}
    {ps : List Property}
    (h : ∀ first property member,
      .duplicateMember t.name first property member ∉ t.propertyNameFindings seen ps) :
    (ps.map Property.memberName).Nodup ∧ ∀ q ∈ ps, seen.lookup q.memberName = none := by
  -- each column adds its member to what is seen, so the statement is about any such list
  induction ps generalizing seen with
  | nil => exact ⟨List.nodup_nil, fun q hq => absurd hq List.not_mem_nil⟩
  | cons p ps ih =>
    have hfresh : seen.lookup p.memberName = none := by
      cases hl : seen.lookup p.memberName with
      | none => rfl
      | some first =>
        refine absurd ?_ (h first p.name p.memberName)
        unfold Table.propertyNameFindings
        simp [hl]
    have htail : ∀ first property member, .duplicateMember t.name first property member ∉
        t.propertyNameFindings ((p.memberName, p.name) :: seen) ps := by
      intro first property member hm
      refine h first property member ?_
      unfold Table.propertyNameFindings
      simp only [hfresh, Option.isSome_none, Bool.false_eq_true, if_false]
      exact List.mem_append_right _ hm
    obtain ⟨hnodup, hseen⟩ := ih htail
    have hlater : ∀ q ∈ ps, q.memberName ≠ p.memberName ∧ seen.lookup q.memberName = none := by
      intro q hq
      have hq := hseen q hq
      rw [List.lookup_cons] at hq
      split at hq
      · exact nomatch hq
      · rename_i hne
        exact ⟨ne_of_beq_false hne, hq⟩
    refine ⟨?_, fun q hq => ?_⟩
    · rw [List.map_cons, List.nodup_cons]
      refine ⟨fun hm => ?_, hnodup⟩
      obtain ⟨q, hq, he⟩ := List.mem_map.mp hm
      exact (hlater q hq).1 he
    · rcases List.mem_cons.mp hq with rfl | hq
      · exact hfresh
      · exact (hlater q hq).2

end Columns

namespace Request

variable {r : Request} {t : Table} {m : RelationshipMap}

/-- **Columns of a table without reported duplicates have different member names.** -/
theorem nodup_columnNames (ht : t ∈ r.validTables)
    (h : ∀ first property member, .duplicateMember t.name first property member ∉ r.findings m) :
    t.columnNames.Nodup := by
  have hno : ∀ first property member,
      .duplicateMember t.name first property member ∉ t.propertyNameFindings [] t.properties :=
    fun first property member hm =>
      h first property member (mem_findings_of_mem_propertyNameFindings ht hm)
  exact (nodup_memberNames_of_no_duplicateMember hno).1

/-- **A class that is not reported is named by an identifier**, apart from a final line feed. -/
theorem acceptsIdentifier_className (ht : t ∈ r.validTables)
    (h : .tableNotIdentifier t.name t.className ∉ r.findings m) :
    Text.acceptsIdentifier t.className = true := by
  by_contra hne
  exact h (tableNotIdentifier_mem_findings ht (Bool.eq_false_iff.mpr hne))

/-! ## Clean reports -/

/-- The report of the request holds no error and no warning. -/
def IsClean (r : Request) : Prop := r.diagnose.errors = [] ∧ r.diagnose.warnings = []

instance (r : Request) : Decidable r.IsClean := inferInstanceAs (Decidable (_ ∧ _))

/-- All that a clean report holds is informative. -/
theorem IsClean.severity_eq_info (h : r.IsClean) :
    ∀ f ∈ r.findings r.relationships, f.severity = .info := by
  intro f hf
  have hd : f.diagnostic ∈ r.diagnose := List.mem_map_of_mem hf
  have he : f.severity ≠ .error := fun he => by
    have : f.diagnostic ∈ r.diagnose.errors := List.mem_filter.mpr ⟨hd, beq_iff_eq.mpr he⟩
    rw [h.1] at this
    exact List.not_mem_nil this
  have hw : f.severity ≠ .warning := fun hw => by
    have : f.diagnostic ∈ r.diagnose.warnings := List.mem_filter.mpr ⟨hd, beq_iff_eq.mpr hw⟩
    rw [h.2] at this
    exact List.not_mem_nil this
  cases hs : f.severity with
  | error => exact absurd hs he
  | warning => exact absurd hs hw
  | info => rfl

theorem IsClean.nodup_columnNames (h : r.IsClean) (ht : t ∈ r.validTables) :
    t.columnNames.Nodup :=
  Request.nodup_columnNames ht fun _ _ _ hf => nomatch h.severity_eq_info _ hf

theorem IsClean.acceptsIdentifier_className (h : r.IsClean) (ht : t ∈ r.validTables) :
    Text.acceptsIdentifier t.className = true :=
  Request.acceptsIdentifier_className ht fun hf => nomatch h.severity_eq_info _ hf

theorem IsClean.acceptsIdentifier_memberName (h : r.IsClean) (ht : t ∈ r.validTables)
    {p : Property} (hp : p ∈ t.properties) : Text.acceptsIdentifier p.memberName = true := by
  by_contra hne
  have := h.severity_eq_info _ (mem_findings_of_mem_propertyNameFindings ht
    (propertyNotIdentifier_mem [] hp (Bool.eq_false_iff.mpr hne)))
  exact nomatch this

theorem IsClean.memberName_ne_className (h : r.IsClean) (ht : t ∈ r.validTables) {p : Property}
    (hp : p ∈ t.properties) : p.memberName ≠ t.className := by
  intro he
  have := h.severity_eq_info _
    (mem_findings_of_mem_propertyNameFindings ht (namedLikeClass_mem [] hp he))
  exact nomatch this

/-- A clean request skips no collection. -/
theorem IsClean.emitted (h : r.IsClean) (ht : t ∈ r.validTables) {plan : CollectionPlan}
    (hp : plan ∈ planCollections t r.relationships) : plan.emitted = true := by
  by_contra hne
  have := h.severity_eq_info _ (skippedCollection_mem_findings ht hp (Bool.eq_false_iff.mpr hne))
  exact nomatch this

end Request

/-! ## A clean request -/

/-- The column by which an order line refers to its order. -/
def Property.orderKey : Property where
  name := "order_id"
  isForeignKey := true
  referencedTable := some "order"
  navigation := some "order"

/-- The lines of orders. -/
def Table.orderLine : Table where
  name := "order_line"
  properties := [{ name := "id", isPrimaryKey := true }, Property.orderKey]

/-- Orders and their lines, a request on which general statements can be tried. -/
def Request.orders : Request where
  tables := [{ name := "order", properties := [{ name := "id", isPrimaryKey := true }] },
    Table.orderLine]

example : Request.orders.IsClean := by decide

end EntityScaffold
