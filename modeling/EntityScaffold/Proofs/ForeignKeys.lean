import EntityScaffold.Proofs.KeyReports
import Mathlib.Data.List.Basic
import Mathlib.Logic.ExistsUnique
import Mathlib.Tactic.Tauto

/-!
# What becomes of a foreign key

Three parts of the library decide about a foreign key on their own: the principal's entity runs
the plans for its inverse links, the context looks the plan up again by table and column, and the
checks run the plans once more. Here they are shown to agree, as the lines of the two files and the
diagnostics show them.

Where the names of tables and the members of a table are unique, a foreign key has one inverse
link, so it has one plan (`exists_plansOf_eq`), one statement of the context at most (`chainsOf_eq`)
and findings of its own (`findingsOf_eq`). Each of the three is read off by filtering what the whole
request gives, and `filter_flatMap_of_unique` reduces the filter to the one table and column.

* `Request.chainsOf`: the statements of the context with a line that names the member of a foreign
  key.
* `Request.placeholdersOf`: the comments in the principal's entity that stand for its collection.
* `KeyFate.Holds`: what the lines and the report show for each of four fates.

Result: `existsUnique_keyFate`. Exactly one of the four fates holds of a foreign key.
-/

namespace EntityScaffold

/-- If nothing but the part of one element passes a filter, the filter can be moved to it. -/
theorem filter_flatMap_of_unique {α β : Type} {l : List α} {f : α → List β} {q : β → Bool} {a : α}
    (ha : a ∈ l) (hl : l.Nodup) (h : ∀ b ∈ l, b ≠ a → ∀ x ∈ f b, q x = false) :
    (l.flatMap f).filter q = (f a).filter q := by
  have nothing : ∀ l' : List α, (∀ b ∈ l', ∀ x ∈ f b, q x = false) →
      (l'.flatMap f).filter q = [] := by
    intro l' h'
    refine List.filter_eq_nil_iff.mpr fun x hx => ?_
    obtain ⟨b, hb, hxb⟩ := List.mem_flatMap.mp hx
    rw [h' b hb x hxb]
    exact Bool.false_ne_true
  induction l with
  | nil => exact absurd ha List.not_mem_nil
  | cons b l ih =>
    obtain ⟨hbl, hl⟩ := List.nodup_cons.mp hl
    rw [List.flatMap_cons, List.filter_append]
    rcases List.mem_cons.mp ha with rfl | ha
    · rw [nothing l fun c hc => h c (List.mem_cons_of_mem _ hc) fun e => hbl (e ▸ hc),
        List.append_nil]
    · have hne : b ≠ a := fun e => hbl (e ▸ ha)
      have hb : (f b).filter q = [] := by
        have := nothing [b] fun c hc => by
          rw [List.mem_singleton.mp hc]
          exact h b List.mem_cons_self hne
        simpa using this
      rw [hb, List.nil_append]
      exact ih ha hl fun c hc => h c (List.mem_cons_of_mem _ hc)

/-! ## The link of a foreign key -/

/-- The link leads back along the foreign key of the table. -/
def InverseLink.isOf (t : Table) (p : Property) (l : InverseLink) : Bool :=
  l.referencingTable == t.name && l.foreignKey == p.name

theorem Table.inverseLink_isOf (t : Table) (p : Property) : (t.inverseLink p).isOf t p = true := by
  simp [InverseLink.isOf, inverseLink]

section Link

variable {tables : List Table} {t : Table} {p : Property}

/-- Columns with different member names have different names. -/
theorem name_ne_of_ne (hc : t.columnNames.Nodup) (hp : p ∈ t.properties) {q : Property}
    (hq : q ∈ t.properties) (h : q ≠ p) : q.name ≠ p.name := by
  intro e
  refine h (List.inj_on_of_nodup_map hc hq hp ?_)
  unfold Property.memberName
  rw [e]

theorem properties_nodup (hc : t.columnNames.Nodup) : t.properties.Nodup := hc.of_map _

/-- **A foreign key has one link, and it stands under the name it refers to.** -/
theorem links_filter_isOf (hn : (tables.map Table.name).Nodup) (ht : t ∈ tables)
    (hnamed : t.isNamed = true) (hc : t.columnNames.Nodup) (hp : p ∈ t.properties)
    (name : String) :
    ((RelationshipMap.ofTables tables).links name).filter (·.isOf t p) =
      onlyIf (p.principal? == some name) (t.inverseLink p) := by
  have others : ∀ u ∈ tables, u ≠ t → ∀ l ∈ u.inverseLinks,
      (InverseLink.isOf t p l.2 && decide (l.1 = name)) = false := by
    rintro u hu hne ⟨n, l⟩ hl
    obtain ⟨-, q, -, -, rfl⟩ := Table.mem_inverseLinks.mp hl
    have : u.name ≠ t.name := fun e => hne (List.inj_on_of_nodup_map hn hu ht e)
    simp [InverseLink.isOf, Table.inverseLink, this]
  have columns : ∀ q ∈ t.properties, q ≠ p →
      ∀ l ∈ (q.principal?.map fun n => (n, t.inverseLink q)).toList,
        (InverseLink.isOf t p l.2 && decide (l.1 = name)) = false := by
    rintro q hq hne ⟨n, l⟩ hl
    obtain ⟨_, -, he⟩ := Option.map_eq_some_iff.mp (Option.mem_toList.mp hl)
    obtain ⟨rfl, rfl⟩ := Prod.mk.inj he
    simp [InverseLink.isOf, Table.inverseLink, name_ne_of_ne hc hp hq hne]
  rw [RelationshipMap.links_ofTables, List.filter_map, List.filter_filter]
  show ((tables.flatMap Table.inverseLinks).filter
    (fun l => InverseLink.isOf t p l.2 && decide (l.1 = name))).map Prod.snd = _
  rw [filter_flatMap_of_unique ht (hn.of_map _) others, Table.inverseLinks_of_isNamed hnamed,
    List.filterMap_eq_flatMap_toList, filter_flatMap_of_unique hp (properties_nodup hc) columns]
  cases hprin : p.principal? with
  | none => rfl
  | some n =>
    by_cases h : n = name
    · simp [h, Table.inverseLink_isOf]
    · have hb : (n == name) = false := beq_false_of_ne h
      simp [h, hb]

end Link

/-! ## What each part shows -/

namespace Request

/-- The plans that the principal `u` has for a foreign key. -/
def plansOf (r : Request) (u t : Table) (p : Property) : List CollectionPlan :=
  (planCollections u r.relationships).filter fun plan => plan.link.isOf t p

/-- The statements of the context for a foreign key: those with a line that names its member. -/
def chainsOf (r : Request) (t : Table) (p : Property) : List (List String) :=
  (r.statementsOf t).filter fun s => s!".HasForeignKey(e => e.{p.memberName})" ∈ s

/-- The comments in the entity of the principal `u` that stand for the collection of a foreign
key. -/
def placeholdersOf (r : Request) (u t : Table) (p : Property) : List (List String) :=
  (r.placeholders u).filter fun names => names.drop 1 = [t.name, p.name]

end Request

/-- What a statement says about the collection of the principal. -/
def Code.collecting (s : List String) : List String := s.filter (startsWith ".WithMany(")

/-- The four fates of a foreign key. -/
inductive KeyFate where
  /-- It names no table. -/
  | nameless
  /-- It names a table that is not compiled. -/
  | outside
  /-- The principal's collection for it is skipped. -/
  | skipped
  /-- The principal's entity has a collection for it. -/
  | collected
  deriving DecidableEq

/-- The fate of the foreign key `p` of `t`, as the principal's plan decides it. -/
def Request.keyFate (r : Request) (t : Table) (p : Property) : KeyFate :=
  match p.referencedTable with
  | none => .nameless
  | some target =>
    match tableNamed? r.validTables target with
    | none => .outside
    | some u => if (r.plansOf u t p).all (·.emitted) then .collected else .skipped

/-- The fate of the foreign key `p` of `t`, with what the lines of the context, the lines of the
principal's entity and the report show for it. -/
def KeyFate.Holds (r : Request) (t : Table) (p : Property) : KeyFate → Prop
  | .nameless =>
    p.referencedTable = none ∧ r.chainsOf t p = [] ∧
      r.reportsOn t p = [{
        severity := .warning
        code := "FK_WITHOUT_REFERENCED_TABLE"
        message := s!"'{t.name}.{p.name}' is marked as a foreign key but names " ++
          "no referenced table; no association is generated."
        context := .ofMembers [("table", .text t.name), ("property", .text p.name)] }]
  | .outside =>
    ∃ target, p.referencedTable = some target ∧ target ∉ r.validTables.map Table.name ∧
      (r.chainsOf t p).map Code.collecting = [[".WithMany()"]] ∧
      r.reportsOn t p = [{
        severity := .info
        code := "FK_TARGET_NOT_IN_REQUEST"
        message := s!"'{t.name}.{p.name}' references '{target}', which is not part of this request."
        context := .ofMembers [("table", .text t.name), ("property", .text p.name)] }]
  | .skipped =>
    ∃ u ∈ r.validTables, p.referencedTable = some u.name ∧
      r.plansOf u t p = [⟨t.inverseLink p, false⟩] ∧
      (r.chainsOf t p).map Code.collecting = [[".WithMany()"]] ∧
      r.placeholdersOf u t p = [[t.collectionName, t.name, p.name]] ∧
      r.reportsOn t p = [{
        severity := .warning
        code := "INVERSE_COLLECTION_CONFLICT"
        message := s!"Inverse collection '{t.collectionName}' on '{u.name}' " ++
          s!"(from {t.name}.{p.name}) is skipped: name conflicts with an existing member."
        context := .ofMembers [("table", .text u.name), ("collection", .text t.collectionName)] }]
  | .collected =>
    ∃ u ∈ r.validTables, p.referencedTable = some u.name ∧
      r.plansOf u t p = [⟨t.inverseLink p, true⟩] ∧
      (r.chainsOf t p).map Code.collecting = [[s!".WithMany(p => p.{t.collectionName})"]] ∧
      ⟨"ICollection<" ++ t.className ++ ">", t.collectionName⟩ ∈ (r.entityFile u).declarations ∧
      r.placeholdersOf u t p = [] ∧
      r.reportsOn t p = [] ∧
      ∀ t' ∈ r.validTables, ∀ q ∈ t'.foreignKeys, q.referencedTable = some u.name →
        (t', q) ≠ (t, p) → ∀ chain ∈ r.chainsOf t' q,
          s!".WithMany(p => p.{t.collectionName})" ∉ chain

/-! ## One plan, one association -/

section Shown

variable {r : Request} {t u : Table} {p : Property}

/-- A foreign key has one plan, with the table that it refers to. -/
theorem map_link_plansOf (hn : (r.validTables.map Table.name).Nodup) (ht : t ∈ r.validTables)
    (hc : t.columnNames.Nodup) (hp : p ∈ t.properties) (u : Table) :
    (r.plansOf u t p).map CollectionPlan.link =
      onlyIf (p.principal? == some u.name) (t.inverseLink p) := by
  rw [← links_filter_isOf hn ht (Request.isNamed_of_mem_validTables ht) hc hp u.name]
  show _ = (r.relationships.links u.name).filter _
  rw [← planCollections_map_link u r.relationships, List.filter_map]
  rfl

/-- A plan for the foreign key is one of the plans of its principal. -/
theorem mem_planCollections_of_plansOf {emitted : Bool}
    (hplan : r.plansOf u t p = [⟨t.inverseLink p, emitted⟩]) :
    ⟨t.inverseLink p, emitted⟩ ∈ planCollections u r.relationships := by
  have : ⟨t.inverseLink p, emitted⟩ ∈ r.plansOf u t p := by
    rw [hplan]
    exact List.mem_singleton_self _
  exact (List.mem_filter.mp this).1

/-- The elements of a planned collection are entities of the table with the foreign key. -/
theorem elementType_inverseLink (t : Table) (p : Property) (emitted : Bool) :
    CollectionPlan.elementType ⟨t.inverseLink p, emitted⟩ = t.className := by
  rw [CollectionPlan.elementType, Table.inverseLink, Table.className]

/-- The context finds the plan of a foreign key again. -/
theorem inverseCollection?_eq_of_mem (hn : (r.validTables.map Table.name).Nodup)
    (hu : u ∈ r.validTables) (t : Table) (p : Property) :
    inverseCollection? r.validTables r.relationships u.name t.name p.name =
      ((r.plansOf u t p).find? (·.emitted)).map (·.link.collection) := by
  unfold inverseCollection? Request.plansOf
  rw [tableNamed?_of_mem hn hu, Option.bind_some, List.find?_filter]
  congr 2
  funext plan
  unfold InverseLink.isOf
  rw [Bool.eq_iff_iff]
  simp only [Bool.and_eq_true, beq_iff_eq, decide_eq_true_eq]
  tauto

theorem inverseCollection?_eq_none {tables : List Table} {m : RelationshipMap}
    {principal dependent foreignKey : String} (h : principal ∉ tables.map Table.name) :
    inverseCollection? tables m principal dependent foreignKey = none := by
  unfold inverseCollection?
  rw [tableNamed?_eq_none_iff.mpr h]
  rfl

/-- The line that names the member of a foreign key. -/
theorem startsWith_key (member : String) :
    Code.startsWith ".HasForeignKey(e => e." s!".HasForeignKey(e => e.{member})" = true := by
  simp only [String.append_assoc]
  exact Code.startsWith_self_append _ _

/-- The line that names a collection, or none. -/
theorem startsWith_collecting (a : Association) :
    Code.startsWith ".WithMany(" a.collecting = true := by
  unfold Association.collecting
  cases a.collection with
  | none => decide
  | some c =>
    simp only [String.append_assoc]
    exact Code.startsWith_append (by decide) _

/-- **An association names the member of its foreign key and no other.** -/
theorem filter_key_terminated (a : Association) :
    (Association.terminated a.calls).filter (Code.startsWith ".HasForeignKey(e => e.") =
      [s!".HasForeignKey(e => e.{a.foreignKey})"] := by
  obtain ⟨later, hcalls, hlater⟩ := a.terminated_calls
  have hopening : Code.startsWith ".HasForeignKey(e => e." a.opening = false :=
    a.startsWith_opening (by decide)
  have hcollecting : Code.startsWith ".HasForeignKey(e => e." a.collecting = false := by
    have hapart : Code.Apart ".HasForeignKey(e => e." ".WithMany(" := by decide
    exact hapart.startsWith_eq_false (startsWith_collecting a)
  rw [hcalls, List.filter_cons_of_neg (by simp [hopening]),
    List.filter_cons_of_neg (by simp [hcollecting]), List.filter_cons_of_pos (startsWith_key _),
    Code.filter_eq_nil_of_heads (by decide) hlater]

theorem mem_terminated_calls_iff (a : Association) (member : String) :
    s!".HasForeignKey(e => e.{member})" ∈ Association.terminated a.calls ↔
      a.foreignKey = member := by
  have hfound : s!".HasForeignKey(e => e.{member})" ∈ Association.terminated a.calls ↔
      s!".HasForeignKey(e => e.{member})" ∈
        (Association.terminated a.calls).filter (Code.startsWith ".HasForeignKey(e => e.") := by
    rw [List.mem_filter]
    exact (and_iff_left (startsWith_key member)).symm
  rw [hfound, filter_key_terminated]
  simp [toString, eq_comm]

/-- **An association says one thing about the collection of the principal.** -/
theorem collecting_terminated (a : Association) :
    Code.collecting (Association.terminated a.calls) = [a.collecting] := by
  obtain ⟨later, hcalls, hlater⟩ := a.terminated_calls
  have hopening : Code.startsWith ".WithMany(" a.opening = false := a.startsWith_opening (by decide)
  have hkey : Code.startsWith ".WithMany(" s!".HasForeignKey(e => e.{a.foreignKey})" = false := by
    have hapart : Code.Apart ".WithMany(" ".HasForeignKey(e => e." := by decide
    exact hapart.startsWith_eq_false (startsWith_key _)
  unfold Code.collecting
  rw [hcalls, List.filter_cons_of_neg (by simp [hopening]),
    List.filter_cons_of_pos (startsWith_collecting a), List.filter_cons_of_neg (by simp [hkey]),
    Code.filter_eq_nil_of_heads (by decide) hlater]

/-- Only associations name the member of a foreign key on a line of its own. -/
theorem opensWith_of_key_mem {members s : List String} {member : String}
    (h : Code.Mentions members s) (hkey : s!".HasForeignKey(e => e.{member})" ∈ s) :
    Code.opensWith "entity.HasOne" s = true := by
  -- statements of one line start otherwise
  have hsingle : ∀ {head text : String}, Code.Apart ".HasForeignKey(e => e." head →
      Code.startsWith head text = true → s!".HasForeignKey(e => e.{member})" ∉ [text] := by
    intro head text hapart htext hmem
    have hstart := startsWith_key member
    rw [List.mem_singleton.mp hmem, hapart.startsWith_eq_false htext] at hstart
    cases hstart
  have hdiffer : ∀ {head rest : String}, Code.Apart ".HasForeignKey(e => e." head →
      s!".HasForeignKey(e => e.{member})" ∉ [head ++ rest] :=
    fun hapart => hsingle hapart (Code.startsWith_self_append _ _)
  cases h with
  | key _ =>
    simp only [String.append_assoc] at hkey
    exact absurd hkey (hdiffer (by decide))
  | compositeKey _ _ =>
    simp only [String.append_assoc] at hkey
    exact absurd hkey (hdiffer (by decide))
  | facets _ =>
    simp only [String.append_assoc] at hkey
    exact absurd hkey (hdiffer (by decide))
  | check htext => exact absurd hkey (hsingle (by decide) htext)
  | note htext => exact absurd hkey (hsingle (by decide) htext)
  | navigation _ _ _ =>
    show Code.startsWith _ _ = true
    simp only [String.append_assoc]
    exact Code.startsWith_append (by decide) _
  | association _ _ =>
    show Code.startsWith _ _ = true
    simp only [String.append_assoc]
    exact Code.startsWith_append (by decide) _
  | filter _ =>
    simp only [String.append_assoc] at hkey
    exact absurd hkey (hdiffer (by decide))

/-- **Where member names are unique, the statements with the member of a foreign key are its own
association.** -/
theorem chainsOf_eq (ht : t ∈ r.validTables) (hc : t.columnNames.Nodup) (hp : p ∈ t.properties) :
    r.chainsOf t p = (Association.ofProperty? r.validTables r.relationships t p).toList.map
      fun a => Association.terminated a.calls := by
  have hopens : r.chainsOf t p = ((r.statementsOf t).filter (Code.opensWith "entity.HasOne")).filter
      fun s => s!".HasForeignKey(e => e.{p.memberName})" ∈ s := by
    unfold Request.chainsOf
    rw [List.filter_filter]
    refine List.filter_congr fun s hs => ?_
    rw [Request.statementsOf_eq ht] at hs
    have hmentions := mentions_of_mem_statements r r.validTables t hs
    by_cases hkey : s!".HasForeignKey(e => e.{p.memberName})" ∈ s
    · simp [hkey, opensWith_of_key_mem hmentions hkey]
    · simp [hkey]
  have others : ∀ q ∈ t.properties, q ≠ p →
      ∀ a ∈ (Association.ofProperty? r.validTables r.relationships t q).toList,
        (a.foreignKey == p.memberName) = false := by
    intro q hq hne a ha
    obtain ⟨-, -, -, hkey, -⟩ := Association.ofProperty?_eq_some (Option.mem_toList.mp ha)
    rw [hkey]
    exact beq_false_of_ne fun e => hne (List.inj_on_of_nodup_map hc hq hp e)
  have hassociations : (r.configuration t).associations.filter
      (fun a => a.foreignKey == p.memberName) =
        (Association.ofProperty? r.validTables r.relationships t p).toList := by
    show (t.properties.filterMap _).filter _ = _
    rw [List.filterMap_eq_flatMap_toList, filter_flatMap_of_unique hp (properties_nodup hc) others]
    refine List.filter_eq_self.mpr fun a ha => ?_
    obtain ⟨-, -, -, hkey, -⟩ := Association.ofProperty?_eq_some (Option.mem_toList.mp ha)
    exact beq_iff_eq.mpr hkey
  rw [hopens, Request.statementsOf_eq ht, EntityConfiguration.filter_opensWith_association,
    List.filter_map, ← hassociations]
  refine congrArg _ (List.filter_congr fun a _ => ?_)
  exact Bool.eq_iff_iff.mpr
    (decide_eq_true_iff.trans ((mem_terminated_calls_iff a _).trans beq_iff_eq.symm))

theorem chainsOf_eq_nil (ht : t ∈ r.validTables) (hc : t.columnNames.Nodup) (hp : p ∈ t.properties)
    (h : p.principal? = none) : r.chainsOf t p = [] := by
  rw [chainsOf_eq ht hc hp]
  unfold Association.ofProperty?
  rw [h]
  rfl

/-- The one association of a foreign key that names its table. -/
theorem exists_chainsOf_eq (ht : t ∈ r.validTables) (hc : t.columnNames.Nodup)
    (hp : p ∈ t.properties) {principal : String} (h : p.principal? = some principal) :
    ∃ a : Association, r.chainsOf t p = [Association.terminated a.calls] ∧ a.collection =
      (inverseCollection? r.validTables r.relationships principal t.name p.name).filter
        fun c => !c.isEmpty := by
  rw [chainsOf_eq ht hc hp]
  unfold Association.ofProperty?
  rw [h]
  exact ⟨_, rfl, rfl⟩

/-! ## Comments and findings -/

/-- The comments for a foreign key are those of its plans that are skipped. -/
theorem placeholdersOf_eq (hr : r.NamesReadable) (u t : Table) (p : Property) :
    r.placeholdersOf u t p = ((r.plansOf u t p).filter fun plan => !plan.emitted).map
      fun plan => [plan.link.collection, t.name, p.name] := by
  have hnames : ∀ plan : CollectionPlan,
      plan.link.isOf t p = true ↔
        [plan.link.referencingTable, plan.link.foreignKey] = [t.name, p.name] := by
    intro plan
    simp [InverseLink.isOf]
  have hfilter : ((planCollections u r.relationships).filter fun plan => !plan.emitted).filter
      (fun plan => decide ([plan.link.referencingTable, plan.link.foreignKey] = [t.name, p.name])) =
        (r.plansOf u t p).filter fun plan => !plan.emitted := by
    unfold Request.plansOf
    rw [List.filter_filter, List.filter_filter]
    refine List.filter_congr fun plan _ => ?_
    rw [Bool.and_comm, Bool.eq_iff_iff.mpr (decide_eq_true_iff.trans (hnames plan).symm)]
  unfold Request.placeholdersOf
  rw [placeholders_eq hr, List.filter_map]
  refine (congrArg _ hfilter).trans (List.map_congr_left fun plan hplan => ?_)
  have hof := (List.mem_filter.mp (List.mem_filter.mp hplan).1).2
  rw [(hnames plan).mp hof]

/-- The findings about collections that are skipped, for one principal and one foreign key. -/
theorem filter_collectionFindings (r : Request) (u t : Table) (p : Property) :
    (u.collectionFindings r.relationships).filter (Finding.isOf t p) =
      ((r.plansOf u t p).filter fun plan => !plan.emitted).map fun plan =>
        .skippedCollection u.name plan.link.collection plan.link.referencingTable
          plan.link.foreignKey plan.skipReason := by
  unfold Table.collectionFindings Request.plansOf
  rw [List.filter_map, List.filter_filter, List.filter_filter]
  congr 1
  refine List.filter_congr fun plan _ => ?_
  exact Bool.and_comm _ _

/-- The findings about the foreign key itself. -/
theorem filter_foreignKeyFindings (known : List String) (t : Table) (p : Property) :
    (t.foreignKeyFindings known p).filter (Finding.isOf t p) =
      match p.referencedTable with
      | none => [.foreignKeyWithoutTable t.name p.name]
      | some target =>
        onlyIf (!known.contains target) (.foreignKeyOutside t.name p.name target) := by
  unfold Table.foreignKeyFindings
  cases p.referencedTable with
  | none => simp [Finding.isOf]
  | some target =>
    have unknown : (((p.deleteBehavior.filter fun w => (DeleteBehavior.ofWord? w).isNone).map
        (Finding.unknownDeleteBehavior t.name p.name)).toList).filter (Finding.isOf t p) = [] := by
      refine List.filter_eq_nil_iff.mpr fun f hf => ?_
      obtain ⟨w, -, rfl⟩ := Option.map_eq_some_iff.mp (Option.mem_toList.mp hf)
      exact Bool.false_ne_true
    simp only
    rw [List.filter_append, unknown, List.append_nil]
    cases known.contains target <;> simp [Finding.isOf]

/-- The message about a skipped collection. -/
theorem message_skippedCollection (table collection referencing foreignKey : String) :
    (Finding.skippedCollection table collection referencing foreignKey conflictReason).message =
      s!"Inverse collection '{collection}' on '{table}' " ++
        s!"(from {referencing}.{foreignKey}) is skipped: name conflicts with an existing member." := by
  refine String.toList_injective ?_
  show (s!"Inverse collection '{collection}' on '{table}' " ++
    s!"(from {referencing}.{foreignKey}) is skipped: {conflictReason}.").toList = _
  simp [toString, conflictReason]

/-- The findings about one foreign key are about no other. -/
theorem isOf_eq_false_of_mem_foreignKeyFindings {known : List String} {q : Property} {f : Finding}
    (hf : f ∈ u.foreignKeyFindings known q) (h : u.name ≠ t.name ∨ q.name ≠ p.name) :
    f.isOf t p = false := by
  unfold Table.foreignKeyFindings at hf
  cases hq : q.referencedTable with
  | none =>
    rw [hq] at hf
    rw [List.mem_singleton.mp hf]
    rcases h with h | h <;> simp [Finding.isOf, h]
  | some target =>
    simp only [hq] at hf
    rcases List.mem_append.mp hf with hf | hf
    · rw [(mem_onlyIf.mp hf).2]
      rcases h with h | h <;> simp [Finding.isOf, h]
    · obtain ⟨w, -, rfl⟩ := Option.map_eq_some_iff.mp (Option.mem_toList.mp hf)
      rfl

end Shown

/-! ## The fate of a foreign key -/

/-- What keeps foreign keys and their collections apart: tables have different names, the members
of each table's columns too, every collection has a name, and names can be read in comments and
messages. -/
structure Request.Unambiguous (r : Request) : Prop where
  tables : (r.validTables.map Table.name).Nodup
  columns : ∀ t ∈ r.validTables, t.columnNames.Nodup
  collections : ∀ t ∈ r.validTables, t.collectionName ≠ ""
  readable : r.NamesReadable

/-- A request that keeps its own rule is unambiguous when two kinds of findings are absent. -/
theorem Request.unambiguous {r : Request} (hu : r.uniqueNames = none)
    (hd : "DUPLICATE_PROPERTY_NAME" ∉ r.diagnose.map Diagnostic.code)
    (hn : "TABLE_NAME_NOT_IDENTIFIER" ∉ r.diagnose.map Diagnostic.code) : r.Unambiguous where
  tables := nodup_tableNames hu
  columns t ht := nodup_columnNames ht fun _ _ _ hf => code_ne_of_not_mem hd _ hf rfl
  collections t ht := by
    have haccepts : Text.acceptsIdentifier t.className = true :=
      acceptsIdentifier_className ht fun hf => code_ne_of_not_mem hn _ hf rfl
    exact Text.pluralize_ne_empty (Text.ne_empty_of_accepts haccepts)
  readable := Request.namesReadable fun _ ht =>
    acceptsIdentifier_className ht fun hf => code_ne_of_not_mem hn _ hf rfl

theorem principal?_of_mem_foreignKeys {t : Table} {p : Property} (hp : p ∈ t.foreignKeys) :
    p ∈ t.properties ∧ p.principal? = p.referencedTable := by
  obtain ⟨hmem, hkey⟩ := List.mem_filter.mp hp
  refine ⟨hmem, ?_⟩
  unfold Property.principal?
  rw [if_pos hkey]

section Fates

variable {r : Request} {t u : Table} {p : Property}
variable (hr : r.Unambiguous) (ht : t ∈ r.validTables) (hp : p ∈ t.foreignKeys)
include hr ht hp

/-- The findings about a foreign key come from its own check and from those of collections. -/
theorem findingsOf_eq :
    r.findingsOf t p =
      (t.foreignKeyFindings (r.validTables.map Table.name) p).filter (Finding.isOf t p) ++
        (r.collectionFindings r.relationships).filter (Finding.isOf t p) := by
  obtain ⟨hmem, -⟩ := principal?_of_mem_foreignKeys hp
  have silent : ∀ l : List Finding, (∀ f ∈ l, f.isOf t p = false) →
      l.filter (Finding.isOf t p) = [] := by
    intro l hl
    refine List.filter_eq_nil_iff.mpr fun f hf => ?_
    rw [hl f hf]
    exact Bool.false_ne_true
  have htables := silent r.tableNameFindings fun f hf => isOf_eq_false_of_mem_tableNameFindings hf
  have hcolumns := silent r.propertyNameFindings fun f hf => by
    obtain ⟨u, -, hf⟩ := List.mem_flatMap.mp hf
    exact isOf_eq_false_of_mem_propertyNameFindings [] hf
  have hkeys := silent r.primaryKeyFindings fun f hf => by
    obtain ⟨u, -, rfl⟩ := List.mem_map.mp hf
    rfl
  have hbounds := silent r.constraintFindings fun f hf => by
    obtain ⟨u, -, hf⟩ := List.mem_flatMap.mp hf
    obtain ⟨q, -, hf⟩ := List.mem_flatMap.mp hf
    exact isOf_eq_false_of_mem_constraintFindings hf
  have others : ∀ u ∈ r.validTables, u ≠ t →
      ∀ f ∈ u.foreignKeys.flatMap (u.foreignKeyFindings (r.validTables.map Table.name)),
        f.isOf t p = false := by
    intro u hu hne f hf
    obtain ⟨q, -, hf⟩ := List.mem_flatMap.mp hf
    exact isOf_eq_false_of_mem_foreignKeyFindings hf
      (.inl fun e => hne (List.inj_on_of_nodup_map hr.tables hu ht e))
  have columns : ∀ q ∈ t.foreignKeys, q ≠ p →
      ∀ f ∈ t.foreignKeyFindings (r.validTables.map Table.name) q, f.isOf t p = false := by
    intro q hq hne f hf
    exact isOf_eq_false_of_mem_foreignKeyFindings hf
      (.inr (name_ne_of_ne (hr.columns t ht) hmem (List.mem_filter.mp hq).1 hne))
  have hforeign : r.foreignKeyFindings.filter (Finding.isOf t p) =
      (t.foreignKeyFindings (r.validTables.map Table.name) p).filter (Finding.isOf t p) := by
    show (r.validTables.flatMap fun u => u.foreignKeys.flatMap
      (u.foreignKeyFindings (r.validTables.map Table.name))).filter _ = _
    rw [filter_flatMap_of_unique ht (hr.tables.of_map _) others,
      filter_flatMap_of_unique hp ((properties_nodup (hr.columns t ht)).filter _) columns]
  unfold Request.findingsOf Request.findings
  simp only [List.filter_append, htables, hcolumns, hkeys, hbounds, hforeign, List.nil_append,
    List.append_nil]

/-- A table that the foreign key does not refer to has no plan for it. -/
theorem plansOf_eq_nil (h : p.referencedTable ≠ some u.name) : r.plansOf u t p = [] := by
  obtain ⟨hmem, hprin⟩ := principal?_of_mem_foreignKeys hp
  have hlinks := map_link_plansOf hr.tables ht (hr.columns t ht) hmem u
  rw [hprin, beq_false_of_ne h] at hlinks
  exact List.map_eq_nil_iff.mp hlinks

/-- **The table that a foreign key refers to has one plan for it.** -/
theorem exists_plansOf_eq (h : p.referencedTable = some u.name) :
    ∃ emitted, r.plansOf u t p = [⟨t.inverseLink p, emitted⟩] := by
  obtain ⟨hmem, hprin⟩ := principal?_of_mem_foreignKeys hp
  have hlinks := map_link_plansOf hr.tables ht (hr.columns t ht) hmem u
  rw [hprin, h, beq_self_eq_true, onlyIf_true] at hlinks
  obtain ⟨plan, hplan, hlink⟩ := List.map_eq_singleton_iff.mp hlinks
  exact ⟨plan.emitted, by rw [hplan, ← hlink]⟩

/-- No collection is skipped for a foreign key that leads out of the request. -/
theorem filter_collectionFindings_of_outside
    (h : ∀ u ∈ r.validTables, p.referencedTable ≠ some u.name) :
    (r.collectionFindings r.relationships).filter (Finding.isOf t p) = [] := by
  refine List.filter_eq_nil_iff.mpr fun f hf => ?_
  obtain ⟨u, hu, hf⟩ := List.mem_flatMap.mp hf
  have hnil := filter_collectionFindings r u t p
  rw [plansOf_eq_nil hr ht hp (h u hu)] at hnil
  exact List.filter_eq_nil_iff.mp hnil f hf

/-- Collections are skipped for a foreign key only by the table that it refers to. -/
theorem filter_collectionFindings_of_mem (hu : u ∈ r.validTables)
    (h : p.referencedTable = some u.name) :
    (r.collectionFindings r.relationships).filter (Finding.isOf t p) =
      ((r.plansOf u t p).filter fun plan => !plan.emitted).map fun plan =>
        .skippedCollection u.name plan.link.collection plan.link.referencingTable
          plan.link.foreignKey plan.skipReason := by
  have others : ∀ u' ∈ r.validTables, u' ≠ u →
      ∀ f ∈ u'.collectionFindings r.relationships, f.isOf t p = false := by
    intro u' hu' hne f hf
    have hout : p.referencedTable ≠ some u'.name := by
      intro e
      refine hne (List.inj_on_of_nodup_map hr.tables hu' hu ?_)
      exact Option.some.inj (e.symm.trans h)
    have hnil := filter_collectionFindings r u' t p
    rw [plansOf_eq_nil hr ht hp hout] at hnil
    exact Bool.eq_false_iff.mpr (List.filter_eq_nil_iff.mp hnil f hf)
  unfold Request.collectionFindings
  rw [filter_flatMap_of_unique hu (hr.tables.of_map _) others, filter_collectionFindings]

theorem holds_nameless (h : p.referencedTable = none) : KeyFate.nameless.Holds r t p := by
  obtain ⟨hmem, hprin⟩ := principal?_of_mem_foreignKeys hp
  refine ⟨h, chainsOf_eq_nil ht (hr.columns t ht) hmem (hprin.trans h), ?_⟩
  rw [reportsOn_eq hr.readable, findingsOf_eq hr ht hp, filter_foreignKeyFindings, h,
    filter_collectionFindings_of_outside hr ht hp fun u _ => by simp [h], List.append_nil]
  rfl

theorem holds_outside {target : String} (h : p.referencedTable = some target)
    (hout : target ∉ r.validTables.map Table.name) : KeyFate.outside.Holds r t p := by
  obtain ⟨hmem, hprin⟩ := principal?_of_mem_foreignKeys hp
  obtain ⟨a, ha, hcol⟩ := exists_chainsOf_eq ht (hr.columns t ht) hmem (hprin.trans h)
  refine ⟨target, h, hout, ?_, ?_⟩
  · rw [inverseCollection?_eq_none hout] at hcol
    rw [ha, List.map_singleton, collecting_terminated, Association.collecting, hcol]
    rfl
  · have hnone : ∀ u ∈ r.validTables, p.referencedTable ≠ some u.name := by
      intro u hu e
      exact hout (Option.some.inj (h.symm.trans e) ▸ List.mem_map_of_mem hu)
    have hunknown : (r.validTables.map Table.name).contains target = false :=
      Bool.eq_false_iff.mpr fun hc => hout (List.contains_iff_mem.mp hc)
    rw [reportsOn_eq hr.readable, findingsOf_eq hr ht hp, filter_foreignKeyFindings, h,
      filter_collectionFindings_of_outside hr ht hp hnone, List.append_nil]
    simp only [hunknown, Bool.not_false, onlyIf_true]
    rfl

/-- The findings about a foreign key with a compiled table are about its plan. -/
theorem findingsOf_eq_of_mem (hu : u ∈ r.validTables) (h : p.referencedTable = some u.name) :
    r.findingsOf t p = ((r.plansOf u t p).filter fun plan => !plan.emitted).map fun plan =>
      .skippedCollection u.name plan.link.collection plan.link.referencingTable
        plan.link.foreignKey plan.skipReason := by
  have hknown : (r.validTables.map Table.name).contains u.name = true :=
    List.contains_iff_mem.mpr (List.mem_map_of_mem hu)
  rw [findingsOf_eq hr ht hp, filter_foreignKeyFindings, h,
    filter_collectionFindings_of_mem hr ht hp hu h]
  simp only [hknown, Bool.not_true, onlyIf_false, List.nil_append]

/-- The statement for a foreign key with a compiled table follows its plan. -/
theorem exists_chainsOf_eq_of_mem (hu : u ∈ r.validTables) (h : p.referencedTable = some u.name) :
    ∃ a : Association, r.chainsOf t p = [Association.terminated a.calls] ∧ a.collection =
      (((r.plansOf u t p).find? (·.emitted)).map (·.link.collection)).filter
        fun c => !c.isEmpty := by
  obtain ⟨hmem, hprin⟩ := principal?_of_mem_foreignKeys hp
  obtain ⟨a, ha, hcol⟩ := exists_chainsOf_eq ht (hr.columns t ht) hmem (hprin.trans h)
  exact ⟨a, ha, by rw [hcol, inverseCollection?_eq_of_mem hr.tables hu]⟩

theorem holds_skipped (hu : u ∈ r.validTables) (h : p.referencedTable = some u.name)
    (hplan : r.plansOf u t p = [⟨t.inverseLink p, false⟩]) : KeyFate.skipped.Holds r t p := by
  obtain ⟨a, ha, hcol⟩ := exists_chainsOf_eq_of_mem hr ht hp hu h
  refine ⟨u, hu, h, hplan, ?_, ?_, ?_⟩
  · rw [hplan] at hcol
    rw [ha, List.map_singleton, collecting_terminated, Association.collecting, hcol]
    rfl
  · rw [placeholdersOf_eq hr.readable, hplan]
    exact congrArg (fun c => [[c, t.name, p.name]]) (t.inverseLink_collection p)
  · rw [reportsOn_eq hr.readable, findingsOf_eq_of_mem hr ht hp hu h, hplan]
    show [(Finding.skippedCollection u.name (t.inverseLink p).collection t.name p.name
      conflictReason).diagnostic] = _
    rw [t.inverseLink_collection p]
    exact congrArg (fun message => [Diagnostic.mk .warning "INVERSE_COLLECTION_CONFLICT" message
      (.ofMembers [("table", .text u.name), ("collection", .text t.collectionName)])])
      (message_skippedCollection u.name t.collectionName t.name p.name)

/-- **No other foreign key leads to the collection** that is emitted for one. -/
theorem not_mem_chain_of_emitted (hu : u ∈ r.validTables)
    (hplan : r.plansOf u t p = [⟨t.inverseLink p, true⟩]) {t' : Table} (ht' : t' ∈ r.validTables)
    {q : Property} (hq : q ∈ t'.foreignKeys) (h' : q.referencedTable = some u.name)
    (hne : (t', q) ≠ (t, p)) {chain : List String} (hchain : chain ∈ r.chainsOf t' q) :
    s!".WithMany(p => p.{t.collectionName})" ∉ chain := by
  intro hmem
  obtain ⟨emitted, hplan'⟩ := exists_plansOf_eq hr ht' hq h'
  obtain ⟨a, ha, hcol⟩ := exists_chainsOf_eq_of_mem hr ht' hq hu h'
  rw [ha] at hchain
  obtain rfl := List.mem_singleton.mp hchain
  -- the chain says one thing about the collection of the principal
  have hstart : Code.startsWith ".WithMany(" s!".WithMany(p => p.{t.collectionName})" = true := by
    simp only [String.append_assoc]
    exact Code.startsWith_append (by decide) _
  have hcollecting : s!".WithMany(p => p.{t.collectionName})" = a.collecting := by
    have hline : s!".WithMany(p => p.{t.collectionName})" ∈
        Code.collecting (Association.terminated a.calls) := List.mem_filter.mpr ⟨hmem, hstart⟩
    rw [collecting_terminated] at hline
    exact List.mem_singleton.mp hline
  have hcollection : a.collection = some t.collectionName := by
    unfold Association.collecting at hcollecting
    cases hname : a.collection with
    | none =>
      have hmany :
          Code.startsWith ".WithMany(p" s!".WithMany(p => p.{t.collectionName})" = true := by
        simp only [String.append_assoc]
        exact Code.startsWith_append (by decide) _
      rw [hcollecting, hname] at hmany
      exact absurd hmany (by decide)
    | some name =>
      rw [hname] at hcollecting
      simpa [toString] using hcollecting.symm
  rw [hcollection, hplan'] at hcol
  cases emitted with
  | false => cases hcol
  | true =>
    obtain ⟨hname, -⟩ := Option.filter_eq_some_iff.mp hcol.symm
    have hsame := eq_of_emitted_of_collection_eq (mem_planCollections_of_plansOf hplan')
      (mem_planCollections_of_plansOf hplan) rfl rfl
      ((Option.some.inj hname).trans (t.inverseLink_collection p).symm)
    -- one plan, hence one link, hence one table and one column of it
    have hlink : t'.inverseLink q = t.inverseLink p := congrArg CollectionPlan.link hsame
    obtain rfl : t' = t := List.inj_on_of_nodup_map hr.tables ht' ht
      (congrArg InverseLink.referencingTable hlink)
    have hqp : q.name = p.name := congrArg InverseLink.foreignKey hlink
    refine hne (congrArg (Prod.mk t') (by_contra fun hqne => ?_))
    exact name_ne_of_ne (hr.columns _ ht) (principal?_of_mem_foreignKeys hp).1
      (principal?_of_mem_foreignKeys hq).1 hqne hqp

theorem holds_collected (hu : u ∈ r.validTables) (h : p.referencedTable = some u.name)
    (hplan : r.plansOf u t p = [⟨t.inverseLink p, true⟩]) : KeyFate.collected.Holds r t p := by
  obtain ⟨a, ha, hcol⟩ := exists_chainsOf_eq_of_mem hr ht hp hu h
  refine ⟨u, hu, h, hplan, ?_, ?_, ?_, ?_, ?_⟩
  · have hname : (t.inverseLink p).collection = t.collectionName := t.inverseLink_collection p
    have hempty : (t.collectionName).isEmpty = false := by
      rw [← Bool.not_eq_true, String.isEmpty_iff]
      exact hr.collections t ht
    have hcollection : a.collection = some t.collectionName := by
      simp [hcol, hplan, hname, hempty]
    rw [ha, List.map_singleton, collecting_terminated, Association.collecting, hcollection]
  · exact Entity.collection_mem_declarations_iff.mpr
      ⟨⟨t.inverseLink p, true⟩, mem_planCollections_of_plansOf hplan, rfl,
        elementType_inverseLink t p true, t.inverseLink_collection p⟩
  · rw [placeholdersOf_eq hr.readable, hplan]
    rfl
  · rw [reportsOn_eq hr.readable, findingsOf_eq_of_mem hr ht hp hu h, hplan]
    rfl
  · intro t' ht' q hq h' hne chain hchain
    exact not_mem_chain_of_emitted hr ht hp hu hplan ht' hq h' hne hchain

/-- The fate of a foreign key holds of it. -/
theorem holds_keyFate : (r.keyFate t p).Holds r t p := by
  unfold Request.keyFate
  cases h : p.referencedTable with
  | none => exact holds_nameless hr ht hp h
  | some target =>
    simp only
    cases hu : tableNamed? r.validTables target with
    | none => exact holds_outside hr ht hp h (tableNamed?_eq_none_iff.mp hu)
    | some u =>
      obtain ⟨hmem, rfl⟩ := mem_of_tableNamed? hu
      obtain ⟨emitted, hplan⟩ := exists_plansOf_eq hr ht hp h
      simp only [hplan]
      cases emitted with
      | false => exact holds_skipped hr ht hp hmem h hplan
      | true => exact holds_collected hr ht hp hmem h hplan

end Fates

/-- No other fate holds of a foreign key. -/
theorem keyFate_eq_of_holds {r : Request} {t : Table} {p : Property} (hr : r.Unambiguous)
    {c : KeyFate} (h : c.Holds r t p) : r.keyFate t p = c := by
  unfold Request.keyFate
  cases c with
  | nameless => rw [h.1]
  | outside =>
    obtain ⟨target, htarget, hout, -⟩ := h
    simp only [htarget, tableNamed?_eq_none_iff.mpr hout]
  | skipped =>
    obtain ⟨u, hu, htarget, hplan, -⟩ := h
    simp only [htarget, tableNamed?_of_mem hr.tables hu, hplan]
    rfl
  | collected =>
    obtain ⟨u, hu, htarget, hplan, -⟩ := h
    simp only [htarget, tableNamed?_of_mem hr.tables hu, hplan]
    rfl

/-- **The principal's entity, the context and the report agree on every foreign key**: exactly
one of the four fates holds of it. -/
theorem existsUnique_keyFate {r : Request} (hu : r.uniqueNames = none)
    (hd : "DUPLICATE_PROPERTY_NAME" ∉ r.diagnose.map Diagnostic.code)
    (hn : "TABLE_NAME_NOT_IDENTIFIER" ∉ r.diagnose.map Diagnostic.code)
    {t : Table} (ht : t ∈ r.validTables) {p : Property} (hp : p ∈ t.foreignKeys) :
    ∃! c : KeyFate, c.Holds r t p := by
  have hr := r.unambiguous hu hd hn
  exact ⟨r.keyFate t p, holds_keyFate hr ht hp, fun _ h => (keyFate_eq_of_holds hr h).symm⟩

/-- The statement for the key of an order line. -/
theorem existsUnique_keyFate_orderKey :
    ∃! c : KeyFate, c.Holds Request.orders Table.orderLine Property.orderKey :=
  existsUnique_keyFate (Request.uniqueNames_eq_none_iff.mpr (by decide)) (by decide) (by decide)
    (by decide) (by decide)

example : Request.orders.keyFate Table.orderLine Property.orderKey = .collected := by decide

end EntityScaffold
