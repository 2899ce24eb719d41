import EntityScaffold.Proofs.Artifacts
import EntityScaffold.Proofs.ContextStatements
import EntityScaffold.Proofs.Members

/-!
# What the context refers to is declared

The context and the entities are written apart from each other, from one list of tables and one
relationship map. A block of the context names members of its entity in lambda expressions on `e`
and collections of a principal's entity in `WithMany`. Both files are read line by line: the context
in blocks and statements, the entities in declarations.

* `Request.Emits`: a file is generated, with its lines in its text.
* `Code.Mentions`: the statements that may stand in a block, with the members that they name.
* `Request.Associates`: an association with the collection that its principal declares for it.
* `Request.Resolves`: all that the context of a request refers to is declared.

Results:
* `Request.blocks_eq`: the blocks of the context are those of the compiled tables, in order.
* `mentions_of_mem_statements`: every member that a statement names is declared by the entity of the
  same table.
* `associates_of_ofProperty?`: every collection of an association is declared by the entity of the
  principal that the foreign key names.
* `exists_className_of_element`: the elements of a collection are entities of a compiled table.
* `context_resolves`: all of this for every request.
-/

namespace EntityScaffold

namespace Request

/-- The context of the tables that a request compiles. -/
def context (r : Request) : Context := .ofTables r r.validTables r.relationships

/-- The entity of a table of the request. -/
def entity (r : Request) (t : Table) : Entity := .ofTable r r.relationships t

/-- The configuration of a table of the request. -/
def configuration (r : Request) (t : Table) : EntityConfiguration :=
  .ofTable r r.validTables r.relationships t

/-- The file of the context. -/
def contextFile (r : Request) : Code.SourceFile := Context.file r r.validTables r.relationships

/-- The file of the entity of a table. -/
def entityFile (r : Request) (t : Table) : Code.SourceFile := Entity.file r r.relationships t

/-- The blocks in which the context configures the entities. -/
def blocks (r : Request) : List Code.Section := Code.blocksAt 2 r.contextFile.body

/-- The block of a table. -/
def block (r : Request) (t : Table) : Code.Section :=
  ⟨Context.head t.className,
    Code.indent (Code.indent (Code.indent (r.configuration t).body))⟩

/-- **The blocks of the context are those of the compiled tables, in order.** -/
theorem blocks_eq (r : Request) : r.blocks = r.validTables.map r.block := by
  unfold blocks
  show Code.blocksAt 2 r.context.code = _
  rw [Context.blocksAt_code]
  exact List.map_map

/-- The statements in a block are those of the configuration. -/
theorem statementsAt_block (r : Request) (t : Table) :
    Code.statementsAt 3 (r.block t).body = (r.configuration t).statements := by
  unfold block
  rw [Code.statementsAt_indent_succ, Code.statementsAt_indent_succ, Code.statementsAt_indent_succ,
    EntityConfiguration.statementsAt_body]

/-- The statements in the block of a table, read in the context: the block stands at the place that
the table has among the compiled ones. -/
def statementsOf (r : Request) (t : Table) : List (List String) :=
  (((r.validTables.zip r.blocks).find? fun entry => entry.1 = t).map fun entry =>
    Code.statementsAt 3 entry.2.body).getD []

theorem statementsOf_eq {r : Request} {t : Table} (ht : t ∈ r.validTables) :
    r.statementsOf t = (r.configuration t).statements := by
  have hfind : ∀ tables : List Table, t ∈ tables →
      (tables.zip (tables.map r.block)).find? (fun entry => entry.1 = t) = some (t, r.block t) := by
    intro tables h
    induction tables with
    | nil => exact absurd h List.not_mem_nil
    | cons u tables ih =>
      rw [List.map_cons, List.zip_cons_cons, List.find?_cons]
      by_cases hu : u = t
      · simp [hu]
      · rw [decide_eq_false hu]
        exact ih ((List.mem_cons.mp h).resolve_left (Ne.symm hu))
  unfold statementsOf
  rw [r.blocks_eq, hfind _ ht]
  exact r.statementsAt_block t

end Request

/-! ## Mentioned members -/

/-- The statements that may stand in a block, line by line. Every member that one of them names on
`e` is among the given ones; check constraints name columns in texts only, and the calls that follow
the foreign key of an association name none. -/
inductive Code.Mentions (members : List String) : List String → Prop where
  | key {x : String} : x ∈ members → Mentions members [s!"entity.HasKey(e => e.{x});"]
  | compositeKey {xs : List String} : 2 ≤ xs.length → xs ⊆ members →
    Mentions members
      ["entity.HasKey(e => new \x7b " ++ ", ".intercalate (xs.map ("e." ++ ·)) ++ " \x7d);"]
  | facets {x : String} {calls : List StorageCall} : x ∈ members →
    Mentions members
      [s!"entity.Property(e => e.{x})." ++ ".".intercalate (calls.map StorageCall.code) ++ ";"]
  | check {text : String} : startsWith "entity.ToTable(t => t.HasCheckConstraint(" text = true →
    Mentions members [text]
  | note {text : String} : startsWith "// " text = true → Mentions members [text]
  | navigation {x many y : String} {later : List String} : x ∈ members → y ∈ members →
    (∀ l ∈ later, ∃ head ∈ Association.laterHeads, startsWith head l = true) →
    Mentions members
      (s!"entity.HasOne(e => e.{x})" :: many :: s!".HasForeignKey(e => e.{y})" :: later)
  | association {principal many y : String} {later : List String} : y ∈ members →
    (∀ l ∈ later, ∃ head ∈ Association.laterHeads, startsWith head l = true) →
    Mentions members
      (s!"entity.HasOne<{principal}>()" :: many :: s!".HasForeignKey(e => e.{y})" :: later)
  | filter {x : String} : x ∈ members → Mentions members [s!"entity.HasQueryFilter(e => !e.{x});"]

section Association

variable {tables : List Table} {m : RelationshipMap} {t : Table} {p : Property} {a : Association}

/-- The association of a foreign key, field by field. -/
theorem Association.ofProperty?_eq_some (h : ofProperty? tables m t p = some a) :
    ∃ principal, p.principal? = some principal ∧ a.navigation = p.navigation.map Text.pascalCase ∧
      a.foreignKey = p.memberName ∧
      a.collection =
        (inverseCollection? tables m principal t.name p.name).filter fun c => !c.isEmpty := by
  obtain ⟨principal, hp, rfl⟩ := Option.map_eq_some_iff.mp h
  exact ⟨principal, hp, rfl, rfl, rfl⟩

/-- An association names its navigation and its foreign key, both declared by its entity. -/
theorem Association.mentions_of_ofProperty? {members : List String} (hp : p ∈ t.properties)
    (hcolumns : t.columnNames ⊆ members) (hreferences : t.referenceNames ⊆ members)
    (h : Association.ofProperty? tables m t p = some a) :
    Code.Mentions members (Association.terminated a.calls) := by
  obtain ⟨principal, hprincipal, hnavigation, hkey, -⟩ := Association.ofProperty?_eq_some h
  obtain ⟨later, hcalls, hlater⟩ := a.terminated_calls
  have hy : a.foreignKey ∈ members := hkey ▸ hcolumns (memberName_mem_columnNames hp)
  rw [hcalls]
  cases hx : a.navigation with
  | none =>
    have hopening : a.opening = s!"entity.HasOne<{a.principal}>()" := by rw [opening, hx]
    rw [hopening]
    exact .association hy hlater
  | some x =>
    have hopening : a.opening = s!"entity.HasOne(e => e.{x})" := by rw [opening, hx]
    have hdeclared : x ∈ t.referenceNames := by
      refine List.mem_filterMap.mpr ⟨p, hp, ?_⟩
      obtain ⟨navigation, hn, rfl⟩ := Option.map_eq_some_iff.mp (hnavigation.symm.trans hx)
      unfold Property.reference?
      rw [hprincipal, hn]
      rfl
    rw [hopening]
    exact .navigation (hreferences hdeclared) hy hlater

end Association

/-- A fluent statement names the member of its column, if it names one. -/
theorem mentions_of_mem_propertyStatements {s : Style} {t : Table} {p : Property}
    {f : FluentStatement} {members : List String} (hp : p.memberName ∈ members)
    (hf : f ∈ s.propertyStatements t p) : Code.Mentions members [f.code] := by
  have storage : ∀ g ∈ p.storageStatements, Code.Mentions members [g.code] := by
    intro g hg
    obtain ⟨-, rfl⟩ := mem_onlyIf.mp hg
    exact .facets hp
  have validation : ∀ g ∈ p.validationStatements t, Code.Mentions members [g.code] := by
    intro g hg
    have hconstraint : Code.startsWith "entity.ToTable(t => t.HasCheckConstraint("
        "entity.ToTable(t => t.HasCheckConstraint(\"" = true := by decide
    rcases Property.check_or_note_of_mem hg with ⟨rule, rfl⟩ | ⟨rule, rfl⟩
    · exact .check (Code.startsWith_trans hconstraint (FluentStatement.startsWith_check _ _ _))
    · exact .note (FluentStatement.startsWith_note _ _)
  cases s with
  | annotationsAndFluent => exact storage f hf
  | annotationsOnly => exact absurd hf List.not_mem_nil
  | fluentOnly => exact (List.mem_append.mp hf).elim (storage f) (validation f)

/-- The statement that declares a key names its members. -/
theorem mentions_of_mem_keyCode {members keys : List String} (h : keys ⊆ members) {s : String}
    (hs : s ∈ EntityConfiguration.keyCode keys) : Code.Mentions members [s] := by
  unfold EntityConfiguration.keyCode at hs
  split at hs
  · exact absurd hs List.not_mem_nil
  · rw [List.mem_singleton.mp hs]
    exact .key (h List.mem_cons_self)
  · rename_i hnil hsingle
    rw [List.mem_singleton.mp hs]
    refine .compositeKey ?_ h
    match keys, hnil, hsingle with
    | [], hnil, _ => exact absurd rfl hnil
    | [k], _, hsingle => exact absurd rfl (hsingle k)
    | _ :: _ :: _, _, _ => simp

/-- **Every member that a statement of a table's block names is declared by its entity.** -/
theorem mentions_of_mem_statements (r : Request) (tables : List Table) (t : Table)
    {s : List String}
    (hs : s ∈ (EntityConfiguration.ofTable r tables (.ofTables tables) t).statements) :
    Code.Mentions (Entity.file r (.ofTables tables) t).memberNames s := by
  have hcolumns := columnNames_subset_memberNames r tables t
  have hreferences := referenceNames_subset_memberNames r tables t
  simp only [EntityConfiguration.statements, List.mem_append, List.mem_map] at hs
  obtain ((⟨k, hk, rfl⟩ | ⟨_, ⟨f, hf, rfl⟩, rfl⟩) | ⟨a, ha, rfl⟩) | ⟨x, hx, rfl⟩ := hs
  · refine mentions_of_mem_keyCode (fun x hx => ?_) hk
    obtain ⟨p, hp, rfl⟩ := List.mem_map.mp hx
    exact hcolumns (memberName_mem_columnNames (List.mem_filter.mp hp).1)
  · obtain ⟨p, hp, hf⟩ := List.mem_flatMap.mp hf
    exact mentions_of_mem_propertyStatements (hcolumns (memberName_mem_columnNames hp)) hf
  · obtain ⟨p, hp, hpa⟩ := List.mem_filterMap.mp ha
    exact Association.mentions_of_ofProperty? hp hcolumns hreferences hpa
  · obtain ⟨name, hname, rfl⟩ := Option.map_eq_some_iff.mp (Option.mem_toList.mp hx)
    simp only [EntityConfiguration.ofTable] at hname
    split at hname
    · rename_i hdeletes
      obtain rfl := Option.some.inj hname
      exact .filter (softDelete_mem_memberNames tables hdeletes)
    · cases hname

/-! ## Collections and classes -/

/-- The statement is the association of a foreign key: it names its member, and either no collection
or one of the principal's entity, whose elements are entities of the table. -/
def Request.Associates (r : Request) (t : Table) (p : Property) (s : List String) : Prop :=
  ∃ first many later, s = first :: many :: s!".HasForeignKey(e => e.{p.memberName})" :: later ∧
    (many = ".WithMany()" ∨
      ∃ u ∈ r.validTables, p.principal? = some u.name ∧
        ∃ name, many = s!".WithMany(p => p.{name})" ∧
          ⟨"ICollection<" ++ t.className ++ ">", name⟩ ∈ (r.entityFile u).declarations)

/-- **The collection of an association is declared by the principal's entity**, with entities of
the dependent table as its elements. -/
theorem associates_of_ofProperty? {r : Request} {t : Table} {p : Property} {a : Association}
    (ha : Association.ofProperty? r.validTables r.relationships t p = some a) :
    r.Associates t p (Association.terminated a.calls) := by
  obtain ⟨principal, hprincipal, -, hkey, hcollection⟩ := Association.ofProperty?_eq_some ha
  obtain ⟨later, hcalls, -⟩ := a.terminated_calls
  refine ⟨_, _, later, by rw [hcalls, ← hkey], ?_⟩
  cases hname : a.collection with
  | none => exact .inl (by rw [Association.collecting, hname])
  | some name =>
    rw [hname] at hcollection
    obtain ⟨hfound, -⟩ := Option.filter_eq_some_iff.mp hcollection.symm
    obtain ⟨u, hu, rfl, plan, hplan, hemit, hdependent, -, hcollects⟩ :=
      exists_plan_of_inverseCollection? hfound
    refine .inr ⟨u, hu, hprincipal, name, by rw [Association.collecting, hname],
      Entity.collection_mem_declarations_iff.mpr ⟨plan, hplan, hemit, ?_, hcollects⟩⟩
    unfold CollectionPlan.elementType Table.className
    rw [hdependent]

/-- The elements of a collection are entities of one of the tables. -/
theorem exists_className_of_element {r : Request} {tables : List Table} {t : Table}
    {element name : String}
    (h : ⟨"ICollection<" ++ element ++ ">", name⟩ ∈
      (Entity.file r (.ofTables tables) t).declarations) :
    ∃ u ∈ tables, element = u.className := by
  obtain ⟨plan, hplan, -, rfl, -⟩ := Entity.collection_mem_declarations_iff.mp h
  obtain ⟨u, hu, -, p, -, -, hlink⟩ := exists_foreignKey_of_mem_planCollections hplan
  refine ⟨u, hu, ?_⟩
  unfold CollectionPlan.elementType
  rw [hlink]
  rfl

/-! ## The files that are read -/

/-- The file is generated: it is among the files of the request under its path, and its lines stand
in its text. -/
structure Request.Emits (r : Request) (path : String) (f : Code.SourceFile) : Prop where
  listed : (path, f.text) ∈ r.artifacts
  lines : ∀ l ∈ f.body, ∃ start rest, f.text = start ++ l.text ++ "\n" ++ rest

theorem Request.emits_of_mem {r : Request} {kind : ArtifactKind} {name : String}
    {f : Code.SourceFile} (h : Artifact.of kind name f ∈ r.allArtifacts) :
    r.Emits (kind.path name) f where
  listed := by
    rw [r.artifacts_eq]
    exact List.mem_map.mpr ⟨_, h, rfl⟩
  lines _ hl := Code.SourceFile.exists_text_eq hl

theorem Request.emits_contextFile (r : Request) :
    r.Emits (ArtifactKind.context.path r.contextName) r.contextFile :=
  emits_of_mem (List.mem_append_right _ List.mem_cons_self)

theorem Request.emits_entityFile {r : Request} {t : Table} (ht : t ∈ r.validTables) :
    r.Emits (ArtifactKind.entity.path t.className) (r.entityFile t) :=
  emits_of_mem (List.mem_append_left _ (List.mem_flatMap.mpr ⟨t, ht, List.mem_cons_self⟩))

/-! ## The context of a request -/

/-- What a block refers to is declared. -/
structure Request.BlockResolves (r : Request) (t : Table) (statements : List (List String)) :
    Prop where
  /-- Members named on `e` are declared by the entity that is configured. -/
  members : ∀ s ∈ statements, Code.Mentions (r.entityFile t).memberNames s
  /-- The associations are those of the foreign keys that name a table, in order. -/
  associations : List.Forall₂ (r.Associates t)
    (t.properties.filter fun p => p.principal?.isSome)
    (statements.filter (Code.opensWith "entity.HasOne"))

/-- All that the context of a request refers to is declared. -/
structure Request.Resolves (r : Request) : Prop where
  /-- The files that are read are generated. -/
  emitted : r.Emits (ArtifactKind.context.path r.contextName) r.contextFile ∧
    ∀ t ∈ r.validTables, r.Emits (ArtifactKind.entity.path t.className) (r.entityFile t)
  /-- Every compiled table has a block for its class, in order. -/
  blocks : List.Forall₂ (fun t b => b.head = s!"modelBuilder.Entity<{t.className}>(entity =>" ∧
    r.BlockResolves t (Code.statementsAt 3 b.body)) r.validTables r.blocks
  /-- No other class is configured. -/
  configured : (Code.textsAt 2 r.contextFile.body).filter (Code.startsWith "modelBuilder.Entity<") =
    r.validTables.map fun t => s!"modelBuilder.Entity<{t.className}>(entity =>"
  /-- Sets hold entities of the compiled tables. -/
  sets : r.contextFile.declarations =
    r.validTables.map fun t => ⟨"DbSet<" ++ t.className ++ ">", t.collectionName⟩
  /-- Collections hold entities of compiled tables. -/
  elements : ∀ t ∈ r.validTables, ∀ element name,
    ⟨"ICollection<" ++ element ++ ">", name⟩ ∈ (r.entityFile t).declarations →
      ∃ u ∈ r.validTables, element = u.className

section Resolves

variable (r : Request) (t : Table)

/-- The associations of a block are those of the foreign keys that name a table, in order. -/
theorem forall₂_associates : List.Forall₂ (r.Associates t)
    (t.properties.filter fun p => p.principal?.isSome)
    ((r.configuration t).statements.filter (Code.opensWith "entity.HasOne")) := by
  rw [EntityConfiguration.filter_opensWith_association]
  show List.Forall₂ _ _ ((t.properties.filterMap
    (Association.ofProperty? r.validTables r.relationships t)).map _)
  generalize t.properties = ps
  induction ps with
  | nil => exact .nil
  | cons p ps ih =>
    rw [List.filterMap_cons, List.filter_cons]
    cases ha : Association.ofProperty? r.validTables r.relationships t p with
    | none =>
      have hprincipal : p.principal? = none := Option.map_eq_none_iff.mp ha
      rw [hprincipal]
      exact ih
    | some a =>
      obtain ⟨principal, hprincipal, -⟩ := Association.ofProperty?_eq_some ha
      rw [hprincipal]
      exact .cons (associates_of_ofProperty? ha) ih

theorem blockResolves : r.BlockResolves t (Code.statementsAt 3 (r.block t).body) where
  members s hs := by
    rw [r.statementsAt_block t] at hs
    exact mentions_of_mem_statements r r.validTables t hs
  associations := by
    rw [r.statementsAt_block t]
    exact forall₂_associates r t

/-- The sets of the context are those of the compiled tables. -/
theorem declarations_contextFile :
    r.contextFile.declarations =
      r.validTables.map fun t => ⟨"DbSet<" ++ t.className ++ ">", t.collectionName⟩ := by
  have hsets : ∀ s ∈ r.context.sets, ' ' ∉ s.1.toList ∧ ' ' ∉ s.2.toList := by
    intro s hs
    obtain ⟨t, -, ht⟩ := List.mem_map.mp hs
    rw [← ht]
    dsimp only
    exact ⟨t.blank_not_mem_className, t.blank_not_mem_collectionName⟩
  have hlines : r.contextFile.declarations =
      (Code.textsAt 1 r.context.code).filterMap Code.declaration? := rfl
  have hmap : r.context.sets = r.validTables.map fun t => (t.className, t.collectionName) := rfl
  rw [hlines, Context.declarations_code _ hsets, hmap, List.map_map, Function.comp_def]

end Resolves

/-- **Whatever a request holds, its context and entities refer only to what is declared.** Names,
repeated columns, style, switches and findings do not matter. -/
theorem context_resolves (r : Request) : r.Resolves where
  emitted := ⟨r.emits_contextFile, fun _ => Request.emits_entityFile⟩
  blocks := by
    rw [r.blocks_eq, List.forall₂_map_right_iff]
    exact List.forall₂_same.mpr fun t _ => ⟨rfl, blockResolves r t⟩
  configured := by
    show (Code.textsAt 2 r.context.code).filter _ = _
    rw [Context.filter_textsAt_code]
    exact List.map_map
  sets := declarations_contextFile r
  elements _ _ _ _ h := exists_className_of_element h

end EntityScaffold
