import EntityScaffold.Proofs.Collections
import Mathlib.Data.List.Induction
import Mathlib.Data.List.Nodup

/-!
# The relationship map as groups of foreign keys

The map is filled link by link: a link goes to the end of the list under its name, and a name that
is not there yet goes to the end of the map. What comes out is the list of all foreign keys, grouped
by the table that they name.

* `Reference`: a foreign key that names its table, with the table that declares it.
* `references`: those of all tables that have a name, in the order of tables and columns.
* `RelationshipMap.appended`: a map with the lists of another one after its own, name by name.

Results:
* `RelationshipMap.keys_addAll_nil`: the names of a map are those of its links, in order of first
  mention.
* `RelationshipMap.eq_of_keys_of_links`: two maps that have each name once are equal when they have
  the same names and the same links.
* `RelationshipMap.ofTables_eq`: the map of tables is their references, grouped by principal.
* `RelationshipMap.ofTables_append`: the map of two lists of tables one after the other.
* `relationships_grouped`: all of it, for every list of tables.
-/

namespace EntityScaffold

/-! ## References -/

/-- A foreign key that names its table. -/
structure Reference where
  /-- The table that declares the foreign key. -/
  table : Table
  column : Property
  /-- The name of the table that it refers to. -/
  principal : String

/-- The inverse side of a foreign key. -/
def Reference.link (k : Reference) : InverseLink where
  referencingTable := k.table.name
  foreignKey := k.column.name
  navigation := k.column.navigation
  collection := Text.pluralize (Text.pascalCase k.table.name)

/-- The foreign keys of a table that name theirs, in the order of columns. -/
def Table.references (t : Table) : List Reference :=
  t.properties.filterMap fun p => p.principal?.map fun n => ⟨t, p, n⟩

/-- The references of the tables that have a name, in the order of tables and columns. -/
def references (tables : List Table) : List Reference :=
  (tables.filter (·.isNamed)).flatMap Table.references

theorem references_append (tables more : List Table) :
    references (tables ++ more) = references tables ++ references more := by
  unfold references
  rw [List.filter_append, List.flatMap_append]

theorem Table.inverseLinks_eq (t : Table) :
    t.inverseLinks =
      if t.isNamed then t.references.map fun k => (k.principal, k.link) else [] := by
  by_cases h : t.isNamed = true
  · rw [inverseLinks_of_isNamed h, if_pos h, references, List.map_filterMap]
    refine List.filterMap_congr fun p _ => ?_
    rw [Option.map_map]
    rfl
  · unfold inverseLinks
    rw [if_neg h, if_neg h]

/-- What the map is filled with: the links of all references under their principals. -/
theorem flatMap_inverseLinks (tables : List Table) :
    tables.flatMap Table.inverseLinks =
      (references tables).map fun k => (k.principal, k.link) := by
  induction tables with
  | nil => rfl
  | cons t tables ih =>
    rw [List.flatMap_cons, ih, Table.inverseLinks_eq]
    unfold references
    by_cases h : t.isNamed = true
    · rw [if_pos h, List.filter_cons_of_pos h, List.flatMap_cons, List.map_append]
    · rw [if_neg h, List.filter_cons_of_neg h, List.nil_append]

namespace RelationshipMap

/-! ## The names of a map -/

theorem mem_keys_cons_of_ne {entry : String × List InverseLink} {m : RelationshipMap}
    {name : String} (h : entry.1 ≠ name) :
    name ∈ (entry :: m).map Prod.fst ↔ name ∈ m.map Prod.fst := by
  rw [List.map_cons, List.mem_cons]
  exact or_iff_right (Ne.symm h)

theorem keys_add (m : RelationshipMap) (name : String) (link : InverseLink) :
    (m.add name link).map Prod.fst =
      if name ∈ m.map Prod.fst then m.map Prod.fst else m.map Prod.fst ++ [name] := by
  induction m with
  | nil => rfl
  | cons entry m ih =>
    unfold add
    by_cases h : entry.1 = name
    · rw [if_pos h, if_pos (by simp [h])]
      rfl
    · rw [if_neg h, List.map_cons, ih]
      simp only [mem_keys_cons_of_ne h]
      split <;> rfl

/-- A map with links added one after the other. -/
def addAll (m : RelationshipMap) (links : List (String × InverseLink)) : RelationshipMap :=
  links.foldl (fun m l => m.add l.1 l.2) m

theorem addAll_concat (m : RelationshipMap) (links : List (String × InverseLink))
    (l : String × InverseLink) : m.addAll (links ++ [l]) = (m.addAll links).add l.1 l.2 := by
  unfold addAll
  rw [List.foldl_append]
  rfl

theorem addAll_append (m : RelationshipMap) (links more : List (String × InverseLink)) :
    m.addAll (links ++ more) = (m.addAll links).addAll more := List.foldl_append

theorem ofTables_eq_addAll (tables : List Table) :
    ofTables tables = addAll [] ((references tables).map fun k => (k.principal, k.link)) := by
  rw [← flatMap_inverseLinks]
  rfl

/-- **The names of a map are those of its links, in order of first mention.** -/
theorem keys_addAll_nil (links : List (String × InverseLink)) :
    (addAll [] links).map Prod.fst = (links.map Prod.fst).eraseDups := by
  induction links using List.reverseRecOn with
  | nil => rfl
  | append_singleton links l ih =>
    rw [addAll_concat, keys_add, ih, List.map_append, List.map_singleton, List.eraseDups_append]
    by_cases h : l.1 ∈ links.map Prod.fst
    · rw [if_pos (List.mem_eraseDups.mpr h)]
      simp [List.removeAll, h]
    · rw [if_neg fun hm => h (List.mem_eraseDups.mp hm)]
      simp [List.removeAll, h, List.eraseDups_cons]

theorem nodup_keys_addAll {m : RelationshipMap} (h : (m.map Prod.fst).Nodup)
    (links : List (String × InverseLink)) : ((m.addAll links).map Prod.fst).Nodup := by
  induction links using List.reverseRecOn with
  | nil => exact h
  | append_singleton links l ih =>
    rw [addAll_concat, keys_add]
    split_ifs with hl
    · exact ih
    · exact List.nodup_append'.mpr
        ⟨ih, List.nodup_singleton _, List.disjoint_singleton.mpr hl⟩

/-- Links that are added to a map bring the names that are new to it to its end. -/
theorem keys_addAll (m : RelationshipMap) (links : List (String × InverseLink)) :
    (m.addAll links).map Prod.fst =
      m.map Prod.fst ++ ((addAll [] links).map Prod.fst).filter
        fun name => name ∉ m.map Prod.fst := by
  induction links using List.reverseRecOn with
  | nil => exact (List.append_nil _).symm
  | append_singleton links l ih =>
    rw [addAll_concat, addAll_concat, keys_add, keys_add, ih]
    generalize (addAll [] links).map Prod.fst = names
    by_cases hm : l.1 ∈ m.map Prod.fst
    · -- the name is neither new to the map nor to what is added
      rw [if_pos (List.mem_append_left _ hm)]
      split_ifs
      · rfl
      · simp [List.filter_append, hm]
    · by_cases hn : l.1 ∈ names
      · rw [if_pos hn,
          if_pos (List.mem_append_right _ (List.mem_filter.mpr ⟨hn, by simpa using hm⟩))]
      · have hfresh : l.1 ∉ m.map Prod.fst ++ names.filter fun n => n ∉ m.map Prod.fst := by
          rw [List.mem_append, not_or]
          exact ⟨hm, fun h => hn (List.mem_filter.mp h).1⟩
        rw [if_neg hfresh, if_neg hn, List.filter_append, List.append_assoc]
        congr 2
        simp [hm]

/-! ## Maps by names and links -/

theorem links_of_not_mem {m : RelationshipMap} {name : String} (h : name ∉ m.map Prod.fst) :
    m.links name = [] := by
  induction m with
  | nil => rfl
  | cons entry m ih =>
    rw [List.map_cons, List.mem_cons, not_or] at h
    rw [links_cons, if_neg (Ne.symm h.1), ih h.2]

/-- Where each name stands once, an entry is the name with its links. -/
theorem links_of_mem {m : RelationshipMap} (h : (m.map Prod.fst).Nodup)
    {entry : String × List InverseLink} (he : entry ∈ m) : m.links entry.1 = entry.2 := by
  induction m with
  | nil => exact absurd he List.not_mem_nil
  | cons first m ih =>
    obtain ⟨hfirst, hrest⟩ := List.nodup_cons.mp h
    rw [links_cons]
    rcases List.mem_cons.mp he with rfl | he
    · rw [if_pos rfl]
    · have hne : first.1 ≠ entry.1 := fun e => hfirst (e ▸ List.mem_map_of_mem he)
      rw [if_neg hne, ih hrest he]

theorem eq_map_links {m : RelationshipMap} (h : (m.map Prod.fst).Nodup) :
    m = (m.map Prod.fst).map fun name => (name, m.links name) := by
  rw [List.map_map]
  refine (List.map_id m).symm.trans (List.map_congr_left fun entry he => ?_)
  exact Prod.ext rfl (links_of_mem h he).symm

/-- **Two maps that have each name once are equal when they have the same names and links.** -/
theorem eq_of_keys_of_links {m m' : RelationshipMap} (h : (m.map Prod.fst).Nodup)
    (hkeys : m.map Prod.fst = m'.map Prod.fst) (hlinks : ∀ name, m.links name = m'.links name) :
    m = m' := by
  calc m = (m.map Prod.fst).map fun name => (name, m.links name) := eq_map_links h
    _ = (m'.map Prod.fst).map fun name => (name, m'.links name) := by simp only [hkeys, hlinks]
    _ = m' := (eq_map_links (hkeys ▸ h)).symm

/-! ## The map of tables -/

theorem nodup_keys_ofTables (tables : List Table) : ((ofTables tables).map Prod.fst).Nodup := by
  have hnil : (([] : RelationshipMap).map Prod.fst).Nodup := List.nodup_nil
  exact nodup_keys_addAll hnil _

theorem keys_ofTables (tables : List Table) :
    (ofTables tables).map Prod.fst = ((references tables).map (·.principal)).eraseDups := by
  rw [ofTables_eq_addAll, keys_addAll_nil, List.map_map]
  rfl

theorem links_ofTables_eq (tables : List Table) (name : String) :
    (ofTables tables).links name =
      ((references tables).filter (·.principal = name)).map Reference.link := by
  rw [links_ofTables, flatMap_inverseLinks, List.filter_map, List.map_map]
  rfl

/-- **The map of tables is their references, grouped by principal**: the principals in order of
first mention, each with the links of the references to it, in the order of tables and columns. -/
theorem ofTables_eq (tables : List Table) :
    ofTables tables = ((references tables).map (·.principal)).eraseDups.map fun name =>
      (name, ((references tables).filter (·.principal = name)).map Reference.link) := by
  rw [eq_map_links (nodup_keys_ofTables tables), keys_ofTables]
  exact List.map_congr_left fun name _ => by rw [links_ofTables_eq]

/-- A name has a list because a foreign key refers to it. -/
theorem ne_nil_of_mem_ofTables {tables : List Table} {entry : String × List InverseLink}
    (h : entry ∈ ofTables tables) : entry.2 ≠ [] := by
  rw [ofTables_eq] at h
  obtain ⟨name, hname, rfl⟩ := List.mem_map.mp h
  obtain ⟨k, hk, hkname⟩ := List.mem_map.mp (List.mem_eraseDups.mp hname)
  refine List.ne_nil_of_mem (a := k.link) (List.mem_map_of_mem (List.mem_filter.mpr ⟨hk, ?_⟩))
  simpa using hkname

theorem linkCount_add (m : RelationshipMap) (name : String) (link : InverseLink) :
    (m.add name link).linkCount = m.linkCount + 1 := by
  unfold linkCount
  induction m with
  | nil => rfl
  | cons entry m ih =>
    unfold add
    split_ifs
    · simp [totalOf_cons]
      omega
    · rw [totalOf_cons, totalOf_cons, ih, Nat.add_assoc]

theorem linkCount_addAll (m : RelationshipMap) (links : List (String × InverseLink)) :
    (m.addAll links).linkCount = m.linkCount + links.length := by
  induction links using List.reverseRecOn with
  | nil => rfl
  | append_singleton links l ih =>
    rw [addAll_concat, linkCount_add, ih, List.length_append, List.length_singleton, Nat.add_assoc]

/-- No link is lost and none is entered twice. -/
theorem linkCount_ofTables (tables : List Table) :
    (ofTables tables).linkCount = (references tables).length := by
  rw [ofTables_eq_addAll, linkCount_addAll, List.length_map]
  exact Nat.zero_add _

/-! ## Maps one after the other -/

/-- A map with the lists of another one after its own, name by name. The names that only the other
one has follow with their lists. -/
def appended (m m' : RelationshipMap) : RelationshipMap :=
  m.map (fun entry => (entry.1, entry.2 ++ m'.links entry.1)) ++
    m'.filter fun entry => entry.1 ∉ m.map Prod.fst

theorem keys_appended (m m' : RelationshipMap) :
    (m.appended m').map Prod.fst =
      m.map Prod.fst ++ (m'.map Prod.fst).filter fun name => name ∉ m.map Prod.fst := by
  unfold appended
  rw [List.map_append, List.map_map, List.filter_map]
  rfl

theorem links_append (m m' : RelationshipMap) (name : String) :
    links (m ++ m') name =
      if name ∈ m.map Prod.fst then m.links name else links m' name := by
  induction m with
  | nil => rfl
  | cons entry m ih =>
    rw [List.cons_append, links_cons, links_cons, ih]
    by_cases h : entry.1 = name
    · simp [h]
    · simp only [if_neg h, mem_keys_cons_of_ne h]

theorem links_map_append (m m' : RelationshipMap) {name : String} (h : name ∈ m.map Prod.fst) :
    links (m.map fun entry => (entry.1, entry.2 ++ m'.links entry.1)) name =
      m.links name ++ m'.links name := by
  induction m with
  | nil => exact absurd h List.not_mem_nil
  | cons entry m ih =>
    rw [List.map_cons, links_cons, links_cons]
    by_cases he : entry.1 = name
    · simp [he]
    · have hm : name ∈ m.map Prod.fst := (List.mem_cons.mp h).resolve_left (Ne.symm he)
      rw [if_neg he, if_neg he, ih hm]

theorem links_filter (m : RelationshipMap) (names : List String) {name : String}
    (h : name ∉ names) : links (m.filter fun entry => entry.1 ∉ names) name = m.links name := by
  induction m with
  | nil => rfl
  | cons entry m ih =>
    rw [List.filter_cons, links_cons]
    by_cases he : entry.1 = name
    · simp [he, h, links_cons]
    · split_ifs
      · rw [links_cons, if_neg he, ih]
      · exact ih

theorem links_appended (m m' : RelationshipMap) (name : String) :
    (m.appended m').links name = m.links name ++ m'.links name := by
  have hkeys : (m.map fun entry => (entry.1, entry.2 ++ m'.links entry.1)).map Prod.fst =
      m.map Prod.fst := by
    rw [List.map_map]
    rfl
  unfold appended
  rw [links_append, hkeys]
  split_ifs with h
  · exact links_map_append m m' h
  · rw [links_filter m' _ h, links_of_not_mem h, List.nil_append]

/-- **The map of two lists of tables has the lists of the second after those of the first**, name
by name. -/
theorem ofTables_append (tables more : List Table) :
    ofTables (tables ++ more) = (ofTables tables).appended (ofTables more) := by
  refine eq_of_keys_of_links (nodup_keys_ofTables _) ?_ fun name => ?_
  · rw [keys_appended]
    simp only [ofTables_eq_addAll, references_append, List.map_append, addAll_append]
    exact keys_addAll _ _
  · rw [links_appended, links_ofTables_eq, links_ofTables_eq, links_ofTables_eq, references_append,
      List.filter_append, List.map_append]

end RelationshipMap

/-- What the relationship map of some tables holds. -/
structure RelationshipMap.Groups (m : RelationshipMap) (tables : List Table) : Prop where
  /-- The names are those of the tables that are referred to, in order of first mention. -/
  names : m.map Prod.fst = ((references tables).map (·.principal)).eraseDups
  /-- Each name stands there once. -/
  once : (m.map Prod.fst).Nodup
  /-- Under a name stand the links of the references to it, in the order of tables and columns. -/
  links : ∀ entry ∈ m,
    entry.2 = ((references tables).filter (·.principal = entry.1)).map Reference.link
  /-- No name stands there without a link. -/
  inhabited : ∀ entry ∈ m, entry.2 ≠ []
  /-- There are as many links as references. -/
  count : m.linkCount = (references tables).length

/-- **The relationship map is the list of foreign keys, grouped by the table that they name**,
whatever the tables are: with repeated columns, with foreign keys to their own table or to no table
at all. The map of two lists of tables has, name by name, the lists of the second after those of the
first. -/
theorem relationships_grouped (tables : List Table) :
    (RelationshipMap.ofTables tables).Groups tables ∧
    ∀ more, RelationshipMap.ofTables (tables ++ more) =
      (RelationshipMap.ofTables tables).appended (.ofTables more) := by
  refine ⟨?_, RelationshipMap.ofTables_append tables⟩
  exact {
    names := RelationshipMap.keys_ofTables tables
    once := RelationshipMap.nodup_keys_ofTables tables
    links := fun entry he => by
      rw [← RelationshipMap.links_of_mem (RelationshipMap.nodup_keys_ofTables tables) he,
        RelationshipMap.links_ofTables_eq]
    inhabited := fun _ => RelationshipMap.ne_nil_of_mem_ofTables
    count := RelationshipMap.linkCount_ofTables tables }

/-- A table that refers to itself and twice to another one, which is not there. -/
example :
    let page : Table := { name := "page", properties :=
      [{ name := "parent", isForeignKey := true, referencedTable := some "page" },
        { name := "by", isForeignKey := true, referencedTable := some "user" },
        { name := "by", isForeignKey := true, referencedTable := some "user" }] }
    (RelationshipMap.ofTables [page]).map (fun entry => (entry.1, entry.2.map (·.foreignKey))) =
      [("page", ["parent"]), ("user", ["by", "by"])] := by
  decide +kernel

end EntityScaffold
