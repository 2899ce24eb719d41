import EntityScaffold.FileTree.Basic
import Mathlib.Data.List.Basic
import Mathlib.Data.List.Induction
import Mathlib.Data.List.Nodup

/-!
# Places of a file tree

A path leads to a place, which is the path with its double dots followed by name
(`Path.collapsed`): a tree without links has no other way to get there. What an operation does is
said by what stands at each place before and after it.

Results:
* `Path.collapsed_concat`, `Path.mem_of_mem_collapsed`, `Path.collapsed_append`: where a path
  leads, name by name; no name appears on the way.
* `FileTree.node?_put`, `node?_erase`, `node?_prune_of_below`: what stands at each place after the
  three changes that all operations are made of.
* `FileTree.eq_of_walk`: a walk ends at the place of its path.
* `FileTree.walk_mono`: a walk depends on the directories above its place only.
* `FileTree.Grown`: a tree to which directories on the way of a path were added.
-/

namespace EntityScaffold

/-! ## Where paths lead -/

namespace Path

variable {p q : Path} {n : String}

/-- The place that a name leads to from a place. -/
def enter (place : Path) (n : String) : Path := if n = ".." then parent place else place ++ [n]

theorem enter_of_ne (place : Path) (hn : n ≠ "..") : enter place n = place ++ [n] := if_neg hn

theorem enter_ne_nil (hp : p ≠ []) : enter p n ≠ [] := by
  unfold enter parent
  split_ifs with _ hlength
  · exact hp
  · intro h
    have hzero := congrArg List.length h
    simp at hzero
    omega
  · simp

theorem mem_of_mem_enter {m : String} (h : m ∈ enter p n) : m ∈ p ∨ m = n := by
  unfold enter parent at h
  split_ifs at h
  · exact .inl h
  · exact .inl (List.dropLast_subset _ h)
  · simpa using h

theorem collapsed_cons (anchor : String) (names : List String) :
    collapsed (anchor :: names) = names.foldl enter [anchor] := rfl

theorem collapsed_eq_foldl (p : Path) : p.collapsed = (p.drop 1).foldl enter (p.take 1) := by
  cases p <;> rfl

theorem collapsed_concat (hp : p ≠ []) (n : String) :
    collapsed (p ++ [n]) = enter p.collapsed n := by
  obtain ⟨anchor, names, rfl⟩ := List.exists_cons_of_ne_nil hp
  rw [List.cons_append, collapsed_cons, collapsed_cons, List.foldl_append]
  rfl

/-- A name other than the double dot leads one place down. -/
theorem collapsed_concat_of_ne (hp : p ≠ []) (hn : n ≠ "..") :
    collapsed (p ++ [n]) = p.collapsed ++ [n] := by
  rw [collapsed_concat hp, enter_of_ne _ hn]

theorem collapsed_ne_nil (hp : p ≠ []) : p.collapsed ≠ [] := by
  induction p using List.reverseRecOn with
  | nil => exact absurd rfl hp
  | append_singleton p n ih =>
    by_cases h : p = []
    · subst h
      exact List.cons_ne_nil _ _
    · rw [collapsed_concat h]
      exact enter_ne_nil (ih h)

/-- A path leads through no names but its own. -/
theorem mem_of_mem_collapsed (h : n ∈ p.collapsed) : n ∈ p := by
  induction p using List.reverseRecOn with
  | nil => exact h
  | append_singleton p m ih =>
    by_cases hp : p = []
    · subst hp
      exact h
    · rw [collapsed_concat hp] at h
      rcases mem_of_mem_enter h with h | rfl
      · exact List.mem_append_left _ (ih h)
      · exact List.mem_append_right _ (List.mem_singleton_self _)

/-- A path without double dots is a place. -/
theorem collapsed_append (hp : p ≠ []) {names : List String} (h : ".." ∉ names) :
    collapsed (p ++ names) = p.collapsed ++ names := by
  induction names using List.reverseRecOn with
  | nil => simp
  | append_singleton names n ih =>
    rw [List.mem_append, not_or, List.mem_singleton] at h
    rw [← List.append_assoc, collapsed_concat_of_ne (by simp [hp]) (Ne.symm h.2), ih h.1,
      List.append_assoc]

theorem dotdot_not_mem_tail_collapsed (p : Path) : ".." ∉ p.collapsed.tail := by
  induction p using List.reverseRecOn with
  | nil => exact List.not_mem_nil
  | append_singleton p n ih =>
    by_cases hp : p = []
    · subst hp
      exact List.not_mem_nil
    · rw [collapsed_concat hp]
      unfold enter parent
      split_ifs with hn hlength
      · exact ih
      · rw [List.tail_dropLast]
        exact fun h => ih (List.dropLast_subset _ h)
      · rw [List.tail_append_of_ne_nil (collapsed_ne_nil hp), List.mem_append, not_or,
          List.mem_singleton]
        exact ⟨ih, Ne.symm hn⟩

/-- A place leads to itself. -/
theorem collapsed_collapsed (p : Path) : p.collapsed.collapsed = p.collapsed := by
  have htail := dotdot_not_mem_tail_collapsed p
  cases h : p.collapsed with
  | nil => rfl
  | cons anchor names =>
    rw [h] at htail
    exact collapsed_append (p := [anchor]) (List.cons_ne_nil _ _) htail

/-- The place lies on the way of the path: a front part of the path leads there. -/
def OnWay (q p : Path) : Prop := ∃ r : Path, r <+: p ∧ r.collapsed = q

theorem OnWay.collapsed (p : Path) : OnWay p.collapsed p := ⟨p, List.prefix_refl p, rfl⟩

theorem OnWay.of_prefix {r : Path} (h : OnWay q r) (hr : r <+: p) : OnWay q p := by
  obtain ⟨s, hs, rfl⟩ := h
  exact ⟨s, hs.trans hr, rfl⟩

/-- Only names of the path occur in places on its way. -/
theorem OnWay.mem (h : OnWay q p) (hn : n ∈ q) : n ∈ p := by
  obtain ⟨r, hr, rfl⟩ := h
  exact hr.subset (mem_of_mem_collapsed hn)

/-- Only what is above a place lies on its way. -/
theorem OnWay.isPrefix (h : OnWay q p.collapsed) : q <+: p.collapsed := by
  obtain ⟨r, hr, rfl⟩ := h
  have htail := dotdot_not_mem_tail_collapsed p
  cases hp : r with
  | nil => exact List.nil_prefix
  | cons anchor names =>
    subst hp
    have hnames : ".." ∉ names := by
      obtain ⟨rest, hrest⟩ := hr
      rw [← hrest] at htail
      exact fun h => htail (List.mem_append_left _ h)
    rw [← List.singleton_append] at hr ⊢
    rw [collapsed_append (List.cons_ne_nil _ _) hnames]
    exact hr

theorem parent_prefix (p : Path) : parent p <+: p := by
  unfold parent
  split_ifs
  · exact List.prefix_refl p
  · exact List.dropLast_prefix p

theorem parent_ne_nil (hp : p ≠ []) : parent p ≠ [] := by
  unfold parent
  split_ifs with h
  · exact hp
  · intro hnil
    have hzero := congrArg List.length hnil
    simp at hzero
    omega

theorem parent_append_name (h : 2 ≤ p.length) : parent p ++ [name p] = p := by
  have hne : p ≠ [] := by
    rintro rfl
    simp at h
  unfold parent name
  rw [if_neg (by omega), if_neg (by omega), List.getLastD_eq_getLast?,
    List.getLast?_eq_getLast_of_ne_nil hne]
  exact List.dropLast_append_getLast hne

end Path

/-! ## What stands at a place -/

namespace FileTree

variable {α : Type} {t t' : FileTree α} {p q : Path}

theorem lookup_filter (entries : List (Path × Node α)) (keep : Path → Bool) (q : Path) :
    (entries.filter fun e => keep e.1).lookup q = if keep q then entries.lookup q else none := by
  induction entries with
  | nil => simp
  | cons e entries ih =>
    obtain ⟨k, n⟩ := e
    by_cases hq : q = k
    · subst hq
      by_cases hk : keep q <;> simp [hk, ih]
    · have hb : (q == k) = false := beq_false_of_ne hq
      by_cases hk : keep k <;> simp [hk, ih, List.lookup_cons, hb]

theorem node?_of_length_le (t : FileTree α) (h : q.length ≤ 1) : t.node? q = some .directory :=
  if_pos h

theorem node?_eq_lookup (t : FileTree α) (h : ¬ q.length ≤ 1) : t.node? q = t.entries.lookup q :=
  if_neg h

/-- Below the anchors, erasing a place empties it and nothing else. -/
theorem node?_erase (t : FileTree α) (p q : Path) (hp : ¬ p.length ≤ 1) :
    (t.erase p).node? q = if q = p then none else t.node? q := by
  by_cases hq : q.length ≤ 1
  · have hne : q ≠ p := by
      rintro rfl
      exact hp hq
    rw [node?_of_length_le _ hq, node?_of_length_le _ hq, if_neg hne]
  · rw [node?_eq_lookup _ hq, node?_eq_lookup _ hq]
    unfold erase
    rw [lookup_filter t.entries (fun k => decide (k ≠ p))]
    by_cases h : q = p <;> simp [h]

/-- Below the anchors, putting something at a place changes nothing else. -/
theorem node?_put (t : FileTree α) (p q : Path) (n : Node α) (hp : ¬ p.length ≤ 1) :
    (t.put p n).node? q = if q = p then some n else t.node? q := by
  by_cases hq : q.length ≤ 1
  · have hne : q ≠ p := by
      rintro rfl
      exact hp hq
    rw [node?_of_length_le _ hq, node?_of_length_le _ hq, if_neg hne]
  · have herase : (t.erase p).entries.lookup q = if q = p then none else t.entries.lookup q := by
      rw [← node?_eq_lookup _ hq, ← node?_eq_lookup _ hq, node?_erase t p q hp]
    rw [node?_eq_lookup _ hq, node?_eq_lookup _ hq]
    unfold put
    rw [List.lookup_append, herase]
    by_cases h : q = p
    · subst h
      simp
    · have hb : (q == p) = false := beq_false_of_ne h
      simp [h, List.lookup_cons, hb]

theorem lookup_prune (t : FileTree α) (p q : Path) :
    (t.prune p).entries.lookup q = if p <+: q then none else t.entries.lookup q := by
  unfold prune
  rw [lookup_filter t.entries fun k => !p.isPrefixOf k]
  by_cases h : p <+: q
  · simp [h, List.isPrefixOf_iff_prefix.mpr h]
  · have hb : p.isPrefixOf q = false := by
      rw [Bool.eq_false_iff]
      exact fun hb => h (List.isPrefixOf_iff_prefix.mp hb)
    simp [h, hb]

/-- Pruning a place changes nothing outside. -/
theorem node?_prune_of_not_below (t : FileTree α) (h : ¬ p <+: q) :
    (t.prune p).node? q = t.node? q := by
  by_cases hq : q.length ≤ 1
  · rw [node?_of_length_le _ hq, node?_of_length_le _ hq]
  · rw [node?_eq_lookup _ hq, node?_eq_lookup _ hq, lookup_prune, if_neg h]

/-- Pruning a place empties it and everything below it. -/
theorem node?_prune_of_below (t : FileTree α) (hp : ¬ p.length ≤ 1) (h : p <+: q) :
    (t.prune p).node? q = none := by
  have hq : ¬ q.length ≤ 1 := fun hq => hp (Nat.le_trans h.length_le hq)
  rw [node?_eq_lookup _ hq, lookup_prune, if_pos h]

theorem isDirectory_iff : t.isDirectory q = true ↔ t.node? q = some .directory := by
  unfold isDirectory
  split
  · rename_i h
    simp [h]
  · rename_i h
    simpa using h

theorem content?_eq_some_iff {c : α} : t.content? q = some c ↔ t.node? q = some (.file c) := by
  unfold content?
  split
  · rename_i c' h
    simp [h]
  · rename_i h
    simpa using fun hc => h c hc

/-- What stands at a place decides its content. -/
theorem content?_congr (h : t'.node? q = t.node? q) : t'.content? q = t.content? q := by
  unfold content?
  rw [h]

theorem content?_of_directory (h : t.node? q = some .directory) : t.content? q = none := by
  unfold content?
  rw [h]

theorem content?_of_none (h : t.node? q = none) : t.content? q = none := by
  unfold content?
  rw [h]

/-! ## Places that are listed once -/

/-- Every place is listed once. -/
def Keyed (t : FileTree α) : Prop := (t.entries.map Prod.fst).Nodup

theorem keyed_filter (h : t.Keyed) (keep : Path × Node α → Bool) :
    Keyed ⟨t.entries.filter keep⟩ :=
  List.Nodup.sublist (List.filter_sublist.map Prod.fst) h

theorem keyed_erase (h : t.Keyed) (p : Path) : (t.erase p).Keyed := keyed_filter h _

theorem keyed_prune (h : t.Keyed) (p : Path) : (t.prune p).Keyed := keyed_filter h _

theorem keyed_put (h : t.Keyed) (p : Path) (n : Node α) : (t.put p n).Keyed := by
  unfold Keyed put
  rw [List.map_append, List.nodup_append']
  refine ⟨keyed_erase h p, List.nodup_singleton _, List.disjoint_singleton.mpr ?_⟩
  intro hp
  obtain ⟨e, he, hep⟩ := List.mem_map.mp hp
  unfold erase at he
  have hne := (List.mem_filter.mp he).2
  simp [hep] at hne

/-! ## Walks -/

theorem walkFrom_eq_foldl {place : Path} {names : List String}
    (h : t.walkFrom place names = .ok q) :
    q = names.foldl Path.enter place := by
  induction names generalizing place with
  | nil => simpa [walkFrom, eq_comm] using h
  | cons n names ih =>
    unfold walkFrom at h
    rw [List.foldl_cons]
    unfold Path.enter
    cases hnode : t.node? place with
    | none => simp [hnode] at h
    | some node =>
      cases node with
      | file c => simp [hnode] at h
      | directory =>
        simp only [hnode] at h
        split_ifs at h with hn hlong
        · rw [if_pos hn]
          exact ih h
        · rw [if_neg hn]
          exact ih h

/-- **A walk ends at the place of its path.** -/
theorem eq_of_walk (h : t.walk p = .ok q) : q = p.collapsed := by
  unfold walk at h
  split_ifs at h
  rw [Path.collapsed_eq_foldl]
  exact walkFrom_eq_foldl h

theorem node?_of_walkFrom_concat {place : Path} {names : List String} {n : String}
    (h : t.walkFrom place (names ++ [n]) = .ok q) :
    t.node? (names.foldl Path.enter place) = some .directory := by
  induction names generalizing place with
  | nil =>
    rw [List.nil_append] at h
    unfold walkFrom at h
    cases hnode : t.node? place with
    | none => simp [hnode] at h
    | some node =>
      cases node with
      | file c => simp [hnode] at h
      | directory => exact hnode
  | cons m names ih =>
    rw [List.cons_append] at h
    unfold walkFrom at h
    rw [List.foldl_cons]
    unfold Path.enter
    cases hnode : t.node? place with
    | none => simp [hnode] at h
    | some node =>
      cases node with
      | file c => simp [hnode] at h
      | directory =>
        simp only [hnode] at h
        split_ifs at h with hm hlong
        · rw [if_pos hm]
          exact ih h
        · rw [if_neg hm]
          exact ih h

/-- A walk comes to its last name by way of a directory. -/
theorem node?_of_walk_concat {n : String} (hp : p ≠ []) (h : t.walk (p ++ [n]) = .ok q) :
    t.node? p.collapsed = some .directory := by
  obtain ⟨anchor, names, rfl⟩ := List.exists_cons_of_ne_nil hp
  unfold walk at h
  split_ifs at h
  exact node?_of_walkFrom_concat h

theorem hasNull_of_walk (h : t.walk p = .ok q) : hasNull p = false := by
  unfold walk at h
  split_ifs at h with hnull
  simpa using hnull

theorem utf8ByteSize_of_walk (h : t.walk p = .ok q) :
    (Path.display p).utf8ByteSize ≤ pathLimit := by
  unfold walk at h
  split_ifs at h with _ hlong
  simpa [isTooLongPath] using hlong

theorem walkFrom_mono {place : Path} {names : List String}
    (hmono : ∀ front, front <+: names → front ≠ names →
      t.isDirectory (front.foldl Path.enter place) = true →
      t'.isDirectory (front.foldl Path.enter place) = true)
    (h : t.walkFrom place names = .ok q) : t'.walkFrom place names = .ok q := by
  induction names generalizing place with
  | nil => exact h
  | cons n names ih =>
    have hstart := hmono [] List.nil_prefix (List.cons_ne_nil _ _).symm
    have hrest : ∀ front, front <+: names → front ≠ names →
        t.isDirectory (front.foldl Path.enter (Path.enter place n)) = true →
        t'.isDirectory (front.foldl Path.enter (Path.enter place n)) = true := by
      intro front hfront hne
      exact hmono (n :: front) (List.cons_prefix_cons.mpr ⟨rfl, hfront⟩) (by simpa using hne)
    unfold walkFrom at h ⊢
    unfold Path.enter at hrest
    cases hnode : t.node? place with
    | none => simp [hnode] at h
    | some node =>
      cases node with
      | file c => simp [hnode] at h
      | directory =>
        have hnode' := isDirectory_iff.mp (hstart (isDirectory_iff.mpr hnode))
        simp only [List.foldl_nil] at hnode'
        simp only [hnode, hnode'] at h ⊢
        split_ifs at h hrest ⊢ with hn
        · exact ih hrest h
        · exact ih hrest h

/-- **A walk depends on the directories above its place only.** -/
theorem walk_mono (hmono : ∀ q, Path.OnWay q p.dropLast → t.isDirectory q = true →
      t'.isDirectory q = true) (h : t.walk p = .ok q) : t'.walk p = .ok q := by
  unfold walk at h ⊢
  split_ifs at h ⊢
  refine walkFrom_mono ?_ h
  intro front hfront hne
  refine hmono _ ⟨p.take 1 ++ front, ?_, ?_⟩
  · cases p with
    | nil => exact absurd (List.prefix_nil.mp hfront) hne
    | cons anchor names =>
      obtain ⟨rest, hrest⟩ := hfront
      have hrest' : rest ≠ [] := by
        rintro rfl
        exact hne (by simpa using hrest)
      refine ⟨rest.dropLast, ?_⟩
      simp only [List.drop_succ_cons, List.drop_zero] at hrest
      rw [← hrest, ← List.cons_append, List.dropLast_append_of_ne_nil hrest']
      rfl
  · cases p with
    | nil => exact absurd (List.prefix_nil.mp hfront) hne
    | cons anchor names => rfl

theorem find_eq_ok_iff {n : Node α} :
    t.find p = .ok (q, n) ↔ t.walk p = .ok q ∧ t.node? q = some n := by
  unfold find
  cases hwalk : t.walk p with
  | error e => simp [bind, Except.bind]
  | ok place =>
    cases hnode : t.node? place with
    | none =>
      simp only [bind, Except.bind, hnode, reduceCtorEq, Except.ok.injEq, false_iff]
      rintro ⟨rfl, h⟩
      rw [hnode] at h
      cases h
    | some m =>
      simp only [bind, Except.bind, pure, Except.pure, hnode, Except.ok.injEq, Prod.mk.injEq]
      constructor
      · rintro ⟨rfl, rfl⟩
        exact ⟨rfl, hnode⟩
      · rintro ⟨rfl, h⟩
        rw [hnode, Option.some.injEq] at h
        exact ⟨rfl, h⟩

/-- What is found stays where it is while it and the directories above it stay. -/
theorem find_mono {n : Node α} (hmono : ∀ q, Path.OnWay q p.dropLast → t.isDirectory q = true →
      t'.isDirectory q = true) (hnode : t'.node? p.collapsed = t.node? p.collapsed)
    (h : t.find p = .ok (q, n)) : t'.find p = .ok (q, n) := by
  obtain ⟨hwalk, hn⟩ := find_eq_ok_iff.mp h
  obtain rfl := eq_of_walk hwalk
  exact find_eq_ok_iff.mpr ⟨walk_mono hmono hwalk, hnode.trans hn⟩

theorem read_eq_ok_iff {c : α} : t.read p = .ok c ↔ t.find p = .ok (p.collapsed, .file c) := by
  unfold read
  cases hfind : t.find p with
  | error e => simp [bind, Except.bind]
  | ok r =>
    obtain ⟨q, n⟩ := r
    obtain rfl := eq_of_walk (find_eq_ok_iff.mp hfind).1
    cases n <;> simp [bind, Except.bind, pure, Except.pure]

theorem present?_of_find {n : Node α} (h : t.find p = .ok (q, n)) :
    t.present? p = .ok (some n) := by
  unfold present?
  rw [h]

theorem exists_find_of_present? {n : Node α} (h : t.present? p = .ok (some n)) :
    t.find p = .ok (p.collapsed, n) := by
  unfold present? at h
  cases hfind : t.find p with
  | error e => cases e <;> simp [hfind] at h
  | ok r =>
    obtain ⟨q, m⟩ := r
    simp only [hfind, Except.ok.injEq, Option.some.injEq] at h
    subst h
    rw [eq_of_walk (find_eq_ok_iff.mp hfind).1]

/-! ## Trees that grow directories -/

/-- The second tree is the first with directories added on the way of the path. -/
def Grown (t t' : FileTree α) (p : Path) : Prop :=
  ∀ q, t'.node? q = t.node? q ∨
    (t.node? q = none ∧ t'.node? q = some .directory ∧ Path.OnWay q p)

namespace Grown

theorem refl (t : FileTree α) (p : Path) : Grown t t p := fun _ => .inl rfl

theorem trans {t'' : FileTree α} (h : Grown t t' p) (h' : Grown t' t'' p) : Grown t t'' p := by
  intro q
  rcases h q with heq | ⟨hnone, hdir, hway⟩
  · rw [← heq]
    exact h' q
  · rcases h' q with heq' | ⟨hnone', -, -⟩
    · exact .inr ⟨hnone, heq'.trans hdir, hway⟩
    · rw [hdir] at hnone'
      cases hnone'

theorem of_prefix {r : Path} (h : Grown t t' r) (hr : r <+: p) : Grown t t' p := fun q =>
  (h q).imp_right fun ⟨hnone, hdir, hway⟩ => ⟨hnone, hdir, hway.of_prefix hr⟩

theorem node?_eq (h : Grown t t' p) (hq : ¬ Path.OnWay q p) : t'.node? q = t.node? q :=
  (h q).resolve_right fun hr => hq hr.2.2

/-- What was there is still there. -/
theorem node?_eq_of_some {n : Node α} (h : Grown t t' p) (hq : t.node? q = some n) :
    t'.node? q = some n := by
  rcases h q with heq | ⟨hnone, -, -⟩
  · rw [heq, hq]
  · rw [hq] at hnone
    cases hnone

theorem isDirectory (h : Grown t t' p) (hq : t.isDirectory q = true) : t'.isDirectory q = true :=
  isDirectory_iff.mpr (h.node?_eq_of_some (isDirectory_iff.mp hq))

/-- No file is added or changed. -/
theorem content?_eq (h : Grown t t' p) (q : Path) : t'.content? q = t.content? q := by
  rcases h q with heq | ⟨hnone, hdir, -⟩
  · exact content?_congr heq
  · rw [content?_of_directory hdir, content?_of_none hnone]

end Grown

end FileTree

end EntityScaffold
