import EntityScaffold.Proofs.Collecting
import EntityScaffold.Proofs.FileTree.PathTexts
import EntityScaffold.Proofs.FileTree.Places
import Mathlib.Data.List.Sort

/-!
# What a listing shows

The files below a place are listed in the order of their paths. A tree that lists every place once
lists every file once, so the listing is fixed by the contents below the place.

Results:
* `filter_mergeSort_by`: sorting by key keeps the order of what has the same key.
* `mergeSort_eq_of_mem_iff`: a sorted list with different keys is fixed by its members.
* `FileTree.filesBelow_eq`: the listing of files that were collected by the names that lead to them.
-/

namespace EntityScaffold

/-! ## Sorted by key -/

section Sorting

variable {α : Type}

theorem le_key_trans (key : α → String) (a b c : α) (hab : decide (key a ≤ key b) = true)
    (hbc : decide (key b ≤ key c) = true) : decide (key a ≤ key c) = true := by
  rw [decide_eq_true_eq] at hab hbc ⊢
  exact String.le_trans hab hbc

theorem le_key_total (key : α → String) (a b : α) :
    (decide (key a ≤ key b) || decide (key b ≤ key a)) = true := by
  rw [Bool.or_eq_true, decide_eq_true_eq, decide_eq_true_eq]
  exact String.le_total (key a) (key b)

theorem pairwise_mergeSort_by (key : α → String) (l : List α) :
    (l.mergeSort fun a b => key a ≤ key b).Pairwise fun a b => key a ≤ key b :=
  (List.pairwise_mergeSort (le_key_trans key) (le_key_total key) l).imp of_decide_eq_true

theorem pairwise_mergeSort_key (l : List (String × α)) :
    (l.mergeSort fun a b => a.1 ≤ b.1).Pairwise fun a b => a.1 ≤ b.1 :=
  pairwise_mergeSort_by Prod.fst l

/-- **What has one key stays in its order** when a list is sorted by key. -/
theorem filter_mergeSort_by (key : α → String) (l : List α) (k : String) :
    (l.mergeSort fun a b => key a ≤ key b).filter (fun a => key a = k) =
      l.filter fun a => key a = k := by
  have hequal : (l.filter fun a => key a = k).Pairwise fun a b =>
      decide (key a ≤ key b) = true := by
    refine List.pairwise_of_forall_mem_list fun a ha b hb => ?_
    have hka := of_decide_eq_true (List.mem_filter.mp ha).2
    have hkb := of_decide_eq_true (List.mem_filter.mp hb).2
    rw [hka, hkb]
    exact decide_eq_true (String.le_refl k)
  have hsublist := List.sublist_mergeSort (le_key_trans key) (le_key_total key) hequal
    List.filter_sublist
  have hfiltered := hsublist.filter fun a => key a = k
  simp only [List.filter_filter, Bool.and_self] at hfiltered
  have hlength := ((List.mergeSort_perm l fun a b => decide (key a ≤ key b)).filter
    fun a => key a = k).length_eq
  exact (hfiltered.eq_of_length hlength.symm).symm

/-- **A sorted list with different keys is fixed by its members.** -/
theorem mergeSort_eq_of_mem_iff {l l' : List (String × α)} (h : (l.map Prod.fst).Nodup)
    (h' : (l'.map Prod.fst).Nodup) (hmem : ∀ x, x ∈ l ↔ x ∈ l') :
    (l.mergeSort fun a b => a.1 ≤ b.1) = l'.mergeSort fun a b => a.1 ≤ b.1 := by
  have hperm : l.Perm l' := (List.perm_ext_iff_of_nodup h.of_map h'.of_map).mpr hmem
  refine List.Perm.eq_of_pairwise ?_ (pairwise_mergeSort_key l) (pairwise_mergeSort_key l') ?_
  · intro a b ha hb hab hba
    have ha' := List.mem_mergeSort.mp ha
    have hb' := (hmem b).mpr (List.mem_mergeSort.mp hb)
    exact List.inj_on_of_nodup_map h ha' hb' (String.le_antisymm hab hba)
  · exact ((List.mergeSort_perm l _).trans hperm).trans (List.mergeSort_perm l' _).symm

end Sorting

namespace FileTree

variable {α : Type} {t : FileTree α} {place : Path}

/-! ## Files below a place -/

/-- An entry as a file below a place, with the names that lead to it. -/
def relativeFile? (place : Path) (e : Path × Node α) : Option (String × α) :=
  match e.2 with
  | .file c =>
    if place.isPrefixOf e.1 && place.length < e.1.length then
      some ("/".intercalate (e.1.drop place.length), c)
    else none
  | .directory => none

theorem filesBelow_eq_mergeSort (t : FileTree α) (place : Path) :
    t.filesBelow place =
      (t.entries.filterMap (relativeFile? place)).mergeSort fun a b => a.1 ≤ b.1 := by
  unfold filesBelow below
  simp only
  rw [List.filterMap_filterMap]
  refine congrArg (fun l : List (String × α) => l.mergeSort fun a b => a.1 ≤ b.1) ?_
  refine List.filterMap_congr fun e _ => ?_
  unfold relativeFile?
  cases e.2 with
  | file c => split_ifs <;> rfl
  | directory => split_ifs <;> rfl

theorem relativeFile?_eq_some_iff {e : Path × Node α} {s : String} {c : α} :
    relativeFile? place e = some (s, c) ↔
      ∃ names, names ≠ [] ∧ e = (place ++ names, .file c) ∧ s = "/".intercalate names := by
  obtain ⟨q, n⟩ := e
  cases n with
  | directory =>
    unfold relativeFile?
    simp
  | file d =>
    unfold relativeFile?
    simp only [Bool.and_eq_true, decide_eq_true_eq, List.isPrefixOf_iff_prefix]
    constructor
    · intro h
      split_ifs at h with hbelow
      obtain ⟨⟨names, rfl⟩, hlength⟩ := hbelow
      rw [List.drop_left, Option.some.injEq, Prod.mk.injEq] at h
      refine ⟨names, ?_, by rw [h.2], h.1.symm⟩
      rintro rfl
      simp at hlength
    · rintro ⟨names, hne, heq, rfl⟩
      obtain ⟨rfl, hd⟩ := Prod.mk.inj heq
      cases hd
      have hlength : place.length < (place ++ names).length := by
        rw [List.length_append]
        have hpos := List.length_pos_iff.mpr hne
        omega
      rw [if_pos ⟨List.prefix_append _ _, hlength⟩, List.drop_left]

/-- The names below a place that lead to files are such that path texts can lead through. -/
def NamesParts (t : FileTree α) (place : Path) : Prop :=
  ∀ names c, names ≠ [] → (place ++ names, Node.file c) ∈ t.entries → ∀ n ∈ names, Path.IsPart n

/-- Every file below a place has a path of its own. -/
theorem nodup_relativeFiles (h : t.Keyed) (hnames : t.NamesParts place) :
    ((t.entries.filterMap (relativeFile? place)).map Prod.fst).Nodup := by
  unfold Keyed at h
  rw [List.nodup_iff_pairwise_ne, List.pairwise_map] at h ⊢
  rw [List.pairwise_filterMap]
  refine h.imp_of_mem fun {a b} ha hb hne => ?_
  rintro ⟨s, c⟩ hs ⟨s', c'⟩ hs' heq
  obtain ⟨names, hnil, rfl, rfl⟩ := relativeFile?_eq_some_iff.mp hs
  obtain ⟨names', hnil', rfl, rfl⟩ := relativeFile?_eq_some_iff.mp hs'
  refine hne ?_
  rw [Path.intercalate_injective (hnames names c hnil ha) hnil
    (hnames names' c' hnil' hb) hnil' heq]

/-- **The listing of files that were collected by the names that lead to them.** -/
theorem filesBelow_eq (h : t.Keyed) (hplace : place ≠ []) {written : List (List String × α)}
    (hwritten : ∀ w ∈ written, w.1 ≠ [] ∧ ∀ n ∈ w.1, Path.IsPart n)
    (hcontent : ∀ names, t.content? (place ++ names) = (collectMembers written).lookup names) :
    t.filesBelow place =
      (collectMembers (written.map fun w => ("/".intercalate w.1, w.2))).mergeSort
        fun a b => a.1 ≤ b.1 := by
  have hlow : ∀ names, names ≠ [] → ¬ (place ++ names).length ≤ 1 := by
    intro names hnil hle
    have hpos := List.length_pos_iff.mpr hplace
    have hpos' := List.length_pos_iff.mpr hnil
    rw [List.length_append] at hle
    omega
  -- an entry of the tree is a collected file
  have hentry : ∀ names c, names ≠ [] → ((place ++ names, Node.file c) ∈ t.entries ↔
      (names, c) ∈ collectMembers written) := by
    intro names c hnil
    rw [mem_iff_lookup h, ← node?_eq_lookup _ (hlow names hnil), ← content?_eq_some_iff,
      hcontent, mem_iff_lookup (nodup_keys_collectMembers written)]
  have hcollected : ∀ names c, (names, c) ∈ collectMembers written →
      names ≠ [] ∧ ∀ n ∈ names, Path.IsPart n := by
    intro names c hmem
    obtain ⟨w, hw, rfl⟩ := List.mem_map.mp
      (mem_keys_collectMembers.mp (List.mem_map_of_mem (f := Prod.fst) hmem))
    exact hwritten w hw
  have hrename : (collectMembers written).map (fun w => ("/".intercalate w.1, w.2)) =
      collectMembers (written.map fun w => ("/".intercalate w.1, w.2)) :=
    map_collectMembers (g := fun names => "/".intercalate names) (fun c => c)
      fun w hw w' hw' heq => Path.intercalate_injective (hwritten w hw).2 (hwritten w hw).1
        (hwritten w' hw').2 (hwritten w' hw').1 heq
  rw [filesBelow_eq_mergeSort]
  refine mergeSort_eq_of_mem_iff (nodup_relativeFiles h ?_) (nodup_keys_collectMembers _) ?_
  · intro names c hnil hmem
    exact (hcollected names c ((hentry names c hnil).mp hmem)).2
  · rintro ⟨s, c⟩
    rw [← hrename, List.mem_filterMap, List.mem_map]
    constructor
    · rintro ⟨e, he, hs⟩
      obtain ⟨names, hnil, rfl, rfl⟩ := relativeFile?_eq_some_iff.mp hs
      exact ⟨(names, c), (hentry names c hnil).mp he, rfl⟩
    · rintro ⟨⟨names, d⟩, hmem, heq⟩
      obtain ⟨rfl, rfl⟩ := Prod.mk.inj heq
      have hnil := (hcollected names d hmem).1
      exact ⟨_, (hentry names d hnil).mpr hmem,
        relativeFile?_eq_some_iff.mpr ⟨names, hnil, rfl, rfl⟩⟩

end FileTree

end EntityScaffold
