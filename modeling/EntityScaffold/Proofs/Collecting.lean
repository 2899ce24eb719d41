import EntityScaffold.Data.Value
import Mathlib.Data.List.Basic
import Mathlib.Data.List.Induction
import Mathlib.Data.List.Nodup
import Mathlib.Data.List.Perm.Basic
import Mathlib.Data.List.Perm.Subperm

/-!
# Collecting by key

Members that are collected by key keep the place of their first occurrence and the value of their
last.

Results:
* `keys_putMember`, `lookup_putMember`: the keys and the values after one more member.
* `keys_collectMembers`: the keys are in the order of their first occurrences.
* `collectMembers_eq_self_iff`: collecting by key changes nothing exactly when the keys differ.
* `length_collectMembers_eq_iff`: as many members are collected as were given exactly when the keys
  differ.
* `lookup_collectMembers`: the value under a key is the last one that was given.
* `map_collectMembers`: collecting agrees with a renaming of keys that keeps them apart.
* `mem_iff_lookup`: where keys differ, a member is what its key finds.
-/

namespace EntityScaffold

variable {κ α : Type} [BEq κ] [LawfulBEq κ]

theorem keys_putMember (members : List (κ × α)) (key : κ) (value : α) :
    (putMember members key value).map Prod.fst =
      if key ∈ members.map Prod.fst then members.map Prod.fst
      else members.map Prod.fst ++ [key] := by
  induction members with
  | nil => rfl
  | cons m members ih =>
    unfold putMember
    by_cases h : m.1 = key
    · simp [h]
    · have hb : (m.1 == key) = false := beq_false_of_ne h
      rw [hb, if_neg Bool.false_ne_true, List.map_cons, ih]
      have hcons : key ∈ (m :: members).map Prod.fst ↔ key ∈ members.map Prod.fst := by
        rw [List.map_cons, List.mem_cons]
        exact or_iff_right (Ne.symm h)
      simp only [hcons]
      split <;> rfl

theorem putMember_of_not_mem {members : List (κ × α)} {key : κ} (value : α)
    (h : key ∉ members.map Prod.fst) : putMember members key value = members ++ [(key, value)] := by
  induction members with
  | nil => rfl
  | cons m members ih =>
    rw [List.map_cons, List.mem_cons, not_or] at h
    unfold putMember
    rw [beq_false_of_ne (Ne.symm h.1), if_neg Bool.false_ne_true, ih h.2]
    rfl

/-- Collected members have different keys. -/
theorem nodup_keys_foldl_putMember {members : List (κ × α)} (h : (members.map Prod.fst).Nodup)
    (pairs : List (κ × α)) :
    ((pairs.foldl (fun ms p => putMember ms p.1 p.2) members).map Prod.fst).Nodup := by
  induction pairs generalizing members with
  | nil => exact h
  | cons p pairs ih =>
    refine ih ?_
    rw [keys_putMember]
    split
    · exact h
    · rename_i hp
      refine List.nodup_append'.mpr ⟨h, List.nodup_singleton _, ?_⟩
      exact List.disjoint_singleton.mpr hp

theorem foldl_putMember_of_nodup {members pairs : List (κ × α)}
    (h : ((members ++ pairs).map Prod.fst).Nodup) :
    pairs.foldl (fun ms p => putMember ms p.1 p.2) members = members ++ pairs := by
  induction pairs generalizing members with
  | nil => exact (List.append_nil _).symm
  | cons p pairs ih =>
    have hp : p.1 ∉ members.map Prod.fst := by
      rw [List.map_append, List.nodup_append'] at h
      exact fun hm => h.2.2 hm List.mem_cons_self
    rw [List.foldl_cons, putMember_of_not_mem p.2 hp, ih (by simpa using h), List.append_assoc]
    rfl

/-- **Collecting by key changes nothing exactly when the keys differ.** -/
theorem collectMembers_eq_self_iff (pairs : List (κ × α)) :
    collectMembers pairs = pairs ↔ (pairs.map Prod.fst).Nodup := by
  constructor
  · intro h
    have hnil : (([] : List (κ × α)).map Prod.fst).Nodup := List.nodup_nil
    rw [← h]
    exact nodup_keys_foldl_putMember hnil pairs
  · exact fun h => foldl_putMember_of_nodup h

theorem lookup_putMember (members : List (κ × α)) (key : κ) (value : α) (k : κ) :
    (putMember members key value).lookup k =
      if k == key then some value else members.lookup k := by
  induction members with
  | nil =>
    unfold putMember
    rw [List.lookup_cons, List.lookup_nil]
    cases k == key <;> rfl
  | cons m members ih =>
    obtain ⟨key', value'⟩ := m
    unfold putMember
    by_cases hkey : key' = key
    · subst hkey
      rw [if_pos (beq_self_eq_true key'), List.lookup_cons, List.lookup_cons]
      cases k == key' <;> rfl
    · rw [if_neg (by simpa using hkey), List.lookup_cons, List.lookup_cons, ih]
      by_cases h : k = key'
      · subst h
        simp [hkey]
      · simp [beq_false_of_ne h]

omit [LawfulBEq κ] in
theorem collectMembers_concat (pairs : List (κ × α)) (p : κ × α) :
    collectMembers (pairs ++ [p]) = putMember (collectMembers pairs) p.1 p.2 := by
  unfold collectMembers
  rw [List.foldl_append]
  rfl

theorem nodup_keys_collectMembers (pairs : List (κ × α)) :
    ((collectMembers pairs).map Prod.fst).Nodup := by
  have hnil : (([] : List (κ × α)).map Prod.fst).Nodup := List.nodup_nil
  exact nodup_keys_foldl_putMember hnil pairs

/-- **The value under a key is the last one that was given.** -/
theorem lookup_collectMembers (pairs : List (κ × α)) (k : κ) :
    (collectMembers pairs).lookup k = pairs.reverse.lookup k := by
  induction pairs using List.reverseRecOn with
  | nil => rfl
  | append_singleton pairs p ih =>
    rw [collectMembers_concat, lookup_putMember, ih, List.reverse_append, List.reverse_singleton,
      List.singleton_append, List.lookup_cons]
    cases k == p.1 <;> rfl

theorem mem_keys_collectMembers {pairs : List (κ × α)} {k : κ} :
    k ∈ (collectMembers pairs).map Prod.fst ↔ k ∈ pairs.map Prod.fst := by
  induction pairs using List.reverseRecOn with
  | nil => exact Iff.rfl
  | append_singleton pairs p ih =>
    rw [collectMembers_concat, keys_putMember, List.map_append, List.map_singleton,
      List.mem_append, List.mem_singleton, ← ih]
    split_ifs with hp
    · constructor
      · exact .inl
      · rintro (hk | rfl)
        · exact hk
        · exact hp
    · rw [List.mem_append, List.mem_singleton]

/-- **The keys that are collected are in the order of their first occurrences.** -/
theorem keys_collectMembers (pairs : List (κ × α)) :
    (collectMembers pairs).map Prod.fst = (pairs.map Prod.fst).eraseDups := by
  induction pairs using List.reverseRecOn with
  | nil => rfl
  | append_singleton pairs p ih =>
    rw [collectMembers_concat, keys_putMember, ih, List.map_append, List.map_singleton,
      List.eraseDups_append]
    by_cases hp : p.1 ∈ pairs.map Prod.fst
    · rw [if_pos (List.mem_eraseDups.mpr hp)]
      simp [List.removeAll, hp]
    · rw [if_neg (mt List.mem_eraseDups.mp hp)]
      simp [List.removeAll, List.eraseDups_cons, hp]

/-- Collecting leaves every key once. -/
theorem keys_collectMembers_subperm (pairs : List (κ × α)) :
    ((collectMembers pairs).map Prod.fst).Subperm (pairs.map Prod.fst) :=
  List.subperm_of_subset (nodup_keys_collectMembers pairs) fun _ hk => mem_keys_collectMembers.mp hk

theorem length_collectMembers_le (pairs : List (κ × α)) :
    (collectMembers pairs).length ≤ pairs.length := by
  have hlength := (keys_collectMembers_subperm pairs).length_le
  rwa [List.length_map, List.length_map] at hlength

/-- **As many members are collected as were given exactly when the keys differ.** -/
theorem length_collectMembers_eq_iff (pairs : List (κ × α)) :
    (collectMembers pairs).length = pairs.length ↔ (pairs.map Prod.fst).Nodup := by
  constructor
  · intro h
    have hperm := (keys_collectMembers_subperm pairs).perm_of_length_le (by simp [h])
    exact hperm.nodup_iff.mp (nodup_keys_collectMembers pairs)
  · intro h
    rw [(collectMembers_eq_self_iff pairs).mpr h]

theorem map_putMember {κ' β : Type} [BEq κ'] [LawfulBEq κ'] {members : List (κ × α)} {key : κ}
    {g : κ → κ'} (f : α → β) (hg : ∀ m ∈ members, g m.1 = g key → m.1 = key) (value : α) :
    (putMember members key value).map (fun m => (g m.1, f m.2)) =
      putMember (members.map fun m => (g m.1, f m.2)) (g key) (f value) := by
  induction members with
  | nil => rfl
  | cons m members ih =>
    rw [List.map_cons]
    unfold putMember
    by_cases hkey : m.1 = key
    · simp [hkey]
    · have hne : g m.1 ≠ g key := fun h => hkey (hg m List.mem_cons_self h)
      have hrest := ih fun m' hm' => hg m' (List.mem_cons_of_mem m hm')
      simp [hkey, hne, hrest]

/-- **Collecting by key agrees with a renaming of keys that keeps them apart.** -/
theorem map_collectMembers {κ' β : Type} [BEq κ'] [LawfulBEq κ'] {pairs : List (κ × α)}
    {g : κ → κ'} (f : α → β) (hg : ∀ p ∈ pairs, ∀ q ∈ pairs, g p.1 = g q.1 → p.1 = q.1) :
    (collectMembers pairs).map (fun m => (g m.1, f m.2)) =
      collectMembers (pairs.map fun p => (g p.1, f p.2)) := by
  induction pairs using List.reverseRecOn with
  | nil => rfl
  | append_singleton pairs p ih =>
    have hfront := ih fun a ha b hb =>
      hg a (List.mem_append_left _ ha) b (List.mem_append_left _ hb)
    have hlast : p ∈ pairs ++ [p] := List.mem_append_right _ (List.mem_singleton_self p)
    rw [List.map_append, List.map_singleton, collectMembers_concat, collectMembers_concat,
      map_putMember f ?_, hfront]
    intro m hm hkeys
    obtain ⟨q, hq, hqm⟩ := List.mem_map.mp
      (mem_keys_collectMembers.mp (List.mem_map_of_mem (f := Prod.fst) hm))
    rw [← hqm] at hkeys ⊢
    exact hg q (List.mem_append_left _ hq) p hlast hkeys

/-- Where keys differ, a member is what its key finds. -/
theorem mem_iff_lookup {members : List (κ × α)} (h : (members.map Prod.fst).Nodup) {k : κ} {a : α} :
    (k, a) ∈ members ↔ members.lookup k = some a := by
  induction members with
  | nil => simp
  | cons m members ih =>
    obtain ⟨key, value⟩ := m
    rw [List.map_cons, List.nodup_cons] at h
    by_cases hk : k = key
    · subst hk
      have hnot : ∀ b, (k, b) ∉ members := fun b hb => h.1 (List.mem_map.mpr ⟨(k, b), hb, rfl⟩)
      simp [hnot, eq_comm]
    · have hb : (k == key) = false := beq_false_of_ne hk
      simp [List.lookup_cons, hb, hk, ih h.2]

/-- The member given last is kept. -/
theorem mem_collectMembers_concat (pairs : List (κ × α)) (p : κ × α) :
    p ∈ collectMembers (pairs ++ [p]) := by
  obtain ⟨k, a⟩ := p
  rw [mem_iff_lookup (nodup_keys_collectMembers _), lookup_collectMembers, List.reverse_append,
    List.reverse_singleton, List.singleton_append, List.lookup_cons_self]

end EntityScaffold
