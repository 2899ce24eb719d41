import EntityScaffold.FileTree.Path
import Mathlib.Data.List.Basic

/-!
# Path texts and their parts

The text of a relative path and the names that it leads through determine each other, once the
parts that lead nowhere are dropped.

Results:
* `Path.parts_intercalate`, `Path.intercalate_injective`: parts joined by slashes are found again.
* `Path.parts_append_slash`: a slash parts what is before it from what is after it.
* `Path.utf8ByteSize_intercalate_le`: a path is at least as long as the names at its end.
* `Path.normalText_of_relativeParts?`: the shortest form of a relative path joins its parts.
-/

namespace EntityScaffold.Path

/-- A name that a path text can lead through. -/
structure IsPart (n : String) : Prop where
  ne_empty : n ≠ ""
  ne_dot : n ≠ "."
  slash : '/' ∉ n.toList

/-! ## Pieces between slashes -/

theorem slashPieces_ne_nil (s : List Char) : slashPieces s ≠ [] := by
  cases s with
  | nil => simp [slashPieces]
  | cons c s =>
    unfold slashPieces
    split_ifs
    · simp
    · split <;> simp

theorem slashPieces_eq_splitOn (s : List Char) : slashPieces s = s.splitOn '/' := by
  induction s with
  | nil => rfl
  | cons c s ih =>
    rw [List.splitOn, List.splitOnP_cons_eq_if_modifyHead, ← List.splitOn, ← ih, slashPieces]
    by_cases hc : c = '/'
    · simp [hc]
    · simp only [if_neg hc, beq_iff_eq]
      cases hpieces : slashPieces s with
      | nil => exact absurd hpieces (slashPieces_ne_nil s)
      | cons w ws => rfl

theorem slash_not_mem_slashPieces {s w : List Char} (h : w ∈ slashPieces s) : '/' ∉ w := by
  induction s generalizing w with
  | nil =>
    obtain rfl := List.mem_singleton.mp h
    exact List.not_mem_nil
  | cons c s ih =>
    unfold slashPieces at h
    by_cases hc : c = '/'
    · rw [if_pos hc] at h
      rcases List.mem_cons.mp h with rfl | h
      · exact List.not_mem_nil
      · exact ih h
    · rw [if_neg hc] at h
      cases hpieces : slashPieces s with
      | nil => exact absurd hpieces (slashPieces_ne_nil s)
      | cons v vs =>
        rw [hpieces] at h
        rcases List.mem_cons.mp h with rfl | h
        · rw [List.mem_cons, not_or]
          exact ⟨Ne.symm hc, ih (hpieces ▸ List.mem_cons_self)⟩
        · exact ih (hpieces ▸ List.mem_cons_of_mem v h)

/-- The parts of a text are names that a path text can lead through. -/
theorem isPart_of_mem_parts {s n : String} (h : n ∈ parts s) : IsPart n := by
  unfold parts at h
  obtain ⟨hpiece, hkept⟩ := List.mem_filter.mp h
  obtain ⟨w, hw, rfl⟩ := List.mem_map.mp hpiece
  rw [decide_eq_true_eq] at hkept
  exact ⟨hkept.1, hkept.2, by simpa using slash_not_mem_slashPieces hw⟩

/-- **Parts that are joined by slashes are found again.** -/
theorem parts_intercalate {names : List String} (h : ∀ n ∈ names, IsPart n) (hne : names ≠ []) :
    parts ("/".intercalate names) = names := by
  have hpieces : slashPieces ("/".intercalate names).toList = names.map String.toList := by
    rw [slashPieces_eq_splitOn, String.toList_intercalate]
    refine List.splitOn_intercalate '/' (fun w hw => ?_) (by simpa using hne)
    obtain ⟨n, hn, rfl⟩ := List.mem_map.mp hw
    exact (h n hn).slash
  unfold parts
  rw [hpieces, List.map_map]
  have hback : names.map (String.ofList ∘ String.toList) = names := by
    rw [show String.ofList ∘ String.toList = id from funext fun s => String.ofList_toList,
      List.map_id]
  rw [hback, List.filter_eq_self]
  exact fun n hn => by simpa using ⟨(h n hn).ne_empty, (h n hn).ne_dot⟩

/-- Names are determined by the path text that joins them. -/
theorem intercalate_injective {names names' : List String} (h : ∀ n ∈ names, IsPart n)
    (hne : names ≠ []) (h' : ∀ n ∈ names', IsPart n) (hne' : names' ≠ [])
    (heq : "/".intercalate names = "/".intercalate names') : names = names' := by
  rw [← parts_intercalate h hne, heq, parts_intercalate h' hne']

theorem slashPieces_append (a b : List Char) :
    slashPieces (a ++ '/' :: b) = slashPieces a ++ slashPieces b := by
  induction a with
  | nil => rfl
  | cons c a ih =>
    rw [List.cons_append, slashPieces, slashPieces, ih]
    split_ifs
    · rfl
    · cases hpieces : slashPieces a with
      | nil => exact absurd hpieces (slashPieces_ne_nil a)
      | cons w ws => rfl

/-- A slash ends a part. -/
theorem parts_append_slash (a b : String) : parts (a ++ "/" ++ b) = parts a ++ parts b := by
  have hchars : (a ++ "/" ++ b).toList = a.toList ++ '/' :: b.toList := by simp
  unfold parts
  rw [hchars, slashPieces_append, List.map_append, List.filter_append]

/-- Joining names adds no characters but those of the text between them. -/
theorem not_mem_intercalate {between : String} {names : List String} {c : Char}
    (hc : c ∉ between.toList) (h : ∀ n ∈ names, c ∉ n.toList) :
    c ∉ (between.intercalate names).toList := by
  induction names with
  | nil => simp
  | cons n names ih =>
    cases names with
    | nil => simpa using h
    | cons m names =>
      have hrest := ih fun k hk => h k (List.mem_cons_of_mem n hk)
      have hfirst := h n List.mem_cons_self
      rw [String.intercalate_cons_cons, String.toList_append, String.toList_append,
        List.mem_append, List.mem_append, not_or, not_or]
      exact ⟨⟨hfirst, hc⟩, hrest⟩

/-! ## Relative paths -/

/-- What a text is that leads strictly below a directory. -/
theorem relativeParts?_eq_some_iff {s : String} {names : List String} :
    relativeParts? s = some names ↔
      names = parts s ∧ isAbsoluteText s = false ∧ ".." ∉ names ∧ names ≠ [] := by
  unfold relativeParts?
  split_ifs with h
  · rw [Bool.or_eq_true, Bool.or_eq_true] at h
    simp only [false_iff]
    rintro ⟨rfl, habsolute, hdots, hempty⟩
    rcases h with (h | h) | h
    · rw [habsolute] at h
      cases h
    · exact hdots (List.contains_iff_mem.mp h)
    · exact hempty (List.isEmpty_iff.mp h)
  · rw [Bool.or_eq_true, Bool.or_eq_true, not_or, not_or] at h
    rw [Option.some.injEq]
    constructor
    · rintro rfl
      exact ⟨rfl, by simpa using h.1.1, by simpa using h.1.2, by simpa using h.2⟩
    · exact fun hnames => hnames.1.symm

/-- **The shortest form of a relative path joins its parts.** -/
theorem normalText_of_relativeParts? {s : String} {names : List String}
    (h : relativeParts? s = some names) : normalText s = "/".intercalate names := by
  obtain ⟨rfl, habsolute, -, hne⟩ := relativeParts?_eq_some_iff.mp h
  have hanchor : anchorText s = "" := by
    have hslashes : s.toList.takeWhile (· = '/') = [] := by
      unfold isAbsoluteText at habsolute
      cases hchars : s.toList with
      | nil => rfl
      | cons c cs =>
        rw [hchars] at habsolute
        have hc : c ≠ '/' := by simpa using habsolute
        simp [hc]
    unfold anchorText
    rw [hslashes]
    rfl
  have htext : "/".intercalate (parts s) ≠ "" := by
    intro hempty
    have hparts := parts_intercalate (fun n hn => isPart_of_mem_parts hn) hne
    rw [hempty] at hparts
    exact hne (hparts.symm.trans (by decide))
  unfold normalText
  rw [hanchor, String.empty_append]
  simp only
  rw [if_neg (by simpa using htext)]

/-- The shortest form of a relative path leads where the path leads. -/
theorem parts_normalText {s : String} (h : (relativeParts? s).isSome = true) :
    parts (normalText s) = parts s := by
  obtain ⟨names, hnames⟩ := Option.isSome_iff_exists.mp h
  rw [normalText_of_relativeParts? hnames]
  obtain ⟨rfl, -, -, hne⟩ := relativeParts?_eq_some_iff.mp hnames
  exact parts_intercalate (fun n hn => isPart_of_mem_parts hn) hne

/-! ## Lengths -/

/-- A path is at least as long as the names at its end. -/
theorem utf8ByteSize_intercalate_le (place : Path) (names : List String) :
    ("/".intercalate names).utf8ByteSize ≤ (display (place ++ names)).utf8ByteSize := by
  have hjoined : ("/".intercalate names).utf8ByteSize ≤
      ("/".intercalate (place ++ names)).utf8ByteSize := by
    induction place with
    | nil => exact Nat.le_refl _
    | cons n place ih =>
      by_cases hempty : place ++ names = []
      · rw [(List.append_eq_nil_iff.mp hempty).2]
        exact Nat.zero_le _
      · rw [List.cons_append, String.intercalate_cons_of_ne_nil hempty, String.utf8ByteSize_append]
        exact Nat.le_trans ih (Nat.le_add_left _ _)
  unfold display
  split
  · rename_i htop
    rw [htop] at hjoined
    exact Nat.le_trans hjoined (Nat.zero_le _)
  · exact hjoined

end EntityScaffold.Path
