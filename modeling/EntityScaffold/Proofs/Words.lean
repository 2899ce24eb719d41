import EntityScaffold.Proofs.Identifiers
import EntityScaffold.Text.Words

/-!
# No name has a separator

Separators part the words of a schema name, so no word has one. The names of classes and members are
the words in other cases, and no case of a character that parts no words does: this is read off the
case tables.

Results:
* `isSeparator_of_mem_segments`: no piece between separators has one.
* `isSeparator_of_mem_mapped`: neither has a character in another case.
* `isSeparator_of_mem_pascal`: so the name of a class or a member has none, whatever its words.
-/

namespace EntityScaffold.Text

/-- The code points of the separators. -/
def separatorCodes : List Nat := [32, 45, 95]

/-- The code points that these tables give are those of no separator. -/
def MapsToNoSeparator (runs : List CaseRun) (expansions : List (Nat × List Nat)) : Prop :=
  (∀ r ∈ runs, ∀ n ∈ separatorCodes, n < r.image ∨ r.image + (r.last - r.first) < n) ∧
    ∀ e ∈ expansions, ∀ n ∈ e.2, n ∉ separatorCodes

instance (runs : List CaseRun) (expansions : List (Nat × List Nat)) :
    Decidable (MapsToNoSeparator runs expansions) := by
  unfold MapsToNoSeparator
  infer_instance

theorem mapsToNoSeparator_upper : MapsToNoSeparator upperRuns upperExpansions := by decide +kernel

theorem mapsToNoSeparator_lower : MapsToNoSeparator lowerRuns lowerExpansions := by decide +kernel

/-! ## Pieces -/

/-- **No piece between separators has one.** -/
theorem isSeparator_of_mem_segments {s w : List Char} (hw : w ∈ segments s) :
    ∀ c ∈ w, isSeparator c = false := by
  induction s generalizing w with
  | nil =>
    obtain rfl := List.mem_singleton.mp hw
    exact nofun
  | cons d s ih =>
    unfold segments at hw
    split_ifs at hw with hd
    · rcases List.mem_cons.mp hw with rfl | hw
      · exact nofun
      · exact ih hw
    · rw [Bool.not_eq_true] at hd
      split at hw
      · obtain rfl := List.mem_singleton.mp hw
        exact List.forall_mem_singleton.mpr hd
      · rename_i v vs hsegments
        rw [hsegments] at ih
        rcases List.mem_cons.mp hw with rfl | hw
        · exact List.forall_mem_cons.mpr ⟨hd, ih List.mem_cons_self⟩
        · exact ih (List.mem_cons_of_mem _ hw)

/-! ## Cases -/

theorem isSeparator_ofNat {n : Nat} (h : n ∉ separatorCodes) :
    isSeparator (Char.ofNat n) = false := by
  by_cases hn : n.isValidChar
  · refine Bool.eq_false_iff.mpr fun hseparator => h ?_
    unfold isSeparator at hseparator
    simp only [Bool.or_eq_true, beq_iff_eq] at hseparator
    rw [← toNat_ofNat hn]
    rcases hseparator with (hc | hc) | hc <;> rw [hc] <;> decide
  · rw [Char.ofNat, dif_neg hn]
    decide

/-- **A character in another case parts words only if it does itself.** -/
theorem isSeparator_of_mem_mapped {runs : List CaseRun} {expansions : List (Nat × List Nat)}
    (h : MapsToNoSeparator runs expansions) {d : Char} (hd : isSeparator d = false) :
    ∀ c ∈ mapped runs expansions d, isSeparator c = false := by
  rcases mapped_cases runs expansions d with ⟨r, hr, -, hlast, himage⟩ | ⟨ns, hentry, hns⟩ | hsame
  · rw [himage, List.forall_mem_singleton]
    refine isSeparator_ofNat fun hcode => ?_
    have := h.1 r hr _ hcode
    omega
  · rw [hns, List.forall_mem_map]
    exact fun n hn => isSeparator_ofNat (h.2 _ hentry n hn)
  · rw [hsame, List.forall_mem_singleton]
    exact hd

/-- In ASCII too. -/
theorem isSeparator_ascii {d : Char} (hascii : d.toNat < 128) (hd : isSeparator d = false) :
    isSeparator d.toUpper = false ∧ isSeparator d.toLower = false := by
  revert hd
  exact of_code_lt hascii (by decide)

theorem isSeparator_of_mem_upperChar {d : Char} (hd : isSeparator d = false) :
    ∀ c ∈ upperChar d, isSeparator c = false := by
  unfold upperChar
  split_ifs with hascii
  · exact List.forall_mem_singleton.mpr (isSeparator_ascii hascii hd).1
  · exact isSeparator_of_mem_mapped mapsToNoSeparator_upper hd

theorem isSeparator_of_mem_lowerChar {d : Char} (hd : isSeparator d = false) :
    ∀ c ∈ lowerChar d, isSeparator c = false := by
  unfold lowerChar
  split_ifs with hascii
  · exact List.forall_mem_singleton.mpr (isSeparator_ascii hascii hd).2
  · exact isSeparator_of_mem_mapped mapsToNoSeparator_lower hd

theorem isSeparator_of_mem_lowerAfter {s : List Char} (hs : ∀ c ∈ s, isSeparator c = false)
    (before : List Char) : ∀ c ∈ lowerAfter before s, isSeparator c = false := by
  induction s generalizing before with
  | nil => exact nofun
  | cons d s ih =>
    obtain ⟨hd, hs⟩ := List.forall_mem_cons.mp hs
    unfold lowerAfter
    rw [List.forall_mem_append]
    refine ⟨?_, ih hs _⟩
    -- a sigma takes one of two forms, by what stands around it
    unfold lowerBetween
    split_ifs
    · exact List.forall_mem_singleton.mpr (by decide)
    · exact List.forall_mem_singleton.mpr (by decide)
    · exact isSeparator_of_mem_lowerChar hd

theorem isSeparator_of_mem_titled {w : List Char} (hw : ∀ c ∈ w, isSeparator c = false) :
    ∀ c ∈ titled w, isSeparator c = false := by
  cases w with
  | nil => exact nofun
  | cons d w =>
    obtain ⟨hd, hw⟩ := List.forall_mem_cons.mp hw
    unfold titled
    rw [List.forall_mem_append]
    exact ⟨isSeparator_of_mem_upperChar hd, isSeparator_of_mem_lowerAfter hw []⟩

/-! ## Names -/

/-- **No name of a class or a member has a separator**, whatever the words are. -/
theorem isSeparator_of_mem_pascal (s : List Char) : ∀ c ∈ pascal s, isSeparator c = false := by
  intro c hc
  obtain ⟨w, hw, hcw⟩ := List.mem_flatMap.mp hc
  exact isSeparator_of_mem_titled (isSeparator_of_mem_segments (List.mem_filter.mp hw).1) c hcw

theorem not_mem_pascalCase_of_isSeparator {c : Char} (hc : isSeparator c = true) (name : String) :
    c ∉ (pascalCase name).toList := by
  unfold pascalCase
  rw [String.toList_ofList]
  intro hmem
  rw [isSeparator_of_mem_pascal _ c hmem] at hc
  cases hc

end EntityScaffold.Text
