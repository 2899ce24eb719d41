import EntityScaffold.Proofs.Identifiers
import EntityScaffold.Text.Words

/-!
# Characters before the digits

Punctuation stands before the digits: blanks, quotes, points, slashes and brackets. It has no case,
nothing else has it as one of its cases, and no identifier has it. So a class is named with such a
character exactly if its table is, unless the character parts words.

Results:
* `not_mem_pascalCase`: a class name has a character before the digits only if the table's name has
  it.
* `mem_pascalCase_iff`: it has all of them that part no words.
* `not_mem_of_acceptsIdentifier`: no accepted name has one, but for a line feed at its end.
-/

namespace EntityScaffold.Text

/-- The code points that these tables give are those of characters from the digits on. -/
def MapsToDigitsAndUp (runs : List CaseRun) (expansions : List (Nat × List Nat)) : Prop :=
  (∀ r ∈ runs, 47 < r.image ∧ (r.image + (r.last - r.first) < 0xD800 ∨
    (0xDFFF < r.image ∧ r.image + (r.last - r.first) < 0x110000))) ∧
  ∀ e ∈ expansions, ∀ n ∈ e.2, 47 < n ∧ n < 0xD800

instance (runs : List CaseRun) (expansions : List (Nat × List Nat)) :
    Decidable (MapsToDigitsAndUp runs expansions) := by
  unfold MapsToDigitsAndUp
  infer_instance

theorem mapsToDigitsAndUp_upper : MapsToDigitsAndUp upperRuns upperExpansions := by decide +kernel

theorem mapsToDigitsAndUp_lower : MapsToDigitsAndUp lowerRuns lowerExpansions := by decide +kernel

theorem ofNat_ne {c : Char} {n : Nat} (hvalid : n.isValidChar) (h : c.toNat < n) :
    c ≠ Char.ofNat n := by
  rintro rfl
  rw [toNat_ofNat hvalid] at h
  exact Nat.lt_irrefl n h

/-- A character before the digits is in the upper-case or lower-case form of no other. -/
theorem not_mem_mapped {runs : List CaseRun} {expansions : List (Nat × List Nat)}
    (h : MapsToDigitsAndUp runs expansions) {c d : Char} (hc : c.toNat < 48) (hd : c ≠ d) :
    c ∉ mapped runs expansions d := by
  rcases mapped_cases runs expansions d with ⟨r, hr, -, hlast, himage⟩ | ⟨ns, hentry, hns⟩ | hsame
  · obtain ⟨hlarge, hvalid⟩ := h.1 r hr
    rw [himage, List.mem_singleton]
    refine ofNat_ne ?_ (by omega)
    unfold Nat.isValidChar
    omega
  · rw [hns]
    intro hmem
    obtain ⟨n, hn, heq⟩ := List.mem_map.mp hmem
    obtain ⟨hlarge, hvalid⟩ := h.2 _ hentry n hn
    exact ofNat_ne (.inl hvalid) (by omega) heq.symm
  · rw [hsame, List.mem_singleton]
    exact hd

/-- In ASCII a character before the digits is the upper-case or lower-case form of itself only. -/
theorem ascii_ne {c d : Char} (hascii : d.toNat < 128) (hc : c.toNat < 48) (hd : c ≠ d) :
    c ≠ d.toUpper ∧ c ≠ d.toLower := by
  have hforms : (d.toUpper = d ∨ 48 ≤ d.toUpper.toNat) ∧ (d.toLower = d ∨ 48 ≤ d.toLower.toNat) :=
    of_code_lt hascii (by decide)
  constructor
  · rintro rfl
    exact hforms.1.elim (fun hsame => hd hsame) (by omega)
  · rintro rfl
    exact hforms.2.elim (fun hsame => hd hsame) (by omega)

theorem not_mem_upperChar {c d : Char} (hc : c.toNat < 48) (hd : c ≠ d) : c ∉ upperChar d := by
  unfold upperChar
  split_ifs with hascii
  · rw [List.mem_singleton]
    exact (ascii_ne hascii hc hd).1
  · exact not_mem_mapped mapsToDigitsAndUp_upper hc hd

theorem not_mem_lowerChar {c d : Char} (hc : c.toNat < 48) (hd : c ≠ d) : c ∉ lowerChar d := by
  unfold lowerChar
  split_ifs with hascii
  · rw [List.mem_singleton]
    exact (ascii_ne hascii hc hd).2
  · exact not_mem_mapped mapsToDigitsAndUp_lower hc hd

theorem not_mem_lowerAfter {c : Char} (hc : c.toNat < 48) {s : List Char} (h : c ∉ s)
    (before : List Char) : c ∉ lowerAfter before s := by
  induction s generalizing before with
  | nil => exact h
  | cons d s ih =>
    rw [List.mem_cons, not_or] at h
    unfold lowerAfter lowerBetween
    rw [List.mem_append, not_or]
    refine ⟨?_, ih h.2 _⟩
    split_ifs
    · rintro hmem
      obtain rfl := List.mem_singleton.mp hmem
      exact absurd hc (by decide)
    · rintro hmem
      obtain rfl := List.mem_singleton.mp hmem
      exact absurd hc (by decide)
    · exact not_mem_lowerChar hc h.1

theorem not_mem_titled {c : Char} (hc : c.toNat < 48) {w : List Char} (h : c ∉ w) :
    c ∉ titled w := by
  cases w with
  | nil => exact h
  | cons d w =>
    rw [List.mem_cons, not_or] at h
    unfold titled
    rw [List.mem_append, not_or]
    exact ⟨not_mem_upperChar hc h.1, not_mem_lowerAfter hc h.2 []⟩

/-- The words of a name are made of its characters. -/
theorem mem_of_mem_segments {s w : List Char} (hw : w ∈ segments s) {c : Char} (hc : c ∈ w) :
    c ∈ s := by
  induction s generalizing w with
  | nil =>
    obtain rfl := List.mem_singleton.mp hw
    exact hc
  | cons d s ih =>
    unfold segments at hw
    split_ifs at hw with hd
    · rcases List.mem_cons.mp hw with rfl | hw
      · exact absurd hc List.not_mem_nil
      · exact List.mem_cons_of_mem _ (ih hw hc)
    · split at hw
      · obtain rfl := List.mem_singleton.mp hw
        rw [List.mem_singleton.mp hc]
        exact List.mem_cons_self
      · rename_i v vs hsegments
        rcases List.mem_cons.mp hw with rfl | hw
        · rcases List.mem_cons.mp hc with rfl | hc
          · exact List.mem_cons_self
          · exact List.mem_cons_of_mem _ (ih (hsegments ▸ List.mem_cons_self) hc)
        · exact List.mem_cons_of_mem _ (ih (hsegments ▸ List.mem_cons_of_mem _ hw) hc)

/-- **A character before the digits is in a class name only if it is in the table's name.** -/
theorem not_mem_pascalCase {c : Char} (hc : c.toNat < 48) {name : String}
    (h : c ∉ name.toList) : c ∉ (pascalCase name).toList := by
  unfold pascalCase pascal words
  rw [String.toList_ofList]
  intro hmem
  obtain ⟨w, hw, hcw⟩ := List.mem_flatMap.mp hmem
  refine not_mem_titled hc (fun hc => h ?_) hcw
  exact mem_of_mem_segments (List.mem_filter.mp hw).1 hc

/-! Characters before the digits are kept, unless they part words. -/

theorem mem_segments {c : Char} (hc : isSeparator c = false) {s : List Char} (h : c ∈ s) :
    ∃ w ∈ segments s, c ∈ w := by
  induction s with
  | nil => exact absurd h List.not_mem_nil
  | cons d s ih =>
    unfold segments
    rcases List.mem_cons.mp h with rfl | h
    · rw [hc, if_neg Bool.false_ne_true]
      split <;> exact ⟨_, List.mem_cons_self, List.mem_cons_self⟩
    · obtain ⟨w, hw, hcw⟩ := ih h
      split_ifs
      · exact ⟨w, List.mem_cons_of_mem _ hw, hcw⟩
      · split
        · rename_i hsegments
          rw [hsegments] at hw
          exact absurd hw List.not_mem_nil
        · rename_i v vs hsegments
          rw [hsegments] at hw
          rcases List.mem_cons.mp hw with rfl | hw
          · exact ⟨_, List.mem_cons_self, List.mem_cons_of_mem d hcw⟩
          · exact ⟨w, List.mem_cons_of_mem _ hw, hcw⟩

/-- A character before the digits has no case. -/
theorem toUpper_eq {c : Char} (hc : c.toNat < 48) : c.toUpper = c ∧ c.toLower = c :=
  of_code_lt hc (by decide)

theorem lowerChar_eq {c : Char} (hc : c.toNat < 48) : lowerChar c = [c] := by
  have hascii : c.toNat < 128 := by omega
  unfold lowerChar
  rw [if_pos hascii, (toUpper_eq hc).2]

/-- A character that is its own lower-case form stays in the lower-case form of a text. -/
theorem mem_lowerAfter {c : Char} (hc : lowerChar c = [c]) {s : List Char} (h : c ∈ s)
    (before : List Char) : c ∈ lowerAfter before s := by
  induction s generalizing before with
  | nil => exact h
  | cons d s ih =>
    unfold lowerAfter
    rw [List.mem_append]
    rcases List.mem_cons.mp h with rfl | h
    · have hsigma : c ≠ 'Σ' := by
        rintro rfl
        exact absurd hc (by decide +kernel)
      left
      unfold lowerBetween
      rw [if_neg hsigma, hc]
      exact List.mem_singleton_self c
    · exact .inr (ih h _)

theorem mem_titled {c : Char} (hc : c.toNat < 48) {w : List Char} (h : c ∈ w) :
    c ∈ titled w := by
  cases w with
  | nil => exact h
  | cons d w =>
    unfold titled
    rw [List.mem_append]
    rcases List.mem_cons.mp h with rfl | h
    · have hascii : c.toNat < 128 := by omega
      left
      unfold upperChar
      rw [if_pos hascii, (toUpper_eq hc).1]
      exact List.mem_singleton_self c
    · exact .inr (mem_lowerAfter (lowerChar_eq hc) h [])

/-- **A character before the digits that parts no words is in a class name exactly if it is in the
table's name.** -/
theorem mem_pascalCase_iff {c : Char} (hc : c.toNat < 48) (hseparator : isSeparator c = false)
    {name : String} : c ∈ (pascalCase name).toList ↔ c ∈ name.toList := by
  constructor
  · contrapose
    exact not_mem_pascalCase hc
  · intro h
    obtain ⟨w, hw, hcw⟩ := mem_segments hseparator h
    have hkept : (!w.isEmpty) = true := by
      cases w with
      | nil => exact absurd hcw List.not_mem_nil
      | cons d w => rfl
    unfold pascalCase pascal words
    rw [String.toList_ofList]
    exact List.mem_flatMap.mpr ⟨w, List.mem_filter.mpr ⟨hw, hkept⟩, mem_titled hc hcw⟩

theorem mem_dropFinalNewline {s : List Char} {c : Char} (h : c ∈ s) (hc : c ≠ '\n') :
    c ∈ dropFinalNewline s := by
  unfold dropFinalNewline
  split_ifs with hlast
  · rw [← List.dropLast_append_getLast? '\n' hlast, List.mem_append, List.mem_singleton] at h
    exact h.resolve_right hc
  · exact h

/-- No character before the digits is part of an identifier. -/
theorem not_isIdentifierChar {c : Char} (hc : c.toNat < 48) : isIdentifierChar c = false :=
  of_code_lt hc (by decide)

theorem not_mem_of_acceptsFragment {c : Char} (hc : c.toNat < 48) (hline : c ≠ '\n') {s : String}
    (h : acceptsFragment s = true) : c ∉ s.toList := by
  intro hmem
  have hchar := List.all_eq_true.mp h c (mem_dropFinalNewline hmem hline)
  rw [not_isIdentifierChar hc] at hchar
  cases hchar

theorem not_mem_of_acceptsIdentifier {c : Char} (hc : c.toNat < 48) (hline : c ≠ '\n')
    {s : String} (h : acceptsIdentifier s = true) : c ∉ s.toList := by
  intro hmem
  have hchar := isIdentifierChar_of_mem h (mem_dropFinalNewline hmem hline)
  rw [not_isIdentifierChar hc] at hchar
  cases hchar

end EntityScaffold.Text
