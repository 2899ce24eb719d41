import EntityScaffold.Jobs.Download
import EntityScaffold.Proofs.Identifiers
import Mathlib.Data.List.Infix

/-!
# File names

A package is asked for by a plain file name: letters, digits, dots, underscores and hyphens, the
first of them a letter or a digit, with no two dots in a row. The check of a name looks for a few
texts in it and then compares it with a pattern, which leaves out one line feed at the end. So it
accepts the plain names, and those with a line feed after them.

* `Text.IsFileName`: a plain file name.

Results:
* `Text.hasDoubleDot_iff`, `Text.hasFileNameForm_iff`: what the parts of the check say.
* `Text.isSafeFileName_iff`: the names that the check accepts.
* `Text.isFileName_iff`: the plain names are those of them that do not end in a line feed.
* `Pipeline.packagePath_eq_invalidName_iff`: a name is refused for its characters alone.
-/

namespace EntityScaffold

namespace Text

/-- The letters and digits of ASCII. -/
def lettersAndDigits : List Char :=
  [('A', 26), ('a', 26), ('0', 10)].flatMap fun (first, count) =>
    (List.range count).map fun k => Char.ofNat (first.toNat + k)

/-- A plain file name. -/
structure IsFileName (s : List Char) : Prop where
  length : 1 ≤ s.length ∧ s.length ≤ 255
  characters : ∀ c ∈ s, c ∈ lettersAndDigits ++ ['.', '_', '-']
  first : ∀ c ∈ s.head?, c ∈ lettersAndDigits
  dots : ¬ ['.', '.'] <:+: s

/-! ## The parts of the check -/

/-- The characters of a run of codes. -/
theorem exists_ofNat_eq_iff {first count : Nat} (hascii : first + count ≤ 128) {c : Char} :
    (∃ k < count, Char.ofNat (first + k) = c) ↔ first ≤ c.toNat ∧ c.toNat < first + count := by
  constructor
  · rintro ⟨k, hk, rfl⟩
    rw [toNat_ofNat (.inl (by omega))]
    omega
  · rintro ⟨hfirst, hlast⟩
    refine ⟨c.toNat - first, by omega, ?_⟩
    rw [Nat.add_sub_cancel' hfirst, Char.ofNat_toNat]

theorem mem_lettersAndDigits_iff {c : Char} : c ∈ lettersAndDigits ↔
    ((65 ≤ c.toNat ∧ c.toNat ≤ 90) ∨ (97 ≤ c.toNat ∧ c.toNat ≤ 122)) ∨
      (48 ≤ c.toNat ∧ c.toNat ≤ 57) := by
  simp only [lettersAndDigits, List.flatMap_cons, List.flatMap_nil, List.append_nil,
    List.mem_append, List.mem_map, List.mem_range]
  rw [exists_ofNat_eq_iff (by decide), exists_ofNat_eq_iff (by decide),
    exists_ofNat_eq_iff (by decide), ← or_assoc]
  exact or_congr (or_congr (and_congr_right' Nat.lt_succ_iff) (and_congr_right' Nat.lt_succ_iff))
    (and_congr_right' Nat.lt_succ_iff)

theorem isAsciiAlnum_iff {c : Char} : isAsciiAlnum c = true ↔ c ∈ lettersAndDigits := by
  rw [mem_lettersAndDigits_iff]
  change ((decide ('A' ≤ c ∧ c ≤ 'Z') || (decide ('a' ≤ c) && decide (c ≤ 'z'))) ||
    (decide ('0' ≤ c) && decide (c ≤ '9'))) = true ↔ _
  simp only [Bool.or_eq_true, Bool.and_eq_true, decide_eq_true_eq]
  exact Iff.rfl

/-- The characters that may follow the first one. -/
theorem isFileNameChar_iff {c : Char} :
    (isAsciiAlnum c || c == '.' || c == '_' || c == '-') = true ↔
      c ∈ lettersAndDigits ++ ['.', '_', '-'] := by
  simp only [Bool.or_eq_true, isAsciiAlnum_iff, beq_iff_eq, List.mem_append, List.mem_cons,
    List.not_mem_nil, or_false, or_assoc]

theorem hasDoubleDot_iff {s : List Char} : hasDoubleDot s = true ↔ ['.', '.'] <:+: s := by
  fun_induction hasDoubleDot s with
  | case1 rest => exact iff_of_true rfl ⟨[], rest, rfl⟩
  | case2 c rest hnot ih =>
    have hprefix : ¬ ['.', '.'] <+: c :: rest := by
      rintro ⟨back, hback⟩
      obtain ⟨hc, hrest⟩ := List.cons.inj hback
      exact hnot back hc.symm hrest.symm
    rw [ih, List.infix_cons_iff, or_iff_right hprefix]
  | case3 => simp

theorem hasFileNameForm_iff {s : List Char} :
    hasFileNameForm s = true ↔ s ≠ [] ∧ (∀ c ∈ s, c ∈ lettersAndDigits ++ ['.', '_', '-']) ∧
      ∀ c ∈ s.head?, c ∈ lettersAndDigits := by
  cases s with
  | nil => simp [hasFileNameForm]
  | cons c s =>
    unfold hasFileNameForm
    simp only [Bool.and_eq_true, List.all_eq_true, isFileNameChar_iff, isAsciiAlnum_iff,
      List.forall_mem_cons, List.head?_cons, Option.mem_some_iff, forall_eq', ne_eq, reduceCtorEq,
      not_false_eq_true, true_and]
    exact ⟨fun h => ⟨⟨List.mem_append_left _ h.1, h.2⟩, h.1⟩, fun h => ⟨h.2, h.1.2⟩⟩

/-! ## The names that are accepted -/

/-- What the check says, part by part. -/
theorem isSafeFileName_iff_parts {name : String} :
    isSafeFileName name = true ↔ (name.toList ≠ [] ∧ name.toList.length ≤ 255) ∧
      ¬ ['.', '.'] <:+: name.toList ∧ '/' ∉ name.toList ∧ '\\' ∉ name.toList ∧
        hasFileNameForm (dropFinalNewline name.toList) = true := by
  unfold isSafeFileName
  simp only [Bool.and_eq_true, Bool.not_eq_true', decide_eq_true_eq, ← hasDoubleDot_iff,
    List.isEmpty_eq_false_iff, List.contains_eq_mem, decide_eq_false_iff_not, and_assoc,
    Bool.not_eq_true, ne_eq]

/-- A line feed at the end has no part in two dots in a row. -/
theorem doubleDot_infix_concat_newline {front : List Char} :
    ['.', '.'] <:+: front ++ ['\n'] ↔ ['.', '.'] <:+: front := by
  rw [List.infix_concat_iff, or_iff_right]
  rintro ⟨before, hbefore⟩
  have hlast := congrArg List.getLast? hbefore
  simp at hlast

namespace IsFileName

variable {s : List Char}

theorem not_mem (h : IsFileName s) {c : Char}
    (hc : (isAsciiAlnum c || c == '.' || c == '_' || c == '-') = false) : c ∉ s := by
  intro hmem
  rw [isFileNameChar_iff.mpr (h.characters c hmem)] at hc
  cases hc

theorem ne_nil (h : IsFileName s) : s ≠ [] := List.length_pos_iff.mp h.length.1

theorem hasFileNameForm (h : IsFileName s) : hasFileNameForm s = true :=
  hasFileNameForm_iff.mpr ⟨h.ne_nil, h.characters, h.first⟩

theorem dropFinalNewline_eq (h : IsFileName s) : dropFinalNewline s = s := by
  unfold dropFinalNewline
  rw [if_neg]
  exact fun hlast => h.not_mem rfl (List.mem_of_getLast? hlast)

end IsFileName

/-- A plain file name passes each part of the check. -/
theorem isFileName_iff_parts {s : List Char} :
    IsFileName s ↔ s.length ≤ 255 ∧ hasDoubleDot s = false ∧ hasFileNameForm s = true := by
  rw [hasFileNameForm_iff, Bool.eq_false_iff, Ne, hasDoubleDot_iff]
  constructor
  · exact fun h => ⟨h.length.2, h.dots, h.ne_nil, h.characters, h.first⟩
  · rintro ⟨hlength, hdots, hne, hcharacters, hfirst⟩
    exact ⟨⟨List.length_pos_iff.mpr hne, hlength⟩, hcharacters, hfirst, hdots⟩

instance (s : List Char) : Decidable (IsFileName s) := decidable_of_iff _ isFileName_iff_parts.symm

example : IsFileName "a-b_c.1".toList ∧ ¬ IsFileName ".hidden".toList := by decide

/-- **The check accepts the plain file names, and those of up to 254 characters with a line feed
after them.** -/
theorem isSafeFileName_iff {name : String} :
    isSafeFileName name = true ↔ IsFileName name.toList ∨
      ∃ front, name.toList = front ++ ['\n'] ∧ front.length ≤ 254 ∧ IsFileName front := by
  rw [isSafeFileName_iff_parts]
  constructor
  · rintro ⟨⟨hne, hlength⟩, hdots, -, -, hform⟩
    by_cases hlast : name.toList.getLast? = some '\n'
    · have hname := List.dropLast_append_getLast? '\n' hlast
      unfold dropFinalNewline at hform
      rw [if_pos hlast] at hform
      rw [← hname, doubleDot_infix_concat_newline] at hdots
      rw [← hname, List.length_append, List.length_singleton] at hlength
      obtain ⟨hfront, hcharacters, hfirst⟩ := hasFileNameForm_iff.mp hform
      have hpositive := List.length_pos_iff.mpr hfront
      exact .inr ⟨_, hname.symm, by omega, ⟨hpositive, by omega⟩, hcharacters, hfirst, hdots⟩
    · unfold dropFinalNewline at hform
      rw [if_neg hlast] at hform
      obtain ⟨-, hcharacters, hfirst⟩ := hasFileNameForm_iff.mp hform
      exact .inl ⟨⟨List.length_pos_iff.mpr hne, hlength⟩, hcharacters, hfirst, hdots⟩
  · rintro (h | ⟨front, hname, hlength, h⟩)
    · exact ⟨⟨h.ne_nil, h.length.2⟩, h.dots, h.not_mem rfl, h.not_mem rfl,
        by rw [h.dropFinalNewline_eq, h.hasFileNameForm]⟩
    · have hdrop : dropFinalNewline name.toList = front := by
        unfold dropFinalNewline
        rw [hname, if_pos (by simp), List.dropLast_concat]
      rw [hdrop, hname, doubleDot_infix_concat_newline, List.mem_append, List.mem_append,
        List.length_append, List.length_singleton]
      exact ⟨⟨by simp, by omega⟩, h.dots, not_or.mpr ⟨h.not_mem rfl, by decide⟩,
        not_or.mpr ⟨h.not_mem rfl, by decide⟩, h.hasFileNameForm⟩

/-- **The plain file names are the accepted ones that do not end in a line feed.** -/
theorem isFileName_iff {name : String} :
    IsFileName name.toList ↔ isSafeFileName name = true ∧ ¬ endsInNewline name := by
  rw [isSafeFileName_iff]
  constructor
  · exact fun h => ⟨.inl h, fun hlast => h.not_mem rfl (List.mem_of_getLast? hlast)⟩
  · rintro ⟨h | ⟨front, hname, -, -⟩, hlast⟩
    · exact h
    · refine absurd ?_ hlast
      unfold endsInNewline
      rw [hname, List.getLast?_concat]

end Text

/-- **A name is refused for its characters alone**, whatever the directories hold, and only then
with this error. -/
theorem Pipeline.packagePath_eq_invalidName_iff (p : Pipeline) {name name' : String} :
    p.packagePath name = .error (.invalidName name') ↔
      Text.isSafeFileName name = false ∧ name' = name := by
  unfold packagePath
  cases Text.isSafeFileName name with
  | true =>
    refine iff_of_false ?_ nofun
    simp only [if_true]
    split <;> nofun
  | false => simp [eq_comm]

/-- **The names that can be asked for.** The check accepts the plain file names and those with a
line feed after them, so a name that does not end in one is accepted exactly if it is plain. All
others are refused for their characters alone, whatever files there are. -/
theorem fetchable_names (name : String) :
    (Text.isSafeFileName name = true ↔ Text.IsFileName name.toList ∨
      ∃ front, name.toList = front ++ ['\n'] ∧ front.length ≤ 254 ∧ Text.IsFileName front) ∧
    (Text.IsFileName name.toList ↔
      Text.isSafeFileName name = true ∧ ¬ Text.endsInNewline name) ∧
    ∀ (p : Pipeline) (name' : String), p.packagePath name = .error (.invalidName name') ↔
      Text.isSafeFileName name = false ∧ name' = name :=
  ⟨Text.isSafeFileName_iff, Text.isFileName_iff, fun p _ => p.packagePath_eq_invalidName_iff⟩

/-- A name with a line feed after it is looked up, though it is no plain name. -/
theorem fetchable_names_final_newline :
    ¬ Text.IsFileName "a.zip\n".toList ∧
      ∀ p : Pipeline, p.packagePath "a.zip\n" ≠ .error (.invalidName "a.zip\n") := by
  obtain ⟨-, hplain, hrefused⟩ := fetchable_names "a.zip\n"
  have haccepted : Text.isSafeFileName "a.zip\n" = true := by decide +kernel
  refine ⟨fun h => (hplain.mp h).2 (by decide), fun p h => ?_⟩
  rw [((hrefused p _).mp h).1] at haccepted
  cases haccepted

end EntityScaffold
