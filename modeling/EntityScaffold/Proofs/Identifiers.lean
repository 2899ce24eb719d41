import EntityScaffold.Text.Plural
import EntityScaffold.Text.Identifier
import Mathlib.Data.List.Basic

/-!
# Identifiers and their plurals

A name is accepted with one line feed at its end, which an identifier cannot have, and the plural
of a noun depends on its last two letters. Both are read at the end of a text: what is put there
decides what becomes of it.

Results:
* `isIdentifier_append`: what may follow an identifier.
* `isIdentifier_iff_of_accepts`: the accepted names that are no identifiers are those with a final
  line feed.
* `isIdentifier_pluralize`: the plural of an accepted name is an identifier when the name is one.
* `pluralize_eq_iff`: two nouns have the same plural when they are equal or `PluralTwins`, such as
  `Box` and `Boxe`.
-/

namespace EntityScaffold.Text

/-- What is true of each code below a bound is true of the characters there. -/
@[elab_as_elim]
theorem of_code_lt {P : Char → Prop} {bound : Nat} {c : Char} (hc : c.toNat < bound)
    (h : ∀ n < bound, P (Char.ofNat n)) : P c := by
  have hchar := h c.toNat hc
  rwa [Char.ofNat_toNat] at hchar

theorem toNat_ofNat {n : Nat} (h : n.isValidChar) : (Char.ofNat n).toNat = n := by
  rw [Char.ofNat, dif_pos h]
  rfl

/-- **What a character maps to**: the image under a run, what the expansions hold for it, or
itself. -/
theorem mapped_cases (runs : List CaseRun) (expansions : List (Nat × List Nat)) (c : Char) :
    (∃ r ∈ runs, r.first ≤ c.toNat ∧ c.toNat ≤ r.last ∧
      mapped runs expansions c = [Char.ofNat (r.image + (c.toNat - r.first))]) ∨
    (∃ ns, (c.toNat, ns) ∈ expansions ∧ mapped runs expansions c = ns.map Char.ofNat) ∨
    mapped runs expansions c = [c] := by
  unfold mapped
  split
  · rename_i n hn
    obtain ⟨r, hr, himage⟩ := List.exists_of_findSome?_eq_some hn
    unfold CaseRun.image? at himage
    split_ifs at himage with hcovered
    cases himage
    exact .inl ⟨r, hr, hcovered.1, hcovered.2.1, rfl⟩
  · split
    · rename_i ns hns
      obtain ⟨front, back, hsplit, -⟩ := List.lookup_eq_some_iff.mp hns
      exact .inr (.inl ⟨ns, by simp [hsplit], rfl⟩)
    · exact .inr (.inr rfl)

/-! ## Identifiers -/

theorem isIdentifier_append {s : List Char} (hs : s ≠ []) (t : List Char) :
    isIdentifier (s ++ t) = (isIdentifier s && t.all isIdentifierChar) := by
  cases s with
  | nil => exact absurd rfl hs
  | cons c s =>
    show (isIdentifierStart c && (s ++ t).all isIdentifierChar) =
      (isIdentifierStart c && s.all isIdentifierChar && t.all isIdentifierChar)
    rw [List.all_append, Bool.and_assoc]

theorem isIdentifierChar_of_mem {s : List Char} (hs : isIdentifier s = true) {c : Char}
    (hc : c ∈ s) : isIdentifierChar c = true := by
  cases s with
  | nil => exact absurd hc List.not_mem_nil
  | cons d s =>
    unfold isIdentifier at hs
    obtain ⟨hd, hs⟩ := Bool.and_eq_true_iff.mp hs
    rcases List.mem_cons.mp hc with rfl | hc
    · unfold isIdentifierStart at hd
      unfold isIdentifierChar Char.isAlphanum
      rcases Bool.or_eq_true_iff.mp hd with h | h <;> simp [h]
    · exact List.all_eq_true.mp hs c hc

/-- The name ends in a line feed. -/
def endsInNewline (name : String) : Prop := name.toList.getLast? = some '\n'

instance (name : String) : Decidable (endsInNewline name) :=
  inferInstanceAs (Decidable (_ = _))

/-- No identifier ends in a line feed. -/
theorem not_endsInNewline {s : String} (hs : isIdentifier s.toList = true) :
    ¬ endsInNewline s := by
  intro h
  exact absurd (isIdentifierChar_of_mem hs (List.mem_of_getLast? h)) (by decide)

/-- **The accepted names that are no identifiers are those with a final line feed.** -/
theorem isIdentifier_iff_of_accepts {s : String} (h : acceptsIdentifier s = true) :
    isIdentifier s.toList = true ↔ ¬ endsInNewline s := by
  refine ⟨not_endsInNewline, fun hlast => ?_⟩
  unfold endsInNewline at hlast
  unfold acceptsIdentifier dropFinalNewline at h
  rwa [if_neg hlast] at h

theorem ne_empty_of_accepts {s : String} (h : acceptsIdentifier s = true) : s ≠ "" := by
  rintro rfl
  exact Bool.false_ne_true h

/-! ## Endings in lower case -/

/-- The lower-case form of a text ends in that of its last character. -/
theorem lowerAfter_concat (before s : List Char) (c : Char) :
    ∃ front, lowerAfter before (s ++ [c]) = front ++ lowerBetween (s.reverse ++ before) c [] := by
  induction s generalizing before with
  | nil => exact ⟨[], by simp [lowerAfter]⟩
  | cons d s ih =>
    obtain ⟨front, h⟩ := ih (d :: before)
    refine ⟨lowerBetween before d (s ++ [c]) ++ front, ?_⟩
    rw [List.cons_append, lowerAfter, h, List.append_assoc, List.reverse_cons, List.append_assoc]
    rfl

/-- The rule that forms the plural of a noun. -/
def pluralRule (s : List Char) : PluralRule := .ofEnding s.length (lower s).reverse

/-- A noun whose last letter is neither changed nor sibilant takes `s`. -/
theorem pluralRule_concat {c : Char} (h : lowerBetween [] c [] = [c])
    (hb : ∀ before, lowerBetween before c [] = lowerBetween [] c [])
    (hc : ∀ n l, PluralRule.ofEnding n (c :: l) = .addS) (s : List Char) :
    pluralRule (s ++ [c]) = .addS := by
  obtain ⟨front, hl⟩ := lowerAfter_concat [] s c
  unfold pluralRule lower
  rw [hl, hb, h, List.reverse_append]
  exact hc _ _

theorem pluralRule_concat_e (s : List Char) : pluralRule (s ++ ['e']) = .addS :=
  pluralRule_concat (by decide) (fun _ => rfl) (fun _ _ => rfl) s

theorem pluralRule_concat_i (s : List Char) : pluralRule (s ++ ['i']) = .addS :=
  pluralRule_concat (by decide) (fun _ => rfl) (fun _ _ => rfl) s

theorem pluralRule_concat_newline (s : List Char) : pluralRule (s ++ ['\n']) = .addS :=
  pluralRule_concat (by decide) (fun _ => rfl) (fun _ _ => rfl) s

/-- Only a noun of two letters at least changes its last one. -/
theorem dropLast_ne_nil_of_changeY {s : List Char} (h : pluralRule s = .changeY) :
    s.dropLast ≠ [] := by
  intro hd
  have hlen : s.length ≤ 1 := by
    have hpred : s.dropLast.length = s.length - 1 := List.length_dropLast
    rw [hd, List.length_nil] at hpred
    omega
  unfold pluralRule PluralRule.ofEnding at h
  split at h
  · simp [Nat.not_lt.mpr hlen] at h
  all_goals exact nomatch h

/-! ## Plurals -/

theorem toList_pluralize {name : String} (h : name ≠ "") :
    (pluralize name).toList =
      match pluralRule name.toList with
      | .changeY => name.toList.dropLast ++ ['i', 'e', 's']
      | .addEs => name.toList ++ ['e', 's']
      | .addS => name.toList ++ ['s'] := by
  have hne : name.toList.isEmpty = false := by
    rw [List.isEmpty_eq_false_iff]
    exact fun he => h (String.toList_inj.mp he)
  unfold pluralize pluralRule
  simp only [hne, Bool.false_eq_true, if_false]
  cases PluralRule.ofEnding name.toList.length (lower name.toList).reverse <;>
    exact String.toList_ofList

/-- Every plural ends in `s`. -/
theorem getLast?_pluralize {name : String} (h : name ≠ "") :
    (pluralize name).toList.getLast? = some 's' := by
  rw [toList_pluralize h]
  split <;> simp

/-- A plural has no character that neither its noun nor an ending has. -/
theorem not_mem_pluralize {c : Char} (hc : c ∉ ['i', 'e', 's']) {name : String}
    (h : c ∉ name.toList) : c ∉ (pluralize name).toList := by
  simp only [List.mem_cons, List.not_mem_nil, or_false, not_or] at hc
  have hinit : c ∉ name.toList.dropLast := fun hmem => h (List.dropLast_subset _ hmem)
  unfold pluralize
  dsimp only
  split_ifs
  · exact List.not_mem_nil
  · split <;> simp [h, hinit, hc]

theorem pluralize_ne_empty {name : String} (h : name ≠ "") : pluralize name ≠ "" := by
  intro he
  have := getLast?_pluralize h
  rw [he] at this
  exact nomatch this

/-- **The plural of an accepted name is an identifier exactly when the name is one.** -/
theorem isIdentifier_pluralize {name : String} (h : acceptsIdentifier name = true) :
    isIdentifier (pluralize name).toList = true ↔ isIdentifier name.toList = true := by
  have hne := ne_empty_of_accepts h
  have hnil : name.toList ≠ [] := fun he => hne (String.toList_inj.mp he)
  rw [toList_pluralize hne]
  by_cases hlast : endsInNewline name
  · -- the line feed stays inside the plural, which only adds letters after it
    have hno : isIdentifier name.toList = false :=
      Bool.eq_false_iff.mpr fun hi => not_endsInNewline hi hlast
    have hrule : pluralRule name.toList = .addS := by
      rw [← List.dropLast_append_getLast? '\n' hlast]
      exact pluralRule_concat_newline _
    rw [hrule]
    simp only
    rw [isIdentifier_append hnil, hno, Bool.false_and]
  · have hyes := (isIdentifier_iff_of_accepts h).mpr hlast
    refine iff_of_true ?_ hyes
    split
    · rename_i hrule
      have hdrop := dropLast_ne_nil_of_changeY hrule
      have hsplit := List.dropLast_append_getLast hnil
      rw [← hsplit, isIdentifier_append hdrop] at hyes
      rw [isIdentifier_append hdrop, (Bool.and_eq_true_iff.mp hyes).1]
      rfl
    · rw [isIdentifier_append hnil, hyes]
      rfl
    · rw [isIdentifier_append hnil, hyes]
      rfl

/-- The plural of one noun reads like a regular plural of the other, or both change their last
letters, which differ. -/
def PluralTwins (a b : String) : Prop :=
  (pluralRule a.toList = .addEs ∧ b.toList = a.toList ++ ['e']) ∨
  (pluralRule a.toList = .changeY ∧ b.toList = a.toList.dropLast ++ ['i', 'e']) ∨
  (a ≠ b ∧ pluralRule a.toList = .changeY ∧ pluralRule b.toList = .changeY ∧
    a.toList.dropLast = b.toList.dropLast)

instance (a b : String) : Decidable (PluralTwins a b) :=
  inferInstanceAs (Decidable (_ ∨ _ ∨ _))

theorem PluralTwins.ne_empty {a b : String} (h : PluralTwins a b) : a ≠ "" ∧ b ≠ "" := by
  have ofRule : ∀ {s : String}, pluralRule s.toList ≠ .addS → s ≠ "" := by
    rintro s hs rfl
    exact hs rfl
  have ofAppend : ∀ {s : String} {l t : List Char}, s.toList = l ++ t → t ≠ [] → s ≠ "" := by
    rintro s l t hs ht rfl
    exact ht (List.append_eq_nil_iff.mp hs.symm).2
  rcases h with ⟨ha, hb⟩ | ⟨ha, hb⟩ | ⟨-, ha, hb, -⟩
  · exact ⟨ofRule (by rw [ha]; decide), ofAppend hb (by simp)⟩
  · exact ⟨ofRule (by rw [ha]; decide), ofAppend hb (by simp)⟩
  · exact ⟨ofRule (by rw [ha]; decide), ofRule (by rw [hb]; decide)⟩

/-- No noun is its own twin. -/
theorem not_pluralTwins_self (a : String) : ¬ PluralTwins a a := by
  have longer : ∀ {s t : List Char}, t ≠ [] → s ≠ s ++ t := by
    intro s t ht he
    exact ht (List.self_eq_append_right.mp he)
  rintro (⟨-, h⟩ | ⟨hy, h⟩ | ⟨hne, -⟩)
  · exact longer (by simp) h
  · have hlen := congrArg List.length h
    have hdrop := List.length_pos_of_ne_nil (dropLast_ne_nil_of_changeY hy)
    simp only [List.length_append, List.length_dropLast, List.length_cons, List.length_nil]
      at hlen hdrop
    omega
  · exact hne rfl

/-- Twins have one plural. -/
theorem PluralTwins.pluralize_eq {a b : String} (h : PluralTwins a b) :
    pluralize a = pluralize b := by
  obtain ⟨hane, hbne⟩ := h.ne_empty
  refine String.toList_inj.mp ?_
  rw [toList_pluralize hane, toList_pluralize hbne]
  rcases h with ⟨ha, hb⟩ | ⟨ha, hb⟩ | ⟨-, ha, hb, hd⟩
  · rw [ha, hb, pluralRule_concat_e]
    simp
  · have hbe : b.toList = (a.toList.dropLast ++ ['i']) ++ ['e'] := by simpa using hb
    rw [ha, hbe, pluralRule_concat_e]
    simp
  · rw [ha, hb, hd]

/-- A letter that is changed and an ending that is added do not give the same plural. -/
theorem changeY_ne_addEs {s t : List Char} (h : pluralRule t = .addEs) :
    s.dropLast ++ ['i', 'e', 's'] ≠ t ++ ['e', 's'] := by
  intro he
  have ht : s.dropLast ++ ['i'] = t := by
    refine (List.append_left_inj ['e', 's']).mp ?_
    rw [List.append_assoc]
    exact he
  rw [← ht, pluralRule_concat_i] at h
  exact nomatch h

/-- A plural in `s` alone that ends like another one comes from the other's stem. -/
theorem eq_append_e_of_addS {s t : List Char} (h : s ++ ['e', 's'] = t ++ ['s']) :
    t = s ++ ['e'] := by
  refine (List.append_left_inj ['s']).mp ?_
  rw [List.append_assoc]
  exact h.symm

/-- **Two nouns have the same plural exactly when they are equal or twins.** -/
theorem pluralize_eq_iff {a b : String} :
    pluralize a = pluralize b ↔ a = b ∨ PluralTwins a b ∨ PluralTwins b a := by
  constructor
  · intro h
    by_cases ha : a = ""
    · by_cases hb : b = ""
      · exact .inl (ha.trans hb.symm)
      · exact absurd (by rw [← h, ha]; rfl) (pluralize_ne_empty hb)
    · by_cases hb : b = ""
      · exact absurd (by rw [h, hb]; rfl) (pluralize_ne_empty ha)
      · have hl := String.toList_inj.mpr h
        rw [toList_pluralize ha, toList_pluralize hb] at hl
        cases hra : pluralRule a.toList <;> cases hrb : pluralRule b.toList <;>
          rw [hra, hrb] at hl
        case changeY.changeY =>
          by_cases hab : a = b
          · exact .inl hab
          · exact .inr (.inl (.inr (.inr ⟨hab, hra, hrb, List.append_cancel_right hl⟩)))
        case changeY.addEs => exact absurd hl (changeY_ne_addEs hrb)
        case changeY.addS =>
          have hb' := eq_append_e_of_addS (s := a.toList.dropLast ++ ['i']) (by simpa using hl)
          exact .inr (.inl (.inr (.inl ⟨hra, by simpa using hb'⟩)))
        case addEs.changeY => exact absurd hl.symm (changeY_ne_addEs hra)
        case addEs.addEs => exact .inl (String.toList_inj.mp (List.append_cancel_right hl))
        case addEs.addS => exact .inr (.inl (.inl ⟨hra, eq_append_e_of_addS hl⟩))
        case addS.changeY =>
          have ha' := eq_append_e_of_addS (s := b.toList.dropLast ++ ['i']) (by simpa using hl.symm)
          exact .inr (.inr (.inr (.inl ⟨hrb, by simpa using ha'⟩)))
        case addS.addEs => exact .inr (.inr (.inl ⟨hrb, eq_append_e_of_addS hl.symm⟩))
        case addS.addS => exact .inl (String.toList_inj.mp (List.append_cancel_right hl))
  · rintro (rfl | h | h)
    · rfl
    · exact h.pluralize_eq
    · exact h.pluralize_eq.symm

example : pluralize "Box" = pluralize "Boxe" :=
  pluralize_eq_iff.mpr (.inr (.inl (.inl (by decide))))

end EntityScaffold.Text
