import EntityScaffold.Proofs.Words
import EntityScaffold.Schema.Relationship

/-!
# Names do not show their separators

A schema name parts its words by separators, one or several in a row. A class or a member is named
by the words alone, so it does not matter which separators there are, how many stand in a row, and
whether some stand before the first word or after the last.

* `Text.IsSeparatorRun`: a text of separators.
* `Text.putTogether`: a schema name that is put together from parts, with runs of separators between
  them.

Results:
* `Text.words_append_separators`: the words before a run of separators come before those after it.
* `Text.pascalCase_append_separators`: so a run of separators joins two names.
* `Text.pascalCase_putTogether`: a name is put together from the names of the parts.
* `separators_vanish`: all of it, for strings and for the names of tables and columns.
-/

namespace EntityScaffold

namespace Text

/-- A text of separators. -/
structure IsSeparatorRun (s : String) : Prop where
  ne_empty : s ≠ ""
  separators : ∀ c ∈ s.toList, c ∈ ['_', '-', ' ']

instance (s : String) : Decidable (IsSeparatorRun s) :=
  decidable_of_iff (s ≠ "" ∧ s.toList.all (['_', '-', ' '].contains ·) = true)
    ⟨fun h => ⟨h.1, fun c hc => List.contains_iff_mem.mp (List.all_eq_true.mp h.2 c hc)⟩,
      fun h => ⟨h.1, List.all_eq_true.mpr fun c hc => List.contains_iff_mem.mpr (h.2 c hc)⟩⟩

theorem isSeparator_iff {c : Char} : isSeparator c = true ↔ c ∈ ['_', '-', ' '] := by
  simp [isSeparator, or_assoc]

/-! ## Words -/

/-- Separators at the front of a name belong to no word. -/
theorem words_separators_append {s : List Char} (hs : ∀ c ∈ s, isSeparator c = true)
    (t : List Char) : words (s ++ t) = words t := by
  induction s with
  | nil => rfl
  | cons c s ih =>
    obtain ⟨hc, hs⟩ := List.forall_mem_cons.mp hs
    have hfront : words ([] ++ c :: (s ++ t)) = words [] ++ words (s ++ t) :=
      words_append_separator hc [] (s ++ t)
    have hnone : words [] = [] := rfl
    rw [hnone, List.nil_append, List.nil_append, ih hs] at hfront
    exact hfront

/-- **The words before a run of separators come before those after it**, whatever separators stand
at the ends of the two. -/
theorem words_append_separators {s : List Char} (hne : s ≠ [])
    (hs : ∀ c ∈ s, isSeparator c = true) (a b : List Char) :
    words (a ++ s ++ b) = words a ++ words b := by
  cases s with
  | nil => exact absurd rfl hne
  | cons c s =>
    obtain ⟨hc, hs⟩ := List.forall_mem_cons.mp hs
    rw [List.append_assoc, List.cons_append, words_append_separator hc,
      words_separators_append hs]

/-! ## Names -/

section Names

variable {s : String}

/-- **A run of separators joins two names.** -/
theorem pascalCase_append_separators (h : IsSeparatorRun s) (a b : String) :
    pascalCase (a ++ s ++ b) = pascalCase a ++ pascalCase b := by
  have hwords : words (a ++ s ++ b).toList = words a.toList ++ words b.toList := by
    rw [String.toList_append, String.toList_append]
    refine words_append_separators (fun hnil => h.ne_empty ?_)
      (fun c hc => isSeparator_iff.mpr (h.separators c hc)) _ _
    rw [← String.ofList_toList (s := s), hnil]
  unfold pascalCase pascal
  rw [hwords, List.flatMap_append, String.ofList_append]

theorem pascalCase_empty : pascalCase "" = "" := rfl

/-- Separators before the first word do not show. -/
theorem pascalCase_leading (h : IsSeparatorRun s) (a : String) :
    pascalCase (s ++ a) = pascalCase a := by
  have hjoined := pascalCase_append_separators h "" a
  rwa [pascalCase_empty, String.empty_append, String.empty_append] at hjoined

/-- Nor do those after the last. -/
theorem pascalCase_trailing (h : IsSeparatorRun s) (a : String) :
    pascalCase (a ++ s) = pascalCase a := by
  have hjoined := pascalCase_append_separators h a ""
  rwa [pascalCase_empty, String.append_empty, String.append_empty] at hjoined

end Names

/-- A schema name that is put together from a first part and further ones, each with what stands
before it. -/
def putTogether (first : String) (parts : List (String × String)) : String :=
  parts.foldl (fun name part => name ++ part.1 ++ part.2) first

/-- **A name is put together from the names of the parts**, whatever separators stand between
them. -/
theorem pascalCase_putTogether (first : String) (parts : List (String × String))
    (h : ∀ part ∈ parts, IsSeparatorRun part.1) :
    pascalCase (putTogether first parts) =
      pascalCase first ++ String.join (parts.map fun part => pascalCase part.2) := by
  induction parts generalizing first with
  | nil => rw [List.map_nil, String.join_nil, String.append_empty]; rfl
  | cons part parts ih =>
    obtain ⟨hpart, hparts⟩ := List.forall_mem_cons.mp h
    calc pascalCase (putTogether first (part :: parts))
      _ = pascalCase (putTogether (first ++ part.1 ++ part.2) parts) := rfl
      _ = pascalCase (first ++ part.1 ++ part.2) ++
            String.join (parts.map fun part => pascalCase part.2) := ih _ hparts
      _ = _ := by
        rw [pascalCase_append_separators hpart, String.append_assoc, List.map_cons,
          String.join_cons]

/-- A way to name things after schema names does not show the separators of these. -/
structure HidesSeparators (name : String → String) : Prop where
  /-- A run of separators joins the names of what stands on its two sides. -/
  joins : ∀ {s}, IsSeparatorRun s → ∀ a b, name (a ++ s ++ b) = name a ++ name b
  /-- No name has a separator. -/
  absent : ∀ a, ∀ c ∈ ['_', '-', ' '], c ∉ (name a).toList
  leading : ∀ {s}, IsSeparatorRun s → ∀ a, name (s ++ a) = name a
  trailing : ∀ {s}, IsSeparatorRun s → ∀ a, name (a ++ s) = name a
  /-- One run is as good as another. -/
  choice : ∀ {s s'}, IsSeparatorRun s → IsSeparatorRun s' →
    ∀ a b, name (a ++ s ++ b) = name (a ++ s' ++ b)
  /-- A name with any number of runs is put together from the names of its parts. -/
  parts : ∀ first parts, (∀ part ∈ parts, IsSeparatorRun part.1) →
    name (putTogether first parts) =
      name first ++ String.join (parts.map fun part => name part.2)

theorem hidesSeparators_pascalCase : HidesSeparators pascalCase where
  joins := pascalCase_append_separators
  absent a _ hc := not_mem_pascalCase_of_isSeparator (isSeparator_iff.mpr hc) a
  leading := pascalCase_leading
  trailing := pascalCase_trailing
  choice h h' a b :=
    (pascalCase_append_separators h a b).trans (pascalCase_append_separators h' a b).symm
  parts := pascalCase_putTogether

end Text

/-- **Separators never show** in the name of a class or a member. A run of them joins the names of
what stands before and after it, and no name has one; so those at the ends do not count, nor how
many there are in a row, nor which. -/
theorem separators_vanish :
    Text.HidesSeparators Text.pascalCase ∧
    (∀ t : Table, Text.HidesSeparators fun name => { t with name := name : Table }.className) ∧
    ∀ p : Property,
      Text.HidesSeparators fun name => { p with name := name : Property }.memberName :=
  ⟨Text.hidesSeparators_pascalCase, fun _ => Text.hidesSeparators_pascalCase,
    fun _ => Text.hidesSeparators_pascalCase⟩

/-- A name with separators at its ends and several kinds of them inside. -/
theorem separators_vanish_order_line :
    let t : Table := { name := Text.putTogether "" [("__", "order"), (" -_", "ΟΔΟΣ"), ("-", "")] }
    t.name = "__order -_ΟΔΟΣ-" ∧ t.className = "OrderΟδος" := by
  intro t
  obtain ⟨-, hclasses, -⟩ := separators_vanish
  refine ⟨by decide +kernel, ?_⟩
  calc t.className
    _ = _ := (hclasses t).parts "" [("__", "order"), (" -_", "ΟΔΟΣ"), ("-", "")] (by decide)
    _ = _ := by decide +kernel

end EntityScaffold
