import EntityScaffold.Proofs.Layout
import Mathlib.Data.List.TakeWhile

/-!
# Sections and blocks of generated code

A line belongs together with the lines further in that follow it: a statement with the calls that it
is continued by, an opening brace with the body that it opens.

* `Code.sectionsAt`: each line at a depth with the lines further in that follow it.
* `Code.statementsAt`: the same as texts.
* `Code.blocksAt`: heads with what stands in the braces after them.

Results:
* `Code.sectionsAt_append`: sections end where a line stands no further in than they.
* `Code.sectionsAt_block_succ`: what stands in a block stands one step further in.
* `Code.statementsAt_indent_succ`: texts do not depend on where their lines stand.
-/

namespace EntityScaffold.Code

/-- A line with lines that belong to it. -/
structure Section where
  head : String
  body : List Line
  deriving DecidableEq

namespace Section

/-- A section, one step further in. -/
def indent (s : Section) : Section := ⟨s.head, Code.indent s.body⟩

/-- The texts of a section, its head first. -/
def texts (s : Section) : List String := s.head :: s.body.map (·.text)

theorem texts_indent (s : Section) : s.indent.texts = s.texts := by
  simp [texts, indent, Code.indent]

end Section

/-- Each line at a depth with the lines further in that follow it. -/
def sectionsAt (depth : Nat) : List Line → List Section
  | [] => []
  | l :: ls =>
    if l.depth = depth then
      ⟨l.text, ls.takeWhile fun l' => depth < l'.depth⟩ :: sectionsAt depth ls
    else sectionsAt depth ls

/-- The statements at a depth: the texts of each section. -/
def statementsAt (depth : Nat) (ls : List Line) : List (List String) :=
  (sectionsAt depth ls).map Section.texts

/-- The sections that start with an opening brace, each with the head before the brace. -/
def blocksOf : List Section → List Section
  | s :: s' :: rest =>
    if s'.head = "\x7b" then ⟨s.head, s'.body⟩ :: blocksOf rest else blocksOf (s' :: rest)
  | _ => []

/-- The blocks at a depth: heads with what stands in the braces after them. -/
def blocksAt (depth : Nat) (ls : List Line) : List Section := blocksOf (sectionsAt depth ls)

/-- If there are lines, the first stands no further in than the depth. -/
def StartsBy (depth : Nat) (ls : List Line) : Prop := ∀ l ∈ ls.head?, l.depth ≤ depth

section Sections

variable (d : Nat) (ls : List Line)

theorem startsBy_cons {l : Line} (h : l.depth ≤ d) : StartsBy d (l :: ls) := by
  intro l' hl
  exact Option.some.inj hl ▸ h

theorem startsBy_lines (texts : List String) : StartsBy d (lines texts) := by
  intro l hl
  obtain ⟨t, -, rfl⟩ := List.mem_map.mp (List.mem_of_mem_head? hl)
  exact Nat.zero_le d

theorem startsBy_line (text : String) : StartsBy d (line text) := startsBy_lines d [text]

theorem startsBy_line_append (text : String) (rest : List Line) :
    StartsBy d (line text ++ rest) := startsBy_cons d rest (Nat.zero_le d)

theorem startsBy_braced (tail : String) : StartsBy d (braced ls tail) :=
  startsBy_cons d _ (Nat.zero_le d)

theorem startsBy_block (head : String) : StartsBy d (block head ls) :=
  startsBy_cons d _ (Nat.zero_le d)

theorem startsBy_flatMap {α : Type} {f : α → List Line} (h : ∀ a, StartsBy d (f a)) (as : List α) :
    StartsBy d (as.flatMap f) := by
  intro l hl
  rw [Option.mem_def, List.head?_flatMap] at hl
  obtain ⟨a, -, ha⟩ := List.exists_of_findSome?_eq_some hl
  exact h a l ha

/-- **Sections end where a line stands no further in than they.** -/
theorem sectionsAt_append {ls' : List Line} (h : StartsBy d ls') :
    sectionsAt d (ls ++ ls') = sectionsAt d ls ++ sectionsAt d ls' := by
  have hstop : ∀ ls : List Line, (ls ++ ls').takeWhile (fun l => decide (d < l.depth)) =
      ls.takeWhile fun l => d < l.depth := by
    intro ls
    induction ls with
    | nil =>
      cases ls' with
      | nil => rfl
      | cons l ls' =>
        have hl : ¬ d < l.depth := Nat.not_lt.mpr (h l rfl)
        rw [List.nil_append, List.takeWhile_cons_of_neg (by simpa using hl), List.takeWhile_nil]
    | cons l ls ih => rw [List.cons_append, List.takeWhile_cons, List.takeWhile_cons, ih]
  induction ls with
  | nil => rfl
  | cons l ls ih =>
    rw [List.cons_append, sectionsAt, sectionsAt, hstop, ih]
    split_ifs <;> rfl

/-- Pieces that start no further in than their sections have these one after another. -/
theorem sectionsAt_flatMap {α : Type} {f : α → List Line} (h : ∀ a, StartsBy d (f a))
    (as : List α) : sectionsAt d (as.flatMap f) = as.flatMap fun a => sectionsAt d (f a) := by
  induction as with
  | nil => rfl
  | cons a as ih =>
    rw [List.flatMap_cons, List.flatMap_cons, sectionsAt_append d (f a) (startsBy_flatMap d h as),
      ih]

theorem statementsAt_append {ls' : List Line} (h : StartsBy d ls') :
    statementsAt d (ls ++ ls') = statementsAt d ls ++ statementsAt d ls' := by
  unfold statementsAt
  rw [sectionsAt_append d ls h, List.map_append]

theorem statementsAt_flatMap {α : Type} {f : α → List Line} (h : ∀ a, StartsBy d (f a))
    (as : List α) :
    statementsAt d (as.flatMap f) = as.flatMap fun a => statementsAt d (f a) := by
  unfold statementsAt
  rw [sectionsAt_flatMap d h, List.map_flatMap]

theorem sectionsAt_indent_zero : sectionsAt 0 (indent ls) = [] := by
  induction ls with
  | nil => rfl
  | cons l ls ih => exact (if_neg (Nat.succ_ne_zero _)).trans ih

theorem sectionsAt_indent_succ :
    sectionsAt (d + 1) (indent ls) = (sectionsAt d ls).map Section.indent := by
  induction ls with
  | nil => rfl
  | cons l ls ih =>
    have htake : (indent ls).takeWhile (fun l' => decide (d + 1 < l'.depth)) =
        indent (ls.takeWhile fun l' => d < l'.depth) := by
      unfold indent
      rw [List.takeWhile_map]
      simp [Function.comp_def]
    show sectionsAt (d + 1) (⟨l.depth + 1, l.text⟩ :: indent ls) = _
    simp only [sectionsAt, Nat.add_right_cancel_iff, htake, ih]
    split_ifs <;> rfl

/-- The heads of the sections are the lines at their depth. -/
theorem map_head_sectionsAt : (sectionsAt d ls).map Section.head = textsAt d ls := by
  induction ls with
  | nil => rfl
  | cons l ls ih =>
    unfold sectionsAt textsAt
    by_cases h : l.depth = d
    · rw [if_pos h, List.map_cons, List.filter_cons_of_pos (by simpa using h), List.map_cons, ih]
      rfl
    · rw [if_neg h, List.filter_cons_of_neg (by simpa using h), ih]
      rfl

/-- Texts do not depend on where their lines stand. -/
theorem statementsAt_indent_succ : statementsAt (d + 1) (indent ls) = statementsAt d ls := by
  unfold statementsAt
  rw [sectionsAt_indent_succ, List.map_map]
  exact List.map_congr_left fun s _ => s.texts_indent

theorem sectionsAt_lines_zero (texts : List String) :
    sectionsAt 0 (lines texts) = texts.map fun t => ⟨t, []⟩ := by
  induction texts with
  | nil => rfl
  | cons t texts ih =>
    have htake : (lines texts).takeWhile (fun l => decide (0 < l.depth)) = [] := by
      cases texts <;> rfl
    show sectionsAt 0 (⟨0, t⟩ :: lines texts) = _
    rw [sectionsAt, if_pos rfl, htake, ih]
    rfl

theorem sectionsAt_lines_succ (texts : List String) : sectionsAt (d + 1) (lines texts) = [] := by
  induction texts with
  | nil => rfl
  | cons t texts ih => exact (if_neg (Nat.succ_ne_zero d).symm).trans ih

theorem statementsAt_lines_zero (texts : List String) :
    statementsAt 0 (lines texts) = texts.map ([·]) := by
  unfold statementsAt
  rw [sectionsAt_lines_zero, List.map_map]
  rfl

/-- Lines further in belong to the line before them. -/
theorem sectionsAt_hanging (head : String) :
    sectionsAt 0 (line head ++ indent ls) = [⟨head, indent ls⟩] := by
  have htake : (indent ls).takeWhile (fun l => decide (0 < l.depth)) = indent ls := by
    refine List.takeWhile_eq_self_iff.mpr fun l hl => ?_
    obtain ⟨l', -, rfl⟩ := List.mem_map.mp hl
    exact decide_eq_true (Nat.succ_pos _)
  show sectionsAt 0 (⟨0, head⟩ :: indent ls) = _
  rw [sectionsAt, if_pos rfl, htake, sectionsAt_indent_zero]

/-- The sections of a body in braces. -/
theorem sectionsAt_braced_zero (tail : String) :
    sectionsAt 0 (braced ls tail) = [⟨"\x7b", indent ls⟩, ⟨"\x7d" ++ tail, []⟩] := by
  unfold braced
  rw [sectionsAt_append 0 _ (startsBy_line 0 _), sectionsAt_hanging]
  rfl

theorem sectionsAt_braced_succ (tail : String) :
    sectionsAt (d + 1) (braced ls tail) = (sectionsAt d ls).map Section.indent := by
  have hline : ∀ text, sectionsAt (d + 1) (line text) = [] :=
    fun text => sectionsAt_lines_succ d [text]
  have hbody : sectionsAt (d + 1) (line "\x7b" ++ indent ls) =
      (sectionsAt d ls).map Section.indent := by
    show sectionsAt (d + 1) (⟨0, "\x7b"⟩ :: indent ls) = _
    rw [sectionsAt, if_neg (Nat.succ_ne_zero d).symm, sectionsAt_indent_succ]
  unfold braced
  rw [sectionsAt_append _ _ (startsBy_line _ _), hbody, hline, List.append_nil]

/-- **What stands in a block stands one step further in.** -/
theorem sectionsAt_block_succ (head : String) :
    sectionsAt (d + 1) (block head ls) = (sectionsAt d ls).map Section.indent := by
  show sectionsAt (d + 1) (⟨0, head⟩ :: braced ls "") = _
  rw [sectionsAt, if_neg (Nat.succ_ne_zero d).symm, sectionsAt_braced_succ]

end Sections

end EntityScaffold.Code
