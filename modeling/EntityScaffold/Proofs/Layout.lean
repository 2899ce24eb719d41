import EntityScaffold.Code.Layout
import Mathlib.Data.List.Basic

/-!
# Generated code, read line by line

What a generated file says is read off the lines at one depth: the members of a type stand one step
in, the statements of its methods two steps in.

* `Code.textsAt`: the texts at a depth.
* `Code.groupsAt`: the same in groups between empty lines.
* `Code.startsWith`: a text starts with another.

Results:
* `Code.textsAt_block_succ`: what stands in a block stands one step further in.
* `Code.filterMap_textsAt_spaced`, `Code.filter_textsAt_spaced`: empty lines between groups do not
  matter where nothing is read from them.
* `Code.groupsAt_spaced`: groups are read as they were put one after another.
* `Code.indent_infix_block`, `Code.infix_spaced`: what is put into a block or among groups stands
  there as it is.
* `Code.SourceFile.exists_text_eq`: the lines of a file stand in its text as they are.
-/

namespace EntityScaffold.Code

/-- The texts of the lines at a depth. -/
def textsAt (depth : Nat) (ls : List Line) : List String :=
  (ls.filter fun l => l.depth == depth).map (·.text)

/-- The texts at a depth, in groups between empty lines. -/
def groupsAt (depth : Nat) (ls : List Line) : List (List String) := (textsAt depth ls).splitOn ""

/-- The text starts with the given one. -/
def startsWith (start text : String) : Bool := start.toList.isPrefixOf text.toList

section Texts

variable (d : Nat) (ls ls' : List Line)

theorem textsAt_append : textsAt d (ls ++ ls') = textsAt d ls ++ textsAt d ls' := by
  unfold textsAt
  rw [List.filter_append, List.map_append]

theorem textsAt_flatMap {α : Type} (l : List α) (f : α → List Line) :
    textsAt d (l.flatMap f) = l.flatMap fun a => textsAt d (f a) := by
  unfold textsAt
  rw [List.filter_flatMap, List.map_flatMap]

theorem textsAt_indent_zero : textsAt 0 (indent ls) = [] := by
  simp [textsAt, indent, List.filter_map, Function.comp_def]

theorem textsAt_indent_succ : textsAt (d + 1) (indent ls) = textsAt d ls := by
  simp [textsAt, indent, List.filter_map, Function.comp_def]

theorem textsAt_lines_zero (texts : List String) : textsAt 0 (lines texts) = texts := by
  simp [textsAt, lines, List.filter_map, Function.comp_def]

theorem textsAt_line_zero (text : String) : textsAt 0 (line text) = [text] := rfl

theorem textsAt_line_succ (text : String) : textsAt (d + 1) (line text) = [] := rfl

theorem textsAt_braced_zero (tail : String) :
    textsAt 0 (braced ls tail) = ["\x7b", "\x7d" ++ tail] := by
  unfold braced
  rw [textsAt_append, textsAt_append, textsAt_indent_zero]
  rfl

theorem textsAt_braced_succ (tail : String) :
    textsAt (d + 1) (braced ls tail) = textsAt d ls := by
  unfold braced
  rw [textsAt_append, textsAt_append, textsAt_indent_succ, textsAt_line_succ, textsAt_line_succ,
    List.nil_append, List.append_nil]

theorem textsAt_block_zero (head : String) :
    textsAt 0 (block head ls) = [head, "\x7b", "\x7d"] := by
  unfold block
  rw [textsAt_append, textsAt_braced_zero]
  rfl

/-- **What stands in a block stands one step further in.** -/
theorem textsAt_block_succ (head : String) : textsAt (d + 1) (block head ls) = textsAt d ls := by
  unfold block
  rw [textsAt_append, textsAt_braced_succ, textsAt_line_succ, List.nil_append]

end Texts

/-- Empty lines between groups do not matter where nothing is read from them. -/
theorem filterMap_textsAt_spaced {α : Type} {f : String → Option α} (hf : f "" = none) (d : Nat)
    (groups : List (List Line)) :
    (textsAt d (spaced groups)).filterMap f =
      groups.flatMap fun g => (textsAt d g).filterMap f := by
  induction groups with
  | nil => rfl
  | cons g groups ih =>
    cases groups with
    | nil => simp [spaced]
    | cons g' groups =>
      have hblank : (textsAt d blank).filterMap f = [] := by
        cases d with
        | zero => simp [blank, textsAt_line_zero, hf]
        | succ d => rfl
      rw [spaced, textsAt_append, textsAt_append, List.filterMap_append, List.filterMap_append,
        hblank, ih, List.append_nil]
      · rfl
      · simp

/-- Nor do they where they are not looked for. -/
theorem filter_textsAt_spaced {q : String → Bool} (hq : q "" = false) (d : Nat)
    (groups : List (List Line)) :
    (textsAt d (spaced groups)).filter q = groups.flatMap fun g => (textsAt d g).filter q := by
  simp only [← List.filterMap_eq_filter]
  exact filterMap_textsAt_spaced (by simp [Option.guard, hq]) d groups

/-- Groups without empty lines are read as they were put one after another. -/
theorem groupsAt_spaced {groups : List (List Line)} (hne : groups ≠ [])
    (h : ∀ g ∈ groups, "" ∉ textsAt 0 g) :
    groupsAt 0 (spaced groups) = groups.map (textsAt 0) := by
  have htexts : textsAt 0 (spaced groups) = [""].intercalate (groups.map (textsAt 0)) := by
    clear hne h
    induction groups with
    | nil => rfl
    | cons g groups ih =>
      cases groups with
      | nil => simp [spaced]
      | cons g' groups =>
        rw [spaced, textsAt_append, textsAt_append, ih]
        · simp [List.intercalate, blank, textsAt_line_zero]
        · simp
  unfold groupsAt
  rw [htexts, List.splitOn_intercalate]
  · intro texts htexts
    obtain ⟨g, hg, rfl⟩ := List.mem_map.mp htexts
    exact h g hg
  · simpa using hne

/-! ## Starts -/

/-- A text keeps its start, whatever follows. -/
theorem startsWith_append {start text : String} (h : startsWith start text = true)
    (rest : String) : startsWith start (text ++ rest) = true := by
  unfold startsWith at h ⊢
  rw [List.isPrefixOf_iff_prefix] at h ⊢
  rw [String.toList_append]
  exact h.trans (List.prefix_append _ _)

/-- Where neither of two starts begins with the other, a text has at most one of them. -/
theorem startsWith_eq_false_of_startsWith {start head text : String}
    (h : startsWith start head = false) (h' : startsWith head start = false)
    (htext : startsWith head text = true) : startsWith start text = false := by
  refine Bool.eq_false_iff.mpr fun hstart => ?_
  unfold startsWith at h h' htext hstart
  rw [Bool.eq_false_iff, Ne, List.isPrefixOf_iff_prefix] at h h'
  rw [List.isPrefixOf_iff_prefix] at htext hstart
  exact (List.prefix_or_prefix_of_prefix hstart htext).elim h h'

theorem startsWith_self (text : String) : startsWith text text = true :=
  List.isPrefixOf_iff_prefix.mpr List.prefix_rfl

theorem startsWith_trans {start head text : String} (h : startsWith start head = true)
    (h' : startsWith head text = true) : startsWith start text = true := by
  unfold startsWith at h h' ⊢
  rw [List.isPrefixOf_iff_prefix] at h h' ⊢
  exact h.trans h'

/-- A text that goes on from a start has it. -/
theorem startsWith_self_append (start rest : String) : startsWith start (start ++ rest) = true :=
  startsWith_append (startsWith_self start) rest

/-- What follows one of the two does not matter. -/
theorem startsWith_append_eq_false {start text : String} (h : startsWith start text = false)
    (h' : startsWith text start = false) (rest : String) :
    startsWith start (text ++ rest) = false :=
  startsWith_eq_false_of_startsWith h h' (startsWith_self_append text rest)

/-- A text without the start is not found by it. -/
theorem filter_singleton_eq_nil {start text : String} (h : startsWith start text = false) :
    [text].filter (startsWith start) = [] := by
  rw [List.filter_cons_of_neg (h ▸ Bool.false_ne_true), List.filter_nil]

/-! ## Code in place -/

/-- What stands in a body stands in its block, one step further in. -/
theorem indent_infix_block {ls body : List Line} (h : ls <:+: body) (head : String) :
    indent ls <:+: block head body := by
  have hbody : indent ls <:+: indent body := h.map _
  exact hbody.trans ⟨line head ++ line "\x7b", line "\x7d", by simp [block, braced]⟩

theorem infix_spaced {group : List Line} {groups : List (List Line)} (h : group ∈ groups) :
    group <:+: spaced groups := by
  induction groups with
  | nil => exact absurd h List.not_mem_nil
  | cons g groups ih =>
    cases groups with
    | nil =>
      rw [List.mem_singleton.mp h]
      exact List.infix_rfl
    | cons g' groups =>
      show group <:+: g ++ blank ++ spaced (g' :: groups)
      rcases List.mem_cons.mp h with rfl | h
      · rw [List.append_assoc]
        exact (List.prefix_append _ _).isInfix
      · exact (ih h).trans (List.suffix_append _ _).isInfix

/-! ## Lines in a text -/

/-- A line stands in the text that is assembled from it and others, before a line feed. -/
theorem exists_fileText_eq {ls : List String} {l : String} (h : l ∈ ls) :
    ∃ start rest, Text.fileText ls = start ++ l ++ "\n" ++ rest := by
  induction ls with
  | nil => exact absurd h List.not_mem_nil
  | cons l' ls ih =>
    by_cases hempty : ls = []
    · subst hempty
      obtain rfl := List.mem_singleton.mp h
      exact ⟨"", "", by simp [Text.fileText, Text.joinLines]⟩
    · have hlines : Text.fileText (l' :: ls) = l' ++ "\n" ++ Text.fileText ls := by
        unfold Text.fileText Text.joinLines
        rw [String.intercalate_cons_of_ne_nil hempty, String.append_assoc]
      rcases List.mem_cons.mp h with rfl | h
      · exact ⟨"", Text.fileText ls, by rw [hlines, String.empty_append]⟩
      · obtain ⟨start, rest, heq⟩ := ih h
        exact ⟨l' ++ "\n" ++ start, rest, by rw [hlines, heq]; simp only [String.append_assoc]⟩

/-- Only blanks stand before the text of a line. -/
theorem Line.exists_render_eq (l : Line) :
    ∃ depth, l.render = String.ofList (List.replicate depth ' ') ++ l.text := by
  unfold render
  split_ifs with hempty
  · exact ⟨0, by rw [String.isEmpty_iff.mp hempty]; rfl⟩
  · exact ⟨_, rfl⟩

/-- **The lines of a file stand in its text as they are.** -/
theorem SourceFile.exists_text_eq {f : SourceFile} {depth : Nat} {line : String}
    (h : ⟨depth, line⟩ ∈ f.body) : ∃ start rest, f.text = start ++ line ++ "\n" ++ rest := by
  obtain ⟨margin, hrender⟩ := Line.exists_render_eq ⟨depth, line⟩
  obtain ⟨start, rest, heq⟩ := exists_fileText_eq
    (List.mem_append_right f.prologue (List.mem_map_of_mem (f := Line.render) h))
  refine ⟨start ++ String.ofList (List.replicate margin ' '), rest, ?_⟩
  unfold text
  rw [heq, hrender]
  simp only [String.append_assoc]

end EntityScaffold.Code
