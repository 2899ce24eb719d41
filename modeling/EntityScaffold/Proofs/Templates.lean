import EntityScaffold.Proofs.Layout

/-!
# Names in texts with fixed parts

Comments and messages are fixed parts with names between them. The names are read out again from
left to right: each goes up to the character that the next part starts with, and the last one up to
the last part.

* `Text.fields?`: the names in a text.

Results:
* `Text.fields?_of_separated`: a text is read as it was put together, where no name but the last has
  the character that the part after it starts with.
* `Text.fields?_eq_none`: a text that starts otherwise has none.
-/

namespace EntityScaffold.Text

/-- The names before the given parts. -/
def fieldsIn? : List (List Char) → List Char → Option (List (List Char))
  | [], _ => none
  | [part], s => if part.isSuffixOf s then some [s.take (s.length - part.length)] else none
  | part :: parts, s =>
    let name := s.takeWhile fun c => some c != part.head?
    let rest := s.drop name.length
    if part.isPrefixOf rest then (fieldsIn? parts (rest.drop part.length)).map (name :: ·) else none

/-- The names in a text that begins with `start` and goes on with a name before each part. -/
def fields? (start : String) (parts : List String) (text : String) : Option (List String) :=
  if Code.startsWith start text then
    (fieldsIn? (parts.map String.toList) (text.toList.drop start.toList.length)).map
      (List.map String.ofList)
  else none

/-- Names, each with the part after it. -/
def filled : List (List Char) → List (List Char) → List Char
  | part :: parts, name :: names => name ++ part ++ filled parts names
  | _, _ => []

/-- Each name but the last is free of the character that ends it. -/
def Separated : List (List Char) → List (List Char) → Prop
  | [_], [_] => True
  | part :: parts, name :: names => (∃ c, part.head? = some c ∧ c ∉ name) ∧ Separated parts names
  | _, _ => False

theorem fieldsIn?_filled {parts names : List (List Char)} (h : Separated parts names) :
    fieldsIn? parts (filled parts names) = some names := by
  induction parts generalizing names with
  | nil => cases names <;> exact h.elim
  | cons part parts ih =>
    match parts, names, h with
    | [], [name], _ =>
      have hsuffix : part.isSuffixOf (name ++ part) = true :=
        List.isSuffixOf_iff_suffix.mpr (List.suffix_append _ _)
      simp [fieldsIn?, filled, hsuffix]
    | next :: parts, name :: names, h =>
      obtain ⟨⟨c, hc, hfree⟩, hrest⟩ := h
      obtain ⟨tail, rfl⟩ : ∃ tail, part = c :: tail := ⟨part.tail, List.cons_head?_tail hc ▸ rfl⟩
      have hname : (name ++ (c :: tail) ++ filled (next :: parts) names).takeWhile
          (fun d => some d != (c :: tail).head?) = name := by
        rw [List.append_assoc, List.takeWhile_append_of_pos]
        · simp
        · intro d hd
          simpa using fun he : d = c => hfree (he ▸ hd)
      have hprefix : (c :: tail).isPrefixOf ((c :: tail) ++ filled (next :: parts) names) = true :=
        List.isPrefixOf_iff_prefix.mpr (List.prefix_append _ _)
      show fieldsIn? ((c :: tail) :: next :: parts)
        (name ++ (c :: tail) ++ filled (next :: parts) names) = _
      unfold fieldsIn?
      simp only [hname]
      rw [List.append_assoc, List.drop_left, if_pos hprefix, List.drop_left, ih hrest]
      rfl

/-- **A text is read as it was put together.** -/
theorem fields?_of_separated {start text : String} {parts names : List String}
    (htext : text.toList =
      start.toList ++ filled (parts.map String.toList) (names.map String.toList))
    (h : Separated (parts.map String.toList) (names.map String.toList)) :
    fields? start parts text = some names := by
  have hstart : Code.startsWith start text = true := by
    unfold Code.startsWith
    rw [htext]
    exact List.isPrefixOf_iff_prefix.mpr (List.prefix_append _ _)
  have hnames : (names.map String.toList).map String.ofList = names := by
    rw [List.map_map]
    exact List.map_id'' (fun _ => String.ofList_toList) names
  unfold fields?
  rw [if_pos hstart, htext, List.drop_left, fieldsIn?_filled h, Option.map_some, hnames]

/-- A text that starts with another character is not read. -/
theorem fields?_eq_none {start text : String} {parts : List String} (hne : start ≠ "")
    (h : text.toList.head? ≠ start.toList.head?) : fields? start parts text = none := by
  refine if_neg fun hstart => h ?_
  unfold Code.startsWith at hstart
  obtain ⟨rest, hrest⟩ := List.isPrefixOf_iff_prefix.mp hstart
  have hnil : start.toList ≠ [] := fun hs => hne (String.toList_eq_nil_iff.mp hs)
  rw [← hrest, List.head?_append_of_ne_nil _ hnil]

end EntityScaffold.Text
