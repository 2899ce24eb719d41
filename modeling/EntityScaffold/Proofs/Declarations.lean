import EntityScaffold.Code.Entity
import EntityScaffold.Proofs.Layout
import EntityScaffold.Proofs.Words

/-!
# Members, read off their lines

The members of a class stand one step in, each on a line of its own: `public`, perhaps `virtual`,
the type, the name and the accessors, perhaps with a value. The words of such a line stand between
blanks, so neither a type nor a name can hold one; the names of classes and members do not, since
blanks part words.

* `Code.Declaration`: a member by its type and its name.
* `Code.declaration?`: the member that a line declares.
* `Code.SourceFile.declarations`: the members that a file declares.

Results:
* `Code.declaration?_public`, `Code.declaration?_virtual`: a line is read as it was written.
* `Code.declaration?_eq_none`: annotations, comments and empty lines declare nothing.
* `Member.declared_column`, `Member.declared_reference`, `Member.declared_collection`,
  `Member.declared_skipped`, `Member.declared_softDeleteFlag`: what the parts of an entity declare.
-/

namespace EntityScaffold.Code

/-- A member of a class. -/
structure Declaration where
  type : String
  name : String
  deriving DecidableEq

/-- The words of a line. -/
def words (text : String) : List String := (text.toList.splitOn ' ').map String.ofList

/-- The words of the accessors. -/
def accessorWords : List String := ["\x7b", "get;", "set;", "\x7d"]

/-- The member that the words after `public` declare. -/
def declarationIn? : List String → Option Declaration
  | type :: name :: rest => if rest.take 4 = accessorWords then some ⟨type, name⟩ else none
  | _ => none

/-- The member that a line declares. The line ends with the accessors or with the value after
them; a constructor does not, whatever its class is called. -/
def declaration? (text : String) : Option Declaration :=
  if text.toList.getLast? ∈ [some '\x7d', some ';'] then
    match words text with
    | "public" :: ws => declarationIn? (if ws.head? = some "virtual" then ws.tail else ws)
    | _ => none
  else none

/-- The members that a file declares, in order. -/
def SourceFile.declarations (f : SourceFile) : List Declaration :=
  (textsAt 1 f.body).filterMap declaration?

/-- The names of the members that a file declares. -/
def SourceFile.memberNames (f : SourceFile) : List String := f.declarations.map Declaration.name

/-! ## Words -/

/-- A word ends at the first blank. -/
theorem words_append {a : String} (ha : ' ' ∉ a.toList) (b : String) :
    words (a ++ (" " ++ b)) = a :: words b := by
  unfold words
  have hblank : (a ++ (" " ++ b)).toList = a.toList ++ ' ' :: b.toList := by simp
  rw [hblank, List.splitOn_append_cons_self_of_not_mem ha, List.map_cons, String.ofList_toList]

theorem words_eq_singleton {a : String} (ha : ' ' ∉ a.toList) : words a = [a] := by
  unfold words
  rw [List.splitOn_eq_singleton ha, List.map_singleton, String.ofList_toList]

/-- The first word starts like its line. -/
theorem head?_words {text first : String} {rest : List String} (h : words text = first :: rest)
    (hne : first ≠ "") : first.toList.head? = text.toList.head? := by
  unfold words at h
  cases hs : text.toList with
  | nil =>
    rw [hs] at h
    exact absurd (List.cons.inj h).1.symm hne
  | cons c cs =>
    rw [hs, List.splitOn_cons_eq_if_modifyHead] at h
    split_ifs at h
    · exact absurd (List.cons.inj h).1.symm hne
    · obtain ⟨w, ws, hw⟩ := List.exists_cons_of_ne_nil (List.splitOn_ne_nil ' ' cs)
      rw [hw, List.modifyHead_cons, List.map_cons] at h
      rw [← (List.cons.inj h).1, String.toList_ofList]
      rfl

/-! ## Lines that declare nothing -/

/-- **Annotations, comments and empty lines declare nothing**: they start otherwise. -/
theorem declaration?_eq_none {text : String} (h : text.toList.head? ≠ some 'p') :
    declaration? text = none := by
  unfold declaration?
  split_ifs
  · split
    · rename_i ws hwords
      exact absurd (head?_words hwords (by decide)).symm h
    · rfl
  · rfl

/-- A line that ends otherwise declares nothing. -/
theorem declaration?_eq_none_of_getLast? {text : String}
    (h : text.toList.getLast? ∉ [some '\x7d', some ';']) : declaration? text = none := if_neg h

/-! ## Lines that declare a member -/

/-- What may follow the accessors: nothing, or a value and a semicolon. -/
def EndsMember (tail : String) : Prop :=
  tail = "" ∨ ∃ value, tail = " " ++ value ∧ value.toList.getLast? = some ';'

section Member

variable {type name tail : String}

/-- The words of a member after its modifiers. -/
theorem exists_words_member (ht : ' ' ∉ type.toList) (hn : ' ' ∉ name.toList)
    (htail : EndsMember tail) :
    ∃ value, words (type ++ (" " ++ (name ++ (Member.accessors ++ tail)))) =
      type :: name :: (accessorWords ++ value) := by
  have haccessors : ∀ rest, Member.accessors ++ rest =
      " " ++ ("\x7b" ++ (" " ++ ("get;" ++ (" " ++ ("set;" ++ (" " ++ ("\x7d" ++ rest))))))) := by
    intro rest
    simp only [← String.append_assoc]
    rfl
  have hclose : ∃ value, words ("\x7d" ++ tail) = "\x7d" :: value := by
    obtain rfl | ⟨value, rfl, -⟩ := htail
    · exact ⟨[], words_eq_singleton (by decide)⟩
    · exact ⟨words value, words_append (by decide) value⟩
  obtain ⟨value, hvalue⟩ := hclose
  refine ⟨value, ?_⟩
  rw [words_append ht, haccessors, words_append hn, words_append (by decide),
    words_append (by decide), words_append (by decide), hvalue]
  rfl

/-- A line that ends like a member does. -/
theorem getLast?_member (htail : EndsMember tail) (start : String) :
    (start ++ (Member.accessors ++ tail)).toList.getLast? ∈ [some '\x7d', some ';'] := by
  rw [String.toList_append, String.toList_append]
  obtain rfl | ⟨value, rfl, hlast⟩ := htail
  · simp [Member.accessors]
  · have hne : value.toList ≠ [] := fun h => by simp [h] at hlast
    rw [String.toList_append, List.getLast?_append, List.getLast?_append, List.getLast?_append,
      hlast]
    simp

/-- **A line is read as it was written.** -/
theorem declaration?_public (ht : ' ' ∉ type.toList) (hv : type ≠ "virtual")
    (hn : ' ' ∉ name.toList) (htail : EndsMember tail) :
    declaration? ("public" ++ (" " ++ (type ++ (" " ++ (name ++ (Member.accessors ++ tail)))))) =
      some ⟨type, name⟩ := by
  obtain ⟨value, hwords⟩ := exists_words_member ht hn htail
  unfold declaration?
  rw [if_pos, words_append (by decide), hwords]
  · simp [declarationIn?, hv, accessorWords]
  · simpa only [String.append_assoc] using
      getLast?_member htail ("public" ++ " " ++ type ++ " " ++ name)

/-- So is a line with a modifier more. -/
theorem declaration?_virtual (ht : ' ' ∉ type.toList) (hn : ' ' ∉ name.toList)
    (htail : EndsMember tail) :
    declaration? ("public" ++ (" " ++ ("virtual" ++ (" " ++ (type ++ (" " ++
      (name ++ (Member.accessors ++ tail)))))))) = some ⟨type, name⟩ := by
  obtain ⟨value, hwords⟩ := exists_words_member ht hn htail
  unfold declaration?
  rw [if_pos, words_append (by decide), words_append (by decide), hwords]
  · simp [declarationIn?, accessorWords]
  · simpa only [String.append_assoc] using
      getLast?_member htail ("public" ++ " " ++ "virtual" ++ " " ++ type ++ " " ++ name)

end Member

end EntityScaffold.Code

namespace EntityScaffold

/-! ## The parts of an entity -/

theorem Annotation.head?_code (a : Annotation) : a.code.toList.head? = some '[' := by
  have hstart : ∀ start rest : String, start.toList.head? = some '[' →
      (start ++ rest).toList.head? = some '[' := by
    intro start rest h
    rw [String.toList_append, List.head?_append, h, Option.some_or]
  cases a <;> unfold Annotation.code <;>
    first | decide | (simp only [String.append_assoc]; exact hstart _ _ (by decide))

/-- Annotations declare nothing. -/
theorem filterMap_declaration?_annotations (annotations : List Annotation) :
    (annotations.map Annotation.code).filterMap Code.declaration? = [] := by
  rw [List.filterMap_map]
  refine List.filterMap_eq_nil_iff.mpr fun a _ => Code.declaration?_eq_none ?_
  rw [a.head?_code]
  decide

namespace Member

/-- A part that is no comment consists of annotations and a member. -/
theorem head?_of_mem_textsAt {x : Member} (h : ∀ link reason, x ≠ .skipped link reason)
    {text : String} (ht : text ∈ Code.textsAt 0 x.code) :
    text.toList.head? = some '[' ∨ text.toList.head? = some 'p' := by
  have hattributes : ∀ annotations : List Annotation, text ∈ annotations.map Annotation.code →
      text.toList.head? = some '[' := by
    intro annotations hmem
    obtain ⟨a, -, rfl⟩ := List.mem_map.mp hmem
    exact a.head?_code
  have hmember : ∀ start rest : String, start.toList.head? = some 'p' → text = start ++ rest →
      text.toList.head? = some 'p' := by
    intro start rest hstart heq
    rw [heq, String.toList_append, List.head?_append, hstart, Option.some_or]
  unfold code at ht
  cases x with
  | skipped link reason => exact absurd rfl (h link reason)
  | column annotations type name =>
    simp only [Code.textsAt_append, Code.textsAt_lines_zero, Code.textsAt_line_zero,
      List.mem_append, List.mem_singleton, String.append_assoc] at ht
    exact ht.imp (hattributes annotations) (hmember "public " _ (by decide))
  | reference annotations principal name =>
    simp only [Code.textsAt_append, Code.textsAt_lines_zero, Code.textsAt_line_zero,
      List.mem_append, List.mem_singleton, String.append_assoc] at ht
    exact ht.imp (hattributes annotations) (hmember "public virtual " _ (by decide))
  | collection element name =>
    simp only [Code.textsAt_line_zero, List.mem_singleton, String.append_assoc] at ht
    exact .inr (hmember "public virtual ICollection<" _ (by decide) ht)
  | softDeleteFlag =>
    simp only [Code.textsAt_line_zero, List.mem_singleton, String.append_assoc] at ht
    exact .inr (hmember "public bool " _ (by decide) ht)

/-- No part has an empty line. -/
theorem empty_not_mem_textsAt (x : Member) : "" ∉ Code.textsAt 0 x.code := by
  intro h
  cases x with
  | skipped link reason =>
    unfold code at h
    rw [Code.textsAt_line_zero, List.mem_singleton] at h
    have hlist := congrArg String.toList h
    simp [toString] at hlist
  | _ =>
    rcases head?_of_mem_textsAt (by simp) h with hhead | hhead <;> exact absurd hhead (by decide)

/-- The members that a part of an entity declares. -/
def declared (x : Member) : List Code.Declaration :=
  (Code.textsAt 0 x.code).filterMap Code.declaration?

section Declared

variable {annotations : List Annotation} {type name : String}

theorem declared_column (ht : ' ' ∉ type.toList) (hv : type ≠ "virtual") (hn : ' ' ∉ name.toList) :
    (column annotations type name).declared = [⟨type, name⟩] := by
  have hline : s!"public {type} {name}" ++ accessors =
      "public" ++ (" " ++ (type ++ (" " ++ (name ++ (accessors ++ ""))))) := by
    simp only [String.append_assoc]
    rfl
  unfold declared code
  rw [Code.textsAt_append, Code.textsAt_lines_zero, Code.textsAt_line_zero, List.filterMap_append,
    filterMap_declaration?_annotations, hline, List.nil_append, List.filterMap_cons,
    Code.declaration?_public ht hv hn (.inl rfl)]
  rfl

theorem declared_reference {principal : String} (hp : ' ' ∉ principal.toList)
    (hn : ' ' ∉ name.toList) :
    (reference annotations principal name).declared = [⟨principal ++ "?", name⟩] := by
  have hline : s!"public virtual {principal}? {name}" ++ accessors = "public" ++ (" " ++
      ("virtual" ++ (" " ++ ((principal ++ "?") ++ (" " ++ (name ++ (accessors ++ ""))))))) := by
    simp only [String.append_assoc]
    rfl
  have htype : ' ' ∉ (principal ++ "?").toList := by simp [hp]
  unfold declared code
  rw [Code.textsAt_append, Code.textsAt_lines_zero, Code.textsAt_line_zero, List.filterMap_append,
    filterMap_declaration?_annotations, hline, List.nil_append, List.filterMap_cons,
    Code.declaration?_virtual htype hn (.inl rfl)]
  rfl

theorem declared_collection {element : String} (he : ' ' ∉ element.toList)
    (hn : ' ' ∉ name.toList) :
    (collection element name).declared = [⟨"ICollection<" ++ element ++ ">", name⟩] := by
  have hline : s!"public virtual ICollection<{element}> {name}" ++ accessors ++
      s!" = new List<{element}>();" = "public" ++ (" " ++ ("virtual" ++ (" " ++
        (("ICollection<" ++ element ++ ">") ++ (" " ++ (name ++ (accessors ++
          (" " ++ ("= new List<" ++ element ++ ">();"))))))))) := by
    simp only [String.append_assoc]
    rfl
  have htype : ' ' ∉ ("ICollection<" ++ element ++ ">").toList := by simp [he]
  unfold declared code
  rw [Code.textsAt_line_zero, hline, List.filterMap_cons,
    Code.declaration?_virtual htype hn
      (.inr ⟨_, rfl, by rw [String.toList_append, List.getLast?_append]; rfl⟩)]
  rfl

theorem declared_skipped (link : InverseLink) (reason : String) :
    (skipped link reason).declared = [] := by
  unfold declared code
  rw [Code.textsAt_line_zero, List.filterMap_cons, Code.declaration?_eq_none (by simp [toString])]
  rfl

theorem declared_softDeleteFlag : softDeleteFlag.declared = [⟨"bool", softDeleteMember⟩] := by
  have hline : s!"public bool {softDeleteMember}" ++ accessors =
      "public" ++ (" " ++ ("bool" ++ (" " ++ (softDeleteMember ++ (accessors ++ ""))))) := by
    simp only [String.append_assoc]
    rfl
  unfold declared code
  rw [Code.textsAt_line_zero, hline, List.filterMap_cons,
    Code.declaration?_public (by decide) (by decide) (by decide) (.inl rfl)]
  rfl

end Declared

end Member

end EntityScaffold
