import EntityScaffold.Proofs.Literals

/-!
# Patterns in verbatim literals

A pattern is put into an annotation as a verbatim literal. It stands there as it is, with its
backslashes and line ends; only its quotes are doubled. Who reads the literal takes quotes in pairs
and stops at the first that is alone. So whatever quotes a pattern has, in a row or at its ends, the
literal goes up to the quote that was put after it, and its value is the pattern, as long as the
code after the literal does not start with a quote: this one would be taken together with the last.

* `Text.readVerbatim`: a verbatim literal, read by the rules of the language.
* `Code.QuotesVerbatim`: a text stands as a verbatim literal in a file.
* `Request.PatternsReadBack`: what is said of the patterns of a request.

Results:
* `Text.readVerbatim_doubleQuotes_append`: no quote of a text closes its literal.
* `Text.verbatim?_eq_some_iff`: what is read is a text whose literal the code starts with.
* `Text.verbatimLiteral_append_inj`: a literal and what follows it can be told apart.
* `Request.patterns_read_back`: all of it, for every request.
-/

namespace EntityScaffold

namespace Text

/-! ## Reading verbatim literals -/

/-- The text of a verbatim literal, read after its opening quote, and what follows the closing one.
Two quotes in a row stand for one; the first that is not followed by another closes the literal. -/
def readVerbatim : List Char → Option (List Char × List Char)
  | [] => none
  | '"' :: '"' :: rest => (readVerbatim rest).map fun r => ('"' :: r.1, r.2)
  | c :: rest =>
    if c = '"' then some ([], rest) else (readVerbatim rest).map fun r => (c :: r.1, r.2)

/-- The text of the verbatim literal that code starts with, and what follows the literal. -/
def verbatim? (code : String) : Option (String × String) :=
  match code.toList with
  | '@' :: '"' :: rest => (readVerbatim rest).map fun r => (String.ofList r.1, String.ofList r.2)
  | _ => none

/-! ### Doubled quotes -/

theorem doubleQuotes_cons (c : Char) (v : List Char) :
    doubleQuotes (c :: v) = doubleQuotes [c] ++ doubleQuotes v := by
  unfold doubleQuotes
  rw [← List.flatMap_append, List.singleton_append]

theorem doubleQuotes_of_ne {c : Char} (h : c ≠ '"') : doubleQuotes [c] = [c] := by
  simp [doubleQuotes, h]

/-- One character of a text, doubled if it is a quote, is read as itself. -/
theorem readVerbatim_doubleQuotes_singleton (c : Char) (s : List Char) :
    readVerbatim (doubleQuotes [c] ++ s) = (readVerbatim s).map fun r => (c :: r.1, r.2) := by
  by_cases hquote : c = '"'
  · subst hquote
    rfl
  · rw [doubleQuotes_of_ne hquote, List.singleton_append, readVerbatim, if_neg hquote]
    exact fun _ heq => absurd heq hquote

/-- **No quote of a text closes its literal.** What follows the text is read as if it stood alone,
whatever quotes there are on both sides. -/
theorem readVerbatim_doubleQuotes_append (v s : List Char) :
    readVerbatim (doubleQuotes v ++ s) = (readVerbatim s).map fun r => (v ++ r.1, r.2) := by
  induction v with
  | nil => exact (congrFun Option.map_id _).symm
  | cons c v ih =>
    rw [doubleQuotes_cons, List.append_assoc, readVerbatim_doubleQuotes_singleton, ih,
      Option.map_map]
    rfl

/-- A quote closes a literal exactly when no other quote follows it. -/
theorem readVerbatim_quote_iff {rest : List Char} :
    readVerbatim ('"' :: rest) = some ([], rest) ↔ rest.head? ≠ some '"' := by
  cases rest with
  | nil => exact iff_of_true rfl nofun
  | cons c rest =>
    by_cases hquote : c = '"'
    · subst hquote
      refine iff_of_false (fun h => ?_) (not_not.mpr rfl)
      obtain ⟨r, -, heq⟩ := Option.map_eq_some_iff.mp h
      cases heq
    · refine iff_of_true ?_ (fun h => hquote (Option.some.inj h))
      rw [readVerbatim, if_pos rfl]
      exact fun _ _ heq => absurd (List.cons.inj heq).1 hquote

/-- **What is read is a text with its quotes doubled**, and a quote after it that is alone. -/
theorem readVerbatim_eq_some_iff {s v rest : List Char} :
    readVerbatim s = some (v, rest) ↔
      s = doubleQuotes v ++ '"' :: rest ∧ rest.head? ≠ some '"' := by
  constructor
  · intro h
    fun_induction readVerbatim s generalizing v with
    | case1 => cases h
    | case2 s ih =>
      obtain ⟨⟨tail, after⟩, hread, heq⟩ := Option.map_eq_some_iff.mp h
      cases heq
      obtain ⟨rfl, hrest⟩ := ih hread
      exact ⟨by rw [doubleQuotes_cons]; rfl, hrest⟩
    | case3 s halone =>
      cases h
      refine ⟨rfl, fun hhead => ?_⟩
      obtain ⟨tail, heq⟩ := List.head?_eq_some_iff.mp hhead
      exact halone tail rfl heq
    | case4 c s _ hquote ih =>
      obtain ⟨⟨tail, after⟩, hread, heq⟩ := Option.map_eq_some_iff.mp h
      cases heq
      obtain ⟨rfl, hrest⟩ := ih hread
      exact ⟨by rw [doubleQuotes_cons, doubleQuotes_of_ne hquote]; rfl, hrest⟩
  · rintro ⟨rfl, hrest⟩
    rw [readVerbatim_doubleQuotes_append, readVerbatim_quote_iff.mpr hrest, Option.map_some,
      List.append_nil]

/-! ### Literals -/

theorem toList_verbatimLiteral_append (v after : String) :
    (verbatimLiteral v ++ after).toList =
      '@' :: '"' :: (doubleQuotes v.toList ++ '"' :: after.toList) := by
  simp [verbatimLiteral]

/-- **A text is read from code exactly when the code starts with its literal** and goes on without
another quote. -/
theorem verbatim?_eq_some_iff {code v after : String} :
    verbatim? code = some (v, after) ↔
      code = verbatimLiteral v ++ after ∧ after.toList.head? ≠ some '"' := by
  have hread {rest : List Char} : (readVerbatim rest).map
      (fun r => (String.ofList r.1, String.ofList r.2)) = some (v, after) ↔
      rest = doubleQuotes v.toList ++ '"' :: after.toList ∧ after.toList.head? ≠ some '"' := by
    rw [← readVerbatim_eq_some_iff, Option.map_eq_some_iff]
    constructor
    · rintro ⟨⟨value, tail⟩, h, heq⟩
      obtain ⟨rfl, rfl⟩ := Prod.mk.inj heq
      rwa [String.toList_ofList, String.toList_ofList]
    · exact fun h => ⟨_, h, by rw [String.ofList_toList, String.ofList_toList]⟩
  rw [← String.toList_inj, toList_verbatimLiteral_append]
  unfold verbatim?
  split
  · rename_i rest hcode
    rw [hread, hcode, List.cons_inj_right, List.cons_inj_right]
  · rename_i hother
    exact iff_of_false nofun fun h => hother _ h.1

/-- The literal of a text is read up to its end, whatever does not start with a quote follows. -/
theorem verbatim?_literal_iff (v after : String) :
    verbatim? (verbatimLiteral v ++ after) = some (v, after) ↔ after.toList.head? ≠ some '"' := by
  rw [verbatim?_eq_some_iff, and_iff_right rfl]

/-- A quote after a literal is taken together with the last one. -/
example : verbatim? (verbatimLiteral "a" ++ "\"b\"") = some ("a\"b", "") := by decide

/-- **A literal and what follows it can be told apart**: no literal is another one with more
code. -/
theorem verbatimLiteral_append_inj {v w after after' : String}
    (hafter : after.toList.head? ≠ some '"') (hafter' : after'.toList.head? ≠ some '"')
    (h : verbatimLiteral v ++ after = verbatimLiteral w ++ after') : v = w ∧ after = after' := by
  have hread := (verbatim?_literal_iff v after).mpr hafter
  rw [h, (verbatim?_literal_iff w after').mpr hafter'] at hread
  obtain ⟨hv, heq⟩ := Prod.mk.inj (Option.some.inj hread)
  exact ⟨hv.symm, heq.symm⟩

theorem verbatimLiteral_injective : Function.Injective verbatimLiteral := fun _ _ h =>
  (verbatimLiteral_append_inj (by decide) (by decide) (congrArg (· ++ "") h)).1

end Text

/-! ## Files -/

/-- A text stands as a verbatim literal in a file, between what is around it in its line. -/
structure Code.QuotesVerbatim (f : Code.SourceFile) (depth : Nat) (before value after : String) :
    Prop where
  /-- There is such a line. -/
  line : ⟨depth, before ++ Text.verbatimLiteral value ++ after⟩ ∈ f.body
  /-- Its first quote is that of the literal. -/
  first : '"' ∉ before.toList
  /-- Read on in the text of the file, the literal has the text for its value, and the code goes on
  with what stands after it in its line. -/
  read : ∃ start rest,
    f.text = start ++ before ++ (Text.verbatimLiteral value ++ (after ++ "\n" ++ rest)) ∧
    Text.verbatim? (Text.verbatimLiteral value ++ (after ++ "\n" ++ rest)) =
      some (value, after ++ "\n" ++ rest)

/-! ## The patterns of a request -/

namespace Request

/-- The pattern of a column stands in an annotation of its member. -/
theorem quotes_pattern {r : Request} {t : Table} {p : Property} {pattern : String}
    (m : RelationshipMap) (hp : p ∈ t.properties) (hpattern : p.regexPattern = some pattern)
    (hstyle : r.style.annotates = true) :
    Code.QuotesVerbatim (Entity.file r m t) 1 "[RegularExpression(" pattern ")]" := by
  have hdeclared : Facet.Declared p (.regularExpression pattern) := hpattern
  have hline : ⟨1, "[RegularExpression(" ++ Text.verbatimLiteral pattern ++ ")]"⟩ ∈
      (Entity.file r m t).body := declared_mem_body m hp hdeclared hstyle
  obtain ⟨start, rest, htext⟩ := Code.SourceFile.exists_text_eq hline
  refine ⟨hline, by decide, start, rest, ?_, (Text.verbatim?_literal_iff _ _).mpr ?_⟩
  · rw [htext]
    simp only [String.append_assoc]
  · simp

/-- The patterns of a request stand in its code as literals, each read from the text of its file. -/
structure PatternsReadBack (r : Request) : Prop where
  /-- The literal of a text is read up to its end, with the text for its value, and what follows is
  left, exactly when this does not start with a quote. -/
  literal : ∀ v after : String,
    Text.verbatim? (Text.verbatimLiteral v ++ after) = some (v, after) ↔
      after.toList.head? ≠ some '"'
  /-- Nothing but such literals is read. -/
  only : ∀ code v after : String, Text.verbatim? code = some (v, after) →
    code = Text.verbatimLiteral v ++ after
  /-- Different patterns have different literals. -/
  distinct : ∀ v w : String, v ≠ w → Text.verbatimLiteral v ≠ Text.verbatimLiteral w
  /-- Nor is one the start of another, where no quote follows. -/
  apart : ∀ v w after after' : String,
    after.toList.head? ≠ some '"' → after'.toList.head? ≠ some '"' →
    Text.verbatimLiteral v ++ after = Text.verbatimLiteral w ++ after' → v = w ∧ after = after'
  /-- The pattern of a column is read from its annotation, in the file of any table. -/
  pattern : ∀ (m : RelationshipMap) (t : Table), ∀ p ∈ t.properties, ∀ pattern,
    p.regexPattern = some pattern → r.style.annotates = true →
    Code.QuotesVerbatim (Entity.file r m t) 1 "[RegularExpression(" pattern ")]"

/-- **No pattern ends its literal early.** Whatever a pattern holds, its literal is read up to the
quote that closes it, with the pattern for its value, and the file goes on after it. -/
theorem patterns_read_back (r : Request) : r.PatternsReadBack where
  literal := Text.verbatim?_literal_iff
  only _ _ _ h := (Text.verbatim?_eq_some_iff.mp h).1
  distinct _ _ := Text.verbatimLiteral_injective.ne
  apart _ _ _ _ := Text.verbatimLiteral_append_inj
  pattern m _ _ hp _ hpattern hstyle := quotes_pattern m hp hpattern hstyle

/-- Quotes at both ends of a pattern, one alone and two in a row, and a line end between them. -/
theorem patterns_read_back_quotes :
    let code : Property := { name := "code", regexPattern := some "\"\n\\d\"\"" }
    let t : Table := ⟨"order", [code], none⟩
    let r : Request := { style := .annotationsOnly, tables := [t] }
    Text.verbatimLiteral "\"\n\\d\"\"" = "@\"\"\"\n\\d\"\"\"\"\"" ∧
    (∃ start rest, (Entity.file r r.relationships t).text =
        start ++ "[RegularExpression(" ++
          (Text.verbatimLiteral "\"\n\\d\"\"" ++ (")]" ++ "\n" ++ rest)) ∧
      Text.verbatim? (Text.verbatimLiteral "\"\n\\d\"\"" ++ (")]" ++ "\n" ++ rest)) =
        some ("\"\n\\d\"\"", ")]" ++ "\n" ++ rest)) ∧
    Text.verbatimLiteral "\"" ++ ")]" ≠ Text.verbatimLiteral "\"\"" ++ ")]" := by
  intro code t r
  have hread := patterns_read_back r
  obtain ⟨start, rest, htext, hrest⟩ :=
    (hread.pattern r.relationships t code List.mem_cons_self _ rfl (by decide)).read
  refine ⟨by decide, ⟨start, rest, htext, hrest⟩, fun h => ?_⟩
  exact absurd (hread.apart _ _ _ _ (by decide) (by decide) h).1 (by decide)

end Request

end EntityScaffold
