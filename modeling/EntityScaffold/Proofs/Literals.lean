import EntityScaffold.Number.Literal
import EntityScaffold.Proofs.Bounds
import EntityScaffold.Proofs.FileTree.PathTexts
import EntityScaffold.Proofs.Services

/-!
# Texts in literals

A text is put into generated code as a regular literal, with backslashes before the quotes and the
backslashes in it. Who reads the literal by the rules of the language gets the text back as long as
no line ends in it: a regular literal goes over no line end, and none is escaped. The name of a
check constraint stands between quotes as it is, so it is read back only if it has nothing that
would have to be escaped.

* `Text.readRegular`: a regular literal, read by the rules of the language.
* `Text.literals?`: the literals in a line of code, each with what follows it.
* `Code.Quotes`: a text stands as a literal in a line of code.
* `Request.LiteralsReadBack`: what is said of the texts of a request.

Results:
* `Text.readRegular_escapeRegular`: what is read from the literal of a text.
* `Text.readRegular_raw_iff`: which texts can do without escapes.
* `CheckConstraint.readsBack_iff`: when the two texts of a check constraint are read back.
* `Request.literals_read_back`: all of it, for every request.
-/

namespace EntityScaffold

namespace Text

/-! ## Reading literals -/

/-- The characters that end a line. -/
def lineEnds : List Char := ['\r', '\n', '\u0085', '\u2028', '\u2029']

/-- The characters that stand for another after a backslash, with the one that they stand for. -/
def letterEscapes : List (Char × Char) :=
  [('\'', '\''), ('"', '"'), ('\\', '\\'), ('0', '\x00'), ('a', '\x07'), ('b', '\x08'),
    ('f', '\x0c'), ('n', '\n'), ('r', '\r'), ('t', '\t'), ('v', '\x0b')]

/-- The least and the greatest number of hexadecimal digits after a letter that announces a code. -/
def codeLengths? : Char → Option (Nat × Nat)
  | 'x' => some (1, 4)
  | 'u' => some (4, 4)
  | 'U' => some (8, 8)
  | _ => none

/-- The character that an escape stands for, and how many characters it takes after its backslash.
Halves of characters are not read. -/
def escape? : List Char → Option (Char × Nat)
  | [] => none
  | c :: rest =>
    match letterEscapes.lookup c, codeLengths? c with
    | some x, _ => some (x, 1)
    | none, some (least, most) =>
      let digits := (rest.take most).takeWhile fun d => (hexValue? d).isSome
      match hexNumber? digits with
      | some code =>
        if least ≤ digits.length ∧ code.isValidChar then
          some (Char.ofNat code, digits.length + 1)
        else none
      | none => none
    | none, none => none

/-- The text of a regular literal, read after its opening quote, and what follows the closing one.
The first `skip` characters belong to an escape that has been read. -/
def readRegular : Nat → List Char → Option (List Char × List Char)
  | _, [] => none
  | skip + 1, _ :: rest => readRegular skip rest
  | 0, c :: rest =>
    if c = '"' then some ([], rest)
    else if c = '\\' then
      match escape? rest with
      | some (x, taken) => (readRegular taken rest).map fun r => (x :: r.1, r.2)
      | none => none
    else if c ∈ lineEnds then none
    else (readRegular 0 rest).map fun r => (c :: r.1, r.2)

/-- The literals in code that has no other quotes, each with what follows it. The first `skip`
characters belong to a literal that has been read. -/
def readLiterals : Nat → List Char → Option (List (String × String))
  | _, [] => some []
  | skip + 1, _ :: rest => readLiterals skip rest
  | 0, c :: rest =>
    if c = '"' then
      match readRegular 0 rest with
      | some (value, after) =>
        (readLiterals (rest.length - after.length) rest).map
          ((String.ofList value, String.ofList after) :: ·)
      | none => none
    else readLiterals 0 rest

/-- The literals in a line of code, each with what follows it, if they are all complete. -/
def literals? (code : String) : Option (List (String × String)) := readLiterals 0 code.toList

/-! ## Texts -/

/-- A line ends in the text. -/
def HasLineEnd (s : String) : Prop := ∃ c ∈ s.toList, c ∈ lineEnds

theorem hasLineEnd_iff {s : String} : HasLineEnd s ↔ s.toList.any lineEnds.contains = true := by
  unfold HasLineEnd
  rw [List.any_eq_true]
  simp only [List.contains_iff_mem]

instance (s : String) : Decidable (HasLineEnd s) := decidable_of_iff _ hasLineEnd_iff.symm

/-- The text can stand between quotes as it is. -/
def IsPlain (s : String) : Prop := ∀ c ∈ s.toList, c ≠ '"' ∧ c ≠ '\\' ∧ c ∉ lineEnds

instance (s : String) : Decidable (IsPlain s) := List.decidableBAll _ s.toList

/-! ### Escaped texts -/

/-- One character of a text, escaped, is read as itself, unless a line ends there. -/
theorem readRegular_escapeRegular_singleton (c : Char) (s : List Char) :
    readRegular 0 (escapeRegular [c] ++ s) =
      if c ∈ lineEnds then none else (readRegular 0 s).map fun r => (c :: r.1, r.2) := by
  by_cases hquote : c = '"'
  · subst hquote
    rfl
  · by_cases hbackslash : c = '\\'
    · subst hbackslash
      rfl
    · have hescape : escapeRegular [c] = [c] := by simp [escapeRegular, hquote, hbackslash]
      rw [hescape, List.singleton_append, readRegular, if_neg hquote, if_neg hbackslash]

theorem escapeRegular_cons (c : Char) (v : List Char) :
    escapeRegular (c :: v) = escapeRegular [c] ++ escapeRegular v := by
  unfold escapeRegular
  rw [← List.flatMap_append, List.singleton_append]

/-- **The literal of a text is read as this text**, unless a line ends in it; whatever follows stays
unread. -/
theorem readRegular_escapeRegular (v rest : List Char) :
    readRegular 0 (escapeRegular v ++ '"' :: rest) =
      if v.any lineEnds.contains then none else some (v, rest) := by
  induction v with
  | nil => rfl
  | cons c v ih =>
    rw [escapeRegular_cons, List.append_assoc, readRegular_escapeRegular_singleton, ih,
      List.any_cons]
    by_cases hc : c ∈ lineEnds
    · simp [hc]
    · cases v.any lineEnds.contains <;> simp [hc]

/-! ### Plain texts -/

theorem pos_of_escape? {s : List Char} {x : Char} {taken : Nat} (h : escape? s = some (x, taken)) :
    0 < taken := by
  cases s with
  | nil => cases h
  | cons c rest =>
    unfold escape? at h
    grind

/-- What is read of a literal that goes on with a character: its end, an escape or the character. -/
theorem readRegular_cons {c : Char} {rest value after : List Char}
    (h : readRegular 0 (c :: rest) = some (value, after)) :
    (c = '"' ∧ value = [] ∧ after = rest) ∨
    (c = '\\' ∧ ∃ x taken tail, 0 < taken ∧ value = x :: tail ∧
      readRegular taken rest = some (tail, after)) ∨
    ((c ≠ '"' ∧ c ≠ '\\' ∧ c ∉ lineEnds) ∧ ∃ tail, value = c :: tail ∧
      readRegular 0 rest = some (tail, after)) := by
  unfold readRegular at h
  split_ifs at h with hquote hbackslash hend
  · cases h
    exact .inl ⟨hquote, rfl, rfl⟩
  · split at h
    · rename_i x taken hescape
      obtain ⟨⟨tail, after⟩, hread, heq⟩ := Option.map_eq_some_iff.mp h
      cases heq
      exact .inr (.inl ⟨hbackslash, x, taken, tail, pos_of_escape? hescape, rfl, hread⟩)
    · cases h
  · obtain ⟨⟨tail, after⟩, hread, heq⟩ := Option.map_eq_some_iff.mp h
    cases heq
    exact .inr (.inr ⟨⟨hquote, hbackslash, hend⟩, tail, rfl, hread⟩)

/-- A literal has at least as many characters as its text, and its closing quote. -/
theorem length_le_of_readRegular {text : List Char} {skip : Nat} {value after : List Char}
    (h : readRegular skip text = some (value, after)) :
    skip + value.length + 1 + after.length ≤ text.length := by
  induction text generalizing skip value with
  | nil => cases skip <;> cases h
  | cons c rest ih =>
    rw [List.length_cons]
    cases skip with
    | succ skip =>
      have hrest : skip + _ + 1 + _ ≤ rest.length := ih h
      omega
    | zero =>
      rcases readRegular_cons h with ⟨-, rfl, rfl⟩ | ⟨-, x, taken, tail, -, rfl, hread⟩ |
        ⟨-, tail, rfl, hread⟩
      · rw [List.length_nil]
        omega
      · have hrest := ih hread
        rw [List.length_cons]
        omega
      · have hrest := ih hread
        rw [List.length_cons]
        omega

/-- **A text between quotes is read as it is exactly when it is plain.** -/
theorem readRegular_raw_iff (s rest : List Char) :
    readRegular 0 (s ++ '"' :: rest) = some (s, rest) ↔
      ∀ c ∈ s, c ≠ '"' ∧ c ≠ '\\' ∧ c ∉ lineEnds := by
  induction s with
  | nil => exact iff_of_true rfl nofun
  | cons c s ih =>
    rw [List.forall_mem_cons, ← ih]
    constructor
    · intro h
      rcases readRegular_cons h with ⟨-, hnil, -⟩ | ⟨-, x, taken, tail, hpos, heq, hread⟩ |
        ⟨hc, tail, heq, hread⟩
      · cases hnil
      · -- an escape is longer than what it stands for, so the literal would not end at the quote
        cases heq
        have hlength : _ ≤ (s ++ '"' :: rest).length := length_le_of_readRegular hread
        rw [List.length_append, List.length_cons] at hlength
        omega
      · cases heq
        exact ⟨hc, hread⟩
    · rintro ⟨⟨hquote, hbackslash, hend⟩, hread⟩
      rw [List.cons_append, readRegular, if_neg hquote, if_neg hbackslash, if_neg hend, hread]
      rfl

/-! ### Literals in a line -/

theorem readLiterals_skip (read rest : List Char) :
    readLiterals read.length (read ++ rest) = readLiterals 0 rest := by
  induction read with
  | nil => rfl
  | cons c read ih => exact ih

/-- Where there are no quotes there are no literals. -/
theorem readLiterals_append {before : List Char} (h : '"' ∉ before) (rest : List Char) :
    readLiterals 0 (before ++ rest) = readLiterals 0 rest := by
  induction before with
  | nil => rfl
  | cons c before ih =>
    obtain ⟨hc, hbefore⟩ := not_or.mp (List.mem_cons.not.mp h)
    rw [List.cons_append, readLiterals, if_neg fun heq => hc heq.symm, ih hbefore]

/-- A literal that is read is found, and the search goes on after it. -/
theorem readLiterals_quote {body after value : List Char}
    (h : readRegular 0 (body ++ '"' :: after) = some (value, after)) :
    readLiterals 0 ('"' :: (body ++ '"' :: after)) =
      (readLiterals 0 after).map ((String.ofList value, String.ofList after) :: ·) := by
  have hskip : (body ++ '"' :: after).length - after.length = (body ++ ['"']).length := by
    simp only [List.length_append, List.length_cons, List.length_nil]
    omega
  have hafter : readLiterals (body ++ ['"']).length (body ++ '"' :: after) =
      readLiterals 0 after := by
    rw [← readLiterals_skip (body ++ ['"']) after, List.append_assoc, List.singleton_append]
  rw [readLiterals, if_pos rfl, h]
  simp only [hskip, hafter]

section Line

variable {before : String} (hbefore : '"' ∉ before.toList)

include hbefore

theorem literals?_append (code : String) : literals? (before ++ code) = literals? code := by
  unfold literals?
  rw [String.toList_append, readLiterals_append hbefore]

theorem literals?_of_not_mem : literals? before = some [] := by
  rw [← String.append_empty (s := before), literals?_append hbefore]
  rfl

end Line

/-- **The literal of a text is read as this text**, unless a line ends in it. -/
theorem literals?_literal (v after : String) :
    literals? (regularLiteral v ++ after) =
      if HasLineEnd v then none else (literals? after).map ((v, after) :: ·) := by
  have hcode : (regularLiteral v ++ after).toList =
      '"' :: (escapeRegular v.toList ++ '"' :: after.toList) := by
    simp [regularLiteral]
  have hread := readRegular_escapeRegular v.toList after.toList
  unfold literals?
  rw [hcode]
  by_cases hend : HasLineEnd v
  · rw [if_pos (hasLineEnd_iff.mp hend)] at hread
    rw [if_pos hend, readLiterals, if_pos rfl, hread]
  · rw [if_neg (hasLineEnd_iff.not.mp hend)] at hread
    rw [if_neg hend, readLiterals_quote hread, String.ofList_toList, String.ofList_toList]

/-- So it is read before code without quotes exactly when no line ends in the text. -/
theorem literals?_literal_iff {after : String} (hafter : '"' ∉ after.toList) (v : String) :
    literals? (regularLiteral v ++ after) = some [(v, after)] ↔ ¬ HasLineEnd v := by
  rw [literals?_literal, literals?_of_not_mem hafter]
  split_ifs with hend
  · exact iff_of_false nofun (not_not.mpr hend)
  · exact iff_of_true rfl hend

/-- **A text between quotes is read as it is exactly when it is plain.** -/
theorem literals?_raw_iff {name after : String} {ls : List (String × String)} :
    literals? ("\"" ++ name ++ "\"" ++ after) = some ((name, after) :: ls) ↔
      IsPlain name ∧ literals? after = some ls := by
  have hcode : ("\"" ++ name ++ "\"" ++ after).toList =
      '"' :: (name.toList ++ '"' :: after.toList) := by
    simp
  unfold literals?
  rw [hcode]
  constructor
  · intro h
    have hread : readRegular 0 (name.toList ++ '"' :: after.toList) =
        some (name.toList, after.toList) := by
      rw [readLiterals, if_pos rfl] at h
      split at h
      · rename_i value rest hread
        obtain ⟨tail, -, heq⟩ := Option.map_eq_some_iff.mp h
        obtain ⟨rfl, rfl⟩ := Prod.mk.inj (List.cons.inj heq).1
        simpa using hread
      · cases h
    refine ⟨(readRegular_raw_iff _ _).mp hread, ?_⟩
    rw [readLiterals_quote hread] at h
    simpa using h
  · rintro ⟨hplain, hafter⟩
    rw [readLiterals_quote ((readRegular_raw_iff _ _).mpr hplain), hafter]
    simp

/-- What is not plain is read as something else, or not at all. -/
example :
    literals? "(\"\\x41\\u00e9\\n\", \"\")" = some [("Aé\n", ", \"\")"), ("", ")")] ∧
    literals? "(\"\\\")" = none := by
  decide

end Text

/-! ## Lines of code -/

/-- What stands in a member stands in the file of its entity. -/
theorem Entity.mem_body_of_mem {r : Request} {m : RelationshipMap} {t : Table} {x : Member}
    {l : Code.Line} (hx : x ∈ (ofTable r m t).members) (hl : l ∈ x.code) :
    ⟨l.depth + 1, l.text⟩ ∈ (file r m t).body := by
  have hmember : Code.indent x.code <:+: (file r m t).body :=
    (Code.indent_infix_block (Code.infix_spaced (List.mem_map_of_mem hx)) _).trans
      (List.suffix_append _ _).isInfix
  exact hmember.subset (List.mem_map_of_mem hl)

/-- What stands in a configuration stands in the file of the context. -/
theorem Request.mem_body_of_mem {r : Request} {t : Table} {l : Code.Line} (ht : t ∈ r.validTables)
    (hl : l ∈ (r.configuration t).code) :
    ⟨l.depth + 2, l.text⟩ ∈ (Context.file r r.validTables r.relationships).body := by
  have hconfiguration : Code.indent (Code.indent (r.configuration t).code) <:+:
      (Context.file r r.validTables r.relationships).body :=
    Context.code_infix_code (List.mem_map_of_mem ht)
  exact hconfiguration.subset (List.mem_map_of_mem (List.mem_map_of_mem hl))

namespace EntityConfiguration

variable {c : EntityConfiguration}

/-- What stands in the body of a configuration stands in it one step further in. -/
theorem mem_code_of_mem {l : Code.Line}
    (h : l ∈ Code.lines (c.fluent.map FluentStatement.code) ∨
      l ∈ c.associations.flatMap Association.code) : ⟨l.depth + 1, l.text⟩ ∈ c.code := by
  have hbody : l ∈ Code.lines (keyCode c.key ++ c.fluent.map FluentStatement.code) ++
      c.associations.flatMap Association.code ++
      Code.lines (c.filter.map fun f => s!"entity.HasQueryFilter(e => !e.{f});").toList := by
    unfold Code.lines at h ⊢
    rw [List.map_append, List.mem_append, List.mem_append, List.mem_append]
    tauto
  unfold code Code.braced
  refine List.mem_append_right _ (List.mem_append_left _ (List.mem_append_right _ ?_))
  exact List.mem_map_of_mem hbody

/-- The fluent statements of a configuration stand one step in. -/
theorem mem_code_of_fluent {f : FluentStatement} (h : f ∈ c.fluent) : ⟨1, f.code⟩ ∈ c.code :=
  mem_code_of_mem (.inl (List.mem_map_of_mem (List.mem_map_of_mem h)))

end EntityConfiguration

namespace Association

/-- The name of a constraint stands in the last call of its association. -/
theorem mem_code_of_constraintName {a : Association} {name : String}
    (h : a.constraintName = some name) :
    ⟨1, ".HasConstraintName(" ++ Text.regularLiteral name ++ ");"⟩ ∈ a.code := by
  obtain ⟨first, middle, hcalls⟩ : ∃ first middle, a.calls = first :: middle ++
      [".HasConstraintName(" ++ Text.regularLiteral name ++ ")"] := by
    unfold calls
    rw [h]
    exact ⟨_, _, rfl⟩
  have hcode : a.code = Code.line first ++ Code.indent (Code.lines
      (middle ++ [".HasConstraintName(" ++ Text.regularLiteral name ++ ")" ++ ";"])) := by
    unfold code
    rw [hcalls, terminated_append _ (List.cons_ne_nil _ _)]
    rfl
  rw [hcode]
  simp [Code.indent, Code.lines, String.append_assoc]

end Association

/-! ## Chains of calls -/

theorem Text.not_mem_append {a b : String} {c : Char} (ha : c ∉ a.toList) (hb : c ∉ b.toList) :
    c ∉ (a ++ b).toList := by
  rw [String.toList_append, List.mem_append, not_or]
  exact ⟨ha, hb⟩

/-- A numeral has neither quotes nor line ends. -/
theorem Text.not_mem_of_isNumeral {s : List Char} {c : Char} (hs : IsNumeral s)
    (hc : c ∈ '"' :: lineEnds) : c ∉ s := by
  intro hmem
  simp only [lineEnds, List.mem_cons, List.not_mem_nil, or_false] at hc
  rcases hc with rfl | rfl | rfl | rfl | rfl | rfl <;> exact absurd (hs.mem hmem) (by decide)

theorem Text.not_mem_fixed {c : Char} (hc : c ∈ '"' :: lineEnds) {text : String}
    (h : text.toList.any ('"' :: lineEnds).contains = false) : c ∉ text.toList :=
  fun hmem => Bool.eq_false_iff.mp h
    (List.any_eq_true.mpr ⟨c, hmem, List.contains_iff_mem.mpr hc⟩)

/-- Nor has a bound. -/
theorem Binary64.not_mem_toBoundText {c : Char} (hc : c ∈ '"' :: Text.lineEnds) (x : Binary64) :
    c ∉ x.toBoundText.toList := by
  have hwords : ∀ word ∈ ["nan", "inf", "-inf"],
      word.toList.any ('"' :: Text.lineEnds).contains = false := by
    decide
  cases hfinite : x.isFinite with
  | true => exact Text.not_mem_of_isNumeral (x.isNumeral_toBoundText_iff.mpr hfinite) hc
  | false => exact Text.not_mem_fixed hc (hwords _ (toBoundText_mem hfinite))

namespace StorageCall

/-- The type of a column is the only text in a chain of calls. -/
theorem quote_not_mem_chain {calls : List StorageCall} (h : ∀ type, .hasColumnType type ∉ calls) :
    '"' ∉ (".".intercalate (calls.map code)).toList := by
  refine Path.not_mem_intercalate (by decide) fun n hn => ?_
  obtain ⟨c, hc, rfl⟩ := List.mem_map.mp hn
  cases c with
  | hasMaxLength n =>
    exact Text.not_mem_append (Text.not_mem_append (by decide)
      (Text.not_mem_of_isNumeral (Text.isNumeral_intText n) (by decide))) (by decide)
  | hasColumnType type => exact absurd hc (h type)
  | isRequired | isRowVersion | isConcurrencyToken => decide

/-- Where the type of a column stands in a chain of calls. -/
theorem exists_chain_eq {cs ds : List StorageCall} (type : String)
    (hcs : ∀ type, .hasColumnType type ∉ cs) (hds : ∀ type, .hasColumnType type ∉ ds) :
    ∃ before after, '"' ∉ before.toList ∧ '"' ∉ after.toList ∧
      ".".intercalate ((cs ++ .hasColumnType type :: ds).map code) =
        before ++ "HasColumnType(" ++ Text.regularLiteral type ++ ")" ++ after := by
  have hcode : (StorageCall.hasColumnType type).code =
      "HasColumnType(" ++ Text.regularLiteral type ++ ")" := rfl
  obtain ⟨after, hafter, heq⟩ : ∃ after, '"' ∉ after.toList ∧
      ".".intercalate ((StorageCall.hasColumnType type :: ds).map code) =
        "HasColumnType(" ++ Text.regularLiteral type ++ ")" ++ after := by
    by_cases hempty : ds = []
    · exact ⟨"", by decide, by simp [hempty, hcode]⟩
    · refine ⟨"." ++ ".".intercalate (ds.map code),
        Text.not_mem_append (by decide) (quote_not_mem_chain hds), ?_⟩
      rw [List.map_cons, String.intercalate_cons_of_ne_nil (by simpa using hempty), hcode]
      simp only [String.append_assoc]
  by_cases hempty : cs = []
  · exact ⟨"", after, by decide, hafter, by rw [hempty, List.nil_append, heq, String.empty_append]⟩
  · refine ⟨".".intercalate (cs.map code) ++ ".", after,
      Text.not_mem_append (quote_not_mem_chain hcs) (by decide), hafter, ?_⟩
    rw [List.map_append, String.intercalate_append_of_ne_nil (by simpa using hempty) (by simp), heq]
    simp only [String.append_assoc]

end StorageCall

namespace Property

variable {p : Property} {type : String} (h : p.columnType = some type)

include h

/-- The type of a column is set by one of its storage calls. -/
theorem exists_storageCalls_eq :
    ∃ cs ds, p.storageCalls = cs ++ .hasColumnType type :: ds ∧
      (∀ type, .hasColumnType type ∉ cs) ∧ ∀ type, .hasColumnType type ∉ ds := by
  refine ⟨(p.maxLength.map StorageCall.hasMaxLength).toList ++ onlyIf p.isRequiredText .isRequired,
    onlyIf p.isTimestamp .isRowVersion ++ onlyIf p.isConcurrencyToken .isConcurrencyToken,
    ?_, by simp [mem_onlyIf], by simp [mem_onlyIf]⟩
  unfold storageCalls
  rw [h]
  simp

/-- The statement for the storage of a column with a type. -/
theorem exists_storageCode_eq :
    ∃ calls after, '"' ∉ calls.toList ∧ '"' ∉ after.toList ∧
      (FluentStatement.storage p.memberName p.storageCalls).code =
        "entity.Property(e => e." ++ p.memberName ++ ")." ++ calls ++ "HasColumnType(" ++
          Text.regularLiteral type ++ (")" ++ after ++ ";") := by
  obtain ⟨cs, ds, hcalls, hcs, hds⟩ := exists_storageCalls_eq h
  obtain ⟨calls, after, hnone, hafter, heq⟩ := StorageCall.exists_chain_eq type hcs hds
  refine ⟨calls, after, hnone, hafter, ?_⟩
  rw [← hcalls] at heq
  show "entity.Property(e => e." ++ p.memberName ++ ")." ++
    ".".intercalate (p.storageCalls.map StorageCall.code) ++ ";" = _
  rw [heq]
  simp only [String.append_assoc]

end Property

/-! ## The literals of a request -/

/-- A text stands as a literal in a line of code, between what is around it. -/
structure Code.Quotes (body : List Code.Line) (depth : Nat) (before value after : String) :
    Prop where
  /-- There is such a line. -/
  line : ⟨depth, before ++ Text.regularLiteral value ++ after⟩ ∈ body
  /-- From the quote that opens it, the line has this one literal, with the text for its value,
  exactly when no line ends in the text. -/
  read : Text.literals? (Text.regularLiteral value ++ after) = some [(value, after)] ↔
    ¬ Text.HasLineEnd value
  /-- Before that the line has no literals, if there are no quotes. -/
  first : '"' ∉ before.toList → Text.literals? (before ++ Text.regularLiteral value ++ after) =
    Text.literals? (Text.regularLiteral value ++ after)

theorem Code.Quotes.of_mem {body : List Code.Line} {depth : Nat} {before value after : String}
    (hline : ⟨depth, before ++ Text.regularLiteral value ++ after⟩ ∈ body)
    (hafter : '"' ∉ after.toList) : Code.Quotes body depth before value after where
  line := hline
  read := Text.literals?_literal_iff hafter value
  first hbefore := by rw [String.append_assoc, Text.literals?_append hbefore]

namespace CheckConstraint

/-- The texts in the code of a check constraint are its name as it is, and its condition. -/
theorem literals?_code_iff (k : CheckConstraint) :
    Text.literals? k.code = some
      [(k.name, ", " ++ Text.regularLiteral (k.rule.condition k.member) ++ "));"),
        (k.rule.condition k.member, "));")] ↔
      Text.IsPlain k.name ∧ ¬ Text.HasLineEnd (k.rule.condition k.member) := by
  have hcode : k.code = "entity.ToTable(t => t.HasCheckConstraint(" ++ ("\"" ++ k.name ++ "\"" ++
      (", " ++ Text.regularLiteral (k.rule.condition k.member) ++ "));")) := by
    have hhead : head = "entity.ToTable(t => t.HasCheckConstraint(" ++ "\"" := rfl
    have hend : "\", " = "\"" ++ ", " := rfl
    unfold code
    rw [hhead, hend]
    simp only [String.append_assoc]
  rw [hcode, Text.literals?_append (by decide), Text.literals?_raw_iff, String.append_assoc,
    Text.literals?_append (by decide), Text.literals?_literal_iff (by decide)]

/-- A name is plain if the class and the member in it are. -/
theorem isPlain_name_iff (k : CheckConstraint) :
    Text.IsPlain k.name ↔ Text.IsPlain k.entity ∧ Text.IsPlain k.member := by
  have hname : k.name = "CK_" ++ k.entity ++ "_" ++ k.member ++ "_" ++ k.rule.word := rfl
  have hword : Text.IsPlain k.rule.word := by
    cases k.rule with
    | range low high => exact (by decide : Text.IsPlain "Range")
    | minLength n => exact (by decide : Text.IsPlain "MinLength")
  have hhead : Text.IsPlain "CK_" := by decide
  have hjoint : Text.IsPlain "_" := by decide
  rw [hname]
  unfold Text.IsPlain at *
  simp only [String.toList_append, List.forall_mem_append]
  constructor
  · rintro ⟨⟨⟨⟨⟨-, hentity⟩, -⟩, hmember⟩, -⟩, -⟩
    exact ⟨hentity, hmember⟩
  · rintro ⟨hentity, hmember⟩
    exact ⟨⟨⟨⟨⟨hhead, hentity⟩, hjoint⟩, hmember⟩, hjoint⟩, hword⟩

end CheckConstraint

/-- Line ends in a condition come from the member. -/
theorem CheckRule.not_mem_condition {c : Char} (hc : c ∈ Text.lineEnds) {member : String}
    (hmember : c ∉ member.toList) (rule : CheckRule) : c ∉ (rule.condition member).toList := by
  replace hc : c ∈ '"' :: Text.lineEnds := List.mem_cons_of_mem _ hc
  cases rule with
  | range low high =>
    rw [condition_of_word rfl]
    refine Path.not_mem_intercalate (Text.not_mem_fixed hc (by decide)) fun n hn => ?_
    obtain ⟨⟨op, bound⟩, hcomparison, rfl⟩ := List.mem_map.mp hn
    obtain ⟨hop, hbound⟩ : c ∉ op.toList ∧ c ∉ bound.toList := by
      unfold comparisons at hcomparison
      rcases List.mem_append.mp hcomparison with h | h
      all_goals
        obtain ⟨x, -, heq⟩ := Option.map_eq_some_iff.mp (Option.mem_toList.mp h)
        cases heq
        exact ⟨Text.not_mem_fixed hc (by decide), x.not_mem_toBoundText hc⟩
    have hbracketed : c ∉ ("[" ++ member ++ "]").toList := Text.not_mem_append
      (Text.not_mem_append (Text.not_mem_fixed hc (by decide)) hmember)
      (Text.not_mem_fixed hc (by decide))
    exact Text.not_mem_append (Text.not_mem_append hbracketed hop) hbound
  | minLength n =>
    show c ∉ ("LEN([" ++ member ++ "]) >= " ++ intText n).toList
    have hlength := Text.not_mem_of_isNumeral (Text.isNumeral_intText n) hc
    exact Text.not_mem_append (Text.not_mem_append (Text.not_mem_append
      (Text.not_mem_fixed hc (by decide)) hmember) (Text.not_mem_fixed hc (by decide))) hlength

/-- **A check constraint is read back exactly when the class and the member in it are plain.** Line
ends in its condition are those of the member. -/
theorem CheckConstraint.readsBack_iff (k : CheckConstraint) :
    Text.literals? k.code = some
      [(k.name, ", " ++ Text.regularLiteral (k.rule.condition k.member) ++ "));"),
        (k.rule.condition k.member, "));")] ↔
      Text.IsPlain k.entity ∧ Text.IsPlain k.member := by
  rw [literals?_code_iff, isPlain_name_iff, and_iff_left_iff_imp]
  rintro ⟨-, hmember⟩ ⟨c, hc, hend⟩
  exact k.rule.not_mem_condition hend (fun h => (hmember c h).2.2 hend) hc

/-- A statement with a constraint is the statement of this constraint. -/
theorem FluentStatement.code_of_constraint? {f : FluentStatement} {k : CheckConstraint}
    (h : f.constraint? = some k) : f.code = k.code := by
  cases f with
  | check entity member rule =>
    cases h
    rfl
  | storage | note => cases h

namespace Request

variable {r : Request} {t : Table} {p : Property}

/-- The annotations of a member stand above it. -/
theorem annotation_mem_body {m : RelationshipMap} {x : Member} {annotations : List Annotation}
    {a : Annotation} (hx : x ∈ (Entity.ofTable r m t).members) (hcode : ∃ rest, x.code =
      Code.lines (annotations.map Annotation.code) ++ rest) (ha : a ∈ annotations) :
    ⟨1, a.code⟩ ∈ (Entity.file r m t).body := by
  obtain ⟨rest, hcode⟩ := hcode
  refine Entity.mem_body_of_mem (l := ⟨0, a.code⟩) hx ?_
  rw [hcode]
  exact List.mem_append_left _ (List.mem_map_of_mem (List.mem_map_of_mem ha))

/-- What a column declares stands in an annotation above its member. -/
theorem declared_mem_body {f : Facet} (m : RelationshipMap) (hp : p ∈ t.properties)
    (hf : f.Declared p) (hstyle : r.style.annotates = true) :
    ⟨1, f.annotationText⟩ ∈ (Entity.file r m t).body := by
  have hannotation : f.annotation ∈ r.style.propertyAnnotations p t := by
    unfold Style.propertyAnnotations
    rw [if_pos hstyle]
    exact (p.annotation_mem_annotations_iff t).mpr hf
  have hmember : Entity.columnMember r.style t p ∈ (Entity.ofTable r m t).members :=
    Entity.mem_members_iff.mpr (.inl ⟨p, hp, rfl⟩)
  rw [← f.code_annotation]
  exact annotation_mem_body hmember ⟨_, rfl⟩ hannotation

/-- The type of a column stands in an annotation. -/
theorem quotes_annotatedType {type : String} (hp : p ∈ t.properties)
    (htype : p.columnType = some type) (hstyle : r.style.annotates = true) :
    Code.Quotes (Entity.file r r.relationships t).body 1 "[Column(TypeName = " type ")]" := by
  have hdeclared : Facet.Declared p (.column type) := htype
  exact .of_mem (declared_mem_body r.relationships hp hdeclared hstyle) (by decide)

/-- It stands in a call in the context as well. -/
theorem quotes_fluentType {type : String} (ht : t ∈ r.validTables) (hp : p ∈ t.properties)
    (htype : p.columnType = some type) (hstyle : r.style ≠ .annotationsOnly) :
    ∃ calls after, '"' ∉ calls.toList ∧
      Code.Quotes (Context.file r r.validTables r.relationships).body 3
        ("entity.Property(e => e." ++ p.memberName ++ ")." ++ calls ++ "HasColumnType(") type
        (")" ++ after ++ ";") := by
  obtain ⟨calls, after, hcalls, hafter, hcode⟩ := Property.exists_storageCode_eq htype
  obtain ⟨cs, ds, hstorage, -⟩ := Property.exists_storageCalls_eq htype
  have hfluent : .storage p.memberName p.storageCalls ∈ (r.configuration t).fluent := by
    refine List.mem_flatMap.mpr ⟨p, hp, ?_⟩
    have hstatement : .storage p.memberName p.storageCalls ∈ p.storageStatements :=
      mem_onlyIf.mpr ⟨by simp [hstorage], rfl⟩
    unfold Style.propertyStatements
    split
    · exact hstatement
    · exact absurd ‹_› hstyle
    · exact List.mem_append_left _ hstatement
  have hline := mem_body_of_mem ht (EntityConfiguration.mem_code_of_fluent hfluent)
  have hnone : '"' ∉ (")" ++ after ++ ";").toList :=
    Text.not_mem_append (Text.not_mem_append (by decide) hafter) (by decide)
  exact ⟨calls, after, hcalls, .of_mem (hcode ▸ hline) hnone⟩

/-- The member of a foreign key stands in an annotation of its navigation. -/
theorem quotes_foreignKey {principal navigation : String} (hp : p ∈ t.properties)
    (hprincipal : p.principal? = some principal) (hnavigation : p.navigation = some navigation)
    (hstyle : .foreignKey p.memberName ∈ r.style.navigationAnnotations p) :
    Code.Quotes (Entity.file r r.relationships t).body 1 "[ForeignKey(" p.memberName ")]" := by
  have hreference : Entity.referenceMember? r.style p =
      some (.reference (r.style.navigationAnnotations p) (Text.pascalCase principal)
        (Text.pascalCase navigation)) := by
    unfold Entity.referenceMember?
    rw [hprincipal, hnavigation]
  have hmember : _ ∈ (r.entity t).members :=
    Entity.mem_members_iff.mpr (.inr (.inl ⟨p, hp, hreference⟩))
  exact .of_mem (annotation_mem_body hmember ⟨_, rfl⟩ hstyle) (by decide)

/-- The name of a constraint stands in the last call of its association. -/
theorem quotes_constraintName {principal name : String} (ht : t ∈ r.validTables)
    (hp : p ∈ t.properties) (hprincipal : p.principal? = some principal)
    (hname : p.constraintName = some name) :
    Code.Quotes (Context.file r r.validTables r.relationships).body 4 ".HasConstraintName(" name
      ");" := by
  obtain ⟨a, ha⟩ : ∃ a, Association.ofProperty? r.validTables r.relationships t p = some a := by
    unfold Association.ofProperty?
    rw [hprincipal]
    exact ⟨_, rfl⟩
  have hconstraint : a.constraintName = some name := by
    obtain ⟨-, -, rfl⟩ := Option.map_eq_some_iff.mp ha
    exact hname
  have hassociation : a ∈ (r.configuration t).associations := List.mem_filterMap.mpr ⟨p, hp, ha⟩
  have hline := EntityConfiguration.mem_code_of_mem (.inr (List.mem_flatMap.mpr
    ⟨a, hassociation, Association.mem_code_of_constraintName hconstraint⟩))
  exact .of_mem (mem_body_of_mem ht hline) (by decide)

/-- The check constraints of a column stand in the context. -/
theorem mem_body_of_checkRule {rule : CheckRule} (ht : t ∈ r.validTables) (hp : p ∈ t.properties)
    (hrule : rule ∈ p.checkRules) (hstyle : r.style = .fluentOnly) :
    ⟨3, (p.constraint t rule).code⟩ ∈ (Context.file r r.validTables r.relationships).body := by
  have hconstraint : p.constraint t rule ∈
      (Style.fluentOnly.propertyStatements t p).filterMap FluentStatement.constraint? := by
    rw [p.filterMap_propertyStatements t]
    exact List.mem_map_of_mem hrule
  obtain ⟨f, hf, hk⟩ := List.mem_filterMap.mp hconstraint
  have hfluent : f ∈ (r.configuration t).fluent := by
    refine List.mem_flatMap.mpr ⟨p, hp, ?_⟩
    rw [hstyle]
    exact hf
  rw [← FluentStatement.code_of_constraint? hk]
  exact mem_body_of_mem ht (EntityConfiguration.mem_code_of_fluent hfluent)

/-- The texts of a request that stand in its code as literals, each read from its line. -/
structure LiteralsReadBack (r : Request) : Prop where
  /-- A literal by itself is read as its text exactly when no line ends in the text. -/
  literal : ∀ v : String,
    Text.literals? (Text.regularLiteral v) = some [(v, "")] ↔ ¬ Text.HasLineEnd v
  /-- So is the type of a column, in its annotation. -/
  annotatedType : ∀ t ∈ r.validTables, ∀ p ∈ t.properties, ∀ type, p.columnType = some type →
    r.style.annotates = true →
    Code.Quotes (Entity.file r r.relationships t).body 1 "[Column(TypeName = " type ")]"
  /-- And in its call. -/
  fluentType : ∀ t ∈ r.validTables, ∀ p ∈ t.properties, ∀ type, p.columnType = some type →
    r.style ≠ .annotationsOnly → ∃ calls after, '"' ∉ calls.toList ∧
      Code.Quotes (Context.file r r.validTables r.relationships).body 3
        ("entity.Property(e => e." ++ p.memberName ++ ")." ++ calls ++ "HasColumnType(") type
        (")" ++ after ++ ";")
  /-- So is the member of a foreign key, in the annotation of its navigation. -/
  foreignKey : ∀ t ∈ r.validTables, ∀ p ∈ t.properties, ∀ principal navigation,
    p.principal? = some principal → p.navigation = some navigation →
    .foreignKey p.memberName ∈ r.style.navigationAnnotations p →
    Code.Quotes (Entity.file r r.relationships t).body 1 "[ForeignKey(" p.memberName ")]"
  /-- So is the name of the constraint of a foreign key, in its association. -/
  constraintName : ∀ t ∈ r.validTables, ∀ p ∈ t.properties, ∀ principal name,
    p.principal? = some principal → p.constraintName = some name →
    Code.Quotes (Context.file r r.validTables r.relationships).body 4 ".HasConstraintName(" name
      ");"
  /-- A check constraint is read as its name and its condition exactly when the class and the member
  have nothing that would have to be escaped. -/
  check : r.style = .fluentOnly → ∀ t ∈ r.validTables, ∀ p ∈ t.properties, ∀ rule ∈ p.checkRules,
    ∀ k, k = p.constraint t rule →
    ⟨3, k.code⟩ ∈ (Context.file r r.validTables r.relationships).body ∧
    (Text.literals? k.code = some
      [(k.name, ", " ++ Text.regularLiteral (k.rule.condition k.member) ++ "));"),
        (k.rule.condition k.member, "));")] ↔
      Text.IsPlain t.className ∧ Text.IsPlain p.memberName)

/-- **The texts in the code of a request are read back exactly as long as no line ends in them**,
whatever quotes and backslashes they hold; the names of check constraints only if they hold none of
these either. -/
theorem literals_read_back (r : Request) : r.LiteralsReadBack where
  literal v := by
    have hliteral := Text.literals?_literal_iff (by decide : '"' ∉ "".toList) v
    rwa [String.append_empty] at hliteral
  annotatedType _ _ _ hp _ htype hstyle := quotes_annotatedType hp htype hstyle
  fluentType _ ht _ hp _ htype hstyle := quotes_fluentType ht hp htype hstyle
  foreignKey _ _ _ hp _ _ hprincipal hnavigation hstyle :=
    quotes_foreignKey hp hprincipal hnavigation hstyle
  constraintName _ ht _ hp _ _ hprincipal hname := quotes_constraintName ht hp hprincipal hname
  check hstyle t ht p hp rule hrule k hk := by
    subst hk
    exact ⟨mem_body_of_checkRule ht hp hrule hstyle, CheckConstraint.readsBack_iff _⟩

/-- Quotes and backslashes in a type are read back, a line end in it is not; a quote in the name of
a table breaks off the name of a check constraint. -/
theorem literals_read_back_quotes :
    let rank : Property := { name := "rank", columnType := some "a\\\"b", minLength := some 1 }
    let t : Table := ⟨"or\"der", [rank], none⟩
    let r : Request := { style := .fluentOnly, tables := [t] }
    let k : CheckConstraint := rank.constraint t (.minLength 1)
    (∃ before after, ⟨3, before ++ Text.regularLiteral "a\\\"b" ++ after⟩ ∈
        (Context.file r r.validTables r.relationships).body ∧
      Text.literals? (Text.regularLiteral "a\\\"b" ++ after) = some [("a\\\"b", after)]) ∧
    Text.literals? (Text.regularLiteral "a\nb") ≠ some [("a\nb", "")] ∧
    k.name = "CK_Or\"der_Rank_MinLength" ∧
    Text.literals? k.code ≠ some
      [(k.name, ", " ++ Text.regularLiteral (k.rule.condition k.member) ++ "));"),
        (k.rule.condition k.member, "));")] := by
  intro rank t r k
  have hread := literals_read_back r
  have ht : t ∈ r.validTables := by decide +kernel
  obtain ⟨calls, after, -, htype⟩ :=
    hread.fluentType t ht rank List.mem_cons_self _ rfl (by decide)
  obtain ⟨-, hcheck⟩ :=
    hread.check rfl t ht rank List.mem_cons_self (.minLength 1) (by decide) k rfl
  refine ⟨⟨_, _, htype.line, htype.read.mpr (by decide)⟩, ?_, by decide +kernel, ?_⟩
  · exact (hread.literal "a\nb").not.mpr (not_not.mpr (by decide))
  · exact hcheck.not.mpr (by decide +kernel)

end Request

end EntityScaffold
