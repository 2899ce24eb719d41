import EntityScaffold.Code.Context
import EntityScaffold.Proofs.Blocks
import EntityScaffold.Proofs.Declarations

/-!
# Statements of the context

The context has one block for each configuration, with its statements in it: the key, the fluent
statements, the associations, each continued on lines of its own, and the filter. They are of a few
kinds, each with a start of its own. Who looks for the statements of one kind by their start finds
no others.

* `Code.Apart`: neither of two texts starts with the other.
* `Code.filter_eq_nil_of_heads`: texts that all have other starts are not found by one.
* `EntityConfiguration.statements`: the statements of a configuration, line by line.

Results:
* `Context.blocksAt_code`: the context has one block for each configuration, in order.
* `EntityConfiguration.statementsAt_body`: what stands in a block are the statements of its
  configuration.
* `Association.terminated_calls`: an association names its navigation, its collection and its
  foreign key on its first three lines, and no member of the entity after them.
* `Context.declarations_code`: the members of the context are its sets.
* `EntityConfiguration.filter_opensFluent`, `EntityConfiguration.filter_opensWith_association`,
  `EntityConfiguration.filter_opensWith_filter`: statements of a kind are found by their starts.
* `EntityConfiguration.filter_textsAt_code`: associations and filters do not look like keys or
  fluent statements.
* `Context.textsAt_code`: the statements of all configurations stand at one depth.
-/

namespace EntityScaffold

/-- Neither text starts with the other. -/
def Code.Apart (start head : String) : Prop :=
  Code.startsWith start head = false ∧ Code.startsWith head start = false

instance (start head : String) : Decidable (Code.Apart start head) :=
  inferInstanceAs (Decidable (_ ∧ _))

/-- A text that goes on from another start does not have this one. -/
theorem Code.Apart.startsWith_append {start head : String} (h : Code.Apart start head)
    (rest : String) : Code.startsWith start (head ++ rest) = false :=
  startsWith_append_eq_false h.1 h.2 rest

/-- A text with another start does not have this one. -/
theorem Code.Apart.startsWith_eq_false {start head text : String} (h : Code.Apart start head)
    (htext : Code.startsWith head text = true) : Code.startsWith start text = false :=
  startsWith_eq_false_of_startsWith h.1 h.2 htext

/-- A text with one of some other starts does not have this one. -/
theorem Code.startsWith_eq_false_of_heads {start text : String} {heads : List String}
    (h : ∀ head ∈ heads, Code.Apart start head)
    (htext : ∃ head ∈ heads, Code.startsWith head text = true) :
    Code.startsWith start text = false := by
  obtain ⟨head, hhead, hstart⟩ := htext
  exact (h head hhead).startsWith_eq_false hstart

/-- Texts that all have other starts are not found by this one. -/
theorem Code.filter_eq_nil_of_heads {start : String} {texts heads : List String}
    (h : ∀ head ∈ heads, Code.Apart start head)
    (htexts : ∀ text ∈ texts, ∃ head ∈ heads, Code.startsWith head text = true) :
    texts.filter (Code.startsWith start) = [] := by
  refine List.filter_eq_nil_iff.mpr fun text ht => ?_
  rw [startsWith_eq_false_of_heads h (htexts text ht)]
  exact Bool.false_ne_true

/-- The first line of a statement has the start. -/
def Code.opensWith (start : String) (s : List String) : Bool := s.head?.any (startsWith start)

/-! ## Fluent statements -/

/-- The starts of fluent statements. -/
def FluentStatement.heads : List String :=
  ["entity.Property(e => e.", "entity.ToTable(t => t.HasCheckConstraint(\"", "// "]

theorem FluentStatement.startsWith_storage (member : String) (calls : List StorageCall) :
    Code.startsWith "entity.Property(e => e." (storage member calls).code = true := by
  unfold code
  simp only [String.append_assoc]
  exact Code.startsWith_self_append _ _

theorem FluentStatement.startsWith_check (entity member : String) (rule : CheckRule) :
    Code.startsWith "entity.ToTable(t => t.HasCheckConstraint(\"" (check entity member rule).code =
      true := by
  unfold code
  simp only [String.append_assoc]
  exact Code.startsWith_self_append _ _

theorem FluentStatement.startsWith_note (member : String) (rule : UnmappedRule) :
    Code.startsWith "// " (note member rule).code = true := by
  unfold code
  simp only [String.append_assoc]
  exact Code.startsWith_self_append _ _

/-- A fluent statement has one of three starts. -/
theorem FluentStatement.exists_head (f : FluentStatement) :
    ∃ head ∈ heads, Code.startsWith head f.code = true := by
  cases f with
  | storage member calls => exact ⟨_, by decide, startsWith_storage member calls⟩
  | check entity member rule => exact ⟨_, by decide, startsWith_check entity member rule⟩
  | note member rule => exact ⟨_, by decide, startsWith_note member rule⟩

theorem FluentStatement.startsWith_code {start : String}
    (h : ∀ head ∈ heads, Code.Apart start head) (f : FluentStatement) :
    Code.startsWith start f.code = false :=
  Code.startsWith_eq_false_of_heads h f.exists_head

/-- A validation rule is written as a check constraint or as a note. -/
theorem Property.check_or_note_of_mem {p : Property} {t : Table} {f : FluentStatement}
    (h : f ∈ p.validationStatements t) :
    (∃ rule, f = .check t.className p.memberName rule) ∨ ∃ rule, f = .note p.memberName rule := by
  simp only [validationStatements, List.mem_append, mem_onlyIf, Option.mem_toList,
    Option.map_eq_some_iff] at h
  rcases h with ((((⟨-, rfl⟩ | ⟨_, -, rfl⟩) | ⟨-, rfl⟩) | ⟨-, rfl⟩) | ⟨-, rfl⟩) | ⟨-, rfl⟩
  · exact .inl ⟨_, rfl⟩
  · exact .inl ⟨_, rfl⟩
  all_goals exact .inr ⟨_, rfl⟩

/-- The first line of a statement is that of a fluent statement. -/
def Code.opensFluent (s : List String) : Bool :=
  FluentStatement.heads.any fun head => opensWith head s

/-! ## Associations, line by line -/

namespace Association

/-- Only the last of some calls is ended. -/
theorem terminated_append (calls : List String) {rest : List String} (h : rest ≠ []) :
    terminated (calls ++ rest) = calls ++ terminated rest := by
  induction calls with
  | nil => rfl
  | cons c calls ih =>
    have hne : calls ++ rest ≠ [] := List.append_ne_nil_of_right_ne_nil _ h
    rw [List.cons_append, List.cons_append, ← ih]
    cases hcalls : calls ++ rest with
    | nil => exact absurd hcalls hne
    | cons c' cs => rfl

/-- The call that an association starts with. -/
def opening (a : Association) : String :=
  match a.navigation with
  | some n => s!"entity.HasOne(e => e.{n})"
  | none => s!"entity.HasOne<{a.principal}>()"

/-- The call that names the collection of the principal, if it has one. -/
def collecting (a : Association) : String :=
  match a.collection with
  | some c => s!".WithMany(p => p.{c})"
  | none => ".WithMany()"

/-- The starts of the first call. -/
def openingHeads : List String := ["entity.HasOne(e => e.", "entity.HasOne<"]

/-- An association has one of two starts. -/
theorem exists_head_opening (a : Association) :
    ∃ head ∈ openingHeads, Code.startsWith head a.opening = true := by
  unfold opening
  cases a.navigation with
  | some n =>
    refine ⟨"entity.HasOne(e => e.", by decide, ?_⟩
    simp only [String.append_assoc]
    exact Code.startsWith_self_append _ _
  | none =>
    refine ⟨"entity.HasOne<", by decide, ?_⟩
    simp only [String.append_assoc]
    exact Code.startsWith_self_append _ _

theorem startsWith_opening {start : String} (h : ∀ head ∈ openingHeads, Code.Apart start head)
    (a : Association) : Code.startsWith start a.opening = false :=
  Code.startsWith_eq_false_of_heads h a.exists_head_opening

/-- The calls that may follow the foreign key. -/
def laterHeads : List String :=
  [".HasPrincipalKey(p => p.", ".OnDelete(DeleteBehavior.", ".HasConstraintName("]

/-- A call stays what it is, or a semicolon follows it. -/
theorem mem_terminated {calls : List String} {l : String} (h : l ∈ terminated calls) :
    ∃ c ∈ calls, l = c ∨ l = c ++ ";" := by
  induction calls with
  | nil => exact absurd h List.not_mem_nil
  | cons c calls ih =>
    cases calls with
    | nil => exact ⟨c, List.mem_cons_self, .inr (List.mem_singleton.mp h)⟩
    | cons c' cs =>
      rcases List.mem_cons.mp h with rfl | h
      · exact ⟨l, List.mem_cons_self, .inl rfl⟩
      · obtain ⟨d, hd, heq⟩ := ih h
        exact ⟨d, List.mem_cons_of_mem _ hd, heq⟩

/-- The calls after the foreign key are of three kinds. -/
theorem exists_head_of_mem_drop {a : Association} {l : String} (h : l ∈ a.calls.drop 3) :
    ∃ head ∈ laterHeads, Code.startsWith head l = true := by
  have hlater : a.calls.drop 3 =
      (a.principalKey.map fun k => s!".HasPrincipalKey(p => p.{k})").toList ++
        [s!".OnDelete(DeleteBehavior.{a.onDelete.name})"] ++
        (a.constraintName.map fun n =>
          ".HasConstraintName(" ++ Text.regularLiteral n ++ ")").toList := rfl
  rw [hlater] at h
  simp only [List.mem_append, Option.mem_toList, Option.map_eq_some_iff, List.mem_singleton] at h
  obtain (⟨k, -, rfl⟩ | rfl) | ⟨n, -, rfl⟩ := h
  · exact ⟨".HasPrincipalKey(p => p.", by decide, by
      simp only [String.append_assoc]
      exact Code.startsWith_self_append _ _⟩
  · exact ⟨".OnDelete(DeleteBehavior.", by decide, by
      simp only [String.append_assoc]
      exact Code.startsWith_self_append _ _⟩
  · exact ⟨".HasConstraintName(", by decide, by
      simp only [String.append_assoc]
      exact Code.startsWith_self_append _ _⟩

/-- **An association names its navigation, its collection and its foreign key on its first three
lines.** Those after them are of other kinds. -/
theorem terminated_calls (a : Association) :
    ∃ later, terminated a.calls =
        a.opening :: a.collecting :: s!".HasForeignKey(e => e.{a.foreignKey})" :: later ∧
      ∀ l ∈ later, ∃ head ∈ laterHeads, Code.startsWith head l = true := by
  have hne : a.calls.drop 3 ≠ [] := by
    intro h
    have := congrArg List.length h
    simp [calls] at this
  refine ⟨terminated (a.calls.drop 3), ?_, fun l hl => ?_⟩
  · calc terminated a.calls
        = terminated (a.calls.take 3 ++ a.calls.drop 3) := by rw [List.take_append_drop]
      _ = a.calls.take 3 ++ terminated (a.calls.drop 3) := terminated_append _ hne
  · obtain ⟨c, hc, rfl | rfl⟩ := mem_terminated hl
    · exact exists_head_of_mem_drop hc
    · obtain ⟨head, hhead, hstart⟩ := exists_head_of_mem_drop hc
      exact ⟨head, hhead, Code.startsWith_append hstart _⟩

end Association

/-! ## Configurations -/

namespace EntityConfiguration

/-- The starts of keys, and those of associations and filters. -/
def keyHeads : List String := ["entity.HasKey(e => e.", "entity.HasKey(e => new \x7b "]

def linkHeads : List String := Association.openingHeads ++ ["entity.HasQueryFilter(e => !e."]

/-- The statement that filters rows, if there is one. -/
def filterCode (hidden : Option String) : List String :=
  (hidden.map fun f => s!"entity.HasQueryFilter(e => !e.{f});").toList

variable {start : String}

/-- The statement that declares a key has one of two starts. -/
theorem exists_head_of_mem_keyCode {members : List String} {s : String} (h : s ∈ keyCode members) :
    ∃ head ∈ keyHeads, Code.startsWith head s = true := by
  unfold keyCode at h
  split at h
  · exact absurd h List.not_mem_nil
  · rw [List.mem_singleton.mp h]
    refine ⟨"entity.HasKey(e => e.", by decide, ?_⟩
    simp only [String.append_assoc]
    exact Code.startsWith_self_append _ _
  · rw [List.mem_singleton.mp h]
    refine ⟨"entity.HasKey(e => new \x7b ", by decide, ?_⟩
    simp only [String.append_assoc]
    exact Code.startsWith_self_append _ _

theorem filter_keyCode (h : ∀ head ∈ keyHeads, Code.Apart start head) (members : List String) :
    (keyCode members).filter (Code.startsWith start) = [] :=
  Code.filter_eq_nil_of_heads h fun _ hs => exists_head_of_mem_keyCode hs

/-- The statement that filters rows has one start. -/
theorem startsWith_of_mem_filterCode {hidden : Option String} {s : String}
    (h : s ∈ filterCode hidden) : Code.startsWith "entity.HasQueryFilter(e => !e." s = true := by
  obtain ⟨f, -, rfl⟩ := Option.map_eq_some_iff.mp (Option.mem_toList.mp h)
  simp only [String.append_assoc]
  exact Code.startsWith_self_append _ _

theorem filter_filterCode (h : ∀ head ∈ linkHeads, Code.Apart start head)
    (hidden : Option String) : (filterCode hidden).filter (Code.startsWith start) = [] :=
  Code.filter_eq_nil_of_heads h fun _ hs => ⟨_, by decide, startsWith_of_mem_filterCode hs⟩

/-- What stands in the braces of a configuration. -/
def body (c : EntityConfiguration) : List Code.Line :=
  Code.lines (keyCode c.key ++ c.fluent.map FluentStatement.code) ++
    c.associations.flatMap Association.code ++ Code.lines (filterCode c.filter)

theorem code_eq (c : EntityConfiguration) :
    c.code = Code.line s!"modelBuilder.Entity<{c.entity}>(entity =>" ++ Code.braced c.body ");" :=
  rfl

/-- **Associations and filters do not look like keys or fluent statements.** -/
theorem filter_textsAt_code (h : ∀ head ∈ linkHeads, Code.Apart start head)
    (c : EntityConfiguration) :
    (Code.textsAt 1 c.code).filter (Code.startsWith start) =
      (keyCode c.key).filter (Code.startsWith start) ++
        (c.fluent.map FluentStatement.code).filter (Code.startsWith start) := by
  have hassociation : ∀ a : Association,
      (Code.textsAt 0 a.code).filter (Code.startsWith start) = [] := by
    intro a
    have hopening := a.startsWith_opening fun head hhead => h head (List.mem_append_left _ hhead)
    obtain ⟨later, hcalls, -⟩ := a.terminated_calls
    unfold Association.code
    rw [hcalls]
    dsimp only
    rw [Code.textsAt_append, Code.textsAt_indent_zero, List.append_nil, Code.textsAt_line_zero,
      Code.filter_singleton_eq_nil hopening]
  have hassociations : (Code.textsAt 0 (c.associations.flatMap Association.code)).filter
      (Code.startsWith start) = [] := by
    rw [Code.textsAt_flatMap, List.filter_flatMap]
    exact List.flatMap_eq_nil_iff.mpr fun a _ => hassociation a
  rw [code_eq]
  unfold body
  simp only [Code.textsAt_append, Code.textsAt_line_succ, Code.textsAt_braced_succ,
    Code.textsAt_lines_zero, List.filter_append, hassociations, filter_filterCode h,
    List.nil_append, List.append_nil]

/-- The statements of a configuration, line by line. -/
def statements (c : EntityConfiguration) : List (List String) :=
  (keyCode c.key).map ([·]) ++ (c.fluent.map FluentStatement.code).map ([·]) ++
    c.associations.map (fun a => Association.terminated a.calls) ++ (filterCode c.filter).map ([·])

theorem statementsAt_association (a : Association) :
    Code.statementsAt 0 a.code = [Association.terminated a.calls] := by
  obtain ⟨rest, hcalls, -⟩ := a.terminated_calls
  obtain ⟨c, cs, hc⟩ : ∃ c cs, Association.terminated a.calls = c :: cs := ⟨_, _, hcalls⟩
  unfold Association.code
  rw [hc]
  show (Code.sectionsAt 0 (Code.line c ++ Code.indent (Code.lines cs))).map _ = _
  rw [Code.sectionsAt_hanging]
  simp [Code.Section.texts, Code.indent, Code.lines, Function.comp_def]

/-- An association starts where its statement does. -/
theorem startsBy_association (a : Association) : Code.StartsBy 0 a.code := by
  obtain ⟨rest, hcalls, -⟩ := a.terminated_calls
  unfold Association.code
  rw [hcalls]
  exact Code.startsBy_cons 0 _ (Nat.le_refl 0)

/-- **What stands in a block are the statements of its configuration.** -/
theorem statementsAt_body (c : EntityConfiguration) :
    Code.statementsAt 0 c.body = c.statements := by
  unfold body statements
  rw [Code.statementsAt_append 0 _ (Code.startsBy_lines 0 _),
    Code.statementsAt_append 0 _ (Code.startsBy_flatMap 0 startsBy_association _),
    Code.statementsAt_lines_zero, Code.statementsAt_lines_zero,
    Code.statementsAt_flatMap 0 startsBy_association,
    List.flatMap_congr fun a _ => statementsAt_association a, ← List.map_eq_flatMap,
    List.map_append]

/-- The statements with a start are among those of each kind. -/
theorem filter_opensWith (start : String) (c : EntityConfiguration) :
    c.statements.filter (Code.opensWith start) =
      ((keyCode c.key).filter (Code.startsWith start)).map ([·]) ++
      ((c.fluent.map FluentStatement.code).filter (Code.startsWith start)).map ([·]) ++
      (c.associations.filter fun a => Code.startsWith start a.opening).map
        (fun a => Association.terminated a.calls) ++
      ((filterCode c.filter).filter (Code.startsWith start)).map ([·]) := by
  have hsingle : ∀ texts : List String, (texts.map ([·])).filter (Code.opensWith start) =
      (texts.filter (Code.startsWith start)).map ([·]) := fun _ => List.filter_map
  have hassociations : (c.associations.map fun a => Association.terminated a.calls).filter
      (Code.opensWith start) = (c.associations.filter fun a => Code.startsWith start a.opening).map
        fun a => Association.terminated a.calls := by
    rw [List.filter_map]
    refine congrArg _ (List.filter_congr fun a _ => ?_)
    obtain ⟨later, hcalls, -⟩ := a.terminated_calls
    show Code.opensWith start (Association.terminated a.calls) = _
    rw [hcalls]
    rfl
  unfold statements
  rw [List.filter_append, List.filter_append, List.filter_append, hsingle, hsingle, hsingle,
    hassociations]

/-- Fluent statements with none of their starts are not found. -/
theorem filter_fluent {start : String} (h : ∀ head ∈ FluentStatement.heads, Code.Apart start head)
    (fs : List FluentStatement) :
    (fs.map FluentStatement.code).filter (Code.startsWith start) = [] := by
  refine Code.filter_eq_nil_of_heads h fun s hs => ?_
  obtain ⟨f, -, rfl⟩ := List.mem_map.mp hs
  exact f.exists_head

/-- **Only associations start like one.** -/
theorem filter_opensWith_association (c : EntityConfiguration) :
    c.statements.filter (Code.opensWith "entity.HasOne") =
      c.associations.map fun a => Association.terminated a.calls := by
  have hself : ∀ a : Association, Code.startsWith "entity.HasOne" a.opening = true := by
    intro a
    obtain ⟨head, hhead, hstart⟩ := a.exists_head_opening
    have hheads : ∀ head ∈ Association.openingHeads,
        Code.startsWith "entity.HasOne" head = true := by decide
    exact Code.startsWith_trans (hheads head hhead) hstart
  have hfilter : (filterCode c.filter).filter (Code.startsWith "entity.HasOne") = [] := by
    have hapart : ∀ head ∈ ["entity.HasQueryFilter(e => !e."],
        Code.Apart "entity.HasOne" head := by decide
    exact Code.filter_eq_nil_of_heads hapart fun s hs =>
      ⟨_, List.mem_singleton_self _, startsWith_of_mem_filterCode hs⟩
  rw [filter_opensWith, filter_keyCode (by decide), filter_fluent (by decide), hfilter,
    List.filter_eq_self.mpr fun a _ => hself a]
  simp

/-- **Only filters start like one.** -/
theorem filter_opensWith_filter (c : EntityConfiguration) :
    c.statements.filter (Code.opensWith "entity.HasQueryFilter(") =
      (filterCode c.filter).map ([·]) := by
  have hself : (filterCode c.filter).filter (Code.startsWith "entity.HasQueryFilter(") =
      filterCode c.filter := by
    have hstart : Code.startsWith "entity.HasQueryFilter(" "entity.HasQueryFilter(e => !e." =
        true := by decide
    exact List.filter_eq_self.mpr fun s hs =>
      Code.startsWith_trans hstart (startsWith_of_mem_filterCode hs)
  have hassociations : c.associations.filter
      (fun a => Code.startsWith "entity.HasQueryFilter(" a.opening) = [] := by
    refine List.filter_eq_nil_iff.mpr fun a _ => ?_
    rw [a.startsWith_opening (by decide)]
    exact Bool.false_ne_true
  rw [filter_opensWith, filter_keyCode (by decide), filter_fluent (by decide), hself, hassociations]
  simp

/-- **Only fluent statements start like one.** -/
theorem filter_opensFluent (c : EntityConfiguration) :
    c.statements.filter Code.opensFluent = (c.fluent.map FluentStatement.code).map ([·]) := by
  have hnone : ∀ l : List (List String),
      (∀ head ∈ FluentStatement.heads, ∀ s ∈ l, Code.opensWith head s = false) →
      l.filter Code.opensFluent = [] := by
    intro l h
    refine List.filter_eq_nil_iff.mpr fun s hs hopens => ?_
    obtain ⟨head, hhead, hstart⟩ := List.any_eq_true.mp hopens
    rw [h head hhead s hs] at hstart
    cases hstart
  have hsingle : ∀ texts : List String,
      (∀ head ∈ FluentStatement.heads, texts.filter (Code.startsWith head) = []) →
      (texts.map ([·])).filter Code.opensFluent = [] := by
    intro texts h
    refine hnone _ fun head hhead s hs => ?_
    obtain ⟨text, htext, rfl⟩ := List.mem_map.mp hs
    exact Bool.eq_false_iff.mpr (List.filter_eq_nil_iff.mp (h head hhead) text htext)
  have hkey : ((keyCode c.key).map ([·])).filter Code.opensFluent = [] := by
    refine hsingle _ fun head hhead => filter_keyCode ?_ _
    revert head
    decide
  have hfilter : ((filterCode c.filter).map ([·])).filter Code.opensFluent = [] := by
    refine hsingle _ fun head hhead => filter_filterCode ?_ _
    revert head
    decide
  have hassociations : (c.associations.map fun a => Association.terminated a.calls).filter
      Code.opensFluent = [] := by
    refine hnone _ fun head hhead s hs => ?_
    obtain ⟨a, -, rfl⟩ := List.mem_map.mp hs
    obtain ⟨later, hcalls, -⟩ := a.terminated_calls
    have hapart : ∀ head ∈ FluentStatement.heads, ∀ h ∈ Association.openingHeads,
        Code.Apart head h := by decide
    show Code.opensWith head (Association.terminated a.calls) = false
    rw [hcalls]
    exact a.startsWith_opening (hapart head hhead)
  have hfluent : ((c.fluent.map FluentStatement.code).map ([·])).filter Code.opensFluent =
      (c.fluent.map FluentStatement.code).map ([·]) := by
    refine List.filter_eq_self.mpr fun s hs => ?_
    obtain ⟨text, htext, rfl⟩ := List.mem_map.mp hs
    obtain ⟨f, -, rfl⟩ := List.mem_map.mp htext
    obtain ⟨head, hhead, hstart⟩ := f.exists_head
    exact List.any_eq_true.mpr ⟨head, hhead, hstart⟩
  unfold statements
  rw [List.filter_append, List.filter_append, List.filter_append, hkey, hfluent, hassociations,
    hfilter, List.nil_append, List.append_nil, List.append_nil]

end EntityConfiguration

/-! ## The context -/

/-- **The statements of all configurations stand at one depth**, and nothing else does. -/
theorem Context.textsAt_code (c : Context) :
    Code.textsAt 3 c.code = c.configurations.flatMap fun e => Code.textsAt 1 e.code := by
  have hlines : ∀ texts : List String, Code.textsAt 2 (Code.lines texts) = [] := by
    intro texts
    simp [Code.textsAt, Code.lines]
  unfold code
  simp only [Code.textsAt_block_succ, Code.textsAt_append, Code.textsAt_line_succ,
    Code.textsAt_indent_succ, Code.textsAt_braced_succ, Code.textsAt_flatMap, Code.blank, hlines,
    List.nil_append]
  split_ifs <;> rfl

namespace Context

/-- The head of the block that configures an entity. -/
def head (entity : String) : String := s!"modelBuilder.Entity<{entity}>(entity =>"

theorem startsWith_head (entity : String) :
    Code.startsWith "modelBuilder.Entity<" (head entity) = true := by
  unfold head
  simp only [String.append_assoc]
  exact Code.startsWith_append (by decide) _

/-- The lines of a configuration as sections, when its body stands in some lines. -/
def sections (e : EntityConfiguration) (body : List Code.Line) : List Code.Section :=
  [⟨"", []⟩, ⟨head e.entity, []⟩, ⟨"\x7b", body⟩, ⟨"\x7d);", []⟩]

/-- The sections of the method that configures the entities. -/
theorem sectionsAt_configurations (es : List EntityConfiguration) :
    Code.sectionsAt 0 (Code.line "base.OnModelCreating(modelBuilder);" ++
      es.flatMap fun e => Code.blank ++ e.code) =
    ⟨"base.OnModelCreating(modelBuilder);", []⟩ :: es.flatMap fun e =>
      sections e (Code.indent e.body) := by
  have hblank : ∀ e : EntityConfiguration, Code.StartsBy 0 (Code.blank ++ e.code) :=
    fun e => Code.startsBy_line_append 0 "" e.code
  have hsections : ∀ e : EntityConfiguration,
      Code.sectionsAt 0 (Code.blank ++ e.code) = sections e (Code.indent e.body) := by
    intro e
    show Code.sectionsAt 0 (Code.blank ++ (Code.line _ ++ Code.braced e.body ");")) = _
    rw [Code.sectionsAt_append 0 _ (Code.startsBy_line_append 0 _ _),
      Code.sectionsAt_append 0 _ (Code.startsBy_braced 0 _ _), Code.sectionsAt_braced_zero]
    rfl
  rw [Code.sectionsAt_append 0 _ (Code.startsBy_flatMap 0 hblank _),
    Code.sectionsAt_flatMap 0 hblank, List.flatMap_congr fun e _ => hsections e]
  rfl

/-- What stands two steps into a context: the call of the base constructor and the method that
configures the entities. -/
theorem sectionsAt_code (c : Context) :
    Code.sectionsAt 2 c.code =
      ⟨": base(options)", []⟩ :: ⟨"base.OnModelCreating(modelBuilder);", []⟩ ::
        c.configurations.flatMap fun e =>
          sections e (Code.indent (Code.indent (Code.indent e.body))) := by
  have hempty : Code.StartsBy 1 (if c.sets.isEmpty then [] else Code.blank) ∧
      Code.sectionsAt 1 (if c.sets.isEmpty then [] else Code.blank) = [] := by
    split_ifs
    · exact ⟨nofun, rfl⟩
    · exact ⟨Code.startsBy_line 1 "", rfl⟩
  have hbase : Code.StartsBy 1 (Code.indent (Code.line ": base(options)")) :=
    Code.startsBy_cons 1 [] (Nat.le_refl 1)
  have hblank : Code.StartsBy 1 Code.blank := Code.startsBy_line 1 ""
  unfold code
  rw [Code.sectionsAt_block_succ, Code.sectionsAt_append 1 _ (Code.startsBy_block 1 _ _),
    Code.sectionsAt_append 1 _ hempty.1, Code.sectionsAt_append 1 _ (Code.startsBy_lines 1 _),
    Code.sectionsAt_append 1 _ hblank, Code.sectionsAt_append 1 _ (Code.startsBy_braced 1 _ _),
    Code.sectionsAt_append 1 _ hbase, Code.sectionsAt_indent_succ, Code.sectionsAt_braced_succ,
    Code.sectionsAt_lines_succ, hempty.2, Code.sectionsAt_block_succ, sectionsAt_configurations,
    List.map_append, List.map_cons, List.map_flatMap, List.map_cons, List.map_flatMap]
  rfl

/-- **The context has one block for each configuration, in order.** -/
theorem blocksAt_code (c : Context) :
    Code.blocksAt 2 c.code = c.configurations.map fun e =>
      ⟨head e.entity, Code.indent (Code.indent (Code.indent e.body))⟩ := by
  have hhead : ∀ entity, head entity ≠ "\x7b" := by
    intro entity h
    have hstart := startsWith_head entity
    rw [h] at hstart
    exact absurd hstart (by decide)
  -- a section goes before, since the head of a block is that of the section before the brace
  have hblocks : ∀ (es : List EntityConfiguration) (s : Code.Section),
      Code.blocksOf (s :: es.flatMap fun e =>
        sections e (Code.indent (Code.indent (Code.indent e.body)))) =
        es.map fun e => ⟨head e.entity, Code.indent (Code.indent (Code.indent e.body))⟩ := by
    intro es
    induction es with
    | nil => exact fun s => rfl
    | cons e es ih =>
      intro s
      rw [List.flatMap_cons, List.map_cons, ← ih ⟨"\x7d);", []⟩]
      simp [sections, Code.blocksOf, hhead]
  unfold Code.blocksAt
  rw [sectionsAt_code, Code.blocksOf, if_neg (by decide), hblocks]

/-- No entity is configured outside of these blocks. -/
theorem filter_textsAt_code (c : Context) :
    (Code.textsAt 2 c.code).filter (Code.startsWith "modelBuilder.Entity<") =
      c.configurations.map fun e => head e.entity := by
  have hsections : ∀ (e : EntityConfiguration) (body : List Code.Line),
      ((sections e body).map Code.Section.head).filter (Code.startsWith "modelBuilder.Entity<") =
        [head e.entity] := by
    intro e body
    have hbrace : Code.startsWith "modelBuilder.Entity<" "\x7b" = false := by decide
    have hclose : Code.startsWith "modelBuilder.Entity<" "\x7d);" = false := by decide
    have hblank : Code.startsWith "modelBuilder.Entity<" "" = false := by decide
    simp [sections, startsWith_head, hbrace, hclose, hblank]
  rw [← Code.map_head_sectionsAt, sectionsAt_code, List.map_cons, List.map_cons, List.map_flatMap,
    List.filter_cons_of_neg (by decide), List.filter_cons_of_neg (by decide), List.filter_flatMap,
    List.flatMap_congr fun e _ => hsections e _]
  exact List.map_eq_flatMap.symm

/-- A set of entities is read as it was written. -/
theorem declaration?_setCode {s : String × String} (hclass : ' ' ∉ s.1.toList)
    (hname : ' ' ∉ s.2.toList) :
    Code.declaration? (setCode s) = some ⟨"DbSet<" ++ s.1 ++ ">", s.2⟩ := by
  have hline : setCode s = "public" ++ (" " ++ (("DbSet<" ++ s.1 ++ ">") ++ (" " ++ (s.2 ++
      (Member.accessors ++ (" " ++ "= null!;")))))) := by
    unfold setCode
    simp only [String.append_assoc]
    rfl
  have hvirtual : "DbSet<" ++ s.1 ++ ">" ≠ "virtual" := by
    intro h
    have hlast := congrArg (fun x : String => x.toList.getLast?) h
    rw [String.toList_append, List.getLast?_append] at hlast
    have hends : some '>' = some 'l' := hlast
    exact absurd hends (by decide)
  rw [hline]
  exact Code.declaration?_public (by simp [hclass]) hvirtual hname (.inr ⟨_, rfl, by decide⟩)

/-- **The members of a context are its sets of entities.** Its constructor is not one of them. -/
theorem declarations_code (c : Context)
    (hsets : ∀ s ∈ c.sets, ' ' ∉ s.1.toList ∧ ' ' ∉ s.2.toList) :
    (Code.textsAt 1 c.code).filterMap Code.declaration? =
      c.sets.map fun s => ⟨"DbSet<" ++ s.1 ++ ">", s.2⟩ := by
  have hconstructor :
      Code.declaration? s!"public {c.name}(DbContextOptions<{c.name}> options)" = none := by
    refine Code.declaration?_eq_none_of_getLast? ?_
    rw [String.toList_append, List.getLast?_append]
    exact (by decide : some ')' ∉ [some '\x7d', some ';'])
  have hdeclared : (c.sets.map setCode).filterMap Code.declaration? =
      c.sets.map fun s => ⟨"DbSet<" ++ s.1 ++ ">", s.2⟩ := by
    rw [List.filterMap_map, ← List.filterMap_eq_map]
    exact List.filterMap_congr fun s hs => declaration?_setCode (hsets s hs).1 (hsets s hs).2
  have hblank : Code.declaration? "" = none := by decide
  have hopen : Code.declaration? "\x7b" = none := by decide
  have hclose : Code.declaration? "\x7d" = none := by decide
  have hmethod : Code.declaration?
      "protected override void OnModelCreating(ModelBuilder modelBuilder)" = none := by decide
  have hempty : (Code.textsAt 0 (if c.sets.isEmpty then [] else Code.line "")).filterMap
      Code.declaration? = [] := by
    split_ifs
    · rfl
    · exact List.filterMap_cons_none hblank
  unfold code
  rw [Code.textsAt_block_succ]
  simp only [Code.textsAt_append, Code.textsAt_line_zero, Code.textsAt_indent_zero,
    Code.textsAt_braced_zero, Code.textsAt_lines_zero, Code.textsAt_block_zero, Code.blank,
    List.filterMap_append, List.filterMap_cons, List.filterMap_nil, hconstructor, hdeclared, hblank,
    hopen, hclose, hmethod, hempty, String.append_empty, List.nil_append, List.append_nil]

end Context

end EntityScaffold
