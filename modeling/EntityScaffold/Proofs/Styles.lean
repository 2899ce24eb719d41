import EntityScaffold.Proofs.ContextReferences
import Mathlib.Data.List.Nodup
import Mathlib.Data.List.Perm.Basic

/-!
# The styles express the same facets

The annotations of a column and the fluent statements for it are put together apart from each other,
each with its own tests of the column. Here the facets of a column are listed once, with the texts
that stand for each of them: an annotation above the member, and a call in the chain of the column,
a check constraint or a note in the context. The lines that the styles write are the texts of this
one list; the key is no facet, since the context declares it in every style.

* `Facet`: a facet of a column, with its annotation and its construct in the context.
* `Facet.Declared`: what a column declares, said for each facet.
* `Style.annotationLines`, `Style.fluentLines`: the lines that a style writes for a column.
* `Property.FacetsAgree`: the lines of the annotating and of the fluent style for a column.
* `Table.StylesAgree`: the same for all columns, the combined style, and the files.

Results:
* `Property.mem_facets_iff`, `Property.nodup_facets`: a column has the facets that it declares, each
  once.
* `Property.annotationLines_eq`: the annotations of a column are those of its facets.
* `Property.fluentLines_eq`: the calls, check constraints and notes for it are those of its facets.
* `Style.filter_fluentStatements`: the chains of the combined style are those of the fluent one.
* `Entity.take_groupsAt_file`, `Request.filter_statementsOf`: these are the lines of the files.
* `facets_agree`: all of it, for every table and every column.
-/

namespace EntityScaffold

/-! ## Facets -/

/-- What the context has for a facet. -/
inductive Construct where
  /-- A call in the chain of the column. -/
  | call (text : String)
  /-- A check constraint, as a line. -/
  | check (text : String)
  /-- A comment on a rule that has no fluent form, as a line. -/
  | note (text : String)
  deriving DecidableEq

namespace Construct

/-- The call, if it is one. -/
def call? : Construct → Option String
  | call text => some text
  | _ => none

/-- The line of its own, if it is one. -/
def line? : Construct → Option String
  | call _ => none
  | check text => some text
  | note text => some text

end Construct

/-- A facet of a column. -/
inductive Facet where
  | maxLength (n : Int)
  | minLength (n : Int)
  | required
  | range (low high : Option Binary64)
  | emailAddress
  | phone
  | url
  | regularExpression (pattern : String)
  | column (type : String)
  | timestamp
  | concurrencyCheck
  deriving DecidableEq

namespace Facet

/-- The column declares the facet. -/
def Declared (p : Property) : Facet → Prop
  | maxLength n => p.maxLength = some n
  | minLength n => p.minLength = some n
  | required => p.isNullable = false ∧ p.isPrimaryKey = false ∧ p.dataType = .text
  | range low high =>
    low = p.rangeMin ∧ high = p.rangeMax ∧ (p.rangeMin ≠ none ∨ p.rangeMax ≠ none)
  | emailAddress => p.isEmailAddress = true
  | phone => p.isPhoneNumber = true
  | url => p.isUrl = true
  | regularExpression pattern => p.regexPattern = some pattern
  | column type => p.columnType = some type
  | timestamp => p.isTimestamp = true
  | concurrencyCheck => p.isConcurrencyToken = true

/-- The line that annotates a member with the facet. -/
def annotationText : Facet → String
  | maxLength n => "[MaxLength(" ++ intText n ++ ")]"
  | minLength n => "[MinLength(" ++ intText n ++ ")]"
  | required => "[Required]"
  | range low high => "[Range(" ++ boundText "double.MinValue" low ++ ", " ++
      boundText "double.MaxValue" high ++ ")]"
  | emailAddress => "[EmailAddress]"
  | phone => "[Phone]"
  | url => "[Url]"
  | regularExpression pattern => "[RegularExpression(" ++ Text.verbatimLiteral pattern ++ ")]"
  | column type => "[Column(TypeName = " ++ Text.regularLiteral type ++ ")]"
  | timestamp => "[Timestamp]"
  | concurrencyCheck => "[ConcurrencyCheck]"

/-- The annotation for the facet. -/
def annotation : Facet → Annotation
  | maxLength n => .maxLength n
  | minLength n => .minLength n
  | required => .required
  | range low high => .range low high
  | emailAddress => .emailAddress
  | phone => .phone
  | url => .url
  | regularExpression pattern => .regularExpression pattern
  | column type => .column type
  | timestamp => .timestamp
  | concurrencyCheck => .concurrencyCheck

theorem code_annotation (f : Facet) : f.annotation.code = f.annotationText := by
  cases f <;> rfl

theorem annotation_injective : Function.Injective annotation := by
  intro f g h
  cases f <;> cases g <;> first | rfl | (cases h; rfl) | cases h

/-- The line with a check constraint. -/
def checkText (entity member word condition : String) : String :=
  "entity.ToTable(t => t.HasCheckConstraint(\"" ++ s!"CK_{entity}_{member}_{word}" ++ "\", " ++
    Text.regularLiteral condition ++ "));"

/-- The line with a note. -/
def noteText (member words : String) : String :=
  s!"// {member}: {words} validation has no fluent equivalent."

/-- The condition on a member with bounds. -/
def boundsCondition (member : String) (low high : Option Binary64) : String :=
  " AND ".intercalate ((low.map fun x => s!"[{member}] >= " ++ x.toBoundText).toList ++
    (high.map fun x => s!"[{member}] <= " ++ x.toBoundText).toList)

/-- What the context has for the facet of a member. The pattern of a regular expression is not
repeated. -/
def construct (entity member : String) : Facet → Construct
  | maxLength n => .call ("HasMaxLength(" ++ intText n ++ ")")
  | minLength n =>
    .check (checkText entity member "MinLength" (s!"LEN([{member}]) >= " ++ intText n))
  | required => .call "IsRequired()"
  | range low high => .check (checkText entity member "Range" (boundsCondition member low high))
  | emailAddress => .note (noteText member "email address")
  | phone => .note (noteText member "phone number")
  | url => .note (noteText member "url")
  | regularExpression _ => .note (noteText member "regular expression")
  | column type => .call ("HasColumnType(" ++ Text.regularLiteral type ++ ")")
  | timestamp => .call "IsRowVersion()"
  | concurrencyCheck => .call "IsConcurrencyToken()"

/-- The place of a facet among those of a column. -/
def place : Facet → Nat
  | maxLength _ => 0
  | minLength _ => 1
  | required => 2
  | range .. => 3
  | emailAddress => 4
  | phone => 5
  | url => 6
  | regularExpression _ => 7
  | column _ => 8
  | timestamp => 9
  | concurrencyCheck => 10

end Facet

/-- The facets of a column, in the order of its annotations. -/
def Property.facets (p : Property) : List Facet :=
  (p.maxLength.map Facet.maxLength).toList ++
  (p.minLength.map Facet.minLength).toList ++
  onlyIf p.isRequiredText .required ++
  onlyIf p.hasRange (.range p.rangeMin p.rangeMax) ++
  onlyIf p.isEmailAddress .emailAddress ++
  onlyIf p.isPhoneNumber .phone ++
  onlyIf p.isUrl .url ++
  (p.regexPattern.map Facet.regularExpression).toList ++
  (p.columnType.map Facet.column).toList ++
  onlyIf p.isTimestamp .timestamp ++
  onlyIf p.isConcurrencyToken .concurrencyCheck

/-- What the context has for the facets of a column. -/
def Property.constructs (p : Property) (t : Table) : List Construct :=
  p.facets.map (Facet.construct t.className p.memberName)

/-- A chain of calls on a member, if there are any. -/
def chainLines (member : String) (calls : List String) : List String :=
  onlyIf (!calls.isEmpty) (s!"entity.Property(e => e.{member})." ++ ".".intercalate calls ++ ";")

/-! ## What the styles write -/

namespace Style

/-- The lines that a style writes above the member of a column. -/
def annotationLines (s : Style) (p : Property) (t : Table) : List String :=
  (s.propertyAnnotations p t).map Annotation.code

/-- The lines that a style writes for a column into the context. -/
def fluentLines (s : Style) (t : Table) (p : Property) : List String :=
  (s.propertyStatements t p).map FluentStatement.code

/-- The lines that a style writes for all columns of a table into the context. -/
def statementLines (s : Style) (t : Table) : List String := t.properties.flatMap (s.fluentLines t)

theorem map_code_fluentStatements (s : Style) (t : Table) :
    (s.fluentStatements t).map FluentStatement.code = s.statementLines t := List.map_flatMap

end Style

/-! ## Values under a condition -/

theorem map_onlyIf {α β : Type} (f : α → β) (condition : Bool) (a : α) :
    (onlyIf condition a).map f = onlyIf condition (f a) := by
  cases condition <;> rfl

theorem filterMap_onlyIf {α β : Type} (f : α → Option β) (condition : Bool) (a : α) :
    (onlyIf condition a).filterMap f = if condition then (f a).toList else [] := by
  cases condition
  · rfl
  · rw [onlyIf_true, List.filterMap_cons]
    cases f a <;> rfl

theorem onlyIf_sublist {α : Type} (condition : Bool) (a : α) :
    (onlyIf condition a).Sublist [a] := by
  cases condition
  · exact List.nil_sublist _
  · exact List.Sublist.refl _

theorem filterMap_toList_map {α β γ : Type} (f : α → β) (g : β → Option γ) (o : Option α) :
    (o.map f).toList.filterMap g = (o.bind fun a => g (f a)).toList := by
  cases o with
  | none => rfl
  | some a =>
    rw [Option.map_some, Option.toList_some, List.filterMap_cons]
    cases h : g (f a) <;> simp [h]

/-- What a map makes of the values of an option that all lead to one value. -/
theorem toList_map_sublist {α β : Type} {f : α → β} {b : β} (hf : ∀ a, f a = b) (o : Option α) :
    (o.map f).toList.Sublist [b] := by
  cases o with
  | none => exact List.nil_sublist _
  | some a => rw [Option.map_some, Option.toList_some, hf]

namespace Property

variable (p : Property) (t : Table)

/-! ## The facets of a column -/

/-- **A column has the facets that it declares.** -/
theorem mem_facets_iff {f : Facet} : f ∈ p.facets ↔ f.Declared p := by
  unfold facets isRequiredText hasRange
  cases f <;> simp [mem_onlyIf, Facet.Declared, and_assoc, Option.isSome_iff_ne_none, and_comm]

/-- **No facet is listed twice.** -/
theorem nodup_facets : p.facets.Nodup := by
  have hplaces : (p.facets.map Facet.place).Sublist (List.range 11) := by
    unfold facets
    simp only [List.map_append, map_onlyIf, ← Option.toList_map, Option.map_map]
    exact ((((((((((toList_map_sublist (fun _ => rfl) _).append
      (toList_map_sublist (fun _ => rfl) _)).append (onlyIf_sublist _ 2)).append
      (onlyIf_sublist _ 3)).append (onlyIf_sublist _ 4)).append (onlyIf_sublist _ 5)).append
      (onlyIf_sublist _ 6)).append (toList_map_sublist (fun _ => rfl) _)).append
      (toList_map_sublist (fun _ => rfl) _)).append (onlyIf_sublist _ 9)).append
      (onlyIf_sublist _ 10)
  exact (hplaces.nodup List.nodup_range).of_map _

/-- The annotations of a column are those of its facets, after that of a single key. -/
theorem annotations_eq :
    p.annotations t =
      onlyIf (p.isPrimaryKey && t.primaryKeys.length == 1) .key ++
        p.facets.map Facet.annotation := by
  unfold annotations facets
  simp only [List.map_append, map_onlyIf, ← Option.toList_map, Option.map_map, List.append_assoc]
  rfl

/-- **A column is annotated with the facets that it declares.** -/
theorem annotation_mem_annotations_iff {f : Facet} :
    f.annotation ∈ p.annotations t ↔ f.Declared p := by
  have hkey : f.annotation ≠ .key := by
    cases f <;> exact nofun
  rw [annotations_eq, List.mem_append, mem_onlyIf, ← mem_facets_iff,
    List.mem_map_of_injective Facet.annotation_injective]
  exact or_iff_right fun h => hkey h.2

/-! ## The lines for a column -/

/-- **The annotations of a column are those of its facets**, after that of a single key. -/
theorem annotationLines_eq :
    Style.annotationsOnly.annotationLines p t =
      onlyIf (p.isPrimaryKey && t.primaryKeys.length == 1) "[Key]" ++
        p.facets.map Facet.annotationText := by
  show (p.annotations t).map Annotation.code = _
  rw [annotations_eq, List.map_append, map_onlyIf, List.map_map]
  exact congrArg _ (List.map_congr_left fun f _ => f.code_annotation)

/-- The calls for a column are those of its facets. -/
theorem map_code_storageCalls :
    p.storageCalls.map StorageCall.code = (p.constructs t).filterMap Construct.call? := by
  have hfacets : (p.constructs t).filterMap Construct.call? =
      p.facets.filterMap fun f => (f.construct t.className p.memberName).call? :=
    List.filterMap_map
  rw [hfacets]
  unfold storageCalls facets
  simp only [List.filterMap_append, filterMap_onlyIf, filterMap_toList_map, List.map_append,
    map_onlyIf, ← Option.toList_map, Option.map_map, Facet.construct, Construct.call?,
    Option.toList_none, ite_self, List.append_nil, Option.bind_fun_none]
  rw [Option.map_eq_bind, Option.map_eq_bind]
  rfl

/-- The chain for a column is that of its calls. -/
theorem map_code_storageStatements :
    p.storageStatements.map FluentStatement.code =
      chainLines p.memberName (p.storageCalls.map StorageCall.code) := by
  unfold storageStatements chainLines
  rw [map_onlyIf, List.isEmpty_map]
  rfl

/-- The check constraints and notes for a column are those of its facets. -/
theorem validationLines_perm :
    ((p.validationStatements t).map FluentStatement.code).Perm
      ((p.constructs t).filterMap Construct.line?) := by
  have hfacets : (p.constructs t).filterMap Construct.line? =
      p.facets.filterMap fun f => (f.construct t.className p.memberName).line? :=
    List.filterMap_map
  rw [hfacets]
  unfold validationStatements facets
  simp only [List.filterMap_append, filterMap_onlyIf, filterMap_toList_map, List.map_append,
    map_onlyIf, ← Option.toList_map, Option.map_map, Facet.construct, Construct.line?,
    Option.toList_none, ite_self, List.append_nil, Option.bind_fun_none, List.nil_append]
  have hpattern : onlyIf p.regexPattern.isSome
      (FluentStatement.note p.memberName .regularExpression).code =
        (p.regexPattern.bind fun _ =>
          some (Facet.noteText p.memberName "regular expression")).toList := by
    cases p.regexPattern <;> rfl
  rw [hpattern, Option.map_eq_bind]
  -- only the two kinds of check constraints change places
  exact ((((List.perm_append_comm.append_right _).append_right _).append_right _).append_right _)

/-- The lines of the fluent style for a column: its chain, then its check constraints and notes. -/
theorem fluentLines_eq :
    Style.fluentOnly.fluentLines t p =
      chainLines p.memberName ((p.constructs t).filterMap Construct.call?) ++
        (p.validationStatements t).map FluentStatement.code := by
  show (p.storageStatements ++ p.validationStatements t).map FluentStatement.code = _
  rw [List.map_append, map_code_storageStatements, p.map_code_storageCalls t]

theorem startsWith_of_mem_chainLines {member line : String} {calls : List String}
    (h : line ∈ chainLines member calls) : Code.startsWith "entity.Property(" line = true := by
  obtain ⟨-, rfl⟩ := mem_onlyIf.mp h
  simp only [String.append_assoc]
  exact Code.startsWith_append (by decide) _

/-- Check constraints and notes are no chains. -/
theorem startsWith_of_mem_validationStatements {f : FluentStatement}
    (h : f ∈ p.validationStatements t) : Code.startsWith "entity.Property(" f.code = false := by
  have hcheck : Code.Apart "entity.Property(" "entity.ToTable(t => t.HasCheckConstraint(\"" := by
    decide
  have hnote : Code.Apart "entity.Property(" "// " := by decide
  rcases check_or_note_of_mem h with ⟨rule, rfl⟩ | ⟨rule, rfl⟩
  · exact hcheck.startsWith_eq_false (FluentStatement.startsWith_check _ _ _)
  · exact hnote.startsWith_eq_false (FluentStatement.startsWith_note _ _)

/-- **The chain for a column has the calls of its facets.** -/
theorem filter_chain :
    (Style.fluentOnly.fluentLines t p).filter (Code.startsWith "entity.Property(") =
      chainLines p.memberName ((p.constructs t).filterMap Construct.call?) := by
  rw [fluentLines_eq, List.filter_append, List.filter_eq_self.mpr, List.filter_eq_nil_iff.mpr,
    List.append_nil]
  · intro line hline
    obtain ⟨f, hf, rfl⟩ := List.mem_map.mp hline
    rw [p.startsWith_of_mem_validationStatements t hf]
    exact Bool.false_ne_true
  · exact fun line hline => startsWith_of_mem_chainLines hline

/-- **Its other lines are the check constraints and notes of its facets.** -/
theorem filter_others_perm :
    ((Style.fluentOnly.fluentLines t p).filter fun line =>
      !Code.startsWith "entity.Property(" line).Perm
        ((p.constructs t).filterMap Construct.line?) := by
  have hothers : ((Style.fluentOnly.fluentLines t p).filter fun line =>
      !Code.startsWith "entity.Property(" line) =
        (p.validationStatements t).map FluentStatement.code := by
    rw [fluentLines_eq, List.filter_append, List.filter_eq_nil_iff.mpr, List.filter_eq_self.mpr,
      List.nil_append]
    · intro line hline
      obtain ⟨f, hf, rfl⟩ := List.mem_map.mp hline
      rw [p.startsWith_of_mem_validationStatements t hf]
      rfl
    · intro line hline
      rw [startsWith_of_mem_chainLines hline]
      exact Bool.false_ne_true
  rw [hothers]
  exact p.validationLines_perm t

end Property

/-! ## The lines of the files -/

/-- **The chains of the combined style are those of the fluent one**, in the same order. -/
theorem Style.filter_statementLines (t : Table) :
    (Style.fluentOnly.statementLines t).filter (Code.startsWith "entity.Property(") =
      Style.annotationsAndFluent.statementLines t := by
  unfold statementLines
  rw [List.filter_flatMap]
  refine List.flatMap_congr fun p _ => ?_
  rw [p.filter_chain t, ← p.map_code_storageCalls t, ← p.map_code_storageStatements]
  rfl

/-- **What stands above a column in the file of its entity** are the annotations of the style. -/
theorem Entity.take_groupsAt_file (r : Request) (m : RelationshipMap) (t : Table) :
    (Code.groupsAt 1 (file r m t).body).take t.properties.length =
      t.properties.map fun p => r.style.annotationLines p t ++
        [s!"public {p.dataType.fieldType p.isNullable} {p.memberName}" ++ " \x7b get; set; \x7d"] := by
  by_cases hnone : t.properties = []
  · simp [hnone]
  · have hmembers : (ofTable r m t).members.map Member.code ≠ [] := by
      simp [ofTable, hnone]
    have hlines : ∀ g ∈ (ofTable r m t).members.map Member.code, "" ∉ Code.textsAt 0 g := by
      intro g hg
      obtain ⟨x, -, rfl⟩ := List.mem_map.mp hg
      exact x.empty_not_mem_textsAt
    have htexts : Code.textsAt 1 (file r m t).body =
        Code.textsAt 0 (Code.spaced ((ofTable r m t).members.map Member.code)) := by
      show Code.textsAt 1 (code _) = _
      unfold code
      rw [Code.textsAt_append, Code.textsAt_block_succ]
      rfl
    have hgroups : Code.groupsAt 1 (file r m t).body =
        (ofTable r m t).members.map fun x => Code.textsAt 0 x.code := by
      have hspaced := Code.groupsAt_spaced hmembers hlines
      unfold Code.groupsAt at hspaced ⊢
      rw [htexts, hspaced, List.map_map]
      rfl
    obtain ⟨others, hcolumns⟩ : ∃ others, (ofTable r m t).members =
        t.properties.map (columnMember r.style t) ++ others :=
      ⟨_, by unfold ofTable; simp only [List.append_assoc]; rfl⟩
    rw [hgroups, hcolumns, List.map_append, List.map_map, List.take_left' (List.length_map _)]
    refine List.map_congr_left fun p _ => ?_
    show Code.textsAt 0 (Code.lines _ ++ Code.line _) = _
    rw [Code.textsAt_append, Code.textsAt_lines_zero]
    rfl

/-- **What the context has for the columns of a table** are the statements of the style. -/
theorem Request.filter_statementsOf {r : Request} {t : Table} (ht : t ∈ r.validTables) :
    (r.statementsOf t).filter Code.opensFluent = (r.style.statementLines t).map ([·]) := by
  rw [statementsOf_eq ht, EntityConfiguration.filter_opensFluent, ← Style.map_code_fluentStatements]
  rfl

/-- The lines of the annotating and of the fluent style say the same about a column. -/
structure Property.FacetsAgree (p : Property) (t : Table) : Prop where
  /-- The column has the facets that it declares. -/
  declared : ∀ f, f ∈ p.facets ↔ f.Declared p
  /-- No facet is listed twice. -/
  once : p.facets.Nodup
  /-- The annotations are those of the facets, after that of a single key. -/
  annotations : Style.annotationsOnly.annotationLines p t =
    onlyIf (p.isPrimaryKey && t.primaryKeys.length == 1) "[Key]" ++
      p.facets.map Facet.annotationText
  /-- The fluent style has one chain, with the calls of the facets in order, if there are any. -/
  chain : (Style.fluentOnly.fluentLines t p).filter (Code.startsWith "entity.Property(") =
    chainLines p.memberName ((p.constructs t).filterMap Construct.call?)
  /-- All its other lines are the check constraints and notes of the facets. -/
  others : ((Style.fluentOnly.fluentLines t p).filter fun line =>
    !Code.startsWith "entity.Property(" line).Perm ((p.constructs t).filterMap Construct.line?)

/-- What the styles write for a table agrees. -/
structure Table.StylesAgree (t : Table) : Prop where
  facets : ∀ p : Property, p.FacetsAgree t
  /-- The combined style writes the annotations of the annotating one. -/
  annotations : ∀ p : Property, Style.annotationsAndFluent.annotationLines p t =
    Style.annotationsOnly.annotationLines p t
  /-- The combined style writes the chains of the fluent one, in the same order. -/
  chains : Style.annotationsAndFluent.statementLines t =
    (Style.fluentOnly.statementLines t).filter (Code.startsWith "entity.Property(")
  /-- Each of the other two styles writes nothing on the other side. -/
  alone : Style.annotationsOnly.statementLines t = [] ∧
    ∀ p : Property, Style.fluentOnly.annotationLines p t = [] ∧
      Style.fluentOnly.navigationAnnotations p = []
  /-- The annotations of a style stand above the columns of the entity. -/
  above : ∀ (r : Request) (m : RelationshipMap),
    (Code.groupsAt 1 (Entity.file r m t).body).take t.properties.length =
      t.properties.map fun p => r.style.annotationLines p t ++
        [s!"public {p.dataType.fieldType p.isNullable} {p.memberName}" ++ " \x7b get; set; \x7d"]
  /-- The two annotating styles write the same entity. -/
  entity : ∀ (r : Request) (m : RelationshipMap),
    Entity.file { r with style := .annotationsAndFluent } m t =
      Entity.file { r with style := .annotationsOnly } m t
  /-- The statements of a style stand in the block of the table. -/
  statements : ∀ r : Request, t ∈ r.validTables →
    (r.statementsOf t).filter Code.opensFluent = (r.style.statementLines t).map ([·])

/-- **The styles express the same facets**, for every table and every column: the annotations of a
column other than the key correspond one to one to the calls, check constraints and notes of the
fluent style; the combined style writes the same annotations and, in the same order, the same chains
of calls. -/
theorem facets_agree (t : Table) : t.StylesAgree where
  facets p := {
    declared := fun _ => p.mem_facets_iff
    once := p.nodup_facets
    annotations := p.annotationLines_eq t
    chain := p.filter_chain t
    others := p.filter_others_perm t }
  annotations _ := rfl
  chains := (Style.filter_statementLines t).symm
  alone := ⟨List.flatMap_eq_nil_iff.mpr fun _ _ => rfl, fun _ => ⟨rfl, rfl⟩⟩
  above r m := Entity.take_groupsAt_file r m t
  entity _ _ := rfl
  statements _ ht := Request.filter_statementsOf ht

/-- A required text with bounds: the fluent style has the calls in a chain and the rest apart. -/
example :
    let p : Property := {
      name := "code", isNullable := false
      maxLength := some 8, minLength := some 2, regexPattern := some "[A-Z]+" }
    let t : Table := ⟨"item", [p], none⟩
    Style.annotationsOnly.annotationLines p t =
      ["[MaxLength(8)]", "[MinLength(2)]", "[Required]", "[RegularExpression(@\"[A-Z]+\")]"] ∧
    Style.fluentOnly.fluentLines t p =
      ["entity.Property(e => e.Code).HasMaxLength(8).IsRequired();",
        "entity.ToTable(t => t.HasCheckConstraint(\"CK_Item_Code_MinLength\", \"LEN([Code]) >= 2\"));",
        "// Code: regular expression validation has no fluent equivalent."] := by
  decide

end EntityScaffold
