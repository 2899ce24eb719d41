import EntityScaffold.Proofs.Artifacts
import EntityScaffold.Proofs.Declarations

/-!
# The type that a file declares

Every generated file declares one type: a class or an interface at its outermost level, with type
parameters and bases after its name. Its name is read off that line and compared with the name that
the file goes by.

* `Code.typeName?`: the type that a line declares, with its parameters.
* `Code.SourceFile.typeNames`: the types that a file declares.

Results:
* `Code.typeName?_append`: a line is read as it was written.
* `Request.exists_file_of_mem_allArtifacts`: every file declares the namespace of its kind, and the
  type that it goes by and no other.
-/

namespace EntityScaffold

namespace Code

/-- The type that the words after `public` declare. -/
def typeNameIn? : List String → Option String
  | kind :: name :: _ => if kind = "class" ∨ kind = "interface" then some name else none
  | _ => none

/-- The type that a line declares, with its parameters. -/
def typeName? (text : String) : Option String :=
  match words text with
  | "public" :: ws => typeNameIn? (if ws.head? = some "static" then ws.tail else ws)
  | _ => none

/-- The types that a file declares at its outermost level. -/
def SourceFile.typeNames (f : SourceFile) : List String := (textsAt 0 f.body).filterMap typeName?

section Lines

variable {name tail : String}

/-- What follows the name of a type: nothing, or a blank and something else. -/
def EndsName (tail : String) : Prop := tail = "" ∨ ∃ rest, tail = " " ++ rest

theorem exists_words_name (hname : ' ' ∉ name.toList) (htail : EndsName tail) :
    ∃ rest, words (name ++ tail) = name :: rest := by
  obtain rfl | ⟨rest, rfl⟩ := htail
  · exact ⟨[], by rw [String.append_empty, words_eq_singleton hname]⟩
  · exact ⟨words rest, words_append hname rest⟩

/-- What stands before the name of a type. -/
def StartsType (start : String) : Prop := start = "public class " ∨ start = "public interface "

/-- **A line is read as it was written.** -/
theorem typeName?_append {start : String} (hstart : StartsType start) (hname : ' ' ∉ name.toList)
    (htail : EndsName tail) : typeName? (start ++ (name ++ tail)) = some name := by
  obtain ⟨rest, hwords⟩ := exists_words_name hname htail
  obtain ⟨kind, hkind, rfl⟩ : ∃ kind, (kind = "class" ∨ kind = "interface") ∧
      start = "public" ++ (" " ++ (kind ++ " ")) := by
    rcases hstart with rfl | rfl
    · exact ⟨"class", .inl rfl, rfl⟩
    · exact ⟨"interface", .inr rfl, rfl⟩
  have hblank : ' ' ∉ kind.toList := by
    rcases hkind with rfl | rfl <;> decide
  have hstatic : kind ≠ "static" := by
    rcases hkind with rfl | rfl <;> decide
  unfold typeName?
  rw [String.append_assoc, String.append_assoc, String.append_assoc, words_append (by decide),
    words_append hblank, hwords]
  simp [typeNameIn?, hkind, hstatic]

/-- Comments declare nothing: they start otherwise. -/
theorem typeName?_eq_none {text : String} (h : text.toList.head? ≠ some 'p') :
    typeName? text = none := by
  unfold typeName?
  split
  · rename_i ws hwords
    exact absurd (head?_words hwords (by decide)).symm h
  · rfl

/-- A block declares what its head does. -/
theorem filterMap_typeName?_block (head : String) (body : List Line) :
    (textsAt 0 (block head body)).filterMap typeName? = (typeName? head).toList := by
  have hopen : typeName? "\x7b" = none := by decide
  have hclose : typeName? "\x7d" = none := by decide
  rw [textsAt_block_zero, List.filterMap_cons, List.filterMap_cons, List.filterMap_cons, hopen,
    hclose]
  cases typeName? head <;> rfl

variable {f : SourceFile} {head : String} {body : List Line}

/-- A file with one block declares the type that the head of the block names. -/
theorem SourceFile.typeNames_of_block {start : String} (hstart : StartsType start)
    (hbody : f.body = block head body) (hhead : head = start ++ (name ++ tail))
    (hname : ' ' ∉ name.toList) (htail : EndsName tail) : f.typeNames = [name] := by
  unfold typeNames
  rw [hbody, filterMap_typeName?_block, hhead, typeName?_append hstart hname htail]
  rfl

end Lines

end Code

open Code (EndsName)

/-! ## The types of the files -/

section Files

variable (r : Request) (m : RelationshipMap) (tables : List Table) (t : Table)

theorem Entity.typeNames_file : (Entity.file r m t).typeNames = [t.className] := by
  have hcomment : Code.typeName? s!"/// Entity mapped to table '{t.name}'." = none :=
    Code.typeName?_eq_none (by simp [toString])
  have hopen : Code.typeName? "/// <summary>" = none := Code.typeName?_eq_none (by decide)
  have hclose : Code.typeName? "/// </summary>" = none := Code.typeName?_eq_none (by decide)
  have hclass : Code.typeName? ("public class " ++ t.className) = some t.className := by
    have hline := Code.typeName?_append (.inl rfl) t.blank_not_mem_className (.inl rfl)
    rwa [String.append_empty] at hline
  show (Code.textsAt 0 (Entity.code _)).filterMap Code.typeName? = _
  unfold Entity.code
  rw [Code.textsAt_append, Code.textsAt_lines_zero, List.filterMap_append,
    Code.filterMap_typeName?_block, List.filterMap_cons_none hopen]
  show [s!"/// Entity mapped to table '{t.name}'.", "/// </summary>"].filterMap _ ++
    (Code.typeName? ("public class " ++ t.className)).toList = _
  rw [hclass, List.filterMap_cons_none hcomment, List.filterMap_cons_none hclose]
  rfl

theorem Context.typeNames_file (h : ' ' ∉ r.contextName.toList) :
    (Context.file r tables m).typeNames = [r.contextName] := by
  refine Code.SourceFile.typeNames_of_block (.inl rfl) rfl ?_ h (.inr ⟨": DbContext", rfl⟩)
  simp only [String.append_assoc]
  rfl

theorem Registration.typeNames_file :
    (Registration.file r tables).typeNames = ["ServiceCollectionExtensions"] := by
  have hclass : Code.typeName? "public static class ServiceCollectionExtensions" =
      some "ServiceCollectionExtensions" := by decide
  show (Code.textsAt 0 (Code.block _ _)).filterMap Code.typeName? = _
  rw [Code.filterMap_typeName?_block, hclass]
  rfl

namespace Repository

theorem typeNames_genericInterfaceFile (h : ' ' ∉ r.genericRepositoryInterface.toList) :
    (genericInterfaceFile r).typeNames = [r.genericRepositoryInterface ++ "<TEntity>"] := by
  have hname : ' ' ∉ (r.genericRepositoryInterface ++ "<TEntity>").toList := by simp [h]
  refine Code.SourceFile.typeNames_of_block (.inr rfl) rfl ?_ hname
    (.inr ⟨"where TEntity : class", rfl⟩)
  simp only [String.append_assoc]
  rfl

theorem typeNames_genericFile (h : ' ' ∉ r.genericRepository.toList) :
    (genericFile r).typeNames = [r.genericRepository ++ "<TEntity>"] := by
  have hname : ' ' ∉ (r.genericRepository ++ "<TEntity>").toList := by simp [h]
  refine Code.SourceFile.typeNames_of_block (.inl rfl) rfl ?_ hname
    (.inr ⟨": " ++ (r.genericRepositoryInterface ++ "<TEntity> where TEntity : class"), rfl⟩)
  simp only [String.append_assoc]
  rfl

theorem typeNames_interfaceFile (h : ' ' ∉ (r.repositoryInterfaceName t).toList) :
    (interfaceFile r t).typeNames = [r.repositoryInterfaceName t] := by
  refine Code.SourceFile.typeNames_of_block (.inr rfl) rfl ?_ h
    (.inr ⟨": " ++ (r.genericRepositoryInterface ++ ("<" ++ (t.className ++ ">"))), rfl⟩)
  simp only [String.append_assoc]
  rfl

theorem typeNames_file (h : ' ' ∉ (r.repositoryName t).toList) :
    (file r t).typeNames = [r.repositoryName t] := by
  refine Code.SourceFile.typeNames_of_block (.inl rfl) rfl ?_ h
    (.inr ⟨": " ++ (r.genericRepository ++ ("<" ++ (t.className ++ (">, " ++
      r.repositoryInterfaceName t)))), rfl⟩)
  simp only [String.append_assoc]
  rfl

end Repository

namespace Service

theorem typeNames_interfaceFile (h : ' ' ∉ (r.serviceInterfaceName t).toList) :
    (interfaceFile r t).typeNames = [r.serviceInterfaceName t] := by
  refine Code.SourceFile.typeNames_of_block (.inr rfl) rfl ?_ h (.inl rfl)
  rw [String.append_empty]
  rfl

theorem typeNames_file (h : ' ' ∉ (r.serviceName t).toList) :
    (file r t).typeNames = [r.serviceName t] := by
  have htail : EndsName
      (if r.emitsServiceInterfaces then " : " ++ r.serviceInterfaceName t else "") := by
    cases r.emitsServiceInterfaces
    · exact .inl rfl
    · refine .inr ⟨": " ++ r.serviceInterfaceName t, ?_⟩
      rw [← String.append_assoc]
      rfl
  exact Code.SourceFile.typeNames_of_block (.inl rfl) rfl String.append_assoc h htail

end Service

namespace Tests

theorem typeNames_repositoryFile (h : ' ' ∉ (r.repositoryName t ++ "Tests").toList) :
    (repositoryFile r t).typeNames = [r.repositoryName t ++ "Tests"] := by
  refine Code.SourceFile.typeNames_of_block (.inl rfl) rfl ?_ h (.inl rfl)
  simp only [String.append_assoc]
  rfl

theorem typeNames_serviceFile (h : ' ' ∉ (r.serviceName t ++ "Tests").toList) :
    (serviceFile r t).typeNames = [r.serviceName t ++ "Tests"] := by
  refine Code.SourceFile.typeNames_of_block (.inl rfl) rfl ?_ h (.inl rfl)
  simp only [String.append_assoc]
  rfl

end Tests

end Files

namespace Request

variable {r : Request}

/-- **Every file declares the namespace of its kind, and the type that it goes by and no other.**
The type may have parameters. -/
theorem exists_file_of_mem_allArtifacts {a : Artifact} (ha : a ∈ r.allArtifacts)
    (hname : ' ' ∉ a.typeName.toList) :
    ∃ f : Code.SourceFile, a.text = f.text ∧ f.home = r.home a.kind ∧
      ∃ parameters ∈ ["", "<TEntity>"], f.typeNames = [a.typeName ++ parameters] := by
  have hof : ∀ {kind : ArtifactKind} {name : String} {f : Code.SourceFile} (parameters : String),
      parameters ∈ ["", "<TEntity>"] → f.home = r.home kind →
      f.typeNames = [name ++ parameters] →
      ∃ g : Code.SourceFile, (Artifact.of kind name f).text = g.text ∧ g.home = r.home kind ∧
        ∃ parameters ∈ ["", "<TEntity>"], g.typeNames = [name ++ parameters] :=
    fun parameters hmem hhome htypes => ⟨_, rfl, hhome, parameters, hmem, htypes⟩
  have hplain : ∀ {kind : ArtifactKind} {name : String} {f : Code.SourceFile},
      f.home = r.home kind → f.typeNames = [name] →
      ∃ g : Code.SourceFile, (Artifact.of kind name f).text = g.text ∧ g.home = r.home kind ∧
        ∃ parameters ∈ ["", "<TEntity>"], g.typeNames = [name ++ parameters] :=
    fun hhome htypes => hof "" (by decide) hhome (by rw [htypes, String.append_empty])
  rcases List.mem_append.mp ha with ha | ha
  · obtain ⟨t, -, ha⟩ := List.mem_flatMap.mp ha
    simp only [tableArtifacts, List.mem_append, List.mem_cons, List.not_mem_nil, or_false,
      mem_onlyIf] at ha
    rcases ha with ((((rfl | rfl | rfl) | ⟨-, rfl⟩) | ⟨-, rfl⟩) | ⟨-, rfl⟩) | ⟨-, rfl⟩
    · exact hplain rfl (Entity.typeNames_file _ _ _)
    · exact hplain rfl (Repository.typeNames_interfaceFile _ _ hname)
    · exact hplain rfl (Repository.typeNames_file _ _ hname)
    · exact hplain rfl (Service.typeNames_interfaceFile _ _ hname)
    · exact hplain rfl (Service.typeNames_file _ _ hname)
    · exact hplain rfl (Tests.typeNames_repositoryFile _ _ hname)
    · exact hplain rfl (Tests.typeNames_serviceFile _ _ hname)
  · simp only [sharedArtifacts, List.mem_append, List.mem_cons, List.not_mem_nil, or_false,
      mem_onlyIf] at ha
    rcases ha with (rfl | rfl | rfl) | ⟨-, rfl⟩
    · exact hplain rfl (Context.typeNames_file _ _ _ hname)
    · exact hof "<TEntity>" (by decide) rfl (Repository.typeNames_genericInterfaceFile _ hname)
    · exact hof "<TEntity>" (by decide) rfl (Repository.typeNames_genericFile _ hname)
    · exact hplain rfl (Registration.typeNames_file _ _)

end Request

end EntityScaffold
