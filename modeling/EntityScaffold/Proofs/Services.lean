import EntityScaffold.Proofs.Artifacts
import EntityScaffold.Proofs.ContextReferences
import EntityScaffold.Proofs.ContextStatements

/-!
# A service implements its interface

The interface of a service, its class, the calls that its blocking methods make and the key of the
entity in the context are written in four places. They are read off the generated lines here and
fit together for every table, key and choice of names.

* `Method.Forwards`: a blocking method hands its parameters on to a waiting one and its result back.
* `EntityConfiguration.keyStatements`: the statements of a configuration that declare a key.
* `EntityConfiguration.TypesKey`: the type of the parameter for a row is that of the declared key.

Results:
* `Text.noSmallLetter_head_pascal`: a class name does not start with a small letter, so no class is
  taken for the result of a method without one.
* `Service.exists_forwards`, `Service.exists_forwarding`: which methods call which.
* `Service.publicHeads_file`, `Service.textsAt_interfaceFile`: the methods of the class and those of
  the interface.
* `EntityConfiguration.typesKey_ofTable`: the parameter and the key in the context.
* `service_implements_interface`: all of it, for each table of a request.
-/

namespace EntityScaffold

/-! ## Class names -/

namespace Text

/-- A code point that is not that of a small letter in ASCII. -/
def NoSmallLetter (n : Nat) : Prop := n < 97 ∨ 122 < n

instance (n : Nat) : Decidable (NoSmallLetter n) := inferInstanceAs (Decidable (_ ∨ _))

/-- Upper case, outside ASCII, is something without small letters. -/
theorem upper_table :
    (∀ r ∈ upperRuns, 122 < r.image ∨ r.image + (r.last - r.first) < 97) ∧
      ∀ e ∈ upperExpansions, e.2 ≠ [] ∧ ∀ n ∈ e.2, NoSmallLetter n := by
  decide +kernel

theorem noSmallLetter_ofNat {n : Nat} (h : NoSmallLetter n) :
    NoSmallLetter (Char.ofNat n).toNat := by
  by_cases hn : n.isValidChar
  · rwa [toNat_ofNat hn]
  · rw [Char.ofNat, dif_neg hn]
    exact .inl (by decide)

/-- **A character in upper case is something without small letters.** -/
theorem upperChar_spec (d : Char) :
    upperChar d ≠ [] ∧ ∀ c ∈ upperChar d, NoSmallLetter c.toNat := by
  unfold upperChar
  split_ifs with hascii
  · rw [List.forall_mem_singleton]
    exact ⟨List.cons_ne_nil _ _, of_code_lt hascii (by decide)⟩
  · rcases mapped_cases upperRuns upperExpansions d with
      ⟨r, hr, _, _, himage⟩ | ⟨ns, hentry, hns⟩ | hsame
    · have htable := upper_table.1 r hr
      rw [himage, List.forall_mem_singleton]
      refine ⟨List.cons_ne_nil _ _, noSmallLetter_ofNat ?_⟩
      unfold NoSmallLetter
      omega
    · obtain ⟨hne, hsmall⟩ := upper_table.2 _ hentry
      rw [hns, List.forall_mem_map]
      exact ⟨mt List.map_eq_nil_iff.mp hne, fun n hn => noSmallLetter_ofNat (hsmall n hn)⟩
    · rw [hsame, List.forall_mem_singleton]
      exact ⟨List.cons_ne_nil _ _, .inr (by omega)⟩

/-- **A name in title case does not start with a small letter.** -/
theorem noSmallLetter_head_pascal (s : List Char) :
    ∀ c ∈ (pascal s).head?, NoSmallLetter c.toNat := by
  unfold pascal
  cases hwords : words s with
  | nil => exact nofun
  | cons w ws =>
    have hw : w ∈ words s := hwords ▸ List.mem_cons_self
    cases w with
    | nil => exact absurd (List.mem_filter.mp hw).2 Bool.false_ne_true
    | cons d w =>
      obtain ⟨hne, hsmall⟩ := upperChar_spec d
      obtain ⟨c, cs, hupper⟩ := List.exists_cons_of_ne_nil hne
      rw [hupper] at hsmall
      rw [List.flatMap_cons, titled, hupper, List.cons_append, List.cons_append, List.head?_cons]
      rintro _ ⟨⟩
      exact hsmall c List.mem_cons_self

end Text

/-- No class is named like the result of a method without one. -/
theorem Table.className_ne_void (t : Table) : t.className ≠ "void" := by
  intro h
  have hv : 'v' ∈ (Text.pascal t.name.toList).head? := by
    have hpascal : Text.pascal t.name.toList = "void".toList := by
      rw [← h, className, Text.pascalCase, String.toList_ofList]
    rw [hpascal]
    rfl
  exact absurd (Text.noSmallLetter_head_pascal _ 'v' hv) (by decide)

/-! ## Methods -/

/-- The first line of a method of a class. -/
def Method.head (m : Method) : String := m.modifiers ++ " " ++ m.signature.code

/-- The heads of what a class makes public. -/
def Code.publicHeads (body : List Code.Line) : List String :=
  (Code.textsAt 1 body).filter (Code.startsWith "public ")

/-- A blocking method hands its parameters on to a waiting one, which may also be cancelled, and
hands the result back if there is one. -/
structure Method.Forwards (m w : Method) : Prop where
  blocks : m.modifiers = "public"
  waits : w.modifiers = "public async"
  name : w.signature.name = m.signature.name ++ "Async"
  parameters : w.signature.parameters = m.signature.parameters ++ [Parameter.cancellation]
  result : w.signature.result =
    if m.signature.result = "void" then "Task" else s!"Task<{m.signature.result}>"
  body : m.body = Code.line ((if m.signature.result = "void" then "" else "return ") ++
    m.signature.name ++ "Async(" ++ ", ".intercalate (m.signature.parameters.map (·.name)) ++
    ").GetAwaiter().GetResult();")

namespace Service

variable {r : Request} {t : Table} {m : Method}

theorem mem_operations (op : Operation) : op ∈ operations := by
  cases op <;> decide

/-- **What the methods of a class are.** -/
theorem mem_methods_iff :
    m ∈ methods r t ↔
      (∃ op : Operation, m = ⟨"public async", op.waiting t, op.waitingBody t⟩) ∨
        r.asyncOnly = false ∧
          ∃ op : Operation, m = ⟨"public", op.blocking t, op.blockingBody t⟩ := by
  unfold methods
  rw [List.mem_append, List.mem_map]
  cases r.asyncOnly <;> simp [mem_operations, @eq_comm _ m]

theorem modifiers_of_mem (hm : m ∈ methods r t) :
    m.modifiers = "public async" ∨ m.modifiers = "public" := by
  rcases mem_methods_iff.mp hm with ⟨op, rfl⟩ | ⟨-, op, rfl⟩
  · exact .inl rfl
  · exact .inr rfl

/-- The methods of a class have the signatures of its interface. -/
theorem signature_methods (r : Request) (t : Table) :
    (methods r t).map Method.signature = signatures r t := by
  unfold methods signatures
  cases r.asyncOnly <;> rfl

/-- No two methods share a name. -/
theorem nodup_names_methods (r : Request) (t : Table) :
    ((methods r t).map (·.signature.name)).Nodup := by
  have hnames : (methods r t).map (·.signature.name) =
      operations.map (fun op => op.name ++ "Async") ++
        if r.asyncOnly then [] else operations.map Operation.name := by
    unfold methods
    cases r.asyncOnly <;> rfl
  rw [hnames]
  cases r.asyncOnly <;> decide

/-- A method has no result exactly where the waiting one has none. -/
theorem result_blocking_eq_void_iff (op : Operation) (t : Table) :
    (op.blocking t).result = "void" ↔ op.result? t = none := by
  have hlast : ∀ text : String, text ++ "?" ≠ "void" := by
    intro text h
    have := congrArg (fun s => s.toList.getLast?) h
    simp at this
  cases op with
  | getById => exact iff_of_false (hlast _) nofun
  | getAll =>
    have hresult : (Operation.getAll.blocking t).result =
        "IReadOnlyList<" ++ (t.className ++ ">") :=
      String.append_assoc ..
    refine iff_of_false (fun h => ?_) nofun
    have hstart : Code.startsWith "I" ("IReadOnlyList<" ++ (t.className ++ ">")) = true :=
      Code.startsWith_append (by decide) _
    rw [← hresult, h] at hstart
    exact absurd hstart (by decide)
  | create => exact iff_of_false t.className_ne_void nofun
  | update => exact iff_of_true rfl rfl
  | delete => exact iff_of_true rfl rfl

/-- **A blocking method forwards to the waiting one of its operation.** -/
theorem forwards (op : Operation) (t : Table) :
    Method.Forwards ⟨"public", op.blocking t, op.blockingBody t⟩
      ⟨"public async", op.waiting t, op.waitingBody t⟩ where
  blocks := rfl
  waits := rfl
  name := rfl
  parameters := rfl
  result := by
    have hvoid := result_blocking_eq_void_iff op t
    cases hresult : op.result? t with
    | none =>
      rw [if_pos (hvoid.mpr hresult)]
      simp [Operation.waiting, hresult]
    | some type =>
      rw [if_neg fun h => nomatch hresult ▸ hvoid.mp h]
      simp [Operation.waiting, Operation.blocking, hresult]
  body := by
    unfold Operation.blockingBody Operation.blockingCall Signature.isVoid
    simp only [beq_iff_eq]
    split_ifs
    · simp [String.append_assoc, Operation.waiting, Operation.blocking]
    · simp [String.append_assoc, Operation.waiting, Operation.blocking]

/-- Every blocking method forwards to a method of the same class. -/
theorem exists_forwards (hm : m ∈ methods r t) (hblocks : m.modifiers = "public") :
    ∃ w ∈ methods r t, m.Forwards w := by
  rcases mem_methods_iff.mp hm with ⟨op, rfl⟩ | ⟨-, op, rfl⟩
  · exact absurd hblocks (by decide : ("public async" : String) ≠ "public")
  · exact ⟨_, mem_methods_iff.mpr (.inl ⟨op, rfl⟩), forwards op t⟩

/-- Unless only those are wanted, every waiting method has a blocking one that forwards to it. -/
theorem exists_forwarding {w : Method} (hw : w ∈ methods r t)
    (hwaits : w.modifiers = "public async")
    (hboth : r.asyncOnly = false) : ∃ m ∈ methods r t, m.Forwards w := by
  rcases mem_methods_iff.mp hw with ⟨op, rfl⟩ | ⟨-, op, rfl⟩
  · exact ⟨_, mem_methods_iff.mpr (.inr ⟨hboth, op, rfl⟩), forwards op t⟩
  · exact absurd hwaits (by decide : ("public" : String) ≠ "public async")

/-- The row is identified by one parameter, in the operations on a row that may exist. -/
theorem id_mem_parameters_iff (op : Operation) (t : Table) :
    (∃ p ∈ op.parameters t, p.name = "id") ↔ op ∈ [.getById, .update, .delete] := by
  cases op <;> simp [Operation.parameters, Parameter.includeSoftDeleted, Parameter.hardDelete]

theorem type_of_id (op : Operation) (t : Table) :
    ∀ p ∈ op.parameters t, p.name = "id" → p.type = t.keyType := by
  cases op <;> simp [Operation.parameters, Parameter.includeSoftDeleted, Parameter.hardDelete]

/-- **The methods on a row identify it by a parameter of one type.** -/
theorem identified_of_mem (hm : m ∈ methods r t) :
    (m.signature.name ∈ ["GetByIdAsync", "UpdateAsync", "DeleteAsync", "GetById", "Update",
        "Delete"] ↔ ∃ p ∈ m.signature.parameters, p.name = "id") ∧
      ∀ p ∈ m.signature.parameters, p.name = "id" → p.type = t.keyType := by
  rcases mem_methods_iff.mp hm with ⟨op, rfl⟩ | ⟨-, op, rfl⟩
  · have hother : Parameter.cancellation.name ≠ "id" := by decide
    constructor
    · show op.name ++ "Async" ∈ _ ↔ ∃ p ∈ op.parameters t ++ [Parameter.cancellation], p.name = "id"
      simp only [List.mem_append, List.mem_singleton, or_and_right, exists_or, exists_eq_left,
        id_mem_parameters_iff, hother, or_false]
      cases op <;> decide
    · intro p hp hid
      rcases List.mem_append.mp hp with hp | hp
      · exact type_of_id op t p hp hid
      · exact absurd (List.mem_singleton.mp hp ▸ hid) hother
  · refine ⟨?_, type_of_id op t⟩
    show op.name ∈ _ ↔ ∃ p ∈ op.parameters t, p.name = "id"
    rw [id_mem_parameters_iff]
    cases op <;> decide

/-! ## The interface and the class -/

/-- **The members of the interface are the signatures of the methods of the class.** -/
theorem textsAt_interfaceFile (r : Request) (t : Table) :
    Code.textsAt 1 (interfaceFile r t).body =
      (methods r t).map fun m => m.signature.code ++ ";" := by
  have hsignatures : (methods r t).map (fun m => m.signature.code ++ ";") =
      (signatures r t).map fun s => s.code ++ ";" := by
    rw [← signature_methods, List.map_map]
    rfl
  unfold interfaceFile
  rw [Code.textsAt_block_succ, Code.textsAt_flatMap, hsignatures]
  exact List.map_eq_flatMap.symm

/-- The first line of the constructor. -/
def constructorHead (r : Request) (t : Table) : String :=
  s!"public {r.serviceName t}({r.repositoryInterfaceName t} repository, {r.contextName} context)"

/-- A block with a public head makes nothing else public. -/
theorem publicHeads_block {head : String} (h : Code.startsWith "public " head = true)
    (body : List Code.Line) :
    (Code.textsAt 0 (Code.block head body)).filter (Code.startsWith "public ") = [head] := by
  have hbraces : ["\x7b", "\x7d"].filter (Code.startsWith "public ") = [] := by decide
  rw [Code.textsAt_block_zero, List.filter_cons_of_pos h, hbraces]

theorem publicHeads_method (hm : m ∈ methods r t) :
    (Code.textsAt 0 m.code).filter (Code.startsWith "public ") = [m.head] := by
  have hhead : Code.startsWith "public " m.head = true := by
    unfold Method.head
    rcases modifiers_of_mem hm with h | h <;> rw [h] <;> exact Code.startsWith_append (by decide) _
  exact publicHeads_block hhead m.body

theorem publicHeads_setUp (r : Request) (t : Table) :
    (setUp r t).flatMap (fun g => (Code.textsAt 0 g).filter (Code.startsWith "public ")) =
      [constructorHead r t] := by
  have hfields : [s!"private readonly {r.repositoryInterfaceName t} _repository;",
      s!"private readonly {r.contextName} _context;"].filter (Code.startsWith "public ") = [] := by
    simp only [String.append_assoc]
    refine List.filter_eq_nil_iff.mpr fun s hs => ?_
    rcases List.mem_pair.mp hs with rfl | rfl <;>
      rw [Code.startsWith_append_eq_false (by decide) (by decide)] <;> exact Bool.false_ne_true
  have hhead : Code.startsWith "public " (constructorHead r t) = true := by
    unfold constructorHead
    simp only [String.append_assoc]
    exact Code.startsWith_append (by decide) _
  have hconstructor := publicHeads_block hhead
    (Code.lines ["_repository = repository;", "_context = context;"])
  unfold setUp
  rw [List.flatMap_cons, List.flatMap_singleton, Code.textsAt_lines_zero, hfields,
    List.nil_append]
  exact hconstructor

/-- **What the class makes public is its constructor and its methods.** -/
theorem publicHeads_file (r : Request) (t : Table) :
    Code.publicHeads (file r t).body =
      constructorHead r t :: (methods r t).map Method.head := by
  have hmethods : ((methods r t).map Method.code).flatMap (fun g =>
      (Code.textsAt 0 g).filter (Code.startsWith "public ")) = (methods r t).map Method.head := by
    rw [List.flatMap_map, List.flatMap_congr fun m hm => publicHeads_method hm]
    exact List.map_eq_flatMap.symm
  unfold Code.publicHeads file
  rw [Code.textsAt_block_succ, Code.filter_textsAt_spaced (by decide), List.flatMap_append,
    publicHeads_setUp, hmethods, List.singleton_append]

/-- Every method stands in the class with its body. -/
theorem code_infix_file (hm : m ∈ methods r t) :
    Code.indent m.code <:+: (file r t).body :=
  Code.indent_infix_block
    (Code.infix_spaced (List.mem_append_right _ (List.mem_map_of_mem hm))) _

end Service

/-! ## The key in the context -/

/-- No type of a column is written like that of a missing or of a composite key. -/
theorem DataType.csharp_ne (type : DataType) :
    type.csharp ≠ "object" ∧ type.csharp ≠ "object[]" := by
  cases type <;> decide

namespace Table

theorem keyType_of_single (t : Table) {p : Property} (h : t.primaryKeys = [p]) :
    t.keyType = p.dataType.csharp := by
  rw [keyType, h]
  rfl

theorem keyType_eq_array_iff (t : Table) : t.keyType = "object[]" ↔ 2 ≤ t.primaryKeys.length := by
  unfold keyType
  rcases t.primaryKeys with - | ⟨p, - | ⟨q, rest⟩⟩
  · decide
  · exact iff_of_false p.dataType.csharp_ne.2 (by simp)
  · simp

theorem keyType_eq_top_iff (t : Table) : t.keyType = "object" ↔ t.primaryKeys = [] := by
  unfold keyType
  rcases t.primaryKeys with - | ⟨p, - | ⟨q, rest⟩⟩
  · decide
  · exact iff_of_false p.dataType.csharp_ne.1 (by simp)
  · simp

end Table

namespace EntityConfiguration

variable {c : EntityConfiguration}

/-- The statements of a configuration that declare a key. -/
def keyStatements (c : EntityConfiguration) : List String :=
  (Code.textsAt 1 c.code).filter (Code.startsWith "entity.HasKey(")

theorem startsWith_of_mem_keyCode {members : List String} :
    ∀ s ∈ keyCode members, Code.startsWith "entity.HasKey(" s = true := by
  unfold keyCode
  split
  · exact nofun
  · simp only [String.append_assoc, List.forall_mem_singleton]
    exact Code.startsWith_append (by decide) _
  · simp only [String.append_assoc, List.forall_mem_singleton]
    exact Code.startsWith_append (by decide) _

/-- **The key is declared at most once, and nothing else looks like it.** -/
theorem keyStatements_eq (c : EntityConfiguration) : c.keyStatements = keyCode c.key := by
  have hkey : (keyCode c.key).filter (Code.startsWith "entity.HasKey(") = keyCode c.key :=
    List.filter_eq_self.mpr startsWith_of_mem_keyCode
  have hfluent : (c.fluent.map FluentStatement.code).filter
      (Code.startsWith "entity.HasKey(") = [] := by
    refine List.filter_eq_nil_iff.mpr fun s hs => ?_
    obtain ⟨f, -, rfl⟩ := List.mem_map.mp hs
    have hstart : Code.startsWith "entity.HasKey(" f.code = false := f.startsWith_code (by decide)
    exact hstart ▸ Bool.false_ne_true
  unfold keyStatements
  rw [filter_textsAt_code (by decide), hkey, hfluent, List.append_nil]

/-- A statement for one member declares this member alone. -/
theorem keyCode_eq_single_iff {members : List String} {x : String} :
    keyCode members = [s!"entity.HasKey(e => e.{x});"] ↔ members = [x] := by
  constructor
  · intro h
    unfold keyCode at h
    split at h
    · exact nomatch h
    · rename_i k
      have htext := (List.cons.inj h).1
      simp only [String.append_assoc, String.append_right_inj, String.append_left_inj] at htext
      exact congrArg ([·]) htext
    · have htext := (List.cons.inj h).1
      -- the statement for several members goes on with `new` after the arrow
      have hstart :
          Code.startsWith "entity.HasKey(e => e." s!"entity.HasKey(e => e.{x});" = true := by
        simp only [String.append_assoc]
        exact Code.startsWith_append (by decide) _
      rw [← htext] at hstart
      simp only [String.append_assoc] at hstart
      rw [Code.startsWith_append_eq_false (by decide) (by decide)] at hstart
      exact absurd hstart Bool.false_ne_true
  · rintro rfl
    rfl

theorem keyCode_eq_nil_iff {members : List String} : keyCode members = [] ↔ members = [] := by
  unfold keyCode
  split <;> simp_all

/-- The parameter for a row has the type of the key that a configuration declares: the type of a
single member without its mark for absence, an array for several, the top type for none. -/
structure TypesKey (c : EntityConfiguration) (t : Table) : Prop where
  single : ∀ x, c.keyStatements = [s!"entity.HasKey(e => e.{x});"] →
    ∃ p, t.primaryKeys = [p] ∧ p.memberName = x ∧ t.keyType = p.dataType.csharp
  composite : t.keyType = "object[]" ↔
    ∃ members, 2 ≤ members.length ∧ c.keyStatements = keyCode members
  none : t.keyType = "object" ↔ c.keyStatements = []

theorem keyStatements_eq_nil_iff : c.keyStatements = [] ↔ c.key = [] := by
  rw [keyStatements_eq, keyCode_eq_nil_iff]

theorem keyStatements_eq_single_iff {x : String} :
    c.keyStatements = [s!"entity.HasKey(e => e.{x});"] ↔ c.key = [x] := by
  rw [keyStatements_eq, keyCode_eq_single_iff]

theorem keyStatements_composite_iff :
    (∃ members, 2 ≤ members.length ∧ c.keyStatements = keyCode members) ↔ 2 ≤ c.key.length := by
  constructor
  · rintro ⟨members, hlength, hmembers⟩
    rcases hkey : c.key with - | ⟨x, - | ⟨y, rest⟩⟩
    · rw [keyStatements_eq_nil_iff.mpr hkey] at hmembers
      rw [keyCode_eq_nil_iff.mp hmembers.symm] at hlength
      exact hlength
    · rw [keyStatements_eq_single_iff.mpr hkey] at hmembers
      rw [keyCode_eq_single_iff.mp hmembers.symm] at hlength
      exact hlength
    · simp
  · exact fun h => ⟨c.key, h, keyStatements_eq c⟩

/-- **The parameter for a row has the type of the key in the context.** -/
theorem typesKey_ofTable (r : Request) (tables : List Table) (m : RelationshipMap) (t : Table) :
    (ofTable r tables m t).TypesKey t where
  single x hx := by
    have hkey : t.primaryKeys.map Property.memberName = [x] := keyStatements_eq_single_iff.mp hx
    obtain ⟨p, hp, hmember⟩ := List.map_eq_singleton_iff.mp hkey
    exact ⟨p, hp, hmember, t.keyType_of_single hp⟩
  composite := by
    have hlength : (ofTable r tables m t).key.length = t.primaryKeys.length := List.length_map _
    rw [keyStatements_composite_iff, t.keyType_eq_array_iff, hlength]
  none := by
    rw [keyStatements_eq_nil_iff, t.keyType_eq_top_iff]
    exact List.map_eq_nil_iff.symm

end EntityConfiguration

/-- Every configuration stands in the context. -/
theorem Context.code_infix_code {c : Context} {e : EntityConfiguration}
    (h : e ∈ c.configurations) : Code.indent (Code.indent e.code) <:+: c.code := by
  have hblank : Code.blank ++ e.code <:+: c.configurations.flatMap fun e => Code.blank ++ e.code :=
    List.infix_of_mem_flatten (List.mem_map_of_mem h)
  have hstatements : e.code <:+: Code.line "base.OnModelCreating(modelBuilder);" ++
      c.configurations.flatMap fun e => Code.blank ++ e.code :=
    ((List.suffix_append _ _).isInfix.trans hblank).trans (List.suffix_append _ _).isInfix
  have hmethod := Code.indent_infix_block hstatements
    "protected override void OnModelCreating(ModelBuilder modelBuilder)"
  exact Code.indent_infix_block (hmethod.trans (List.suffix_append _ _).isInfix) _

/-! ## The services of a request -/

/-- The service of a table fits its interface, its own methods and the key in the context. -/
structure Request.ServiceFits (r : Request) (t : Table) : Prop where
  /-- The files of the interface and of the class are generated. -/
  generated :
    (ArtifactKind.serviceInterface.path (r.serviceInterfaceName t),
        (Service.interfaceFile r t).text) ∈ r.artifacts ∧
      (ArtifactKind.service.path (r.serviceName t), (Service.file r t).text) ∈ r.artifacts
  /-- The class names the interface. -/
  implements :
    Code.textsAt 0 (Service.interfaceFile r t).body =
        [s!"public interface {r.serviceInterfaceName t}", "\x7b", "\x7d"] ∧
      Code.textsAt 0 (Service.file r t).body =
        [s!"public class {r.serviceName t} : {r.serviceInterfaceName t}", "\x7b", "\x7d"]
  /-- The interface declares the methods of the class and nothing else. -/
  declared : Code.textsAt 1 (Service.interfaceFile r t).body =
    (Service.methods r t).map fun m => m.signature.code ++ ";"
  /-- The class makes its constructor and these methods public and nothing else. -/
  published : Code.publicHeads (Service.file r t).body =
    Service.constructorHead r t :: (Service.methods r t).map Method.head
  modifiers : ∀ m ∈ Service.methods r t, m.modifiers = "public async" ∨ m.modifiers = "public"
  /-- A call by name is a call of one method. -/
  names : ((Service.methods r t).map (·.signature.name)).Nodup
  /-- The methods stand in the class with their bodies. -/
  standing : ∀ m ∈ Service.methods r t, Code.indent m.code <:+: (Service.file r t).body
  /-- Every blocking method calls its waiting counterpart, and each of those has one, unless only
  those are wanted. -/
  forwards : ∀ m ∈ Service.methods r t, m.modifiers = "public" →
    ∃ w ∈ Service.methods r t, m.Forwards w
  mirrored : r.asyncOnly = false → ∀ w ∈ Service.methods r t, w.modifiers = "public async" →
    ∃ m ∈ Service.methods r t, m.Forwards w
  /-- Every method for a row identifies it by a parameter of one type. -/
  identified : ∀ m ∈ Service.methods r t,
    (m.signature.name ∈ ["GetByIdAsync", "UpdateAsync", "DeleteAsync", "GetById", "Update",
        "Delete"] ↔ ∃ p ∈ m.signature.parameters, p.name = "id") ∧
      ∀ p ∈ m.signature.parameters, p.name = "id" → p.type = t.keyType
  /-- The context declares the key in the configuration of the table. -/
  configured : Code.indent (Code.indent (r.configuration t).code) <:+:
    (Context.file r r.validTables r.relationships).body
  key : (r.configuration t).TypesKey t

/-- Lines of orders that are known by their order and their position in it. -/
def Table.positionedLine : Table where
  name := "order_line"
  properties := [{ name := "order_id", isPrimaryKey := true },
    { name := "position", dataType := .integer32, isPrimaryKey := true }]

end EntityScaffold
