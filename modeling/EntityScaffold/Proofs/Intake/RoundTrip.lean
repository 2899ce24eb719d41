import EntityScaffold.Proofs.Intake.Respelling

/-!
# Requests read back

What was read is written out field by field in a normal form: no blank texts, types under their
canonical words, flags and numbers as such. The normal form is read as what was written, under the
names of the fields, under their camel-case spellings and under any mixture of both.

* `Codec.Restores`: a value is read back from what is written for it.
* `Codec.Settles`: whatever is read is read back.
* `Value.camelKeys`: a document with all keys in camel case.

Results:
* `Codec.settles_list`, `RecordShape.restores`: lists and records are read back when their parts
  are.
* `Property.settles`, `Table.settles`, `Naming.settles`, `Request.settles`: the parts of a request.
* `Value.KeysNamed.respells_camelKeys`: keys in camel case are other spellings.
* `request_read_back`: a request is read back from all its fields, whatever the spellings of the
  keys and the order of members, bare or under its key.
-/

namespace EntityScaffold

namespace Codec

variable {α : Type} {c : Codec α}

/-- A value is read back from what is written for it. -/
def Restores (c : Codec α) (a : α) : Prop := ∀ o, c.read o (c.dump a) = .ok a

/-- Whatever is read is read back. -/
def Settles (c : Codec α) : Prop := ∀ ⦃o : Origin⦄ ⦃v : Value⦄ ⦃a : α⦄,
  c.read o v = .ok a → c.Restores a

/-! ## Values without parts -/

theorem restores_bool (b : Bool) : bool.Restores b := fun _ => rfl

theorem restores_text (s : String) : text.Restores s := fun _ => rfl

theorem restores_float (x : Binary64) : float.Restores x := fun _ => rfl

theorem restores_oneOf (all : List α) {token : α → String} {ofSpelling? : String → Option α} {a : α}
    (h : ofSpelling? (token a) = some a) : (oneOf all token ofSpelling?).Restores a := by
  intro o
  show readOneOf (all.map token) ofSpelling? (.text (token a)) = .ok a
  simp only [readOneOf, h]

/-- A text that is read as it stands. -/
def ReadsAsIs (read : Value → Reading String) : Prop :=
  ∀ ⦃v : Value⦄ ⦃s : String⦄, read v = .ok s → v = .text s

theorem readsAsIs_readText : ReadsAsIs readText := by
  intro v s h
  unfold readText at h
  split at h <;> cases h
  rfl

theorem readsAsIs_readSomeText : ReadsAsIs readSomeText := by
  intro v s h
  obtain ⟨t, htext, h⟩ := Reading.bind_eq_ok h
  split at h
  · cases h
  · cases h
    exact readsAsIs_readText htext

theorem settles_someText : someText.Settles := by
  intro o v s h
  obtain rfl := readsAsIs_readSomeText h
  exact fun _ => h

theorem restores_textWhere {accepts : String → Bool} {cause : String → Rejection}
    {read : Value → Reading String} {s : String} (hread : read (.text s) = .ok s)
    (haccepts : accepts s = true) : (textWhere accepts cause read).Restores s :=
  fun _ => readTextWhere_eq_ok_iff.mpr ⟨hread, haccepts⟩

theorem settles_textWhere {accepts : String → Bool} {cause : String → Rejection}
    {read : Value → Reading String} (hread : ReadsAsIs read) :
    (textWhere accepts cause read).Settles := by
  intro o v s h
  obtain ⟨htext, haccepts⟩ := readTextWhere_eq_ok_iff.mp h
  obtain rfl := hread htext
  exact restores_textWhere htext haccepts

theorem restores_textUnlessBlank {t : String} (ht : Text.isBlank t = false) :
    textUnlessBlank.Restores (some t) := by
  intro o
  show Except.ok (if Text.isBlank t then none else some t) = .ok (some t)
  rw [ht]
  rfl

theorem settles_textUnlessBlank : textUnlessBlank.Settles := by
  intro o v x hread
  replace hread : readTextUnlessBlank v = .ok x := hread
  unfold readTextUnlessBlank at hread
  split at hread
  · rename_i t
    cases ht : Text.isBlank t with
    | true =>
      rw [ht] at hread
      cases hread
      exact fun _ => rfl
    | false =>
      rw [ht] at hread
      cases hread
      exact restores_textUnlessBlank ht
  · rename_i hnot
    unfold readOptional at hread
    split at hread
    · cases hread
      exact fun _ => rfl
    · obtain ⟨t, ht, -⟩ := Reading.map_eq_ok hread
      exact absurd (readsAsIs_readText ht) (hnot t)

theorem settles_intFrom (least : Int) : (intFrom least).Settles := by
  intro o v n h o'
  obtain ⟨m, -, h⟩ := Reading.bind_eq_ok (x := readInt v) h
  split at h
  · cases h
  · rename_i hleast
    cases h
    show (if n < least then Reading.fail (.belowLeast least) else .ok n) = .ok n
    exact if_neg hleast

/-! ## Values that may be absent -/

/-- What is there is read as such. -/
theorem readOptional_of_ne_null (f : Value → Reading α) {v : Value} (h : v ≠ .null) :
    readOptional f v = (f v).map some := by
  unfold readOptional
  split
  · exact absurd rfl h
  · rfl

theorem restores_optional (hnull : ∀ a, c.dump a ≠ .null) {x : Option α}
    (h : ∀ a, x = some a → c.Restores a) : c.optional.Restores x := by
  intro o
  cases x with
  | none => rfl
  | some a =>
    show readOptional (c.read o) (c.dump a) = .ok (some a)
    rw [readOptional_of_ne_null _ (hnull a), h a rfl o]
    rfl

theorem settles_optional (hnull : ∀ a, c.dump a ≠ .null) (h : c.Settles) : c.optional.Settles := by
  intro o v x hread
  refine restores_optional hnull fun a ha => ?_
  subst ha
  have hread : readOptional (c.read o) v = .ok (some a) := hread
  unfold readOptional at hread
  split at hread
  · cases hread
  · obtain ⟨b, hb, he⟩ := Reading.map_eq_ok hread
    cases he
    exact h hb

/-! ## Lists -/

theorem restores_list {as : List α} (h : ∀ a ∈ as, c.Restores a) : c.list.Restores as := by
  intro o
  have items : ∀ index, readItems (c.read o) index (as.map c.dump) = .ok as := by
    induction as with
    | nil => exact fun _ => rfl
    | cons a as ih =>
      intro index
      rw [List.forall_mem_cons] at h
      simp only [List.map_cons, readItems, h.1 o, ih h.2]
      rfl
  exact items 0

theorem restores_of_readItems (h : c.Settles) {o : Origin} {vs : List Value} {index : Nat}
    {as : List α} (hread : readItems (c.read o) index vs = .ok as) : ∀ a ∈ as, c.Restores a := by
  induction vs generalizing index as with
  | nil =>
    cases hread
    exact fun a ha => absurd ha List.not_mem_nil
  | cons v vs ih =>
    obtain ⟨a, rest, ha, hrest, rfl⟩ := Reading.map₂_eq_ok hread
    exact List.forall_mem_cons.mpr ⟨h (Reading.eq_ok_of_under ha), ih hrest⟩

/-- **Lists of values that are read back are read back.** -/
theorem settles_list (h : c.Settles) : c.list.Settles := by
  intro o v as hread
  cases v with
  | scalar s => cases hread
  | object ms => cases hread
  | list vs => exact restores_list (restores_of_readItems h hread)

end Codec

/-! ## Records -/

namespace RecordShape

variable {σ : Type} {shape : RecordShape σ} {s : σ}

/-- The fields are read back from a record one by one, and together they do `fill`. -/
inductive FieldsRestore (s : σ) : List (Field σ) → (σ → σ) → Prop
  | nil : FieldsRestore s [] id
  | cons {f : Field σ} {fs : List (Field σ)} {g fill : σ → σ}
    (first : ∀ o, f.read o (f.dump s) = .ok g) (rest : FieldsRestore s fs fill) :
    FieldsRestore s (f :: fs) (fill ∘ g)

/-- The members of a record's object. -/
def dumpMembers (shape : RecordShape σ) (s : σ) : List (Scalar × Value) :=
  shape.fields.map fun f => (.text f.name, f.dump s)

theorem dump_eq (shape : RecordShape σ) (s : σ) :
    shape.dump s = .object (shape.dumpMembers s) := by
  unfold dump dumpMembers Value.ofMembers
  rw [List.map_map]
  rfl

theorem keys_dumpMembers (shape : RecordShape σ) (s : σ) :
    (shape.dumpMembers s).map Prod.fst = (shape.fields.map Field.name).map Scalar.text := by
  unfold dumpMembers
  simp only [List.map_map]
  rfl

theorem nodup_keys_dumpMembers (distinct : (shape.fields.map Field.name).Nodup) (s : σ) :
    ((shape.dumpMembers s).map Prod.fst).Nodup := by
  rw [keys_dumpMembers]
  exact distinct.map fun _ _ h => by cases h; rfl

/-- A record's object holds each field under its name. -/
theorem find?_dumpMembers (h : shape.Respellable) (distinct : (shape.fields.map Field.name).Nodup)
    {f : Field σ} (hf : f ∈ shape.fields) :
    shape.find? (shape.dumpMembers s) f = some (f.name, f.dump s) := by
  have hlookup : (shape.dumpMembers s).lookup (.text f.name) = some (f.dump s) :=
    (mem_iff_lookup (nodup_keys_dumpMembers distinct s)).mp (List.mem_map_of_mem hf)
  refine find?_of_lookup h.camel (.inl rfl) hlookup fun k hk hne => lookup_of_not_mem fun hmem => ?_
  rw [keys_dumpMembers, List.mem_map] at hmem
  obtain ⟨name, hname, he⟩ := hmem
  cases he
  obtain ⟨g, hg, rfl⟩ := List.mem_map.mp hname
  have hown := fieldName_of_spells (h.names g hg) (.inl rfl)
  exact hne (hown.symm.trans (fieldName_of_spells (h.names f hf) hk))

theorem readFields_dumpMembers (h : shape.Respellable)
    (distinct : (shape.fields.map Field.name).Nodup) {o : Origin} {fields : List (Field σ)}
    (hfields : fields ⊆ shape.fields) {fill : σ → σ} (hrestore : FieldsRestore s fields fill) :
    shape.readFields o (shape.dumpMembers s) fields = .ok fill := by
  induction hrestore with
  | nil => rfl
  | cons first _ ih =>
    rw [List.cons_subset] at hfields
    simp only [readFields, readField, find?_dumpMembers h distinct hfields.1, first o,
      ih hfields.2]
    rfl

/-- **A record is read back when its fields are.** -/
theorem restores (h : shape.Respellable) (distinct : (shape.fields.map Field.name).Nodup)
    {fill : σ → σ} (hrestore : FieldsRestore s shape.fields fill) (hfill : fill shape.initial = s)
    (hrule : shape.rule s = none) : shape.codec.Restores s := by
  intro o
  show shape.read o (shape.dump s) = .ok s
  rw [dump_eq]
  refine read_object_eq_ok_iff.mpr ⟨fill, ?_, ?_, hfill, hrule⟩
  · exact readFields_dumpMembers h distinct (List.Subset.refl _) hrestore
  · rw [strayKeys_eq_nil_iff h.refused]
    intro x hx
    rw [keys_dumpMembers, List.map_map] at hx
    obtain ⟨f, hf, rfl⟩ := List.mem_map.mp hx
    exact ⟨f, hf, f.name, f.dump s, rfl, find?_dumpMembers h distinct hf⟩

end RecordShape

section Fields

variable {σ α : Type} {name : String} {codec : Codec α} {get : σ → α} {set : α → σ → σ} {s : σ}

theorem Field.restores_of (h : codec.Restores (get s)) (o : Origin) :
    (Field.of name codec get set).read o ((Field.of name codec get set).dump s) =
      .ok (set (get s)) := by
  show (codec.read o (codec.dump (get s))).map set = _
  rw [h o]
  rfl

theorem Field.restores_of_mandatory (h : codec.Restores (get s)) (o : Origin) :
    (Field.of name codec get set).mandatory.read o
      ((Field.of name codec get set).mandatory.dump s) = .ok (set (get s)) := by
  show (Field.of name codec get set).read o ((Field.of name codec get set).dump s) = _
  exact restores_of h o

theorem Field.exists_of_read_mandatory {o : Origin} {v : Value} {g : σ → σ}
    (h : (Field.of name codec get set).mandatory.read o v = .ok g) :
    ∃ a, codec.read o v = .ok a ∧ g = set a :=
  Reading.map_eq_ok h

end Fields

/-- Where a field must be given, what all fields keep need not hold of the initial record, as long
as that field brings it about. -/
theorem RecordShape.read_induction_mandatory {σ : Type} {shape : RecordShape σ} {P : σ → Prop}
    {f : Field σ} {fs : List (Field σ)} (hkeeps : shape.Keeps P) (hfields : shape.fields = f :: fs)
    (hrequired : f.required = true)
    (hinitial : ∀ o v g, f.read o v = .ok g → P (g shape.initial)) {o : Origin} {v : Value} {s : σ}
    (h : shape.read o v = .ok s) : P s := by
  cases v with
  | scalar x => cases h
  | list vs => cases h
  | object ms =>
    obtain ⟨fill, hfill, -, rfl, -⟩ := read_object_eq_ok_iff.mp h
    rw [hfields] at hfill
    obtain ⟨first, rest, hfirst, hrest, rfl⟩ := Reading.map₂_eq_ok hfill
    refine keeps_readFields hkeeps ?_ hrest (first shape.initial) ?_
    · exact hfields ▸ List.subset_cons_self f fs
    · unfold readField at hfirst
      split at hfirst
      · exact hinitial o _ first (Reading.eq_ok_of_under hfirst)
      · rw [if_pos hrequired] at hfirst
        cases hfirst

/-! ## Columns -/

/-- The fields of a column that do not take every value of their type hold values that are read
back. -/
structure Property.Restorable (p : Property) : Prop where
  name : Codec.someText.Restores p.name
  referencedTable : Codec.textUnlessBlank.Restores p.referencedTable
  referencedProperty : Codec.textUnlessBlank.Restores p.referencedProperty
  navigation : Codec.textUnlessBlank.Restores p.navigation
  deleteBehavior : Codec.textUnlessBlank.Restores p.deleteBehavior
  constraintName : Codec.textUnlessBlank.Restores p.constraintName
  maxLength : (Codec.optional (.intFrom 1)).Restores p.maxLength
  minLength : (Codec.optional (.intFrom 0)).Restores p.minLength
  regexPattern : Codec.textUnlessBlank.Restores p.regexPattern
  columnType : Codec.textUnlessBlank.Restores p.columnType

theorem Codec.settles_optional_intFrom (least : Int) :
    (Codec.optional (.intFrom least)).Settles :=
  settles_optional (fun _ h => by cases h) (settles_intFrom least)

theorem Property.restorable_of_read {o : Origin} {v : Value} {p : Property}
    (h : Property.shape.read o v = .ok p) : p.Restorable := by
  have htext := Codec.settles_textUnlessBlank
  have hint := Codec.settles_optional_intFrom
  refine RecordShape.read_induction_mandatory (P := Restorable) ?_ rfl rfl ?_ h
  · intro f hf o v g hg
    simp only [Property.shape, List.mem_cons, List.not_mem_nil, or_false] at hf
    rcases hf with rfl | rfl | rfl | rfl | rfl | rfl | rfl | rfl | rfl | rfl | rfl | rfl | rfl |
      rfl | rfl | rfl | rfl | rfl | rfl | rfl | rfl
    -- from the last field to the first, so that each goal has the number of its field
    on_goal 19 => exact Field.keeps_of hg fun a ha s hs => { hs with columnType := htext ha }
    on_goal 18 => exact Field.keeps_of hg fun a ha s hs => { hs with regexPattern := htext ha }
    on_goal 12 => exact Field.keeps_of hg fun a ha s hs => { hs with minLength := hint 0 ha }
    on_goal 11 => exact Field.keeps_of hg fun a ha s hs => { hs with maxLength := hint 1 ha }
    on_goal 10 => exact Field.keeps_of hg fun a ha s hs => { hs with constraintName := htext ha }
    on_goal 9 => exact Field.keeps_of hg fun a ha s hs => { hs with deleteBehavior := htext ha }
    on_goal 8 => exact Field.keeps_of hg fun a ha s hs => { hs with navigation := htext ha }
    on_goal 7 => exact Field.keeps_of hg fun a ha s hs => { hs with referencedProperty := htext ha }
    on_goal 6 => exact Field.keeps_of hg fun a ha s hs => { hs with referencedTable := htext ha }
    on_goal 1 =>
      obtain ⟨a, ha, rfl⟩ := Field.exists_of_read_mandatory hg
      exact fun s hs => { hs with name := Codec.settles_someText ha }
    -- the other fields take every value of their type
    all_goals exact Field.keeps_of hg fun a ha s hs => { hs with }
  · intro o v g hg
    obtain ⟨a, ha, rfl⟩ := Field.exists_of_read_mandatory hg
    exact ⟨Codec.settles_someText ha, fun _ => rfl, fun _ => rfl, fun _ => rfl, fun _ => rfl,
      fun _ => rfl, fun _ => rfl, fun _ => rfl, fun _ => rfl, fun _ => rfl⟩

theorem DataType.ofSpelling?_token (t : DataType) : ofSpelling? t.token = some t := by
  cases t <;> decide +kernel

theorem Property.restores {p : Property} (h : p.Restorable) : Property.shape.codec.Restores p := by
  have hbool := Codec.restores_bool
  have hfloat : ∀ x, (Codec.optional .float).Restores x := fun _ =>
    Codec.restores_optional (fun _ h => by cases h) fun a _ => Codec.restores_float a
  have htype := Codec.restores_oneOf DataType.all (DataType.ofSpelling?_token p.dataType)
  have hfields : RecordShape.FieldsRestore p Property.shape.fields _ :=
      .cons (Field.restores_of_mandatory h.name) <| .cons (Field.restores_of htype) <|
      .cons (Field.restores_of (hbool _)) <| .cons (Field.restores_of (hbool _)) <|
      .cons (Field.restores_of (hbool _)) <| .cons (Field.restores_of h.referencedTable) <|
      .cons (Field.restores_of h.referencedProperty) <| .cons (Field.restores_of h.navigation) <|
      .cons (Field.restores_of h.deleteBehavior) <| .cons (Field.restores_of h.constraintName) <|
      .cons (Field.restores_of h.maxLength) <| .cons (Field.restores_of h.minLength) <|
      .cons (Field.restores_of (hfloat _)) <| .cons (Field.restores_of (hfloat _)) <|
      .cons (Field.restores_of (hbool _)) <| .cons (Field.restores_of (hbool _)) <|
      .cons (Field.restores_of (hbool _)) <| .cons (Field.restores_of h.regexPattern) <|
      .cons (Field.restores_of h.columnType) <| .cons (Field.restores_of (hbool _)) <|
      .cons (Field.restores_of (hbool _)) .nil
  exact RecordShape.restores Property.respellable (by decide) hfields rfl rfl

theorem Property.settles : Property.shape.codec.Settles :=
  fun _ _ _ h => restores (restorable_of_read h)

/-! ## Tables, naming options and requests -/

theorem Table.restores {t : Table} (h : (Codec.list Property.shape.codec).Restores t.properties) :
    Table.shape.codec.Restores t := by
  have hflag : (Codec.optional .bool).Restores t.softDelete :=
    Codec.restores_optional (fun _ h => by cases h) fun b _ => Codec.restores_bool b
  have hfields : RecordShape.FieldsRestore t Table.shape.fields _ :=
    .cons (Field.restores_of (Codec.restores_text _)) <| .cons (Field.restores_of h) <|
      .cons (Field.restores_of hflag) .nil
  exact RecordShape.restores Table.respellable (by decide) hfields rfl rfl

theorem Table.settles : Table.shape.codec.Settles := by
  intro o v t h
  refine restores (RecordShape.read_induction (P := fun t =>
    (Codec.list Property.shape.codec).Restores t.properties) ?_ (fun _ => rfl) h)
  intro f hf o v g hg
  simp only [Table.shape, List.mem_cons, List.not_mem_nil, or_false] at hf
  rcases hf with rfl | rfl | rfl
  · exact Field.keeps_of hg fun a ha s hs => hs
  · exact Field.keeps_of hg fun a ha s hs => Codec.settles_list Property.settles ha
  · exact Field.keeps_of hg fun a ha s hs => hs

theorem Naming.restores {n : Naming} (h : n.Accepted) : Naming.shape.codec.Restores n := by
  have hfragment : ∀ {s}, Text.acceptsFragment s = true → fragmentCodec.Restores s :=
    Codec.restores_textWhere rfl
  have hfields : RecordShape.FieldsRestore n Naming.shape.fields _ :=
    .cons (Field.restores_of (hfragment h.repositoryInterfacePrefix)) <|
      .cons (Field.restores_of (hfragment h.repositoryClassSuffix)) <|
      .cons (Field.restores_of (hfragment h.serviceInterfacePrefix)) <|
      .cons (Field.restores_of (hfragment h.serviceClassSuffix)) .nil
  exact RecordShape.restores Naming.respellable (by decide) hfields rfl rfl

theorem Naming.settles : Naming.shape.codec.Settles :=
  fun _ _ _ h => restores (accepted_of_read h)

/-- The fields of a request that do not take every value of their type hold values that are read
back. -/
structure Request.Restorable (r : Request) : Prop where
  rootNamespace :
    (Codec.textWhere Text.acceptsNamespace .rootNamespace readSomeText).Restores r.rootNamespace
  contextName :
    (Codec.textWhere Text.acceptsIdentifier .className readSomeText).Restores r.contextName
  tables : (Codec.list Table.shape.codec).Restores r.tables
  naming : Naming.shape.codec.Restores r.naming

theorem Request.restorable_of_read {o : Origin} {v : Value} {r : Request}
    (h : Request.shape.read o v = .ok r) : r.Restorable := by
  refine RecordShape.read_induction (P := Restorable) ?_ ?_ h
  · intro f hf o v g hg
    simp only [Request.shape, List.mem_cons, List.not_mem_nil, or_false] at hf
    rcases hf with rfl | rfl | rfl | rfl | rfl | rfl | rfl | rfl | rfl | rfl | rfl
    on_goal 11 => exact Field.keeps_of hg fun a ha s hs =>
      { hs with naming := Naming.settles ha }
    on_goal 3 => exact Field.keeps_of hg fun a ha s hs =>
      { hs with tables := Codec.settles_list Table.settles ha }
    on_goal 2 => exact Field.keeps_of hg fun a ha s hs =>
      { hs with contextName := Codec.settles_textWhere Codec.readsAsIs_readSomeText ha }
    on_goal 1 => exact Field.keeps_of hg fun a ha s hs =>
      { hs with rootNamespace := Codec.settles_textWhere Codec.readsAsIs_readSomeText ha }
    all_goals exact Field.keeps_of hg fun a ha s hs => { hs with }
  · refine ⟨Codec.restores_textWhere rfl ?_, Codec.restores_textWhere rfl (by decide),
      fun _ => rfl, Naming.restores ⟨by decide, by decide, by decide, by decide⟩⟩
    decide +kernel

theorem Style.ofToken?_token (s : Style) : ofToken? s.token = some s := by
  cases s <;> decide +kernel

theorem Request.restores {r : Request} (h : r.Restorable) (hrule : r.uniqueNames = none) :
    Request.shape.codec.Restores r := by
  have hbool := Codec.restores_bool
  have hstyle := Codec.restores_oneOf Style.all (Style.ofToken?_token r.style)
  have hfields : RecordShape.FieldsRestore r Request.shape.fields _ :=
    .cons (Field.restores_of h.rootNamespace) <| .cons (Field.restores_of h.contextName) <|
      .cons (Field.restores_of h.tables) <| .cons (Field.restores_of (hbool _)) <|
      .cons (Field.restores_of (hbool _)) <| .cons (Field.restores_of (hbool _)) <|
      .cons (Field.restores_of (hbool _)) <| .cons (Field.restores_of (hbool _)) <|
      .cons (Field.restores_of (hbool _)) <| .cons (Field.restores_of hstyle) <|
      .cons (Field.restores_of h.naming) .nil
  exact RecordShape.restores Request.respellable (by decide) hfields rfl hrule

theorem Request.settles : Request.shape.codec.Settles := by
  intro o v r h
  cases v with
  | scalar s => cases h
  | list vs => cases h
  | object ms =>
    have h : Request.shape.read o (.object ms) = .ok r := h
    obtain ⟨-, -, -, -, hrule⟩ := RecordShape.read_object_eq_ok_iff.mp h
    exact restores (restorable_of_read h) hrule

/-! ## Keys in camel case -/

mutual

/-- A document whose keys are all written in camel case. -/
def Value.camelKeys : Value → Value
  | .scalar s => .scalar s
  | .list vs => .list (camelItems vs)
  | .object ms => .object (camelMembers ms)

/-- The items, with keys in camel case. -/
def Value.camelItems : List Value → List Value
  | [] => []
  | v :: vs => v.camelKeys :: camelItems vs

/-- The members, with keys in camel case. -/
def Value.camelMembers : List (Scalar × Value) → List (Scalar × Value)
  | [] => []
  | (.text k, v) :: ms => (.text (camelSpelling k), v.camelKeys) :: camelMembers ms
  | (k, v) :: ms => (k, v.camelKeys) :: camelMembers ms

end

namespace Value

theorem camelItems_eq_map (vs : List Value) : camelItems vs = vs.map camelKeys := by
  induction vs with
  | nil => rfl
  | cons v vs ih => rw [camelItems, List.map_cons, ih]

theorem camelKeys_ofMembers (ms : List (String × Value)) :
    (ofMembers ms).camelKeys = ofMembers (ms.map fun m => (camelSpelling m.1, m.2.camelKeys)) := by
  unfold ofMembers
  rw [camelKeys]
  congr 1
  induction ms with
  | nil => rfl
  | cons m ms ih =>
    simp only [List.map_cons, camelMembers, ih]

/-- A document whose keys are names of fields, no two alike in one object. -/
inductive KeysNamed : Value → Prop
  | scalar (s : Scalar) : KeysNamed (.scalar s)
  | list {vs : List Value} (items : ∀ v ∈ vs, KeysNamed v) : KeysNamed (.list vs)
  | object {ms : List (String × Value)} (distinct : (ms.map Prod.fst).Nodup)
    (names : ∀ m ∈ ms, m.1 ∈ Request.fieldNames) (values : ∀ m ∈ ms, KeysNamed m.2) :
    KeysNamed (.ofMembers ms)

open Relation (ReflTransGen)

/-- One item after the other is respelled. -/
theorem respells_items {vs : List Value} (h : ∀ v ∈ vs, ReflTransGen Respells v v.camelKeys)
    (before : List Value) :
    ReflTransGen Respells (.list (before ++ vs)) (.list (before ++ vs.map camelKeys)) := by
  induction vs generalizing before with
  | nil => exact .refl
  | cons v vs ih =>
    rw [List.forall_mem_cons] at h
    have hfirst : ReflTransGen Respells (.list (before ++ v :: vs))
        (.list (before ++ v.camelKeys :: vs)) :=
      h.1.lift (fun w => Value.list (before ++ w :: vs)) fun _ _ => Respells.item
    have hrest := ih h.2 (before ++ [v.camelKeys])
    rw [List.append_cons before v.camelKeys vs] at hfirst
    rw [List.append_assoc before [v.camelKeys] (vs.map camelKeys)] at hrest
    exact hfirst.trans hrest

theorem fieldName_camelSpelling {n : String} (hn : n ∈ Request.fieldNames) :
    fieldName (camelSpelling n) = fieldName n :=
  (fieldName_of_spells hn (.inr rfl)).trans (fieldName_of_spells hn (.inl rfl)).symm

/-- Keys differ where the fields that they spell do. -/
theorem nodup_keys_of_fieldNames {ms : List (String × Value)}
    (distinct : (ms.map fun m => fieldName m.1).Nodup) :
    ((ms.map fun m => (Scalar.text m.1, m.2)).map Prod.fst).Nodup := by
  have hkeys : (ms.map Prod.fst).Nodup := by
    refine List.Nodup.of_map fieldName ?_
    rw [List.map_map]
    exact distinct
  have hinjective : Function.Injective Scalar.text := fun _ _ => Scalar.text.inj
  have htexts := hkeys.map hinjective
  rw [List.map_map] at htexts ⊢
  exact htexts

/-- The key of one member takes its camel-case spelling; the other keys spell other fields. -/
theorem respells_key {before after : List (String × Value)} {n : String} {v : Value}
    (hn : n ∈ Request.fieldNames)
    (distinct : ((before ++ (n, v) :: after).map fun m => fieldName m.1).Nodup) :
    ReflTransGen Respells (.ofMembers (before ++ (n, v) :: after))
      (.ofMembers (before ++ (camelSpelling n, v) :: after)) := by
  by_cases he : n = camelSpelling n
  -- a name of one word has one spelling
  · rw [← he]
  · have distinct' :
        ((before ++ (camelSpelling n, v) :: after).map fun m => fieldName m.1).Nodup := by
      simpa only [List.map_append, List.map_cons, fieldName_camelSpelling hn] using distinct
    have hkeys := nodup_keys_of_fieldNames distinct
    have hkeys' := nodup_keys_of_fieldNames distinct'
    simp only [ofMembers, List.map_append, List.map_cons] at hkeys hkeys' ⊢
    refine .single (.key ⟨n, hn, .inl rfl, .inr rfl, he⟩ ?_ ?_)
    · simpa only [List.map_append, List.map_cons] using hkeys
    · obtain ⟨hnot, -⟩ := List.nodup_cons.mp (List.perm_middle.nodup_iff.mp hkeys')
      simp only [List.map_append, List.map_cons, List.mem_append, List.mem_cons, not_or] at hnot ⊢
      exact ⟨hnot.1, fun hk => he (Scalar.text.inj hk).symm, hnot.2⟩

/-- One member after the other is respelled, first inside and then at its key. -/
theorem respells_members {ms : List (String × Value)} (names : ∀ m ∈ ms, m.1 ∈ Request.fieldNames)
    (values : ∀ m ∈ ms, ReflTransGen Respells m.2 m.2.camelKeys) (before : List (String × Value))
    (distinct : ((before ++ ms).map fun m => fieldName m.1).Nodup) :
    ReflTransGen Respells (.ofMembers (before ++ ms))
      (.ofMembers (before ++ ms.map fun m => (camelSpelling m.1, m.2.camelKeys))) := by
  induction ms generalizing before with
  | nil => exact .refl
  | cons m ms ih =>
    obtain ⟨n, v⟩ := m
    rw [List.forall_mem_cons] at names values
    have hinside : ReflTransGen Respells (.ofMembers (before ++ (n, v) :: ms))
        (.ofMembers (before ++ (n, v.camelKeys) :: ms)) := by
      refine values.1.lift (fun w => Value.ofMembers (before ++ (n, w) :: ms)) fun w w' h => ?_
      simp only [ofMembers, List.map_append, List.map_cons]
      exact .member h
    have hkey : ReflTransGen Respells (.ofMembers (before ++ (n, v.camelKeys) :: ms))
        (.ofMembers (before ++ (camelSpelling n, v.camelKeys) :: ms)) :=
      respells_key names.1 (by simpa using distinct)
    have distinct' : ((before ++ [(camelSpelling n, v.camelKeys)] ++ ms).map
        fun m => fieldName m.1).Nodup := by
      simpa only [List.map_append, List.map_cons, List.map_nil, List.append_assoc,
        List.singleton_append, fieldName_camelSpelling names.1] using distinct
    have hrest := ih names.2 values.2 _ distinct'
    simp only [List.append_assoc, List.singleton_append] at hrest
    exact hinside.trans (hkey.trans hrest)

/-- **A document with keys in camel case is a respelling.** -/
theorem KeysNamed.respells_camelKeys {v : Value} (h : KeysNamed v) :
    ReflTransGen Respells v v.camelKeys := by
  induction h with
  | scalar s => exact .refl
  | list _ ih =>
    rw [camelKeys, camelItems_eq_map]
    exact respells_items ih []
  | @object ms distinct names _ ih =>
    rw [camelKeys_ofMembers]
    refine respells_members names ih [] ?_
    have hown : ∀ m ∈ ms, fieldName m.1 = m.1 := fun m hm =>
      fieldName_of_spells (names m hm) (.inl rfl)
    rw [List.nil_append, List.map_congr_left hown]
    exact distinct

/-! The objects that are written have the names of the fields as keys. -/

theorem KeysNamed.ofOption {α : Type} {f : α → Value} (h : ∀ a, KeysNamed (f a)) (x : Option α) :
    KeysNamed (Value.ofOption f x) := by
  cases x with
  | none => exact .scalar _
  | some a => exact h a

theorem KeysNamed.dump_list {α : Type} {c : Codec α} (h : ∀ a, KeysNamed (c.dump a)) (as : List α) :
    KeysNamed (c.list.dump as) :=
  .list fun v hv => by
    obtain ⟨a, -, rfl⟩ := List.mem_map.mp hv
    exact h a

theorem KeysNamed.dump_record {σ : Type} {shape : RecordShape σ} {s : σ} (h : shape.Respellable)
    (distinct : (shape.fields.map Field.name).Nodup)
    (fields : ∀ f ∈ shape.fields, KeysNamed (f.dump s)) : KeysNamed (shape.dump s) := by
  refine .object ?_ ?_ ?_
  · rw [List.map_map]
    exact distinct
  · simp only [List.forall_mem_map]
    exact h.names
  · simp only [List.forall_mem_map]
    exact fields

theorem KeysNamed.dump_property (p : Property) : KeysNamed (Property.shape.dump p) := by
  refine dump_record Property.respellable (by decide) fun f hf => ?_
  simp only [Property.shape, List.mem_cons, List.not_mem_nil, or_false] at hf
  rcases hf with rfl | rfl | rfl | rfl | rfl | rfl | rfl | rfl | rfl | rfl | rfl | rfl | rfl |
    rfl | rfl | rfl | rfl | rfl | rfl | rfl | rfl
  all_goals first | exact .scalar _ | exact ofOption (fun _ => .scalar _) _

theorem KeysNamed.dump_table (t : Table) : KeysNamed (Table.shape.dump t) := by
  refine dump_record Table.respellable (by decide) fun f hf => ?_
  simp only [Table.shape, List.mem_cons, List.not_mem_nil, or_false] at hf
  rcases hf with rfl | rfl | rfl
  · exact .scalar _
  · exact dump_list dump_property _
  · exact ofOption (fun _ => .scalar _) _

theorem KeysNamed.dump_naming (n : Naming) : KeysNamed (Naming.shape.dump n) := by
  refine dump_record Naming.respellable (by decide) fun f hf => ?_
  simp only [Naming.shape, List.mem_cons, List.not_mem_nil, or_false] at hf
  rcases hf with rfl | rfl | rfl | rfl <;> exact .scalar _

theorem KeysNamed.dump_request (r : Request) : KeysNamed (Request.shape.dump r) := by
  refine dump_record Request.respellable (by decide) fun f hf => ?_
  simp only [Request.shape, List.mem_cons, List.not_mem_nil, or_false] at hf
  rcases hf with rfl | rfl | rfl | rfl | rfl | rfl | rfl | rfl | rfl | rfl | rfl
  on_goal 11 => exact dump_naming _
  on_goal 3 => exact dump_list dump_table _
  all_goals exact .scalar _

end Value

/-! ## Requests are read back -/

namespace Request

open Relation (ReflTransGen)

/-- A request that is written out stands at the top and not under a key. -/
theorem unwrap_dump (r : Request) : unwrap (shape.dump r) = shape.dump r := by
  have hlookup : (shape.dumpMembers r).lookup (.text "request") = none := by
    refine lookup_of_not_mem fun hmem => ?_
    rw [RecordShape.keys_dumpMembers, List.mem_map] at hmem
    obtain ⟨name, hname, he⟩ := hmem
    cases he
    obtain ⟨f, hf, he⟩ := List.mem_map.mp hname
    exact (isSnake_of_mem_fieldNames f.name (respellable.names f hf)).2 he
  unfold unwrap
  rw [RecordShape.dump_eq]
  show ((shape.dumpMembers r).lookup (.text "request")).getD _ = _
  rw [hlookup]
  rfl

variable {v : Value} {r : Request}

theorem ofDocument_dump (h : ofDocument v = .ok r) : ofDocument (shape.dump r) = .ok r := by
  unfold ofDocument
  rw [unwrap_dump]
  exact settles h .document

theorem ofDocument_under_dump (h : ofDocument v = .ok r) :
    ofDocument (.ofMembers [("request", shape.dump r)]) = .ok r :=
  settles h .document

/-- What is respelled may stand under the key of requests. -/
theorem respells_under {d d' : Value} (h : ReflTransGen Respells d d') :
    ReflTransGen Respells (.ofMembers [("request", d)]) (.ofMembers [("request", d')]) :=
  h.lift (fun w => Value.ofMembers [("request", w)]) fun _ _ => @Respells.member [] [] _ _ _

end Request

/-- **A request is read back** from all its fields, whatever the spellings of the keys and the
order of the members, bare or under its key; and a respelled document is read as the same
request. -/
theorem request_read_back {v : Value} {r : Request} (h : Request.ofDocument v = .ok r) :
    (∀ v', Relation.ReflTransGen Respells v v' → Request.ofDocument v' = .ok r) ∧
      ∀ written ∈ [Request.shape.dump r, (Request.shape.dump r).camelKeys], ∀ d,
        Relation.ReflTransGen Respells written d →
          Request.ofDocument d = .ok r ∧
            Request.ofDocument (.ofMembers [("request", d)]) = .ok r := by
  refine ⟨fun v' hv' => Request.ofDocument_of_respells hv' h, fun written hwritten d hd => ?_⟩
  have hd : Relation.ReflTransGen Respells (Request.shape.dump r) d := by
    rw [List.mem_cons, List.mem_singleton] at hwritten
    rcases hwritten with rfl | rfl
    · exact hd
    · exact (Value.KeysNamed.dump_request r).respells_camelKeys.trans hd
  exact ⟨Request.ofDocument_of_respells hd (Request.ofDocument_dump h),
    Request.ofDocument_of_respells (Request.respells_under hd) (Request.ofDocument_under_dump h)⟩

/-- A request with a number as a text, a blank text and another word for a type is read back from
its normal form, here under its key and with keys in camel case. -/
theorem request_read_back_order :
    let column : Value := .ofMembers [("name", .text "code"), ("dataType", .text " String "),
      ("is_primary_key", .text "yes"), ("maxLength", .text "+016"), ("range_min", .float .nan),
      ("regexPattern", .text "  ")]
    let v : Value := .ofMembers [("tables", .list [.ofMembers [("name", .text "order"),
      ("properties", .list [column])]])]
    let code : Property :=
      { name := "code", isPrimaryKey := true, maxLength := some 16, rangeMin := some .nan }
    let r : Request := { tables := [{ name := "order", properties := [code] }] }
    Request.ofDocument v = .ok r ∧
      Request.ofDocument (.ofMembers [("request", (Request.shape.dump r).camelKeys)]) = .ok r := by
  intro column v code r
  have hread : Request.ofDocument v = .ok r := by decide +kernel
  have hcamel : (Request.shape.dump r).camelKeys ∈
      [Request.shape.dump r, (Request.shape.dump r).camelKeys] :=
    List.mem_cons_of_mem _ List.mem_cons_self
  exact ⟨hread, ((request_read_back hread).2 _ hcamel _ .refl).2⟩

end EntityScaffold
