import EntityScaffold.Proofs.Collecting
import EntityScaffold.Proofs.Documents
import EntityScaffold.Proofs.Identifiers
import Mathlib.Logic.Relation

/-!
# Documents that mean the same request

A field has two spellings, and the members of an object may stand in any order. Neither matters
for what is read: a document that is respelled anywhere inside is read as the same request, as
long as no object comes to hold one key twice.

* `OtherSpelling`: two keys are the two spellings of one field.
* `Respells`: one key is respelled, or one object reordered, anywhere in a document.
* `Codec.Stable`: what is read is read again after a respelling.

Results:
* `Codec.stable_list`, `RecordShape.stable_codec`: lists and records of stable parts are stable.
* `Request.ofDocument_of_respells`: a respelled document is read as the same request.
-/

namespace EntityScaffold

/-! ## Spellings -/

/-- Small letters, digits and the like, with single underscores between them: the form of the names
of fields. -/
def isSnake : List Char → Bool
  | '_' :: c :: rest => c.isLower && isSnake rest
  | c :: rest => c != '_' && !c.isUpper && isSnake rest
  | [] => true

/-- Writes each capital as an underscore and its small letter. -/
def snakeLetters : List Char → List Char
  | [] => []
  | c :: rest => if c.isUpper then '_' :: c.toLower :: snakeLetters rest else c :: snakeLetters rest

/-- The name of the field that a key spells. -/
def fieldName (key : String) : String := String.ofList (snakeLetters key.toList)

/-- A small letter and its capital. -/
theorem capital_of_isLower {c : Char} (h : c.isLower = true) :
    c.toUpper.isUpper = true ∧ c.toUpper.toLower = c ∧ c.isUpper = false := by
  have hsmall : c.toNat < 128 := by
    unfold Char.isLower at h
    simp only [Bool.and_eq_true, decide_eq_true_eq] at h
    have : c.toNat ≤ 122 := h.2
    omega
  revert h
  exact Text.of_code_lt hsmall (by decide)

/-- Capitals come from underscores alone, so a name can be read off its camel-case spelling. -/
theorem snakeLetters_camelLetters {l : List Char} (h : isSnake l = true) :
    snakeLetters (camelLetters l) = l := by
  induction l using camelLetters.induct with
  | case1 c rest ih =>
    rw [isSnake, Bool.and_eq_true] at h
    obtain ⟨hupper, hlower, -⟩ := capital_of_isLower h.1
    rw [camelLetters, snakeLetters, if_pos hupper, hlower, ih h.2]
  | case2 c rest hnot ih =>
    rw [isSnake, Bool.and_eq_true, Bool.and_eq_true, Bool.not_eq_true'] at h
    · rw [camelLetters, snakeLetters, h.1.2, if_neg Bool.false_ne_true, ih h.2]
      exact hnot
    · exact hnot
  | case3 => rfl

theorem snakeLetters_of_isSnake {l : List Char} (h : isSnake l = true) : snakeLetters l = l := by
  induction l using isSnake.induct with
  | case1 c rest ih =>
    rw [isSnake, Bool.and_eq_true] at h
    obtain ⟨-, -, hupper⟩ := capital_of_isLower h.1
    rw [snakeLetters, if_neg (by decide), snakeLetters, hupper, if_neg Bool.false_ne_true, ih h.2]
  | case2 c rest hnot ih =>
    rw [isSnake, Bool.and_eq_true, Bool.and_eq_true, Bool.not_eq_true'] at h
    · rw [snakeLetters, h.1.2, if_neg Bool.false_ne_true, ih h.2]
    · exact hnot
  | case3 => rfl

/-- The names of the fields of columns, tables, naming options and requests. -/
def Request.fieldNames : List String :=
  Property.shape.fields.map Field.name ++ Table.shape.fields.map Field.name ++
    Naming.shape.fields.map Field.name ++ Request.shape.fields.map Field.name

theorem isSnake_of_mem_fieldNames :
    ∀ n ∈ Request.fieldNames, isSnake n.toList = true ∧ n ≠ "request" := by
  decide +kernel

/-- A key spells a field: it is its name or the camel-case spelling of its name. -/
def Spells (key name : String) : Prop := key = name ∨ key = camelSpelling name

/-- **A key spells one field at most.** -/
theorem fieldName_of_spells {key name : String} (hname : name ∈ Request.fieldNames)
    (h : Spells key name) : fieldName key = name := by
  obtain ⟨hsnake, -⟩ := isSnake_of_mem_fieldNames name hname
  unfold fieldName
  rcases h with rfl | rfl
  · rw [snakeLetters_of_isSnake hsnake, String.ofList_toList]
  · rw [camelSpelling, String.toList_ofList, snakeLetters_camelLetters hsnake, String.ofList_toList]

/-- The two keys are different spellings of one field. -/
def OtherSpelling (k k' : String) : Prop :=
  ∃ name ∈ Request.fieldNames, Spells k name ∧ Spells k' name ∧ k ≠ k'

/-- There are two spellings at most. -/
theorem eq_or_eq_of_spells {name k k' x : String} (hk : Spells k name) (hk' : Spells k' name)
    (hne : k ≠ k') (hx : Spells x name) : x = k ∨ x = k' := by
  rcases hk with rfl | rfl <;> rcases hk' with rfl | rfl <;> rcases hx with rfl | rfl
  all_goals first | exact .inl rfl | exact .inr rfl | exact absurd rfl hne

/-- A document is respelled at one place: a key takes its other spelling, which its object does not
have yet, or the members of an object change their order. -/
inductive Respells : Value → Value → Prop
  | key {before after : List (Scalar × Value)} {k k' : String} {v : Value}
    (spelling : OtherSpelling k k')
    (distinct : ((before ++ (.text k, v) :: after).map Prod.fst).Nodup)
    (fresh : .text k' ∉ (before ++ (.text k, v) :: after).map Prod.fst) :
    Respells (.object (before ++ (.text k, v) :: after))
      (.object (before ++ (.text k', v) :: after))
  | order {ms ms' : List (Scalar × Value)} (perm : ms.Perm ms')
    (distinct : (ms.map Prod.fst).Nodup) : Respells (.object ms) (.object ms')
  | member {before after : List (Scalar × Value)} {k : Scalar} {v v' : Value}
    (inside : Respells v v') :
    Respells (.object (before ++ (k, v) :: after)) (.object (before ++ (k, v') :: after))
  | item {before after : List Value} {v v' : Value} (inside : Respells v v') :
    Respells (.list (before ++ v :: after)) (.list (before ++ v' :: after))

/-- What is read is read again after a respelling. -/
def Codec.Stable {α : Type} (c : Codec α) : Prop :=
  ∀ ⦃o : Origin⦄ ⦃v v' : Value⦄ ⦃a : α⦄, Respells v v' → c.read o v = .ok a → c.read o v' = .ok a

/-! ## Members -/

section Members

variable {ms ms' before after : List (Scalar × Value)} {v v' : Value} {x : Scalar} {k k' : String}

/-- The order of members does not matter for what stands under a key. -/
theorem lookup_eq_of_perm (h : ms.Perm ms') (distinct : (ms.map Prod.fst).Nodup) (x : Scalar) :
    ms'.lookup x = ms.lookup x := by
  have distinct' : (ms'.map Prod.fst).Nodup := ((h.map Prod.fst).nodup_iff).mp distinct
  refine Option.ext fun a => ?_
  rw [← mem_iff_lookup distinct', ← mem_iff_lookup distinct, h.mem_iff]

/-- One member has another value. -/
theorem lookup_member (before after : List (Scalar × Value)) (k : Scalar) (v v' : Value)
    (x : Scalar) :
    (before ++ (k, v') :: after).lookup x = (before ++ (k, v) :: after).lookup x ∨
      ((before ++ (k, v) :: after).lookup x = some v ∧
        (before ++ (k, v') :: after).lookup x = some v') := by
  simp only [List.lookup_append, List.lookup_cons]
  cases before.lookup x with
  | some w => exact .inl rfl
  | none =>
    cases x == k with
    | true => exact .inr ⟨rfl, rfl⟩
    | false => exact .inl rfl

/-- One member has another key. -/
theorem lookup_key (hx : x ≠ .text k) (hx' : x ≠ .text k') :
    (before ++ (.text k', v) :: after).lookup x = (before ++ (.text k, v) :: after).lookup x := by
  simp only [List.lookup_append, List.lookup_cons, beq_false_of_ne hx, beq_false_of_ne hx']

theorem lookup_of_not_mem (h : x ∉ ms.map Prod.fst) : ms.lookup x = none := by
  rw [List.lookup_eq_none_iff]
  intro m hm
  rw [bne_iff_ne]
  rintro rfl
  exact h (List.mem_map_of_mem hm)

theorem lookup_middle (distinct : ((before ++ (x, v) :: after).map Prod.fst).Nodup) :
    (before ++ (x, v) :: after).lookup x = some v :=
  (mem_iff_lookup distinct).mp (List.mem_append_right _ List.mem_cons_self)

/-- Where a member takes a key that is new, the keys differ as before, and the old one is gone. -/
theorem distinct_of_key (distinct : ((before ++ (.text k, v) :: after).map Prod.fst).Nodup)
    (fresh : .text k' ∉ (before ++ (.text k, v) :: after).map Prod.fst) (hne : k ≠ k') :
    ((before ++ (.text k', v) :: after).map Prod.fst).Nodup ∧
      .text k ∉ (before ++ (.text k', v) :: after).map Prod.fst := by
  have hkeys : ∀ x : Scalar, (before ++ (x, v) :: after).map Prod.fst =
      before.map Prod.fst ++ x :: after.map Prod.fst := fun x => by
    rw [List.map_append, List.map_cons]
  rw [hkeys] at distinct fresh ⊢
  obtain ⟨hnot, hrest⟩ := List.nodup_cons.mp (List.perm_middle.nodup_iff.mp distinct)
  rw [List.mem_append, List.mem_cons, not_or, not_or] at fresh
  constructor
  · refine List.perm_middle.nodup_iff.mpr (List.nodup_cons.mpr ⟨?_, hrest⟩)
    rw [List.mem_append, not_or]
    exact ⟨fresh.1, fresh.2.2⟩
  · rw [List.mem_append, List.mem_cons, not_or, not_or]
    rw [List.mem_append, not_or] at hnot
    exact ⟨hnot.1, fun he => hne (by cases he; rfl), hnot.2⟩

end Members

/-! ## Fields of objects -/

/-- What is read for a field is read again after a respelling. -/
def Field.Stable {σ : Type} (f : Field σ) : Prop :=
  ∀ ⦃o : Origin⦄ ⦃v v' : Value⦄ ⦃g : σ → σ⦄, Respells v v' → f.read o v = .ok g →
    f.read o v' = .ok g

/-- A kind of records whose fields may be respelled: no other keys are let through, and the fields
are among those that have spellings. -/
structure RecordShape.Respellable {σ : Type} (shape : RecordShape σ) : Prop where
  camel : shape.camel = true
  refused : shape.unknownKeys = .refused
  names : ∀ f ∈ shape.fields, f.name ∈ Request.fieldNames
  stable : ∀ f ∈ shape.fields, f.Stable

namespace RecordShape

variable {σ : Type} {shape : RecordShape σ} {f : Field σ} {ms ms' : List (Scalar × Value)}
  {k : String} {v : Value}

/-- All keys of an object are spellings of fields that are read from it. -/
def AllUsed (shape : RecordShape σ) (ms : List (Scalar × Value)) : Prop :=
  ∀ x ∈ ms.map Prod.fst, ∃ f ∈ shape.fields, ∃ k v, x = .text k ∧ shape.find? ms f = some (k, v)

theorem mem_usedKeys :
    k ∈ shape.usedKeys ms ↔ ∃ f ∈ shape.fields, ∃ v, shape.find? ms f = some (k, v) := by
  unfold usedKeys
  simp only [List.mem_filterMap, Option.map_eq_some_iff, Prod.exists, exists_and_right,
    exists_eq_right]

theorem strayKeys_eq_nil_iff (hrefused : shape.unknownKeys = .refused) :
    shape.strayKeys ms = [] ↔ shape.AllUsed ms := by
  unfold strayKeys AllUsed
  rw [hrefused]
  simp only [List.filterMap_eq_nil_iff, List.forall_mem_map]
  refine forall_congr' fun m => imp_congr_right fun _ => ?_
  obtain ⟨key, value⟩ := m
  cases key with
  | text k =>
    simp only [ite_eq_left_iff, reduceCtorEq, imp_false, not_not, List.contains_iff_mem,
      mem_usedKeys]
    constructor
    · rintro ⟨f, hf, v, hfind⟩
      exact ⟨f, hf, k, v, rfl, hfind⟩
    · rintro ⟨f, hf, k', v, he, hfind⟩
      cases he
      exact ⟨f, hf, v, hfind⟩
  | _ => simp

/-- A field is found under one of its spellings. -/
theorem spells_of_find? (hcamel : shape.camel = true) (h : shape.find? ms f = some (k, v)) :
    Spells k f.name ∧ ms.lookup (.text k) = some v := by
  unfold find? spelling at h
  rw [hcamel, if_pos rfl] at h
  split at h
  · rename_i w hw
    cases h
    exact ⟨.inr rfl, hw⟩
  · obtain ⟨w, hw, he⟩ := Option.map_eq_some_iff.mp h
    cases he
    exact ⟨.inl rfl, hw⟩

/-- What is found for a field depends on what stands under its spellings. -/
theorem find?_congr (hcamel : shape.camel = true)
    (h : ∀ k, Spells k f.name → ms'.lookup (.text k) = ms.lookup (.text k)) :
    shape.find? ms' f = shape.find? ms f := by
  unfold find? spelling
  rw [hcamel, if_pos rfl, h _ (.inr rfl), h _ (.inl rfl)]

/-- A field that stands under one spelling alone is found there. -/
theorem find?_of_lookup (hcamel : shape.camel = true) (hspells : Spells k f.name)
    (h : ms.lookup (.text k) = some v)
    (hother : ∀ k', Spells k' f.name → k' ≠ k → ms.lookup (.text k') = none) :
    shape.find? ms f = some (k, v) := by
  unfold find? spelling
  rw [hcamel, if_pos rfl]
  by_cases hk : camelSpelling f.name = k
  · rw [hk, h]
  · rw [hother _ (.inr rfl) hk]
    have hname : f.name = k := hspells.elim Eq.symm fun he => absurd he.symm hk
    rw [hname, h]
    rfl

/-- An object holds the fields that another one holds, with values that are respelled at most, and
no other keys. -/
structure Follows (shape : RecordShape σ) (ms ms' : List (Scalar × Value)) : Prop where
  found : ∀ f ∈ shape.fields, ∀ k v, shape.find? ms f = some (k, v) →
    ∃ k' v', shape.find? ms' f = some (k', v') ∧ (v' = v ∨ Respells v v')
  missing : ∀ f ∈ shape.fields, shape.find? ms f = none → shape.find? ms' f = none
  used : shape.AllUsed ms → shape.AllUsed ms'

theorem follows_of_perm (hcamel : shape.camel = true) (h : ms.Perm ms')
    (distinct : (ms.map Prod.fst).Nodup) : shape.Follows ms ms' := by
  have hfind : ∀ f : Field σ, shape.find? ms' f = shape.find? ms f := fun f =>
    find?_congr hcamel fun k _ => lookup_eq_of_perm h distinct (.text k)
  refine ⟨fun f _ k v hf => ⟨k, v, (hfind f).trans hf, .inl rfl⟩, fun f _ hf => ?_, fun hused => ?_⟩
  · rw [hfind f, hf]
  · intro x hx
    obtain ⟨f, hf, k, v, hk, hfound⟩ := hused x ((h.map Prod.fst).mem_iff.mpr hx)
    exact ⟨f, hf, k, v, hk, (hfind f).trans hfound⟩

/-- With another value in one member, at most the value that is found is another one. -/
theorem find?_member (shape : RecordShape σ) (f : Field σ) (before after : List (Scalar × Value))
    (key : Scalar) (v v' : Value) :
    shape.find? (before ++ (key, v') :: after) f = shape.find? (before ++ (key, v) :: after) f ∨
      ∃ k, shape.find? (before ++ (key, v) :: after) f = some (k, v) ∧
        shape.find? (before ++ (key, v') :: after) f = some (k, v') := by
  unfold find?
  rcases lookup_member before after key v v' (.text (shape.spelling f)) with h | ⟨h, h'⟩
  · rw [h]
    cases (before ++ (key, v) :: after).lookup (.text (shape.spelling f)) with
    | some w => exact .inl rfl
    | none =>
      rcases lookup_member before after key v v' (.text f.name) with h | ⟨h, h'⟩
      · rw [h]
        exact .inl rfl
      · rw [h, h']
        exact .inr ⟨f.name, rfl, rfl⟩
  · rw [h, h']
    exact .inr ⟨shape.spelling f, rfl, rfl⟩

theorem follows_of_member {before after : List (Scalar × Value)} {key : Scalar} {v v' : Value}
    (inside : Respells v v') :
    shape.Follows (before ++ (key, v) :: after) (before ++ (key, v') :: after) := by
  have hfind := fun f => find?_member shape f before after key v v'
  refine ⟨fun f _ k w hf => ?_, fun f _ hf => ?_, fun hused x hx => ?_⟩
  · rcases hfind f with h | ⟨k₀, h, h'⟩
    · exact ⟨k, w, h.trans hf, .inl rfl⟩
    · rw [h] at hf
      cases hf
      exact ⟨k, v', h', .inr inside⟩
  · rcases hfind f with h | ⟨k, h, -⟩
    · exact h.trans hf
    · rw [h] at hf
      cases hf
  · have hx : x ∈ (before ++ (key, v) :: after).map Prod.fst := by
      simpa only [List.map_append, List.map_cons] using hx
    obtain ⟨f, hf, k, w, hk, hfound⟩ := hused x hx
    rcases hfind f with h | ⟨k₀, h, h'⟩
    · exact ⟨f, hf, k, w, hk, h.trans hfound⟩
    · rw [h] at hfound
      cases hfound
      exact ⟨f, hf, k, v', hk, h'⟩

theorem follows_of_key (hcamel : shape.camel = true)
    (hnames : ∀ f ∈ shape.fields, f.name ∈ Request.fieldNames)
    {before after : List (Scalar × Value)} {k k' : String} {v : Value}
    (spelling : OtherSpelling k k')
    (distinct : ((before ++ (.text k, v) :: after).map Prod.fst).Nodup)
    (fresh : .text k' ∉ (before ++ (.text k, v) :: after).map Prod.fst) :
    shape.Follows (before ++ (.text k, v) :: after) (before ++ (.text k', v) :: after) := by
  obtain ⟨name, hname, hk, hk', hne⟩ := spelling
  obtain ⟨distinct', gone⟩ := distinct_of_key distinct fresh hne
  -- a field of another name is found as before, the field of this name under its other spelling
  have hother : ∀ f ∈ shape.fields, f.name ≠ name →
      shape.find? (before ++ (.text k', v) :: after) f =
        shape.find? (before ++ (.text k, v) :: after) f := by
    intro f hf hfname
    refine find?_congr hcamel fun x hx => lookup_key ?_ ?_
    all_goals
      intro he
      cases he
      have hx := fieldName_of_spells (hnames f hf) hx
    · exact hfname (hx.symm.trans (fieldName_of_spells hname hk))
    · exact hfname (hx.symm.trans (fieldName_of_spells hname hk'))
  have hself : ∀ f ∈ shape.fields, f.name = name →
      shape.find? (before ++ (.text k, v) :: after) f = some (k, v) ∧
        shape.find? (before ++ (.text k', v) :: after) f = some (k', v) := by
    rintro f - rfl
    constructor
    · refine find?_of_lookup hcamel hk (lookup_middle distinct) fun x hx hxk => ?_
      obtain rfl := (eq_or_eq_of_spells hk hk' hne hx).resolve_left hxk
      exact lookup_of_not_mem fresh
    · refine find?_of_lookup hcamel hk' (lookup_middle distinct') fun x hx hxk => ?_
      obtain rfl := (eq_or_eq_of_spells hk hk' hne hx).resolve_right hxk
      exact lookup_of_not_mem gone
  refine ⟨fun f hf x w hfound => ?_, fun f hf hmissing => ?_, fun hused x hx => ?_⟩
  · by_cases hfname : f.name = name
    · obtain ⟨hfind, hfind'⟩ := hself f hf hfname
      rw [hfind] at hfound
      cases hfound
      exact ⟨k', v, hfind', .inl rfl⟩
    · exact ⟨x, w, (hother f hf hfname).trans hfound, .inl rfl⟩
  · by_cases hfname : f.name = name
    · rw [(hself f hf hfname).1] at hmissing
      cases hmissing
    · exact (hother f hf hfname).trans hmissing
  · by_cases hxk : x = .text k'
    · obtain ⟨f, hf, x', w, hx', hfound⟩ := hused (.text k) (by simp)
      cases hx'
      have hfname : f.name = name := by
        rw [← fieldName_of_spells (hnames f hf) (spells_of_find? hcamel hfound).1,
          fieldName_of_spells hname hk]
      exact ⟨f, hf, k', v, hxk, (hself f hf hfname).2⟩
    · have hx₀ : x ∈ (before ++ (.text k, v) :: after).map Prod.fst := by
        simp only [List.map_append, List.map_cons, List.mem_append, List.mem_cons] at hx ⊢
        exact hx.imp_right fun h => .inr (h.resolve_left hxk)
      obtain ⟨f, hf, x', w, rfl, hfound⟩ := hused x hx₀
      have hfname : f.name ≠ name := by
        intro hfname
        rw [(hself f hf hfname).1] at hfound
        cases hfound
        exact gone hx
      exact ⟨f, hf, x', w, rfl, (hother f hf hfname).trans hfound⟩

variable {o : Origin} {s : σ}

theorem readField_of_follows (hstable : ∀ f ∈ shape.fields, f.Stable) (h : shape.Follows ms ms')
    (hf : f ∈ shape.fields) {g : σ → σ} (hread : shape.readField o ms f = .ok g) :
    shape.readField o ms' f = .ok g := by
  unfold readField at hread ⊢
  cases hfind : shape.find? ms f with
  | none =>
    rw [hfind] at hread
    rw [h.missing f hf hfind]
    exact hread
  | some found =>
    obtain ⟨k, v⟩ := found
    rw [hfind] at hread
    have hv : f.read o v = .ok g := Reading.eq_ok_of_under hread
    obtain ⟨k', v', hfind', hv'⟩ := h.found f hf k v hfind
    rw [hfind']
    have hread' : f.read o v' = .ok g := by
      rcases hv' with rfl | hrespells
      · exact hv
      · exact hstable f hf hrespells hv
    simp only [hread']
    rfl

theorem readFields_of_follows (hstable : ∀ f ∈ shape.fields, f.Stable) (h : shape.Follows ms ms')
    {fields : List (Field σ)} (hfields : fields ⊆ shape.fields) {g : σ → σ}
    (hread : shape.readFields o ms fields = .ok g) : shape.readFields o ms' fields = .ok g := by
  induction fields generalizing g with
  | nil => exact hread
  | cons f fields ih =>
    obtain ⟨first, rest, hfirst, hrest, rfl⟩ := Reading.map₂_eq_ok hread
    rw [List.cons_subset] at hfields
    unfold readFields
    rw [readField_of_follows hstable h hfields.1 hfirst, ih hfields.2 hrest]
    rfl

/-- **Records of stable fields are stable.** -/
theorem stable_codec (h : shape.Respellable) : shape.codec.Stable := by
  intro o v v' s hrespells hread
  have hread : shape.read o v = .ok s := hread
  have object : ∀ {ms ms' : List (Scalar × Value)}, shape.Follows ms ms' →
      shape.read o (.object ms) = .ok s → shape.read o (.object ms') = .ok s := by
    intro ms ms' hfollows hread
    obtain ⟨fill, hfill, hstray, hs, hrule⟩ := read_object_eq_ok_iff.mp hread
    refine read_object_eq_ok_iff.mpr ⟨fill, ?_, ?_, hs, hrule⟩
    · exact readFields_of_follows h.stable hfollows (List.Subset.refl _) hfill
    · rw [strayKeys_eq_nil_iff h.refused] at hstray ⊢
      exact hfollows.used hstray
  cases hrespells with
  | key spelling distinct fresh =>
    exact object (follows_of_key h.camel h.names spelling distinct fresh) hread
  | order perm distinct => exact object (follows_of_perm h.camel perm distinct) hread
  | member inside => exact object (follows_of_member inside) hread
  | item inside => cases hread

end RecordShape

/-! ## Values without parts -/

namespace Codec

variable {α : Type} {c : Codec α}

/-- Only values without parts are read. -/
def ReadsScalars (c : Codec α) : Prop :=
  ∀ ⦃o : Origin⦄ ⦃v : Value⦄ ⦃a : α⦄, c.read o v = .ok a → ∃ s, v = .scalar s

/-- There is nothing to respell in a value without parts. -/
theorem ReadsScalars.stable (h : c.ReadsScalars) : c.Stable := by
  intro o v v' a hrespells hread
  obtain ⟨s, rfl⟩ := h hread
  cases hrespells

/-- A codec that refuses lists and objects reads values without parts. -/
theorem readsScalars_of_error (hlist : ∀ o vs, ∃ fs, c.read o (.list vs) = .error fs)
    (hobject : ∀ o ms, ∃ fs, c.read o (.object ms) = .error fs) : c.ReadsScalars := by
  intro o v a h
  cases v with
  | scalar s => exact ⟨s, rfl⟩
  | list vs =>
    obtain ⟨fs, he⟩ := hlist o vs
    rw [he] at h
    cases h
  | object ms =>
    obtain ⟨fs, he⟩ := hobject o ms
    rw [he] at h
    cases h

theorem readsScalars_bool : bool.ReadsScalars :=
  readsScalars_of_error (fun _ _ => ⟨_, rfl⟩) fun _ _ => ⟨_, rfl⟩

theorem readsScalars_text : text.ReadsScalars :=
  readsScalars_of_error (fun _ _ => ⟨_, rfl⟩) fun _ _ => ⟨_, rfl⟩

theorem readsScalars_someText : someText.ReadsScalars :=
  readsScalars_of_error (fun _ _ => ⟨_, rfl⟩) fun _ _ => ⟨_, rfl⟩

theorem readsScalars_textUnlessBlank : textUnlessBlank.ReadsScalars :=
  readsScalars_of_error (fun _ _ => ⟨_, rfl⟩) fun _ _ => ⟨_, rfl⟩

theorem readsScalars_intFrom (least : Int) : (intFrom least).ReadsScalars :=
  readsScalars_of_error (fun _ _ => ⟨_, rfl⟩) fun _ _ => ⟨_, rfl⟩

theorem readsScalars_float : float.ReadsScalars :=
  readsScalars_of_error (fun _ _ => ⟨_, rfl⟩) fun _ _ => ⟨_, rfl⟩

theorem readsScalars_oneOf (all : List α) (token : α → String) (ofSpelling? : String → Option α) :
    (oneOf all token ofSpelling?).ReadsScalars :=
  readsScalars_of_error (fun _ _ => ⟨_, rfl⟩) fun _ _ => ⟨_, rfl⟩

theorem ReadsScalars.optional (h : c.ReadsScalars) : c.optional.ReadsScalars := by
  intro o v a hread
  cases v with
  | scalar s => exact ⟨s, rfl⟩
  | list vs =>
    obtain ⟨b, hb, -⟩ := Reading.map_eq_ok (x := c.read o (.list vs)) hread
    exact h hb
  | object ms =>
    obtain ⟨b, hb, -⟩ := Reading.map_eq_ok (x := c.read o (.object ms)) hread
    exact h hb

/-- A test on texts lets no more values through. -/
theorem readsScalars_textWhere {accepts : String → Bool} {cause : String → Rejection}
    {read : Value → Reading String}
    (h : ∀ ⦃v : Value⦄ ⦃a : String⦄, read v = .ok a → ∃ s, v = .scalar s) :
    (textWhere accepts cause read).ReadsScalars :=
  fun _ _ _ hread => h (readTextWhere_eq_ok_iff.mp hread).1

/-! ## Lists -/

theorem readItems_of_respells (h : c.Stable) {o : Origin} {before after : List Value} {v v' : Value}
    (inside : Respells v v') {index : Nat} {as : List α}
    (hread : readItems (c.read o) index (before ++ v :: after) = .ok as) :
    readItems (c.read o) index (before ++ v' :: after) = .ok as := by
  induction before generalizing index as with
  | nil =>
    obtain ⟨a, rest, ha, hrest, rfl⟩ := Reading.map₂_eq_ok hread
    have ha' : c.read o v' = .ok a := h inside (Reading.eq_ok_of_under ha)
    simp only [List.nil_append, readItems, ha', hrest]
    rfl
  | cons w before ih =>
    obtain ⟨a, rest, ha, hrest, rfl⟩ := Reading.map₂_eq_ok hread
    simp only [List.cons_append, readItems, ha, ih hrest]
    rfl

/-- **Lists of stable values are stable.** -/
theorem stable_list (h : c.Stable) : c.list.Stable := by
  intro o v v' as hrespells hread
  cases hrespells with
  | item inside => exact readItems_of_respells h inside hread
  | key => cases hread
  | order => cases hread
  | member => cases hread

end Codec

/-! ## Requests -/

theorem Field.stable_of {σ α : Type} {name : String} {codec : Codec α} {get : σ → α}
    {set : α → σ → σ} (h : codec.Stable) : (Field.of name codec get set).Stable := by
  intro o v v' g hrespells hread
  obtain ⟨a, ha, rfl⟩ := exists_of_read hread
  show (codec.read o v').map set = .ok (set a)
  rw [h hrespells ha]
  rfl

theorem Field.Stable.mandatory {σ : Type} {f : Field σ} (h : f.Stable) : f.mandatory.Stable := h

/-- A kind of records whose keys are all checked and whose names are among those of requests. -/
theorem RecordShape.respellable_of {σ : Type} {shape : RecordShape σ} (camel : shape.camel = true)
    (refused : shape.unknownKeys = .refused)
    (names : shape.fields.map Field.name ⊆ Request.fieldNames)
    (stable : ∀ f ∈ shape.fields, f.Stable) : shape.Respellable :=
  ⟨camel, refused, fun _ hf => names (List.mem_map_of_mem hf), stable⟩

theorem Property.respellable : Property.shape.Respellable := by
  have hname := Codec.readsScalars_someText.stable
  have hbool := Codec.readsScalars_bool.stable
  have htext := Codec.readsScalars_textUnlessBlank.stable
  have hfloat := Codec.readsScalars_float.optional.stable
  have hmax := (Codec.readsScalars_intFrom 1).optional.stable
  have hmin := (Codec.readsScalars_intFrom 0).optional.stable
  have htype :=
    (Codec.readsScalars_oneOf DataType.all DataType.token DataType.ofSpelling?).stable
  refine RecordShape.respellable_of rfl rfl (fun n hn => ?_) fun f hf => ?_
  · simp only [Request.fieldNames, List.append_assoc]
    exact List.mem_append_left _ hn
  · simp only [Property.shape, List.mem_cons, List.not_mem_nil, or_false] at hf
    rcases hf with rfl | rfl | rfl | rfl | rfl | rfl | rfl | rfl | rfl | rfl | rfl | rfl | rfl |
      rfl | rfl | rfl | rfl | rfl | rfl | rfl | rfl
    · exact (Field.stable_of hname).mandatory
    all_goals
      first
      | exact Field.stable_of hbool
      | exact Field.stable_of htext
      | exact Field.stable_of hfloat
      | exact Field.stable_of hmax
      | exact Field.stable_of hmin
      | exact Field.stable_of htype

theorem Table.respellable : Table.shape.Respellable := by
  refine RecordShape.respellable_of rfl rfl (fun n hn => ?_) fun f hf => ?_
  · simp only [Request.fieldNames, List.append_assoc]
    exact List.mem_append_right _ (List.mem_append_left _ hn)
  · simp only [Table.shape, List.mem_cons, List.not_mem_nil, or_false] at hf
    rcases hf with rfl | rfl | rfl
    · exact Field.stable_of Codec.readsScalars_text.stable
    · exact Field.stable_of (Codec.stable_list (RecordShape.stable_codec Property.respellable))
    · exact Field.stable_of Codec.readsScalars_bool.optional.stable

theorem Naming.respellable : Naming.shape.Respellable := by
  have hfragment : fragmentCodec.Stable :=
    (Codec.readsScalars_textWhere fun _ _ h => Codec.readsScalars_text (o := .document) h).stable
  refine RecordShape.respellable_of rfl rfl (fun n hn => ?_) fun f hf => ?_
  · simp only [Request.fieldNames, List.append_assoc]
    exact List.mem_append_right _ (List.mem_append_right _ (List.mem_append_left _ hn))
  · simp only [Naming.shape, List.mem_cons, List.not_mem_nil, or_false] at hf
    rcases hf with rfl | rfl | rfl | rfl <;> exact Field.stable_of hfragment

theorem Request.respellable : Request.shape.Respellable := by
  have hname : ∀ (accepts : String → Bool) (cause : String → Rejection),
      (Codec.textWhere accepts cause readSomeText).Stable := fun _ _ =>
    (Codec.readsScalars_textWhere fun _ _ h =>
      Codec.readsScalars_someText (o := .document) h).stable
  have hbool := Codec.readsScalars_bool.stable
  refine RecordShape.respellable_of rfl rfl (fun n hn => ?_) fun f hf => ?_
  · simp only [Request.fieldNames, List.append_assoc]
    exact List.mem_append_right _ (List.mem_append_right _ (List.mem_append_right _ hn))
  · simp only [Request.shape, List.mem_cons, List.not_mem_nil, or_false] at hf
    rcases hf with rfl | rfl | rfl | rfl | rfl | rfl | rfl | rfl | rfl | rfl | rfl
    · exact Field.stable_of (hname _ _)
    · exact Field.stable_of (hname _ _)
    · exact Field.stable_of (Codec.stable_list (RecordShape.stable_codec Table.respellable))
    on_goal 7 => exact Field.stable_of (Codec.readsScalars_oneOf _ _ _).stable
    on_goal 7 => exact Field.stable_of (RecordShape.stable_codec Naming.respellable)
    all_goals exact Field.stable_of hbool

/-- No field is spelled like the key that a request may stand under. -/
theorem not_spells_request {name : String} (hname : name ∈ Request.fieldNames) :
    ¬ Spells "request" name := by
  intro h
  have hself : fieldName "request" = "request" := by
    unfold fieldName
    rw [snakeLetters_of_isSnake (by decide), String.ofList_toList]
  have hname' : name = "request" := (fieldName_of_spells hname h).symm.trans hself
  exact (isSnake_of_mem_fieldNames name hname).2 hname'

/-- The request of a respelled document is respelled at most. -/
theorem Request.unwrap_of_respells {v v' : Value} (h : Respells v v') :
    unwrap v' = unwrap v ∨ Respells (unwrap v) (unwrap v') := by
  have same : v'.get? "request" = v.get? "request" →
      unwrap v' = unwrap v ∨ Respells (unwrap v) (unwrap v') := by
    intro hget
    unfold unwrap
    rw [hget]
    cases v.get? "request" with
    | some w => exact .inl rfl
    | none => exact .inr h
  cases h with
  | key spelling distinct fresh =>
    obtain ⟨name, hname, hk, hk', -⟩ := spelling
    refine same (lookup_key ?_ ?_)
    all_goals
      intro he
      cases he
      exact not_spells_request hname (by assumption)
  | order perm distinct => exact same (lookup_eq_of_perm perm distinct _)
  | @member before after k w w' inside =>
    rcases lookup_member before after k w w' (.text "request") with hget | ⟨hget, hget'⟩
    · exact same hget
    · have hw : (Value.object (before ++ (k, w) :: after)).get? "request" = some w := hget
      have hw' : (Value.object (before ++ (k, w') :: after)).get? "request" = some w' := hget'
      right
      unfold unwrap
      rw [hw, hw']
      exact inside
  | item inside => exact same rfl

/-- **A respelled document is read as the same request.** -/
theorem Request.ofDocument_of_respells {v v' : Value} {r : Request}
    (h : Relation.ReflTransGen Respells v v') (hread : ofDocument v = .ok r) :
    ofDocument v' = .ok r := by
  induction h with
  | refl => exact hread
  | tail _ hstep ih =>
    rcases unwrap_of_respells hstep with he | hrespells
    · unfold ofDocument
      rw [he]
      exact ih
    · exact RecordShape.stable_codec Request.respellable hrespells ih

end EntityScaffold
