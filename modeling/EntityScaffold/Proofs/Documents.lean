import EntityScaffold.Intake.Request
import Mathlib.Tactic.Common

/-!
# What is known of a request that was read

A record is read field by field, so what holds of the initial record and is kept by every field
holds of every record that is read. The names that a request gives are tested as they are read, and
its initial names pass their own tests.

* `Request.WellNamed`: the names that a request gives besides those of its tables are accepted.

Results:
* `RecordShape.read_induction`: what all fields keep holds of a record that was read.
* `Request.wellNamed_of_read`: the names of a request that was read are accepted.
-/

namespace EntityScaffold

/-! ## Reading field by field -/

section Fields

variable {σ α : Type} {o : Origin}

theorem Reading.map₂_eq_ok {α β γ : Type} {f : α → β → γ} {x : Reading α} {y : Reading β} {c : γ}
    (h : Reading.map₂ f x y = .ok c) : ∃ a b, x = .ok a ∧ y = .ok b ∧ c = f a b := by
  unfold Reading.map₂ at h
  split at h
  · cases h
    exact ⟨_, _, rfl, rfl, rfl⟩
  all_goals cases h

theorem Reading.map_eq_ok {α β : Type} {f : α → β} {x : Reading α} {b : β} (h : x.map f = .ok b) :
    ∃ a, x = .ok a ∧ b = f a := by
  cases x with
  | error fs => cases h
  | ok a =>
    cases h
    exact ⟨a, rfl, rfl⟩

theorem Reading.bind_eq_ok {α β : Type} {x : Reading α} {f : α → Reading β} {b : β}
    (h : x >>= f = .ok b) : ∃ a, x = .ok a ∧ f a = .ok b := by
  cases x with
  | error fs => cases h
  | ok a => exact ⟨a, rfl, h⟩

theorem Reading.eq_ok_of_under {key : String} {x : Reading α} {a : α} (h : x.under key = .ok a) :
    x = .ok a := by
  cases x with
  | error fs => cases h
  | ok b => exact h

/-- Every field of a kind of records keeps a property. -/
def RecordShape.Keeps (shape : RecordShape σ) (P : σ → Prop) : Prop :=
  ∀ f ∈ shape.fields, ∀ o v g, f.read o v = .ok g → ∀ s, P s → P (g s)

/-- What a field does is to set what was read. -/
theorem Field.exists_of_read {name : String} {codec : Codec α} {get : σ → α} {set : α → σ → σ}
    {v : Value} {g : σ → σ} (h : (Field.of name codec get set).read o v = .ok g) :
    ∃ a, codec.read o v = .ok a ∧ g = set a :=
  Reading.map_eq_ok h

/-- A field keeps a property when it is set to what was read. -/
theorem Field.keeps_of {name : String} {codec : Codec α} {get : σ → α} {set : α → σ → σ}
    {P : σ → Prop} {v : Value} {g : σ → σ} (h : (Field.of name codec get set).read o v = .ok g)
    (hset : ∀ a, codec.read o v = .ok a → ∀ s, P s → P (set a s)) (s : σ) (hs : P s) : P (g s) := by
  obtain ⟨a, ha, rfl⟩ := exists_of_read h
  exact hset a ha s hs

variable {shape : RecordShape σ} {P : σ → Prop}

theorem RecordShape.keeps_readField (hkeeps : shape.Keeps P) {members : List (Scalar × Value)}
    {f : Field σ} (hf : f ∈ shape.fields) {g : σ → σ} (h : shape.readField o members f = .ok g)
    (s : σ) (hs : P s) : P (g s) := by
  unfold readField at h
  split at h
  · exact hkeeps f hf o _ g (Reading.eq_ok_of_under h) s hs
  · by_cases hrequired : f.required = true
    · rw [if_pos hrequired] at h
      cases h
    · rw [if_neg hrequired] at h
      cases h
      exact hs

theorem RecordShape.keeps_readFields (hkeeps : shape.Keeps P) {members : List (Scalar × Value)}
    {fields : List (Field σ)} (hfields : fields ⊆ shape.fields) {g : σ → σ}
    (h : shape.readFields o members fields = .ok g) (s : σ) (hs : P s) : P (g s) := by
  induction fields generalizing g s with
  | nil =>
    cases h
    exact hs
  | cons f fields ih =>
    obtain ⟨first, rest, hfirst, hrest, rfl⟩ := Reading.map₂_eq_ok h
    rw [List.cons_subset] at hfields
    exact ih hfields.2 hrest _ (keeps_readField hkeeps hfields.1 hfirst s hs)

/-- When an object is read as a record. -/
theorem RecordShape.read_object_eq_ok_iff {ms : List (Scalar × Value)} {s : σ} :
    shape.read o (.object ms) = .ok s ↔ ∃ fill, shape.readFields o ms shape.fields = .ok fill ∧
      shape.strayKeys ms = [] ∧ fill shape.initial = s ∧ shape.rule s = none := by
  unfold read
  simp only [bind, Except.bind]
  cases shape.readFields o ms shape.fields with
  | error fs =>
    cases shape.strayKeys ms <;> simp [Reading.map₂]
  | ok fill =>
    cases shape.strayKeys ms with
    | cons f fs => simp [Reading.map₂]
    | nil =>
      simp only [Reading.map₂]
      cases hrule : shape.rule (fill shape.initial) with
      | none =>
        constructor
        · intro h
          cases h
          exact ⟨fill, rfl, trivial, rfl, hrule⟩
        · rintro ⟨fill', hfill, -, rfl, -⟩
          cases hfill
          rfl
      | some cause =>
        constructor
        · intro h
          cases h
        · rintro ⟨fill', hfill, -, rfl, hnone⟩
          cases hfill
          rw [hrule] at hnone
          cases hnone

/-- **What all fields keep holds of a record that was read.** -/
theorem RecordShape.read_induction (hkeeps : shape.Keeps P) (hinitial : P shape.initial)
    {v : Value} {s : σ} (h : shape.read o v = .ok s) : P s := by
  cases v with
  | scalar x => cases h
  | list vs => cases h
  | object ms =>
    obtain ⟨fill, hfill, -, rfl, -⟩ := read_object_eq_ok_iff.mp h
    exact keeps_readFields hkeeps (List.Subset.refl _) hfill _ hinitial

end Fields

/-! ## Names -/

/-- The options are fragments of names. -/
structure Naming.Accepted (n : Naming) : Prop where
  repositoryInterfacePrefix : Text.acceptsFragment n.repositoryInterfacePrefix = true
  repositoryClassSuffix : Text.acceptsFragment n.repositoryClassSuffix = true
  serviceInterfacePrefix : Text.acceptsFragment n.serviceInterfacePrefix = true
  serviceClassSuffix : Text.acceptsFragment n.serviceClassSuffix = true

/-- The names that a request gives besides those of its tables are accepted. -/
structure Request.WellNamed (r : Request) : Prop where
  contextName : Text.acceptsIdentifier r.contextName = true
  naming : r.naming.Accepted

theorem readTextWhere_eq_ok_iff {accepts : String → Bool} {cause : String → Rejection}
    {read : Value → Reading String} {v : Value} {s : String} :
    readTextWhere accepts cause read v = .ok s ↔ read v = .ok s ∧ accepts s = true := by
  unfold readTextWhere
  constructor
  · intro h
    obtain ⟨text, hread, h⟩ := Reading.bind_eq_ok h
    split at h
    · cases h
      exact ⟨hread, by assumption⟩
    · cases h
  · rintro ⟨hread, haccepts⟩
    rw [hread]
    exact if_pos haccepts

theorem accepts_of_readTextWhere {accepts : String → Bool} {cause : String → Rejection}
    {read : Value → Reading String} {v : Value} {s : String}
    (h : readTextWhere accepts cause read v = .ok s) : accepts s = true :=
  (readTextWhere_eq_ok_iff.mp h).2

/-- Naming options that were read are accepted. -/
theorem Naming.accepted_of_read {o : Origin} {v : Value} {n : Naming}
    (h : Naming.shape.read o v = .ok n) : n.Accepted := by
  refine RecordShape.read_induction (P := Naming.Accepted) ?_
    ⟨by decide, by decide, by decide, by decide⟩ h
  intro f hf o v g hg
  simp only [Naming.shape, List.mem_cons, List.not_mem_nil, or_false] at hf
  rcases hf with rfl | rfl | rfl | rfl
  · exact Field.keeps_of hg fun a ha s hs => { hs with
      repositoryInterfacePrefix := accepts_of_readTextWhere ha }
  · exact Field.keeps_of hg fun a ha s hs => { hs with
      repositoryClassSuffix := accepts_of_readTextWhere ha }
  · exact Field.keeps_of hg fun a ha s hs => { hs with
      serviceInterfacePrefix := accepts_of_readTextWhere ha }
  · exact Field.keeps_of hg fun a ha s hs => { hs with
      serviceClassSuffix := accepts_of_readTextWhere ha }

/-- **The names of a request that was read are accepted.** -/
theorem Request.wellNamed_of_read {o : Origin} {v : Value} {r : Request}
    (h : Request.shape.read o v = .ok r) : r.WellNamed := by
  refine RecordShape.read_induction (P := WellNamed) ?_ ?_ h
  · intro f hf o v g hg
    simp only [Request.shape, List.mem_cons, List.not_mem_nil, or_false] at hf
    -- only the second and the last field touch a name
    rcases hf with rfl | rfl | rfl | rfl | rfl | rfl | rfl | rfl | rfl | rfl | rfl
    on_goal 2 =>
      exact Field.keeps_of hg fun a ha s hs => ⟨accepts_of_readTextWhere ha, hs.naming⟩
    on_goal 10 =>
      exact Field.keeps_of hg fun a ha s hs => ⟨hs.contextName, Naming.accepted_of_read ha⟩
    all_goals exact Field.keeps_of hg fun a ha s hs => ⟨hs.contextName, hs.naming⟩
  · exact ⟨by decide, ⟨by decide, by decide, by decide, by decide⟩⟩

end EntityScaffold
