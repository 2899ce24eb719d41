import EntityScaffold.Proofs.CheckConstraints

/-!
# Bounds of ranges

The range of a column is written with its bounds: in an annotation, where an open end is the least
or the greatest number there is, or in the condition of a check constraint, where it is left out. A
bound is a number in double precision, in the shortest digits that mean it. What stands in the code
is a numeral as long as the number is finite; the others have words for texts.

* `Text.IsNumeral`: a sign or none, digits, perhaps a fraction, and perhaps an exponent.
* `IsBound`: a numeral, or the name of the least or the greatest number.
* `Annotation.bounds`, `CheckRule.comparisons`: the bounds in the code of a range.
* `Style.writtenBounds`: the bounds that a style writes for a column.
* `Style.RangeWritten`: what is said of them.

Results:
* `Binary64.isNumeral_toBoundText_iff`: the finite numbers are written as numerals, and no others.
* `Style.mem_writtenBounds_iff`: the bounds that are written are those that the column declares.
* `Style.forall_isBound_iff`: they are in form exactly when the declared ones are finite.
* `range_written`: all of it, for every style, table and column.
-/

namespace EntityScaffold

/-! ## Numerals -/

namespace Text

/-- Decimal digits, at least one. -/
structure IsDigits (s : List Char) : Prop where
  ne_nil : s ≠ []
  digits : ∀ c ∈ s, c.isDigit = true

/-- A minus or nothing. -/
inductive IsSign : List Char → Prop
  | absent : IsSign []
  | minus : IsSign ['-']

/-- A point with digits after it, or nothing. -/
inductive IsFraction : List Char → Prop
  | absent : IsFraction []
  | present {ds : List Char} : IsDigits ds → IsFraction ('.' :: ds)

/-- A signed power of ten, or nothing. -/
inductive IsExponent : List Char → Prop
  | absent : IsExponent []
  | present {sign : Char} {ds : List Char} : sign = '+' ∨ sign = '-' → IsDigits ds →
      IsExponent ('e' :: sign :: ds)

/-- A numeral: `-?digits(.digits)?(e[+-]digits)?`. -/
def IsNumeral (s : List Char) : Prop :=
  ∃ sign whole fraction exponent, s = sign ++ whole ++ fraction ++ exponent ∧
    IsSign sign ∧ IsDigits whole ∧ IsFraction fraction ∧ IsExponent exponent

/-- A numeral has a digit. -/
theorem IsNumeral.exists_isDigit {s : List Char} (h : IsNumeral s) :
    ∃ c ∈ s, c.isDigit = true := by
  obtain ⟨sign, whole, fraction, exponent, rfl, -, hwhole, -, -⟩ := h
  obtain ⟨c, hc⟩ := List.exists_mem_of_ne_nil whole hwhole.ne_nil
  exact ⟨c, by simp [hc], hwhole.digits c hc⟩

/-- The characters of a numeral are digits, signs, points and the letter of an exponent. -/
theorem IsNumeral.mem {s : List Char} {c : Char} (h : IsNumeral s) (hc : c ∈ s) :
    c.isDigit = true ∨ c ∈ ['-', '+', '.', 'e'] := by
  obtain ⟨sign, whole, fraction, exponent, rfl, hsign, hwhole, hfraction, hexponent⟩ := h
  rcases List.mem_append.mp hc with hc | hc
  · rcases List.mem_append.mp hc with hc | hc
    · rcases List.mem_append.mp hc with hc | hc
      · cases hsign with
        | absent => cases hc
        | minus =>
          obtain rfl := List.mem_singleton.mp hc
          exact .inr (by decide)
      · exact .inl (hwhole.digits c hc)
    · cases hfraction with
      | absent => cases hc
      | present hds =>
        rcases List.mem_cons.mp hc with rfl | hc
        · exact .inr (by decide)
        · exact .inl (hds.digits c hc)
  · cases hexponent with
    | absent => cases hc
    | present hsign hds =>
      rcases List.mem_cons.mp hc with rfl | hc
      · exact .inr (by decide)
      · rcases List.mem_cons.mp hc with rfl | hc
        · exact .inr (by rcases hsign with rfl | rfl <;> decide)
        · exact .inl (hds.digits c hc)

/-! ### Digits -/

theorem isDigits_digitsOf (n : Nat) : IsDigits (digitsOf n) :=
  ⟨Nat.toDigits_ne_nil, fun _ hc => Nat.isDigit_of_mem_toDigits (by decide) (by decide) hc⟩

theorem isDigits_zero : IsDigits ['0'] := ⟨List.cons_ne_nil _ _, List.forall_mem_singleton.mpr rfl⟩

theorem IsDigits.append {s t : List Char} (hs : ∀ c ∈ s, c.isDigit = true) (ht : IsDigits t) :
    IsDigits (s ++ t) :=
  ⟨by simp [ht.ne_nil], List.forall_mem_append.mpr ⟨hs, ht.digits⟩⟩

theorem isDigit_of_mem_zeros {n : Nat} : ∀ c ∈ List.replicate n '0', c.isDigit = true :=
  fun _ hc => List.eq_of_mem_replicate hc ▸ rfl

theorem IsDigits.append_zeros {s : List Char} (hs : IsDigits s) (n : Nat) :
    IsDigits (s ++ List.replicate n '0') :=
  ⟨by simp [hs.ne_nil], List.forall_mem_append.mpr ⟨hs.digits, isDigit_of_mem_zeros⟩⟩

/-! ### Written numbers -/

/-- Digits are a numeral, with a sign or without. -/
theorem IsDigits.isNumeral {sign ds : List Char} (hsign : IsSign sign) (hds : IsDigits ds) :
    IsNumeral (sign ++ ds) :=
  ⟨sign, ds, [], [], by simp, hsign, hds, .absent, .absent⟩

/-- So are digits with a point among them. -/
theorem IsDigits.isNumeral_point {sign whole ds : List Char} (hsign : IsSign sign)
    (hwhole : IsDigits whole) (hds : IsDigits ds) : IsNumeral (sign ++ (whole ++ '.' :: ds)) :=
  ⟨sign, whole, '.' :: ds, [], by simp, hsign, hwhole, .present hds, .absent⟩

theorem isNumeral_intText (n : Int) : IsNumeral (intText n).toList := by
  unfold intText
  rw [String.toList_ofList]
  split_ifs
  · exact (isDigits_digitsOf n.natAbs).isNumeral .minus
  · exact (isDigits_digitsOf n.natAbs).isNumeral .absent

end Text

namespace Binary64

open Text

theorem isDigits_exponentDigits (width n : Nat) : IsDigits (exponentDigits width n) :=
  .append isDigit_of_mem_zeros (isDigits_digitsOf n)

/-- A number with an exponent: one of its digits stands before the point. -/
theorem isNumeral_exponential {sign : List Char} (hsign : IsSign sign) {c : Char}
    (hc : c = '+' ∨ c = '-') {power : List Char} (hpower : IsDigits power) (digits : List Char) :
    IsDigits digits → IsNumeral (sign ++ ((match digits with
      | [] => []
      | [d] => [d]
      | d :: rest => d :: '.' :: rest) ++ 'e' :: c :: power)) := by
  rintro ⟨hne, hall⟩
  match digits, hne with
  | [d], _ =>
    exact ⟨sign, [d], [], _, by simp, hsign, ⟨List.cons_ne_nil _ _, hall⟩, .absent,
      .present hc hpower⟩
  | d :: d' :: rest, _ =>
    obtain ⟨hd, hrest⟩ := List.forall_mem_cons.mp hall
    exact ⟨sign, [d], '.' :: d' :: rest, _, by simp, hsign,
      ⟨List.cons_ne_nil _ _, List.forall_mem_singleton.mpr hd⟩,
      .present ⟨List.cons_ne_nil _ _, hrest⟩, .present hc hpower⟩

/-- **Decimal numbers are written as numerals**, under every layout. -/
theorem isNumeral_chars {sign : List Char} (hsign : IsSign sign) (layout : Layout) (d : Decimal) :
    IsNumeral (sign ++ d.chars layout) := by
  have hdigits := isDigits_digitsOf d.digits
  have hpositive : 0 < (digitsOf d.digits).length := List.length_pos_iff.mpr hdigits.ne_nil
  unfold Decimal.chars
  simp only
  split_ifs with hexponential hplus hwhole hsmall
  · exact isNumeral_exponential hsign (.inr rfl) (isDigits_exponentDigits _ _) _ hdigits
  · exact isNumeral_exponential hsign (.inl rfl) (isDigits_exponentDigits _ _) _ hdigits
  · exact IsDigits.isNumeral_point hsign (hdigits.append_zeros _) isDigits_zero
  · exact IsDigits.isNumeral_point hsign isDigits_zero (.append isDigit_of_mem_zeros hdigits)
  · -- the point stands among the digits: there is one on each side of it
    refine IsDigits.isNumeral_point hsign ⟨?_, ?_⟩ ⟨?_, ?_⟩
    · simp only [ne_eq, List.take_eq_nil_iff, not_or]
      exact ⟨by omega, hdigits.ne_nil⟩
    · exact fun c hc => hdigits.digits c (List.mem_of_mem_take hc)
    · simp only [ne_eq, List.drop_eq_nil_iff]
      omega
    · exact fun c hc => hdigits.digits c (List.mem_of_mem_drop hc)

theorem isSign_signChars (negative : Bool) : IsSign (signChars negative) := by
  cases negative with
  | true => exact .minus
  | false => exact .absent

theorem isNumeral_toBoundText (negative : Bool) (m : Nat) (e : Int) :
    IsNumeral (finite negative m e).toBoundText.toList := by
  unfold toBoundText
  split
  · exact isNumeral_intText _
  · unfold toText
    rw [String.toList_ofList]
    split_ifs
    · exact IsDigits.isNumeral_point (isSign_signChars negative) isDigits_zero isDigits_zero
    · exact isNumeral_chars (isSign_signChars negative) _ _

/-- The numbers that are not finite are written as words. -/
theorem toBoundText_mem {x : Binary64} (h : x.isFinite = false) :
    x.toBoundText ∈ ["nan", "inf", "-inf"] := by
  cases x with
  | nan => decide
  | infinite negative => cases negative <;> decide
  | finite => cases h

/-- **A bound is written as a numeral exactly when it is finite.** -/
theorem isNumeral_toBoundText_iff (x : Binary64) :
    IsNumeral x.toBoundText.toList ↔ x.isFinite = true := by
  constructor
  · have hwords : ∀ word ∈ ["nan", "inf", "-inf"], word.toList.any Char.isDigit = false := by decide
    intro h
    obtain ⟨c, hc, hdigit⟩ := h.exists_isDigit
    by_contra hfinite
    have hnone := hwords _ (toBoundText_mem (Bool.eq_false_iff.mpr hfinite))
    exact Bool.eq_false_iff.mp hnone (List.any_eq_true.mpr ⟨c, hc, hdigit⟩)
  · intro h
    cases x with
    | finite negative m e => exact isNumeral_toBoundText negative m e
    | nan | infinite => cases h

end Binary64

/-! ## Bounds in code -/

/-- A bound in form: a numeral, or the name of the least or the greatest number. -/
def IsBound (s : String) : Prop :=
  s = "double.MinValue" ∨ s = "double.MaxValue" ∨ Text.IsNumeral s.toList

/-- **A bound is in form exactly when it is finite**: the words for the other numbers are not those
for an open end. -/
theorem isBound_toBoundText_iff (x : Binary64) : IsBound x.toBoundText ↔ x.isFinite = true := by
  refine ⟨fun h => ?_, fun h => .inr (.inr (x.isNumeral_toBoundText_iff.mpr h))⟩
  by_contra hfinite
  have hword := Binary64.toBoundText_mem (Bool.eq_false_iff.mpr hfinite)
  rcases h with h | h | h
  · rw [h] at hword
    exact absurd hword (by decide)
  · rw [h] at hword
    exact absurd hword (by decide)
  · exact hfinite (x.isNumeral_toBoundText_iff.mp h)

/-! ### Annotations -/

namespace Annotation

/-- The bounds in the code of an annotation. -/
def bounds : Annotation → List String
  | .range low high => [boundText "double.MinValue" low, boundText "double.MaxValue" high]
  | _ => []

/-- What an annotation with bounds starts with. -/
def rangeHead : String := "[Range("

/-- **An annotation that starts like a range has two bounds**, and its code is theirs. -/
theorem code_of_startsWith {a : Annotation} (h : Code.startsWith rangeHead a.code = true) :
    ∃ low high, a.bounds = [low, high] ∧ a.code = rangeHead ++ low ++ ", " ++ high ++ ")]" := by
  cases a with
  | range low high =>
    refine ⟨_, _, rfl, ?_⟩
    unfold code rangeHead
    rfl
  | maxLength | minLength | regularExpression | column | foreignKey =>
    unfold code at h
    simp only [String.append_assoc] at h
    exact absurd h (Bool.eq_false_iff.mp (Code.Apart.startsWith_append (by decide) _))
  | key | required | emailAddress | phone | url | timestamp | concurrencyCheck =>
    exact absurd h (by decide)

end Annotation

/-! ### Check constraints -/

namespace CheckRule

/-- The comparisons in the condition of a rule, each with its bound. -/
def comparisons : CheckRule → List (String × String)
  | .range low high =>
    (low.map fun x => (" >= ", x.toBoundText)).toList ++
      (high.map fun x => (" <= ", x.toBoundText)).toList
  | .minLength _ => []

/-- The condition of a range joins its comparisons. -/
theorem condition_of_word {rule : CheckRule} (h : rule.word = "Range") (member : String) :
    rule.condition member = " AND ".intercalate
      (rule.comparisons.map fun c => "[" ++ member ++ "]" ++ c.1 ++ c.2) := by
  cases rule with
  | range low high =>
    have hleast : ∀ bound : String,
        s!"[{member}] >= " ++ bound = "[" ++ member ++ "]" ++ " >= " ++ bound := by
      intro bound
      show "[" ++ member ++ ("]" ++ " >= ") ++ bound = _
      simp only [String.append_assoc]
    have hgreatest : ∀ bound : String,
        s!"[{member}] <= " ++ bound = "[" ++ member ++ "]" ++ " <= " ++ bound := by
      intro bound
      show "[" ++ member ++ ("]" ++ " <= ") ++ bound = _
      simp only [String.append_assoc]
    unfold condition comparisons
    simp only [hleast, hgreatest, List.map_append, ← Option.toList_map, Option.map_map,
      Function.comp_def]
  | minLength n => exact absurd h (by decide : "MinLength" ≠ "Range")

end CheckRule

/-! ## Bounds of columns -/

/-- The bounds that a column declares. -/
def Property.declaredBounds (p : Property) : List Binary64 := p.rangeMin.toList ++ p.rangeMax.toList

/-- The bounds that a style writes for a column: those of its annotations, and those of its check
constraints. -/
def Style.writtenBounds (s : Style) (t : Table) (p : Property) : List String :=
  (s.propertyAnnotations p t).flatMap Annotation.bounds ++
    ((s.propertyStatements t p).filterMap FluentStatement.constraint?).flatMap fun k =>
      k.rule.comparisons.map Prod.snd

namespace Property

variable (p : Property) (t : Table)

theorem hasRange_iff : p.hasRange = true ↔ p.rangeMin ≠ none ∨ p.rangeMax ≠ none := by
  unfold hasRange
  rw [Bool.or_eq_true, Option.isSome_iff_ne_none, Option.isSome_iff_ne_none]

/-- The bounds in the annotations of a column. -/
theorem mem_annotationBounds_iff {b : String} :
    b ∈ (p.annotations t).flatMap Annotation.bounds ↔
      p.hasRange = true ∧ (b = boundText "double.MinValue" p.rangeMin ∨
        b = boundText "double.MaxValue" p.rangeMax) := by
  rw [List.mem_flatMap, hasRange_iff]
  constructor
  · rintro ⟨a, ha, hb⟩
    cases a with
    | range low high =>
      have hdeclared : Facet.Declared p (.range low high) :=
        (p.annotation_mem_annotations_iff t).mp ha
      obtain ⟨rfl, rfl, hrange⟩ := hdeclared
      exact ⟨hrange, by simpa [ Annotation.bounds] using hb⟩
    | _ => cases hb
  · rintro ⟨hrange, hb⟩
    have hdeclared : Facet.Declared p (.range p.rangeMin p.rangeMax) := ⟨rfl, rfl, hrange⟩
    refine ⟨.range p.rangeMin p.rangeMax, (p.annotation_mem_annotations_iff t).mpr hdeclared, ?_⟩
    simpa [ Annotation.bounds] using hb

/-- The bounds in the check constraints of a column. -/
theorem constraintBounds_eq :
    ((Style.fluentOnly.propertyStatements t p).filterMap FluentStatement.constraint?).flatMap
      (fun k => k.rule.comparisons.map Prod.snd) = p.declaredBounds.map Binary64.toBoundText := by
  rw [filterMap_propertyStatements, List.flatMap_map]
  unfold constraint checkRules declaredBounds hasRange
  cases p.rangeMin <;> cases p.rangeMax <;> cases p.minLength <;> rfl

/-- The storage calls of a column say nothing of its range. -/
theorem filterMap_storageStatements :
    p.storageStatements.filterMap FluentStatement.constraint? = [] := by
  unfold storageStatements
  rw [filterMap_onlyIf]
  exact ite_self _

end Property

namespace Style

variable (s : Style) (t : Table) (p : Property)

/-- **The bounds that are written are those that the column declares**, in every style. The
annotating styles also name the open end of a range. -/
theorem mem_writtenBounds_iff {b : String} :
    b ∈ s.writtenBounds t p ↔
      (∃ x ∈ p.declaredBounds, b = x.toBoundText) ∨
      s.annotates = true ∧ p.hasRange = true ∧
        (p.rangeMin = none ∧ b = "double.MinValue" ∨
          p.rangeMax = none ∧ b = "double.MaxValue") := by
  have hannotations : b ∈ (p.annotations t).flatMap Annotation.bounds ↔
      (∃ x ∈ p.declaredBounds, b = x.toBoundText) ∨ p.hasRange = true ∧
        (p.rangeMin = none ∧ b = "double.MinValue" ∨
          p.rangeMax = none ∧ b = "double.MaxValue") := by
    rw [p.mem_annotationBounds_iff t]
    unfold Property.declaredBounds Property.hasRange
    cases p.rangeMin <;> cases p.rangeMax <;> simp [boundText, or_comm]
  unfold writtenBounds
  cases s with
  | annotationsAndFluent =>
    unfold propertyAnnotations propertyStatements
    simp only [p.filterMap_storageStatements, List.flatMap_nil, List.append_nil]
    simpa [annotates] using hannotations
  | annotationsOnly =>
    unfold propertyAnnotations propertyStatements
    simpa [annotates] using hannotations
  | fluentOnly =>
    rw [p.constraintBounds_eq]
    simp [propertyAnnotations, annotates, @eq_comm _ b]

/-- **The bounds that are written are in form exactly when the declared ones are finite.** -/
theorem forall_isBound_iff :
    (∀ b ∈ s.writtenBounds t p, IsBound b) ↔ ∀ x ∈ p.declaredBounds, x.isFinite = true := by
  constructor
  · intro h x hx
    have hwritten := (s.mem_writtenBounds_iff t p).mpr (.inl ⟨x, hx, rfl⟩)
    exact (isBound_toBoundText_iff x).mp (h _ hwritten)
  · intro h b hb
    rcases (s.mem_writtenBounds_iff t p).mp hb with ⟨x, hx, rfl⟩ | ⟨-, -, ⟨-, rfl⟩ | ⟨-, rfl⟩⟩
    · exact (isBound_toBoundText_iff x).mpr (h x hx)
    · exact .inl rfl
    · exact .inr (.inl rfl)

end Style

/-- What a style writes of the range of a column. -/
structure Style.RangeWritten (s : Style) (t : Table) (p : Property) : Prop where
  /-- What starts like a range among the annotations is one, with two bounds. -/
  annotation : ∀ a ∈ s.propertyAnnotations p t,
    Code.startsWith Annotation.rangeHead a.code = true →
      ∃ low high, a.bounds = [low, high] ∧ a.code = "[Range(" ++ low ++ ", " ++ high ++ ")]"
  /-- A constraint on the range compares the member with its bounds, of which there is one. -/
  condition : ∀ k ∈ (s.propertyStatements t p).filterMap FluentStatement.constraint?,
    k.rule.word = "Range" →
      k.rule.comparisons ≠ [] ∧
      k.rule.condition k.member = " AND ".intercalate
        (k.rule.comparisons.map fun c => "[" ++ k.member ++ "]" ++ c.1 ++ c.2)
  /-- The bounds are the declared ones, and the names of open ends where there are annotations. -/
  written : ∀ b, b ∈ s.writtenBounds t p ↔
    (∃ x ∈ p.declaredBounds, b = x.toBoundText) ∨
    s.annotates = true ∧ p.hasRange = true ∧
      (p.rangeMin = none ∧ b = "double.MinValue" ∨ p.rangeMax = none ∧ b = "double.MaxValue")
  /-- Each bound by itself is in form exactly when it is finite. -/
  bound : ∀ x ∈ p.declaredBounds, IsBound x.toBoundText ↔ x.isFinite = true
  /-- So all are exactly when the declared ones are finite. -/
  inForm : (∀ b ∈ s.writtenBounds t p, IsBound b) ↔ ∀ x ∈ p.declaredBounds, x.isFinite = true

/-- The rules on the range of a column compare it with something. -/
theorem Property.comparisons_ne_nil {p : Property} {rule : CheckRule} (h : rule ∈ p.checkRules)
    (hword : rule.word = "Range") : rule.comparisons ≠ [] := by
  rcases List.mem_append.mp h with h | h
  · obtain ⟨hrange, rfl⟩ := mem_onlyIf.mp h
    rcases p.hasRange_iff.mp hrange with hmin | hmax
    · simp [CheckRule.comparisons, hmin]
    · simp [CheckRule.comparisons, hmax]
  · obtain ⟨n, -, rfl⟩ : ∃ n, p.minLength = some n ∧ CheckRule.minLength n = rule := by
      simpa using h
    exact absurd hword (by decide : "MinLength" ≠ "Range")

/-- The constraints that a style writes for a column follow its rules. -/
theorem Style.exists_rule_of_mem {s : Style} {t : Table} {p : Property} {k : CheckConstraint}
    (h : k ∈ (s.propertyStatements t p).filterMap FluentStatement.constraint?) :
    ∃ rule ∈ p.checkRules, p.constraint t rule = k := by
  cases s with
  | annotationsAndFluent =>
    unfold propertyStatements at h
    simp [p.filterMap_storageStatements] at h
  | annotationsOnly => cases h
  | fluentOnly =>
    rw [p.filterMap_propertyStatements t] at h
    exact List.mem_map.mp h

/-- **The range of a column is written with the bounds that it declares**, in every style, and they
are numerals as long as they are finite. -/
theorem range_written (s : Style) (t : Table) (p : Property) : s.RangeWritten t p where
  annotation _ _ h := Annotation.code_of_startsWith h
  condition := by
    intro k hk hword
    obtain ⟨rule, hrule, rfl⟩ := Style.exists_rule_of_mem hk
    exact ⟨Property.comparisons_ne_nil hrule hword, CheckRule.condition_of_word hword _⟩
  written _ := s.mem_writtenBounds_iff t p
  bound x _ := isBound_toBoundText_iff x
  inForm := s.forall_isBound_iff t p

/-- A column from a document, where the texts of numbers are read as numbers: the word for its
greatest value is none of the forms of a bound. -/
theorem range_written_infinite :
    let p : Property :=
      { name := "rank", rangeMin := some (.zero false), rangeMax := some (.infinite false) }
    let t : Table := ⟨"score", [p], none⟩
    Property.shape.read .document (.ofMembers
      [("name", .text "rank"), ("rangeMin", .int 0), ("rangeMax", .text "inf")]) = .ok p ∧
    (Style.annotationsOnly.propertyAnnotations p t).map Annotation.code = ["[Range(0, inf)]"] ∧
    ¬ ∀ b ∈ Style.annotationsOnly.writtenBounds t p, IsBound b := by
  intro p t
  exact ⟨by decide +kernel, by decide +kernel,
    (range_written .annotationsOnly t p).inForm.not.mpr (by decide)⟩

end EntityScaffold
