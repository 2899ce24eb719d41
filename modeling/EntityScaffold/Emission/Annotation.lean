import EntityScaffold.Data.Optional
import EntityScaffold.Schema.Relationship
import EntityScaffold.Text.Literal

/-!
# Annotations

The attributes that an annotating style writes above the members of an entity. A facet of a
column gives an annotation whenever it is declared; only the key annotation also looks at the
table, since a composite key cannot be annotated.

Model of `_annotation_lines`, `_is_required_text` and `_range_bounds`.
-/

namespace EntityScaffold

/-- A bound of a range, open when it is absent. -/
def boundText (openText : String) : Option Binary64 → String
  | some x => x.toBoundText
  | none => openText

/-- An attribute of a member. -/
inductive Annotation where
  | key
  | maxLength (n : Int)
  | minLength (n : Int)
  | required
  | range (low high : Option Binary64)
  | emailAddress
  | phone
  | url
  | regularExpression (pattern : String)
  | column (type : String)
  | timestamp
  | concurrencyCheck
  | foreignKey (member : String)
  deriving DecidableEq

/-- An annotation as code. -/
def Annotation.code : Annotation → String
  | .key => "[Key]"
  | .maxLength n => "[MaxLength(" ++ intText n ++ ")]"
  | .minLength n => "[MinLength(" ++ intText n ++ ")]"
  | .required => "[Required]"
  | .range low high =>
    "[Range(" ++ boundText "double.MinValue" low ++ ", " ++ boundText "double.MaxValue" high ++ ")]"
  | .emailAddress => "[EmailAddress]"
  | .phone => "[Phone]"
  | .url => "[Url]"
  | .regularExpression pattern =>
    "[RegularExpression(" ++ Text.verbatimLiteral pattern ++ ")]"
  | .column type => "[Column(TypeName = " ++ Text.regularLiteral type ++ ")]"
  | .timestamp => "[Timestamp]"
  | .concurrencyCheck => "[ConcurrencyCheck]"
  | .foreignKey member => "[ForeignKey(" ++ Text.regularLiteral member ++ ")]"

namespace Property

/-- The column is a text that must be given: not nullable and not a key. -/
def isRequiredText (p : Property) : Bool :=
  !p.isNullable && !p.isPrimaryKey && p.dataType == .text

/-- The column has a bound. -/
def hasRange (p : Property) : Bool := p.rangeMin.isSome || p.rangeMax.isSome

/-- Every annotation that applies to a column, in fixed order. -/
def annotations (p : Property) (t : Table) : List Annotation :=
  onlyIf (p.isPrimaryKey && t.primaryKeys.length == 1) .key ++
  (p.maxLength.map Annotation.maxLength).toList ++
  (p.minLength.map Annotation.minLength).toList ++
  onlyIf p.isRequiredText .required ++
  onlyIf p.hasRange (.range p.rangeMin p.rangeMax) ++
  onlyIf p.isEmailAddress .emailAddress ++
  onlyIf p.isPhoneNumber .phone ++
  onlyIf p.isUrl .url ++
  (p.regexPattern.map Annotation.regularExpression).toList ++
  (p.columnType.map Annotation.column).toList ++
  onlyIf p.isTimestamp .timestamp ++
  onlyIf p.isConcurrencyToken .concurrencyCheck

/-- The annotations of a reference navigation: the foreign key is named unless its member has the
conventional name, the principal's class followed by `Id`. -/
def navigationAnnotations (p : Property) : List Annotation :=
  let conventional := Text.pascalCase (p.referencedTable.getD "") ++ "Id"
  onlyIf (p.memberName != conventional) (.foreignKey p.memberName)

end Property

end EntityScaffold
