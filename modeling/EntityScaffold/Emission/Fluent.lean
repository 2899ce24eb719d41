import EntityScaffold.Emission.Annotation

/-!
# Fluent statements

The statements on `entity` that a fluent style writes into the context: a chain of calls for the
storage facets of a column, check constraints for its bounds, and notes for the rules that have
no fluent form.

Model of `_fluent_storage_chain`, `_fluent_validation_lines` and `fluent_property_lines`.
-/

namespace EntityScaffold

/-- A call that sets a storage facet of a column. -/
inductive StorageCall where
  | hasMaxLength (n : Int)
  | isRequired
  | hasColumnType (type : String)
  | isRowVersion
  | isConcurrencyToken
  deriving DecidableEq

/-- A storage call as code. -/
def StorageCall.code : StorageCall → String
  | .hasMaxLength n => "HasMaxLength(" ++ intText n ++ ")"
  | .isRequired => "IsRequired()"
  | .hasColumnType type => "HasColumnType(" ++ Text.regularLiteral type ++ ")"
  | .isRowVersion => "IsRowVersion()"
  | .isConcurrencyToken => "IsConcurrencyToken()"

/-- What a check constraint restricts. -/
inductive CheckRule where
  | range (low high : Option Binary64)
  | minLength (n : Int)
  deriving DecidableEq

/-- The word for the rule in a constraint's name. -/
def CheckRule.word : CheckRule → String
  | .range .. => "Range"
  | .minLength _ => "MinLength"

/-- The condition on a member. -/
def CheckRule.condition (member : String) : CheckRule → String
  | .range low high =>
    " AND ".intercalate
      ((low.map fun x => s!"[{member}] >= " ++ x.toBoundText).toList ++
        (high.map fun x => s!"[{member}] <= " ++ x.toBoundText).toList)
  | .minLength n => s!"LEN([{member}]) >= " ++ intText n

/-- A rule that has no fluent form. -/
inductive UnmappedRule where
  | emailAddress
  | phoneNumber
  | url
  | regularExpression
  deriving DecidableEq

/-- The words for an unmapped rule. -/
def UnmappedRule.words : UnmappedRule → String
  | .emailAddress => "email address"
  | .phoneNumber => "phone number"
  | .url => "url"
  | .regularExpression => "regular expression"

/-- A statement on `entity`. -/
inductive FluentStatement where
  | storage (member : String) (calls : List StorageCall)
  | check (entity member : String) (rule : CheckRule)
  | note (member : String) (rule : UnmappedRule)
  deriving DecidableEq

/-- The name of a check constraint. -/
def constraintName (entity member : String) (rule : CheckRule) : String :=
  s!"CK_{entity}_{member}_{rule.word}"

/-- A statement as code. -/
def FluentStatement.code : FluentStatement → String
  | .storage member calls =>
    s!"entity.Property(e => e.{member})." ++ ".".intercalate (calls.map StorageCall.code) ++ ";"
  | .check entity member rule =>
    "entity.ToTable(t => t.HasCheckConstraint(\"" ++ constraintName entity member rule ++ "\", " ++
      Text.regularLiteral (rule.condition member) ++ "));"
  | .note member rule => s!"// {member}: {rule.words} validation has no fluent equivalent."

namespace Property

/-- The calls for the storage facets of a column. -/
def storageCalls (p : Property) : List StorageCall :=
  (p.maxLength.map StorageCall.hasMaxLength).toList ++
  onlyIf p.isRequiredText .isRequired ++
  (p.columnType.map StorageCall.hasColumnType).toList ++
  onlyIf p.isTimestamp .isRowVersion ++
  onlyIf p.isConcurrencyToken .isConcurrencyToken

/-- The chain of storage calls, if there are any. -/
def storageStatements (p : Property) : List FluentStatement :=
  onlyIf (!p.storageCalls.isEmpty) (.storage p.memberName p.storageCalls)

/-- Check constraints and notes for the validation rules of a column. -/
def validationStatements (p : Property) (t : Table) : List FluentStatement :=
  onlyIf p.hasRange (.check t.className p.memberName (.range p.rangeMin p.rangeMax)) ++
  (p.minLength.map fun n => .check t.className p.memberName (.minLength n)).toList ++
  onlyIf p.isEmailAddress (.note p.memberName .emailAddress) ++
  onlyIf p.isPhoneNumber (.note p.memberName .phoneNumber) ++
  onlyIf p.isUrl (.note p.memberName .url) ++
  onlyIf p.regexPattern.isSome (.note p.memberName .regularExpression)

end Property

end EntityScaffold
