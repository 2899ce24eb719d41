import EntityScaffold.Diagnostics.Report
import EntityScaffold.Number.Notation

/-!
# Findings

What the checks of a request can find, each with its severity, its code and its message. None of
them keeps a request from being compiled.

Model of the diagnostics that the checks of `validate_request` add.
-/

namespace EntityScaffold

/-- What a check has found. Tables and columns are given by their names. -/
inductive Finding where
  | blankTable (index : Nat)
  | emptyTable (table : String)
  | tableNotIdentifier (table className : String)
  | propertyNotIdentifier (table property member : String)
  | duplicateMember (table first property member : String)
  | namedLikeClass (table property className : String)
  | noPrimaryKey (table : String)
  | foreignKeyWithoutTable (table property : String)
  | foreignKeyOutside (table property target : String)
  | unknownDeleteBehavior (table property word : String)
  | skippedCollection (table : String) (collection referencingTable foreignKey reason : String)
  | rangeReversed (table property : String) (low high : Binary64)
  | lengthReversed (table property : String) (low high : Int)
  | timestampNotBytes (table property : String)
  deriving DecidableEq

namespace Finding

def severity : Finding → Severity
  | .blankTable _ => .info
  | .emptyTable _ => .info
  | .tableNotIdentifier .. => .warning
  | .propertyNotIdentifier .. => .warning
  | .duplicateMember .. => .error
  | .namedLikeClass .. => .warning
  | .noPrimaryKey _ => .warning
  | .foreignKeyWithoutTable .. => .warning
  | .foreignKeyOutside .. => .info
  | .unknownDeleteBehavior .. => .warning
  | .skippedCollection .. => .warning
  | .rangeReversed .. => .error
  | .lengthReversed .. => .error
  | .timestampNotBytes .. => .warning

def code : Finding → String
  | .blankTable _ => "TABLE_SKIPPED_BLANK_NAME"
  | .emptyTable _ => "TABLE_SKIPPED_NO_PROPERTIES"
  | .tableNotIdentifier .. => "TABLE_NAME_NOT_IDENTIFIER"
  | .propertyNotIdentifier .. => "PROPERTY_NAME_NOT_IDENTIFIER"
  | .duplicateMember .. => "DUPLICATE_PROPERTY_NAME"
  | .namedLikeClass .. => "PROPERTY_NAMED_LIKE_CLASS"
  | .noPrimaryKey _ => "NO_PRIMARY_KEY"
  | .foreignKeyWithoutTable .. => "FK_WITHOUT_REFERENCED_TABLE"
  | .foreignKeyOutside .. => "FK_TARGET_NOT_IN_REQUEST"
  | .unknownDeleteBehavior .. => "UNKNOWN_DELETE_BEHAVIOR"
  | .skippedCollection .. => "INVERSE_COLLECTION_CONFLICT"
  | .rangeReversed .. => "RANGE_MIN_EXCEEDS_MAX"
  | .lengthReversed .. => "MIN_LENGTH_EXCEEDS_MAX"
  | .timestampNotBytes .. => "TIMESTAMP_NOT_BYTES"

def message : Finding → String
  | .blankTable index => s!"Table #{index + 1} has a blank name and will be skipped."
  | .emptyTable table => s!"Table '{table}' has no properties and will be skipped."
  | .tableNotIdentifier table className =>
    s!"Table name '{table}' does not produce a valid C# identifier ('{className}')."
  | .propertyNotIdentifier _ property member =>
    s!"Property name '{property}' does not produce a valid C# identifier ('{member}')."
  | .duplicateMember table first property member =>
    s!"Properties '{first}' and '{property}' of table '{table}' both map to member '{member}'."
  | .namedLikeClass _ property className =>
    s!"Property '{property}' has the same name as its class '{className}'."
  | .noPrimaryKey table =>
    s!"Table '{table}' declares no primary key; EF Core will " ++
      "refuse to track it until one is configured."
  | .foreignKeyWithoutTable table property =>
    s!"'{table}.{property}' is marked as a foreign key but names " ++
      "no referenced table; no association is generated."
  | .foreignKeyOutside table property target =>
    s!"'{table}.{property}' references '{target}', which is not part of this request."
  | .unknownDeleteBehavior table property word =>
    s!"Delete behavior '{word}' on '{table}.{property}' " ++
      "is not recognised; the default for its nullability applies."
  | .skippedCollection table collection referencingTable foreignKey reason =>
    s!"Inverse collection '{collection}' on '{table}' " ++
      s!"(from {referencingTable}.{foreignKey}) is skipped: {reason}."
  | .rangeReversed table property low high =>
    s!"'{table}.{property}': range minimum " ++ low.toText ++ " exceeds maximum " ++
      high.toText ++ "."
  | .lengthReversed table property low high =>
    s!"'{table}.{property}': minimum length " ++ intText low ++ " exceeds maximum length " ++
      intText high ++ "."
  | .timestampNotBytes table property =>
    s!"'{table}.{property}' is a row-version column but is not a byte sequence."

/-- The context of a finding about a column. -/
def columnContext (table property : String) : Value :=
  .ofMembers [("table", .text table), ("property", .text property)]

def context : Finding → Value
  | .blankTable index => .ofMembers [("index", .int index)]
  | .emptyTable table => .ofMembers [("table", .text table)]
  | .tableNotIdentifier table _ => .ofMembers [("table", .text table)]
  | .propertyNotIdentifier table property _ => columnContext table property
  | .duplicateMember table _ property _ => columnContext table property
  | .namedLikeClass table property _ => columnContext table property
  | .noPrimaryKey table => .ofMembers [("table", .text table)]
  | .foreignKeyWithoutTable table property => columnContext table property
  | .foreignKeyOutside table property _ => columnContext table property
  | .unknownDeleteBehavior table property _ => columnContext table property
  | .skippedCollection table collection _ _ _ =>
    .ofMembers [("table", .text table), ("collection", .text collection)]
  | .rangeReversed table property _ _ => columnContext table property
  | .lengthReversed table property _ _ => columnContext table property
  | .timestampNotBytes table property => columnContext table property

/-- A finding as a diagnostic. -/
def diagnostic (f : Finding) : Diagnostic := ⟨f.severity, f.code, f.message, f.context⟩

end Finding

end EntityScaffold
