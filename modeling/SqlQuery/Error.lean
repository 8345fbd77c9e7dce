import SqlQuery.Query.Basic
import SqlQuery.Sql.Dialect

/-!
# What can go wrong

Everything that stops a query from being compiled is a cause of its own, with what
a reader needs to mend it; `Error.message` words it. None of these go away when
the same is tried again, except that a file could not be read.
-/

namespace SqlQuery

/-- Where a row of data is written, for messages. -/
inductive WriteSite where
  | query (operation : Operation)
  | upsertCreate
  | upsertUpdate
  | nested (kind : RelationChange.Kind)
  | nestedUpdate (kind : RelationChange.Kind)
deriving DecidableEq, Repr

/-- The wording of a place where data is written. -/
def WriteSite.name : WriteSite → String
  | .query operation => operation.name
  | .upsertCreate => "upsert create"
  | .upsertUpdate => "upsert update"
  | .nested kind => "nested " ++ kind.name
  | .nestedUpdate kind => "nested " ++ kind.name ++ " update"

/-- The values that an operator can ask for. -/
inductive Expected where
  | scalar
  | list
  | string
  | bool
  | element
deriving DecidableEq, Repr

/-- The wording of what an operator asks for. -/
def Expected.name : Expected → String
  | .scalar => "a scalar value"
  | .list => "a list value"
  | .string => "a string value"
  | .bool => "a bool value"
  | .element => "a single element"

/-- Why an operator cannot be used. -/
inductive Unsupported where
  | aggregateOutsideHaving (f : AggregateFunction)
  | caseInsensitive
  | wrongValue (expected : Expected) (found : Kind)
  | noArrays (dialect : Dialect)
deriving DecidableEq, Repr

/-- The wording of why an operator cannot be used. -/
def Unsupported.message : Unsupported → String
  | .aggregateOutsideHaving f => "aggregate " ++ f.sqlName ++ " is only allowed in HAVING"
  | .caseInsensitive =>
    "case-insensitive mode applies to comparison and LIKE operators only"
  | .wrongValue expected found => "expected " ++ expected.name ++ ", got " ++ found.name
  | .noArrays dialect => dialect.name ++ " has no array columns"

/-- How a row differs from the first one. -/
inductive ShapeProblem where
  | missing
  | unexpected
deriving DecidableEq, Repr

/-- The wording of a difference between rows. -/
def ShapeProblem.name : ShapeProblem → String
  | .missing => "missing"
  | .unexpected => "unexpected"

/-- The trees whose depth is bounded. -/
inductive Tree where
  | filter
  | inclusion
deriving DecidableEq, Repr

/-- The wording of a tree. -/
def Tree.name : Tree → String
  | .filter => "Filter"
  | .inclusion => "Relation inclusion"

/-- The levels that a tree may have where nothing else is said. -/
def defaultMaxDepth : Nat := 32

/-- What is wrong with settings, with a schema or with a relation of it. -/
inductive ConfigProblem where
  | schemaSyntax
  | configSyntax
  | zeroDepth
  | unpairedRelation (relation model : String)
  | noTargetFields (relation model : String)
deriving DecidableEq, Repr

/-- The wording of what is wrong with settings. -/
def ConfigProblem.message : ConfigProblem → String
  | .schemaSyntax => "Failed to parse schema"
  | .configSyntax => "Failed to parse config"
  | .zeroDepth => "max_depth must be at least 1"
  | .unpairedRelation relation model =>
    "relation '" ++ relation ++ "' on '" ++ model ++ "' must pair from_fields with to_fields"
  | .noTargetFields relation model =>
    "relation '" ++ relation ++ "' on '" ++ model ++ "' has no to_fields"

/-- Why a file cannot be read. -/
inductive FileProblem where
  | notFound
  | isDirectory
  | notDirectory
  | nameTooLong
  | nulInName
  | notText
  | other (message : String)
deriving DecidableEq, Repr

/-- The wording of why a file cannot be read. -/
def FileProblem.message : FileProblem → String
  | .notFound => "No such file or directory (os error 2)"
  | .isDirectory => "Is a directory (os error 21)"
  | .notDirectory => "Not a directory (os error 20)"
  | .nameTooLong => "File name too long (os error 36)"
  | .nulInName => "file name contained an unexpected NUL byte"
  | .notText => "stream did not contain valid UTF-8"
  | .other message => message

/-- Why a query, or what it needs, is refused. -/
inductive Error where
  | emptyPayload (site : WriteSite)
  | missingSafetyPredicate (operation : Operation) (model : String)
  | missingWhere (kind : RelationChange.Kind) (relation : String)
  | shapeMismatch (row : Nat) (problem : ShapeProblem) (field : String)
  | duplicateField (site : WriteSite) (field : String)
  | foreignKeyInPayload (kind : RelationChange.Kind) (relation column : String)
  | nestedWritesNotAllowed (operation : Operation)
  | unsupportedOperator (field : String) (op : Operator) (reason : Unsupported)
  | foreignKeyElsewhere (relation : String) (kind : RelationChange.Kind)
  | missingAggregationField (function : AggregateFunction)
  | missingAggregation (model : String)
  | missingGroupBy (model : String)
  | missingUpsertKeys (model : String)
  | payloadMismatch (operation : Operation) (expected found : Payload.Kind)
  | unknownModel (model : String) (suggestion : Option String)
  | unknownField (model field : String) (suggestion : Option String)
  | unknownRelation (model relation : String) (suggestion : Option String)
  | depthExceeded (tree : Tree) (limit : Nat)
  | config (problem : ConfigProblem)
  | file (problem : FileProblem)
deriving DecidableEq, Repr

namespace Error

/-- The question after an unknown name, where a known one is close. -/
def didYouMean : Option String → String
  | some s => ". Did you mean '" ++ s ++ "'?"
  | none => ""

/-- The wording of an unsupported operator. -/
def unsupportedMessage (operator field reason : String) : String :=
  "Unsupported operator '" ++ operator ++ "' on field '" ++ field ++ "': " ++ reason

/-- The wording of an error. -/
def message : Error → String
  | .emptyPayload site => "Empty payload: " ++ site.name ++ " requires at least one column"
  | .missingSafetyPredicate operation model =>
    "Refusing to compile " ++ operation.name ++ " on '" ++ model ++ "' without a filter"
  | .missingWhere kind relation =>
    "Nested " ++ kind.name ++ " on relation '" ++ relation ++ "' requires a where filter"
  | .shapeMismatch row problem field =>
    "Shape mismatch in row " ++ toString row ++ ": " ++ problem.name ++ " column '" ++ field
      ++ "'"
  | .duplicateField site field =>
    "Field '" ++ field ++ "' appears more than once in " ++ site.name ++ " payload"
  | .foreignKeyInPayload kind relation column =>
    "Nested " ++ kind.name ++ " on relation '" ++ relation ++ "' sets foreign key '" ++ column
      ++ "'; it is taken from the parent"
  | .nestedWritesNotAllowed operation =>
    "Operation " ++ operation.name ++ " cannot carry nested writes"
  | .unsupportedOperator field op reason => unsupportedMessage op.name field reason.message
  | .foreignKeyElsewhere relation kind =>
    unsupportedMessage kind.name relation "nested writes need the foreign key on the related model"
  | .missingAggregationField function =>
    "Aggregation " ++ function.sqlName ++ " requires a named field"
  | .missingAggregation model =>
    "Aggregate on '" ++ model ++ "' requires at least one aggregation"
  | .missingGroupBy model =>
    "GroupBy on '" ++ model ++ "' requires at least one group-by field"
  | .missingUpsertKeys model =>
    "Upsert on '" ++ model ++ "' requires at least one conflict key"
  | .payloadMismatch operation expected found =>
    "Operation " ++ operation.name ++ " expects " ++ expected.name ++ " payload, got "
      ++ found.name
  | .unknownModel model suggestion =>
    "Unknown model '" ++ model ++ "'" ++ didYouMean suggestion
  | .unknownField model field suggestion =>
    "Unknown field '" ++ field ++ "' on model '" ++ model ++ "'" ++ didYouMean suggestion
  | .unknownRelation model relation suggestion =>
    "Unknown relation '" ++ relation ++ "' on model '" ++ model ++ "'" ++ didYouMean suggestion
  | .depthExceeded tree limit =>
    tree.name ++ " nested deeper than " ++ toString limit ++ " levels"
  | .config problem => "Configuration error: " ++ problem.message
  | .file problem => "IO error: " ++ problem.message

/-- Whether the same may succeed when it is tried again. -/
def isRetryable : Error → Bool
  | .file _ => true
  | _ => false

end Error

end SqlQuery
