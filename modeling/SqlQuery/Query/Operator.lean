/-!
# The words of a query

The fixed vocabularies of queries: what a query does, how a condition compares,
how the parts of a filter are joined, how results are sorted and aggregated. Each
word has one spelling in documents and messages, and `named?` reads it back.
-/

namespace SqlQuery

/-- The first of the words that is spelled like this. -/
def named? {α : Type} (words : List α) (spelling : α → String) (s : String) : Option α :=
  words.find? fun w => spelling w == s

/-- What a query does. -/
inductive Operation where
  | findMany
  | findFirst
  | findUnique
  | create
  | createMany
  | update
  | updateMany
  | delete
  | deleteMany
  | upsert
  | aggregate
  | groupBy
deriving DecidableEq, Repr, Inhabited

namespace Operation

/-- The spelling of an operation. -/
def name : Operation → String
  | .findMany => "findMany"
  | .findFirst => "findFirst"
  | .findUnique => "findUnique"
  | .create => "create"
  | .createMany => "createMany"
  | .update => "update"
  | .updateMany => "updateMany"
  | .delete => "delete"
  | .deleteMany => "deleteMany"
  | .upsert => "upsert"
  | .aggregate => "aggregate"
  | .groupBy => "groupBy"

/-- Every operation. -/
def all : List Operation :=
  [.findMany, .findFirst, .findUnique, .create, .createMany, .update, .updateMany, .delete,
    .deleteMany, .upsert, .aggregate, .groupBy]

/-- Reads the spelling of an operation. -/
def ofName? : String → Option Operation :=
  named? all name

theorem ofName?_name (o : Operation) : ofName? o.name = some o := by
  cases o <;> decide

/-- Whether the operation writes one parent row, which related rows can hang on. -/
def acceptsNestedWrites : Operation → Bool
  | .create | .update | .upsert => true
  | _ => false

/-- Whether the result is one record and not a list. -/
def returnsSingle : Operation → Bool
  | .findFirst | .findUnique | .create | .update | .delete | .upsert => true
  | _ => false

/-- Whether the operation computes aggregates and not records. -/
def isAggregate : Operation → Bool
  | .aggregate | .groupBy => true
  | _ => false

end Operation

/-- How a condition compares a column with its value. -/
inductive Operator where
  | equals
  | not
  | isIn
  | notIn
  | lt
  | lte
  | gt
  | gte
  | contains
  | startsWith
  | endsWith
  | isEmpty
  | has
  | hasEvery
  | hasSome
  | isNull
  | search
deriving DecidableEq, Repr, Inhabited

namespace Operator

/-- The spelling of an operator. -/
def name : Operator → String
  | .equals => "equals"
  | .not => "not"
  | .isIn => "in"
  | .notIn => "notIn"
  | .lt => "lt"
  | .lte => "lte"
  | .gt => "gt"
  | .gte => "gte"
  | .contains => "contains"
  | .startsWith => "startsWith"
  | .endsWith => "endsWith"
  | .isEmpty => "isEmpty"
  | .has => "has"
  | .hasEvery => "hasEvery"
  | .hasSome => "hasSome"
  | .isNull => "isNull"
  | .search => "search"

/-- Every operator. -/
def all : List Operator :=
  [.equals, .not, .isIn, .notIn, .lt, .lte, .gt, .gte, .contains, .startsWith, .endsWith,
    .isEmpty, .has, .hasEvery, .hasSome, .isNull, .search]

/-- Reads the spelling of an operator. -/
def ofName? : String → Option Operator :=
  named? all name

theorem ofName?_name (o : Operator) : ofName? o.name = some o := by
  cases o <;> decide

end Operator

/-- How the parts of a filter node are joined. -/
inductive LogicalOp where
  | and
  | or
  | not
deriving DecidableEq, Repr, Inhabited

namespace LogicalOp

/-- The spelling of a logical operator. -/
def name : LogicalOp → String
  | .and => "AND"
  | .or => "OR"
  | .not => "NOT"

/-- Reads the spelling of a logical operator. -/
def ofName? : String → Option LogicalOp :=
  named? [.and, .or, .not] name

theorem ofName?_name (o : LogicalOp) : ofName? o.name = some o := by
  cases o <;> decide

end LogicalOp

/-- Whether letter case counts when texts are compared. -/
inductive CaseMode where
  | default
  | insensitive
deriving DecidableEq, Repr, Inhabited

namespace CaseMode

/-- The spelling of a case mode. -/
def name : CaseMode → String
  | .default => "default"
  | .insensitive => "insensitive"

/-- Reads the spelling of a case mode. -/
def ofName? : String → Option CaseMode :=
  named? [.default, .insensitive] name

theorem ofName?_name (m : CaseMode) : ofName? m.name = some m := by
  cases m <;> decide

end CaseMode

/-- The direction of a sort. -/
inductive SortOrder where
  | asc
  | desc
deriving DecidableEq, Repr, Inhabited

namespace SortOrder

/-- The spelling of a sort direction. -/
def name : SortOrder → String
  | .asc => "asc"
  | .desc => "desc"

/-- Reads the spelling of a sort direction. -/
def ofName? : String → Option SortOrder :=
  named? [.asc, .desc] name

theorem ofName?_name (o : SortOrder) : ofName? o.name = some o := by
  cases o <;> decide

end SortOrder

/-- A function over the rows of a group. -/
inductive AggregateFunction where
  | count
  | sum
  | avg
  | min
  | max
deriving DecidableEq, Repr, Inhabited

namespace AggregateFunction

/-- The spelling of a function, also the start of its result's name. -/
def name : AggregateFunction → String
  | .count => "count"
  | .sum => "sum"
  | .avg => "avg"
  | .min => "min"
  | .max => "max"

/-- The spelling of a function in SQL. -/
def sqlName : AggregateFunction → String
  | .count => "COUNT"
  | .sum => "SUM"
  | .avg => "AVG"
  | .min => "MIN"
  | .max => "MAX"

/-- Reads the spelling of a function. -/
def ofName? : String → Option AggregateFunction :=
  named? [.count, .sum, .avg, .min, .max] name

theorem ofName?_name (f : AggregateFunction) : ofName? f.name = some f := by
  cases f <;> decide

end AggregateFunction

end SqlQuery
