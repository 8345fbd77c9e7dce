import SqlQuery.Query.Write

/-!
# Queries

A query says what is wanted of one model, without any dialect: what to do, which
fields to return, a filter, relations to join, sorting and paging, aggregates, the
data to write and the writes to relations that follow it.

Queries and inclusions refer to each other: an inclusion may hold a query, whose
selection and filter apply to the joined rows.
-/

namespace SqlQuery

/-- One entry of a sort. -/
structure Ordering where
  field : String
  order : SortOrder := .asc
deriving DecidableEq, Repr, Inhabited

/-- The place after which a page starts. -/
structure Cursor where
  field : String
  value : Value
deriving DecidableEq, Repr, Inhabited

/-- An aggregate of a field over the rows of a group. -/
structure Aggregation where
  function : AggregateFunction
  field : String := ""
deriving DecidableEq, Repr, Inhabited

namespace Aggregation

/-- The count of all rows. -/
def countAll : Aggregation :=
  { function := .count, field := "*" }

/-- Whether the aggregate is over rows and not over a field. -/
def isStar (a : Aggregation) : Bool :=
  a.field == "" || a.field == "*"

/-- The name of the aggregate among the results. -/
def aliasName (a : Aggregation) : String :=
  a.function.name ++ "_" ++ (if a.isStar then "" else a.field)

end Aggregation

mutual

/-- What is wanted of one model. -/
structure Query where
  model : String
  operation : Operation
  selection : List String := []
  filter : Filter := {}
  inclusions : List Inclusion := []
  orderBy : List Ordering := []
  skip : Option UInt64 := none
  take : Option UInt64 := none
  cursor : Option Cursor := none
  groupBy : List String := []
  having : Filter := {}
  distinct : List String := []
  aggregations : List Aggregation := []
  payload : Payload := .none
  writes : List NestedWrite := []
  throwIfNotFound : Bool := false

/-- A relation to join; one that does not project is only a path to deeper ones. -/
structure Inclusion where
  relation : String
  query : Option Query := none
  projects : Bool := true
  nested : List Inclusion := []

end

-- the two types are recursive, so that a value of theirs is its fields by cases only

theorem Query.eta (q : Query) :
    (⟨q.model, q.operation, q.selection, q.filter, q.inclusions, q.orderBy, q.skip, q.take,
      q.cursor, q.groupBy, q.having, q.distinct, q.aggregations, q.payload, q.writes,
      q.throwIfNotFound⟩ : Query) = q := by
  cases q
  rfl

theorem Inclusion.eta (i : Inclusion) :
    (⟨i.relation, i.query, i.projects, i.nested⟩ : Inclusion) = i := by
  cases i
  rfl

instance : Inhabited Query := ⟨{ model := "", operation := .findMany }⟩

instance : Inhabited Inclusion := ⟨{ relation := "" }⟩

namespace Inclusion

mutual

/-- The levels of relations; an inclusion alone is one level. -/
def height : Inclusion → Nat
  | ⟨_, _, _, nested⟩ => heights nested + 1

/-- The height of the tallest inclusion of a list. -/
def heights : List Inclusion → Nat
  | [] => 0
  | i :: rest => max (height i) (heights rest)

end

/-- The query held by the inclusion, or the plain query of the relation. -/
def queryOrPlain (i : Inclusion) : Query :=
  i.query.getD { model := i.relation, operation := .findMany }

/-- The inclusion that returns just the given fields. -/
def select (i : Inclusion) (fields : List String) : Inclusion :=
  { i with query := some { i.queryOrPlain with selection := fields } }

/-- The inclusion of only those rows that also meet a condition. -/
def filter (i : Inclusion) (c : Condition) : Inclusion :=
  let q := i.queryOrPlain
  { i with query := some { q with filter := q.filter.andCondition c } }

/-- The inclusion with a deeper one below it. -/
def addNested (i deeper : Inclusion) : Inclusion :=
  { i with nested := i.nested ++ [deeper] }

end Inclusion

namespace Query

/-- A query of a model that writes data. -/
def writing (model : String) (operation : Operation) (payload : Payload) : Query :=
  { model, operation, payload }

/-- The query with more fields to return. -/
def select (q : Query) (fields : List String) : Query :=
  { q with selection := q.selection ++ fields }

/-- The query for only those rows that also meet a condition. -/
def where_ (q : Query) (c : Condition) : Query :=
  { q with filter := q.filter.andCondition c }

/-- The query for only those groups that also meet a condition. -/
def havingAlso (q : Query) (c : Condition) : Query :=
  { q with having := q.having.andCondition c }

/-- The query with one more relation joined. -/
def addInclusion (q : Query) (i : Inclusion) : Query :=
  { q with inclusions := q.inclusions ++ [i] }

/-- The query with one more entry in its sort. -/
def sortBy (q : Query) (field : String) (order : SortOrder) : Query :=
  { q with orderBy := q.orderBy ++ [{ field, order }] }

/-- The query with more fields that make rows distinct. -/
def distinctBy (q : Query) (fields : List String) : Query :=
  { q with distinct := q.distinct ++ fields }

/-- The query with more fields to group by. -/
def groupAlso (q : Query) (fields : List String) : Query :=
  { q with groupBy := q.groupBy ++ fields }

/-- The query with one more aggregate. -/
def addAggregation (q : Query) (a : Aggregation) : Query :=
  { q with aggregations := q.aggregations ++ [a] }

/-- The query with one more write to a relation. -/
def addWrite (q : Query) (w : NestedWrite) : Query :=
  { q with writes := q.writes ++ [w] }

end Query

end SqlQuery
