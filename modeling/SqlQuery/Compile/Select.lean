import SqlQuery.Compile.Join

/-!
# From queries to selections

The queries that find rows and those that aggregate them become one selection.
Its columns are qualified by the table as soon as anything is joined. A cursor is
one more condition on the root filter, and takes the place of an offset.
-/

namespace SqlQuery

open Sql

/-- Refuses the first aggregate that needs a field and has none. -/
def requireFields : List Aggregation → Except Error Unit
  | [] => .ok ()
  | a :: rest =>
    if a.function ≠ .count && a.isStar then .error (.missingAggregationField a.function)
    else requireFields rest

namespace Query

/-- Checks that the query has the aggregates and groups that it needs. -/
def checkAggregates (q : Query) : Except Error Unit :=
  if q.operation = .aggregate && q.aggregations.isEmpty then
    .error (.missingAggregation q.model)
  else if q.operation = .groupBy && q.groupBy.isEmpty then
    .error (.missingGroupBy q.model)
  else requireFields q.aggregations

/-- How a field compares with the cursor's value in rows after the cursor, which
hangs on the direction in which the query sorts by it. -/
def seekOperator (q : Query) (field : String) : Operator :=
  match q.orderBy.find? (·.field == field) with
  | some o => if o.order = .desc then .lt else .gt
  | none => .gt

/-- The condition that a row comes after the cursor. -/
def seek (q : Query) (c : Cursor) : Condition :=
  { field := c.field, op := q.seekOperator c.field, value := c.value }

/-- The root filter with the condition of the cursor in it. -/
def seekFilter (q : Query) : Filter :=
  match q.cursor with
  | some c => q.filter.andCondition (q.seek c)
  | none => q.filter

/-- A reference to the column of a field of the root model. -/
def rootColumn (q : Query) (schema : Schema) (qualifier : Option String) (field : String) :
    Except Error ColumnRef := do
  return { qualifier, column := ← schema.column q.model field }

/-- The item of a field of the root model, named for the field where its column
does not say so. -/
def rootItem (q : Query) (schema : Schema) (qualifier : Option String) (field : String) :
    Except Error SelectItem := do
  let c ← q.rootColumn schema qualifier field
  return .column c (if c.column ≠ field || qualifier.isSome then some field else none)

/-- The item of an aggregate. -/
def aggregateItem (q : Query) (schema : Schema) (qualifier : Option String)
    (a : Aggregation) : Except Error SelectItem :=
  if a.isStar then .ok (.aggregate a.function { column := "*" } a.aliasName)
  else do return .aggregate a.function (← q.rootColumn schema qualifier a.field) a.aliasName

/-- The fields that the query selects; rows that are distinct by some fields are
selected by these where nothing else is, unless the dialect can do without. -/
def selectedFields (q : Query) (d : Dialect) : List String :=
  if q.selection.isEmpty && !d.distinctOn then q.distinct else q.selection

/-- The items of a query for aggregates, and their fields. -/
def aggregateItems (q : Query) (schema : Schema) (qualifier : Option String) :
    Except Error (List SelectItem × List FieldMapping) := do
  let groups ← q.groupBy.mapM fun f => do
    return SelectItem.column (← q.rootColumn schema qualifier f) none
  let aggregates ← q.aggregations.mapM (q.aggregateItem schema qualifier)
  return (groups ++ aggregates, (q.groupBy ++ q.aggregations.map (·.aliasName)).map .root)

/-- The items of a query for rows, and their fields. -/
def rowItems (q : Query) (env : Env) (qualifier : Option String) (plan : JoinPlan) :
    Except Error (List SelectItem × List FieldMapping) := do
  let fields := q.selectedFields env.dialect
  let items ← fields.mapM (q.rootItem env.schema qualifier)
  let items := if fields.isEmpty then [.star qualifier] else items
  return (items ++ plan.items, fields.map .root ++ plan.fields)

/-- How the query drops rows that are alike. -/
def distinctRows (q : Query) (env : Env) (qualifier : Option String) :
    Except Error Distinct :=
  if q.distinct.isEmpty || q.operation.isAggregate then .ok .keep
  else if env.dialect.distinctOn then do
    return .on (← q.distinct.mapM (q.rootColumn env.schema qualifier))
  else .ok .rows

/-- The number of rows that the query asks for. -/
def limit (q : Query) : Option Nat :=
  match q.take with
  | some n => some n.toNat
  | none => if q.operation = .findFirst then some 1 else none

/-- The number of rows that the query skips; a cursor skips by itself. -/
def offset (q : Query) : Option Nat :=
  if q.cursor.isSome then none else q.skip.map (·.toNat)

/-- The selection of a query, and the mapping of its result. -/
def compileSelect (q : Query) (env : Env) : Except Error (Select × ResultMapping) := do
  if q.operation.isAggregate then q.checkAggregates
  let table ← env.schema.table q.model
  let plan ← Refusal.forget (compileJoins env q.model table q.inclusions)
  let qualifier := if plan.joins.isEmpty then none else some table
  let (items, fields) ←
    if q.operation.isAggregate then q.aggregateItems env.schema qualifier
    else q.rowItems env qualifier plan
  let distinct ← q.distinctRows env qualifier
  let scope : FilterScope := { model := some q.model, qualifier }
  let where_ ← Refusal.forget (q.seekFilter.compile env scope)
  let groupBy ← q.groupBy.mapM (q.rootColumn env.schema qualifier)
  let having ← Refusal.forget (q.having.compile env { scope with clause := .having })
  let orderBy ← q.orderBy.mapM fun o => do
    return (← q.rootColumn env.schema qualifier o.field, o.order)
  return (
    { distinct, items, table, joins := plan.joins, where_, groupBy, having, orderBy
      limit := q.limit, offset := q.offset },
    { model := q.model, fields, relations := plan.relations })

end Query

end SqlQuery
