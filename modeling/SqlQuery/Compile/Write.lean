import SqlQuery.Compile.Filter
import SqlQuery.Compile.Mapping
import SqlQuery.Sql.Statement

/-!
# From written data to statements

Insertions, updates, deletions and upserts of the root model. Data is checked
before anything else: it must not be empty nor name a field twice, and the rows of
one insertion must have the same fields, in any order; the first row decides the
order of columns.

An update or a deletion without any condition is refused.
-/

namespace SqlQuery

open Sql

/-- Refuses a row that names a field twice. -/
def checkUnique (site : WriteSite) (row : Row) : Except Error Unit :=
  match row.repeatedField? with
  | some field => .error (.duplicateField site field)
  | none => .ok ()

/-- Refuses a row without fields, and one that names a field twice. -/
def checkRow (site : WriteSite) (row : Row) : Except Error Unit :=
  if row.isEmpty then .error (.emptyPayload site) else checkUnique site row

/-- How a row's fields differ from those of the first row, if they do. -/
def shapeProblem? (reference : List String) (row : Row) : Option (ShapeProblem × String) :=
  match reference.find? fun f => (row.get? f).isNone with
  | some f => some (.missing, f)
  | none => (row.fields.find? fun f => f ∉ reference).map fun f => (.unexpected, f)

/-- Refuses the first row whose fields differ from those of the first row; rows are
counted from `index`. -/
def checkShapes (reference : List String) (index : Nat) : List Row → Except Error Unit
  | [] => .ok ()
  | row :: rest =>
    match shapeProblem? reference row with
    | some (problem, field) => .error (.shapeMismatch index problem field)
    | none => checkShapes reference (index + 1) rest

/-- The fields of the first of some rows, once all rows are found to have them. -/
def commonFields (site : WriteSite) (rows : List Row) : Except Error (List String) :=
  match rows with
  | [] => .error (.emptyPayload site)
  | first :: rest => do
    if first.isEmpty then .error (.emptyPayload site)
    rows.forM (checkUnique site)
    checkShapes first.fields 1 rest
    return first.fields

/-- The columns of fields, of a model or of a table that no model describes. -/
def columnsOf (schema : Schema) (model : Option String) (fields : List String) :
    Except Error (List String) :=
  fields.mapM (schema.columnOf model)

/-- The values of a row in a given order of fields. -/
def Row.inOrder (row : Row) (fields : List String) : List Value :=
  fields.map fun f => (row.get? f).getD .null

/-- The columns and the rows of values of one insertion. Every row starts with the
values of `fixed`, columns that are not part of the data. -/
def insertion (site : WriteSite) (schema : Schema) (model : Option String)
    (fixed : List (String × Value)) (rows : List Row) :
    Except Error (List String × List (List Value)) := do
  let fields ← commonFields site rows
  let columns ← columnsOf schema model fields
  return (fixed.map (·.1) ++ columns,
    rows.map fun r => fixed.map (·.2) ++ r.inOrder fields)

/-- The assignments of a row's values to the columns of its fields. -/
def assignmentsOf (schema : Schema) (model : Option String) (row : Row) :
    Except Error (List Assignment) := do
  let columns ← columnsOf schema model row.fields
  return (columns.zip row.values).map fun c => { column := c.1, source := .value c.2 }

namespace Query

/-- The predicate of an update or a deletion, which needs one. -/
def safeWhere (q : Query) (env : Env) : Except Error Predicate := do
  match ← Refusal.forget (q.filter.compile env { model := some q.model }) with
  | some p => return p
  | none => .error (.missingSafetyPredicate q.operation q.model)

/-- The insertion of one row. -/
def compileCreate (q : Query) (env : Env) (row : Row) : Except Error Statement := do
  checkRow (.query q.operation) row
  let table ← env.schema.table q.model
  let columns ← columnsOf env.schema (some q.model) row.fields
  return .insert table columns [row.values] none true

/-- The insertion of several rows. -/
def compileCreateMany (q : Query) (env : Env) (rows : List Row) : Except Error Statement := do
  let table ← env.schema.table q.model
  let (columns, values) ← insertion (.query .createMany) env.schema (some q.model) [] rows
  return .insert table columns values none true

/-- The update of the rows that the filter picks. -/
def compileUpdate (q : Query) (env : Env) (row : Row) : Except Error Statement := do
  checkRow (.query q.operation) row
  let table ← env.schema.table q.model
  let assignments ← assignmentsOf env.schema (some q.model) row
  let where_ ← q.safeWhere env
  return .update table assignments where_ (q.operation = .update)

/-- The deletion of the rows that the filter picks. -/
def compileDelete (q : Query) (env : Env) : Except Error Statement := do
  let table ← env.schema.table q.model
  let where_ ← q.safeWhere env
  return .delete table where_ (q.operation = .delete)

/-- The insertion of a row that becomes an update where its keys are taken. Without
anything to update the keys are set to what they are. -/
def compileUpsert (q : Query) (env : Env) (keys : List String) (create update : Row) :
    Except Error Statement := do
  if keys.isEmpty then .error (.missingUpsertKeys q.model)
  if create.isEmpty then .error (.emptyPayload (.query q.operation))
  checkUnique .upsertCreate create
  checkUnique .upsertUpdate update
  let table ← env.schema.table q.model
  let columns ← columnsOf env.schema (some q.model) create.fields
  let keyColumns ← columnsOf env.schema (some q.model) keys
  let assignments ←
    if update.isEmpty then .ok (keyColumns.map fun k => { column := k, source := .proposed })
    else assignmentsOf env.schema (some q.model) update
  return .insert table columns [create.values] (some { keys := keyColumns, assignments }) true

end Query

end SqlQuery
