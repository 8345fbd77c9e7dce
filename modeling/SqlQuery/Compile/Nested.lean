import SqlQuery.Compile.Write

/-!
# From nested writes to statements

A nested write changes the rows of a relation of one parent row, known by its key.
It becomes a few statements, in the order in which they have to run. The foreign
key is always that of the relation: inserted rows get the parent's key as their
first column, and updates and deletions are scoped to the rows that have it.

A parent that is unknown, or that declares no relations, is written to by naming
conventions: the table is named like the relation, and the foreign key is the
parent's table with `_id` after it.
-/

namespace SqlQuery

open Sql

/-- Where the rows of a relation are, and the column that points to the parent. -/
structure RelationTarget where
  model : Option String
  table : String
  foreignKey : String
deriving DecidableEq, Repr, Inhabited

/-- The target that naming conventions give to a relation. -/
def RelationTarget.conventional (parentTable relation : String) : RelationTarget :=
  { model := none, table := relation, foreignKey := parentTable ++ "_id" }

/-- The target of a relation that is declared. -/
def RelationTarget.declared (schema : Schema) (parent : String) (r : Relation)
    (kind : RelationChange.Kind) : Except Error RelationTarget :=
  if r.kind = .manyToOne then .error (.foreignKeyElsewhere r.name kind)
  else
    match r.toFields with
    | [] => .error (.config (.noTargetFields r.name parent))
    | field :: _ => do
      let table ← schema.table r.toModel
      let foreignKey ← schema.column r.toModel field
      return { model := some r.toModel, table, foreignKey }

/-- The target of a nested write. -/
def NestedWrite.target (w : NestedWrite) (schema : Schema) (parent : String) :
    Except Error RelationTarget :=
  match schema.model parent with
  | .error _ => .ok (.conventional parent w.relation)
  | .ok m =>
    match m.relation w.relation with
    | .ok r => RelationTarget.declared schema parent r w.change.kind
    | .error e =>
      if m.relations.isEmpty then .ok (.conventional m.table w.relation) else .error e

/-- A nested write that is being compiled: its surroundings, its target, the name
of the relation and the parent's key. -/
structure NestedScope where
  env : Env
  target : RelationTarget
  relation : String
  kind : RelationChange.Kind
  key : Value

namespace NestedScope

/-- The scope of filters: the columns of the target. -/
def filterScope (x : NestedScope) : FilterScope :=
  { model := x.target.model }

/-- The place of the write, for messages. -/
def site (x : NestedScope) : WriteSite :=
  .nested x.kind

/-- Refuses a row to insert that sets the foreign key. -/
def checkForeignKey (x : NestedScope) : List String → Except Error Unit
  | [] => .ok ()
  | field :: rest => do
    let column ← x.env.schema.columnOf x.target.model field
    if column = x.target.foreignKey then
      .error (.foreignKeyInPayload x.kind x.relation column)
    x.checkForeignKey rest

/-- Refuses a row to insert that is empty, names a field twice or sets the foreign
key. -/
def checkCreate (x : NestedScope) (row : Row) : Except Error Unit := do
  checkRow x.site row
  x.checkForeignKey row.fields

/-- The equality of the foreign key with the parent's key. -/
def scopeAtom (x : NestedScope) : Predicate :=
  .atom (.compare (.column { column := x.target.foreignKey }) false .eq x.key)

/-- The predicate of a filter that must not be empty. -/
def requiredWhere (x : NestedScope) (f : Filter) : Except Error Predicate := do
  match ← Refusal.forget (f.compile x.env x.filterScope) with
  | some p => return p
  | none => .error (.missingWhere x.kind x.relation)

/-- The predicate for those rows of the parent that a filter picks. -/
def scopedWhere (x : NestedScope) (f : Filter) : Except Error Predicate := do
  let p ← Refusal.forget (f.compileOperand x.env x.filterScope)
  return .all (x.scopeAtom :: p.toList)

/-- The assignment that ties rows to the parent. -/
def attach (x : NestedScope) : Assignment :=
  { column := x.target.foreignKey, source := .value x.key }

/-- The assignment that ties rows to no parent. -/
def detach (x : NestedScope) : Assignment :=
  { column := x.target.foreignKey, source := .null }

/-- The statement that ties the rows that a filter picks to the parent. -/
def connect (x : NestedScope) (f : Filter) : Except Error Statement := do
  return .update x.target.table [x.attach] (← x.requiredWhere f) false

/-- The insertion of rows below the parent. -/
def insert (x : NestedScope) (rows : List Row) : Except Error Statement := do
  let (columns, values) ←
    insertion x.site x.env.schema x.target.model [(x.target.foreignKey, x.key)] rows
  return .insert x.target.table columns values none true

/-- The insertion of a row below the parent unless some row meets a predicate. -/
def insertUnless (x : NestedScope) (row : Row) (present : Predicate) :
    Except Error Statement := do
  let columns ← columnsOf x.env.schema x.target.model row.fields
  return .insertUnless x.target.table (x.target.foreignKey :: columns) (x.key :: row.values)
    present

/-- The update of those rows of the parent that a filter picks. -/
def update (x : NestedScope) (row : Row) (f : Filter) : Except Error Statement := do
  let assignments ← assignmentsOf x.env.schema x.target.model row
  return .update x.target.table assignments (← x.scopedWhere f) false

/-- The deletion of those rows of the parent that a filter picks. -/
def delete (x : NestedScope) (f : Filter) : Except Error Statement := do
  return .delete x.target.table (← x.scopedWhere f) false

/-- Ties the rows that a filter picks to the parent and all others to none; an
empty filter picks none. -/
def replace (x : NestedScope) (f : Filter) : Except Error (List Statement) := do
  let detachAll : Statement := .update x.target.table [x.detach] (.all [x.scopeAtom]) false
  if f.isEmpty then return [detachAll]
  else return [detachAll, ← x.connect f]

/-- The update of an upsert, which may have nothing to update. -/
def updateIfAny (x : NestedScope) (row : Row) (f : Filter) : Except Error (List Statement) :=
  if row.isEmpty then .ok []
  else do
    checkUnique (.nestedUpdate x.kind) row
    return [← x.update row f]

/-- Updates those rows of the parent that a filter picks, and inserts a row where
there are none. -/
def upsert (x : NestedScope) (f : Filter) (create update : Row) :
    Except Error (List Statement) := do
  x.checkCreate create
  let updates ← x.updateIfAny update f
  let present ← x.scopedWhere f
  return updates ++ [← x.insertUnless create present]

/-- The statements of a change, in the order in which they have to run. -/
def compile (x : NestedScope) : RelationChange → Except Error (List Statement)
  | .create row => do
    x.checkCreate row
    return [← x.insert [row]]
  | .createMany rows => do
    if rows.isEmpty then .error (.emptyPayload x.site)
    rows.forM x.checkCreate
    return [← x.insert rows]
  | .connect f => return [← x.connect f]
  | .connectOrCreate f create => do
    x.checkCreate create
    let present ← x.requiredWhere f
    return [.update x.target.table [x.attach] present false, ← x.insertUnless create present]
  | .disconnect f => do
    return [.update x.target.table [x.detach] (← x.requiredWhere f) false]
  | .set f => x.replace f
  | .update f row | .updateMany f row => do
    checkRow x.site row
    return [← x.update row f]
  | .delete f | .deleteMany f => return [← x.delete f]
  | .upsert f create update => x.upsert f create update

end NestedScope

namespace NestedWrite

/-- The statements of a nested write. -/
def compile (w : NestedWrite) (env : Env) (parent : String) (key : Value) :
    Except Error (List Statement) := do
  let target ← w.target env.schema parent
  let scope : NestedScope :=
    { env, target, relation := w.relation, kind := w.change.kind, key }
  scope.compile w.change

/-- The statements of nested writes, one write after the other. -/
def compileAll (env : Env) (parent : String) (key : Value) :
    List NestedWrite → Except Error (List Statement)
  | [] => .ok []
  | w :: rest => do
    let statements ← w.compile env parent key
    let more ← compileAll env parent key rest
    return statements ++ more

end NestedWrite

end SqlQuery
