import SqlQuery.Compile.Filter
import SqlQuery.Compile.Mapping
import SqlQuery.Sql.Statement

/-!
# From inclusions to joins

Every inclusion becomes one join of the relation's table, in pre-order: a relation
before those below it, siblings in order. Its alias is its parent's alias and its
own name, made unique by a number; its rows are tied to the parent's by one
equality for every pair of fields, and the filter of the inclusion follows.

The columns of a relation are returned under names that start with the alias, so
they cannot be taken for columns of the root.
-/

namespace SqlQuery

open Sql

/-- What the inclusions of a query add to its selection. -/
structure JoinPlan where
  joins : List Join := []
  items : List SelectItem := []
  fields : List FieldMapping := []
  relations : List RelationMapping := []
deriving Repr, Inhabited

namespace JoinPlan

/-- What two plans add together, one after the other. -/
def append (a b : JoinPlan) : JoinPlan :=
  { joins := a.joins ++ b.joins
    items := a.items ++ b.items
    fields := a.fields ++ b.fields
    relations := a.relations ++ b.relations }

instance : Append JoinPlan := ⟨append⟩

/-- The values that the joins bind, in order. -/
def values (p : JoinPlan) : List Value :=
  p.joins.flatMap fun j => j.on.values

end JoinPlan

/-- A candidate with a number at its end. -/
def numbered (candidate : String) (n : Nat) : String :=
  candidate ++ "_" ++ toString n

/-- The candidate itself if no alias in use is the same, else the candidate with
the smallest number from 2 that makes it unique. As many numbers as there are
aliases in use are enough, the candidate being one of them. -/
def freshAlias (used : List String) (candidate : String) : String :=
  if candidate ∈ used then
    match (List.range' 2 used.length).find? fun n => numbered candidate n ∉ used with
    | some n => numbered candidate n
    | none => numbered candidate (used.length + 2)
  else candidate

/-- What an inclusion hangs on: a model, its alias, and the path that leads to it. -/
structure JoinParent where
  model : String
  aliasName : String
  path : List String := []
deriving DecidableEq, Repr, Inhabited

/-- The equalities of the pairs of fields of a relation. -/
def pairings (schema : Schema) (parent : JoinParent) (target aliasName : String) :
    List (String × String) → Except Error (List Atom)
  | [] => .ok []
  | (fromField, toField) :: rest => do
    let fromColumn ← schema.column parent.model fromField
    let toColumn ← schema.column target toField
    let more ← pairings schema parent target aliasName rest
    return .sameColumn ⟨some aliasName, toColumn⟩ ⟨some parent.aliasName, fromColumn⟩ :: more

/-- The equalities that tie the rows of a relation to those of its parent. -/
def relationEqualities (schema : Schema) (parent : JoinParent) (relation : Relation)
    (aliasName : String) : Except Error (List Atom) :=
  if relation.fromFields.length ≠ relation.toFields.length || relation.fromFields.isEmpty then
    .error (.config (.unpairedRelation relation.name parent.model))
  else
    pairings schema parent relation.toModel aliasName (relation.fromFields.zip relation.toFields)

/-- The items for some fields of a joined model, each under a name of its own. -/
def projectFields (schema : Schema) (model aliasName : String) (path : List String) :
    List String → Except Error JoinPlan
  | [] => .ok {}
  | field :: rest => do
    let column ← schema.column model field
    let output := aliasName ++ "_" ++ field
    let more ← projectFields schema model aliasName path rest
    return ({ items := [.column ⟨some aliasName, column⟩ (some output)]
              fields := [{ column := output, path, field }] } : JoinPlan) ++ more

namespace Inclusion

/-- The fields that the inclusion asks for: those it selects, else all that the
model declares. -/
def wantedFields (i : Inclusion) (schema : Schema) (model : String) :
    Except Error (List String) :=
  match i.query with
  | some q => if q.selection.isEmpty then schema.fieldNames model else .ok q.selection
  | none => schema.fieldNames model

/-- The items that the inclusion returns; all columns where no field is known. -/
def project (i : Inclusion) (schema : Schema) (model aliasName : String) (path : List String) :
    Except Error JoinPlan :=
  if i.projects then do
    let fields ← i.wantedFields schema model
    if fields.isEmpty then return { items := [.star (some aliasName)] }
    else projectFields schema model aliasName path fields
  else .ok {}

/-- The filter of the inclusion as an operand of the join's condition. -/
def compileFilter (i : Inclusion) (env : Env) (model aliasName : String) :
    Except Refusal (Option Predicate) :=
  match i.query with
  | some q =>
    q.filter.compileOperand env
      { model := some model, qualifier := some aliasName, clause := .joinOn }
  | none => .ok none

/-- The inclusion's own join and items, without those below it. -/
def compileOwn (i : Inclusion) (env : Env) (parent : JoinParent) (used : List String) :
    Except Refusal (JoinPlan × JoinParent) := do
  let relation ← Refusal.of (env.schema.relation parent.model i.relation)
  let table ← Refusal.of (env.schema.table relation.toModel)
  let aliasName := freshAlias used (parent.aliasName ++ "_" ++ relation.name)
  let equalities ← Refusal.of (relationEqualities env.schema parent relation aliasName)
  let filter ← i.compileFilter env relation.toModel aliasName
  let path := parent.path ++ [relation.name]
  let join : Join :=
    { table, aliasName, on := .all (equalities.map .atom ++ filter.toList) }
  let items ← Refusal.after join.on.values
    (Refusal.of (i.project env.schema relation.toModel aliasName path))
  let own : JoinPlan :=
    { joins := [join], relations := [{ path, aliasName, many := relation.kind.isMany }] }
  return (own ++ items, { model := relation.toModel, aliasName, path })

mutual

/-- The joins of an inclusion that is `depth` levels down and of those below it,
with the aliases in use after them. -/
def compile (env : Env) (parent : JoinParent) (depth : Nat) (used : List String) :
    Inclusion → Except Refusal (JoinPlan × List String)
  | ⟨relation, query, projects, nested⟩ =>
    if env.maxDepth < depth then .error ⟨[], .depthExceeded .inclusion env.maxDepth⟩
    else do
      let (own, here) ← compileOwn ⟨relation, query, projects, nested⟩ env parent used
      let (below, used) ← Refusal.after own.values
        (compileAll env here (depth + 1) (here.aliasName :: used) nested)
      return (own ++ below, used)

/-- The joins of some inclusions, with the aliases in use after them. -/
def compileAll (env : Env) (parent : JoinParent) (depth : Nat) (used : List String) :
    List Inclusion → Except Refusal (JoinPlan × List String)
  | [] => .ok ({}, used)
  | i :: rest => do
    let (plan, used) ← compile env parent depth used i
    let (more, used) ← Refusal.after plan.values (compileAll env parent depth used rest)
    return (plan ++ more, used)

end

end Inclusion

/-- The joins of the inclusions of a model that is selected under an alias. -/
def compileJoins (env : Env) (model aliasName : String) (inclusions : List Inclusion) :
    Except Refusal JoinPlan := do
  return (← Inclusion.compileAll env { model, aliasName } 1 [aliasName] inclusions).1

end SqlQuery
