import SqlQuery.Compile.Select
import SqlQuery.Compile.Write

/-!
# From queries to statements

`Query.compile` is the whole way from a query to the statement that answers it.
The payload is checked first: it must be of the kind that the operation takes, and
only an operation that writes one row can carry writes to its relations.
-/

namespace SqlQuery

open Sql

/-- A statement and how its result is shaped. -/
structure Compiled where
  statement : Statement
  mapping : ResultMapping
deriving Repr, Inhabited

namespace Query

/-- The kind of payload that an operation takes. -/
def expectedPayload : Operation → Payload.Kind
  | .create => .create
  | .createMany => .createMany
  | .update | .updateMany => .update
  | .upsert => .upsert
  | _ => .none

/-- Checks that payload and nested writes belong to the operation. -/
def checkPayload (q : Query) : Except Error Unit :=
  let expected := expectedPayload q.operation
  if expected ≠ q.payload.kind then
    .error (.payloadMismatch q.operation expected q.payload.kind)
  else if !q.writes.isEmpty && !q.operation.acceptsNestedWrites then
    .error (.nestedWritesNotAllowed q.operation)
  else .ok ()

/-- The statement of an operation that writes, if the query is one. -/
def compileWrite? (q : Query) (env : Env) : Option (Except Error Statement) :=
  match q.payload with
  | .create row => some (q.compileCreate env row)
  | .createMany rows => some (q.compileCreateMany env rows)
  | .update row => some (q.compileUpdate env row)
  | .upsert keys create update => some (q.compileUpsert env keys create update)
  | .none =>
    if q.operation = .delete ∨ q.operation = .deleteMany then some (q.compileDelete env)
    else none

/-- The statement of a query, and how its result is shaped. -/
def compile (q : Query) (env : Env) : Except Error Compiled := do
  q.checkPayload
  match q.compileWrite? env with
  | some write => return { statement := ← write, mapping := { model := q.model } }
  | none =>
    let (select, mapping) ← q.compileSelect env
    return { statement := .select select, mapping }

end Query

end SqlQuery
