import SqlQuery.Json.Record
import SqlQuery.Query.Basic

/-!
# Queries as documents

Every type of a query has a document, written by `toJson` with all its fields and
read back by `ofJson?`, which takes a default for every field that has one.

Filters and inclusions are trees; they are read by recursion on the depth of the
document, which every level of the tree lowers.
-/

namespace SqlQuery

open Json

/-! ## Filters -/

namespace Condition

/-- The document of a condition. -/
def toJson (c : Condition) : Json :=
  .obj [("field", .str c.field), ("op", .str c.op.name), ("value", c.value.toJson),
    ("mode", .str c.mode.name), ("aggregate", ofOption (.str ·.name) c.aggregate)]

/-- Reads a condition. -/
def ofJson? (j : Json) : Option Condition := do
  let r ← j.record? ["field", "op", "value", "mode", "aggregate"]
  return {
    field := ← r.need "field" str?
    op := ← r.need "op" (ofName Operator.ofName?)
    value := ← r.orElse "value" .null Value.ofJson?
    mode := ← r.orElse "mode" .default (ofName CaseMode.ofName?)
    aggregate := ← r.maybe "aggregate" (ofName AggregateFunction.ofName?) }

end Condition

namespace Filter

mutual

/-- The document of a filter. -/
def toJson : Filter → Json
  | ⟨op, conditions, nested⟩ =>
    .obj [("op", .str op.name), ("conditions", ofList Condition.toJson conditions),
      ("nested", .arr (listToJson nested))]

/-- The documents of filters. -/
def listToJson : List Filter → List Json
  | [] => []
  | f :: rest => toJson f :: listToJson rest

end

/-- Reads a filter from a document of a smaller depth than `fuel`. -/
def ofJsonWithin? : (fuel : Nat) → Json → Option Filter
  | 0, _ => none
  | fuel + 1, j => do
    let r ← j.record? ["op", "conditions", "nested"]
    return {
      op := ← r.orElse "op" .and (ofName LogicalOp.ofName?)
      conditions := ← r.orElse "conditions" [] (list? Condition.ofJson?)
      nested := ← r.orElse "nested" [] (list? (ofJsonWithin? fuel)) }

/-- Reads a filter. -/
def ofJson? (j : Json) : Option Filter :=
  ofJsonWithin? (j.depth + 1) j

end Filter

/-! ## Written data -/

namespace Row

/-- The document of one field and its value. -/
def fieldToJson (f : String × Value) : Json :=
  .arr [.str f.1, f.2.toJson]

/-- The document of a row: an array of pairs. -/
def toJson (r : Row) : Json :=
  ofList fieldToJson r

/-- Reads one field and its value. -/
def fieldOfJson? : Json → Option (String × Value)
  | .arr [.str field, value] => do return (field, ← Value.ofJson? value)
  | _ => none

/-- Reads a row. -/
def ofJson? : Json → Option Row :=
  list? fieldOfJson?

end Row

namespace Payload

/-- The document of a payload. -/
def toJson : Payload → Json
  | .none => .str "none"
  | .create row => .obj [("create", row.toJson)]
  | .createMany rows => .obj [("createMany", ofList Row.toJson rows)]
  | .update row => .obj [("update", row.toJson)]
  | .upsert keys row changes =>
    .obj [("upsert",
      .obj [("keys", ofStrings keys), ("create", row.toJson), ("update", changes.toJson)])]

/-- Reads a payload that has a body. -/
def taggedOfJson? (form : Form) (j : Json) : Option Payload := do
  let (tag, body) ← j.tagged?
  match tag with
  | "create" => return .create (← Row.ofJson? body)
  | "createMany" => return .createMany (← list? Row.ofJson? body)
  | "update" => return .update (← Row.ofJson? body)
  | "upsert" =>
    let r ← form.body? ["keys", "create", "update"] body
    return .upsert (← r.need "keys" strings?) (← r.need "create" Row.ofJson?)
      (← r.need "update" Row.ofJson?)
  | _ => failure

/-- Reads a payload. -/
def ofJson? (form : Form) (j : Json) : Option Payload :=
  if j.tag? = some "none" then some .none else taggedOfJson? form j

end Payload

namespace RelationChange

/-- The document of a change to a relation. -/
def toJson (c : RelationChange) : Json :=
  let body : Json := match c with
    | .create row => row.toJson
    | .createMany rows => ofList Row.toJson rows
    | .connect f | .disconnect f | .set f | .delete f | .deleteMany f => f.toJson
    | .connectOrCreate f row => .obj [("filter", f.toJson), ("create", row.toJson)]
    | .update f data | .updateMany f data => .obj [("filter", f.toJson), ("data", data.toJson)]
    | .upsert f row changes =>
      .obj [("filter", f.toJson), ("create", row.toJson), ("update", changes.toJson)]
  .obj [(c.kind.name, body)]

/-- Reads a change to a relation. -/
def ofJson? (form : Form) (j : Json) : Option RelationChange := do
  let (tag, body) ← j.tagged?
  match tag with
  | "create" => return .create (← Row.ofJson? body)
  | "createMany" => return .createMany (← list? Row.ofJson? body)
  | "connect" => return .connect (← Filter.ofJson? body)
  | "connectOrCreate" =>
    let r ← form.body? ["filter", "create"] body
    return .connectOrCreate (← r.need "filter" Filter.ofJson?) (← r.need "create" Row.ofJson?)
  | "disconnect" => return .disconnect (← Filter.ofJson? body)
  | "set" => return .set (← Filter.ofJson? body)
  | "update" =>
    let r ← form.body? ["filter", "data"] body
    return .update (← r.need "filter" Filter.ofJson?) (← r.need "data" Row.ofJson?)
  | "updateMany" =>
    let r ← form.body? ["filter", "data"] body
    return .updateMany (← r.need "filter" Filter.ofJson?) (← r.need "data" Row.ofJson?)
  | "delete" => return .delete (← Filter.ofJson? body)
  | "deleteMany" => return .deleteMany (← Filter.ofJson? body)
  | "upsert" =>
    let r ← form.body? ["filter", "create", "update"] body
    return .upsert (← r.need "filter" Filter.ofJson?) (← r.need "create" Row.ofJson?)
      (← r.need "update" Row.ofJson?)
  | _ => none

end RelationChange

namespace NestedWrite

/-- The document of a nested write. -/
def toJson (w : NestedWrite) : Json :=
  .obj [("relation", .str w.relation), ("op", w.change.toJson)]

/-- Reads a nested write. -/
def ofJson? (form : Form) (j : Json) : Option NestedWrite := do
  let r ← j.record? ["relation", "op"]
  return {
    relation := ← r.need "relation" str?
    change := ← r.need "op" (RelationChange.ofJson? form) }

end NestedWrite

/-! ## Parts of queries -/

namespace Ordering

/-- The document of an entry of a sort. -/
def toJson (o : Ordering) : Json :=
  .obj [("field", .str o.field), ("order", .str o.order.name)]

/-- Reads an entry of a sort. -/
def ofJson? (j : Json) : Option Ordering := do
  let r ← j.record? ["field", "order"]
  return {
    field := ← r.need "field" str?
    order := ← r.orElse "order" .asc (ofName SortOrder.ofName?) }

end Ordering

namespace Cursor

/-- The document of a cursor. -/
def toJson (c : Cursor) : Json :=
  .obj [("field", .str c.field), ("value", c.value.toJson)]

/-- Reads a cursor. -/
def ofJson? (j : Json) : Option Cursor := do
  let r ← j.record? ["field", "value"]
  return { field := ← r.need "field" str?, value := ← r.need "value" Value.ofJson? }

end Cursor

namespace Aggregation

/-- The document of an aggregate. -/
def toJson (a : Aggregation) : Json :=
  .obj [("function", .str a.function.name), ("field", .str a.field)]

/-- Reads an aggregate. -/
def ofJson? (j : Json) : Option Aggregation := do
  let r ← j.record? ["function", "field"]
  return {
    function := ← r.need "function" (ofName AggregateFunction.ofName?)
    field := ← r.orElse "field" "" str? }

end Aggregation

/-! ## Queries and inclusions -/

mutual

/-- The document of a query. -/
def Query.toJson : Query → Json
  | ⟨model, operation, selection, filter, inclusions, orderBy, skip, take, cursor, groupBy,
      having, distinct, aggregations, payload, writes, throwIfNotFound⟩ =>
    .obj [("model", .str model), ("operation", .str operation.name),
      ("selection", ofStrings selection), ("filter", filter.toJson),
      ("include", .arr (Inclusion.listToJson inclusions)),
      ("order_by", ofList Ordering.toJson orderBy), ("skip", ofOption ofWord skip),
      ("take", ofOption ofWord take), ("cursor", ofOption Cursor.toJson cursor),
      ("group_by", ofStrings groupBy), ("having", having.toJson),
      ("distinct", ofStrings distinct), ("aggregations", ofList Aggregation.toJson aggregations),
      ("payload", payload.toJson), ("writes", ofList NestedWrite.toJson writes),
      ("throw_if_not_found", .bool throwIfNotFound)]

/-- The document of a query, or null. -/
def Query.optionToJson : Option Query → Json
  | some q => q.toJson
  | none => .null

/-- The document of an inclusion. -/
def Inclusion.toJson : Inclusion → Json
  | ⟨relation, query, projects, nested⟩ =>
    .obj [("relation", .str relation), ("query", Query.optionToJson query),
      ("include", .bool projects), ("nested", .arr (Inclusion.listToJson nested))]

/-- The documents of inclusions. -/
def Inclusion.listToJson : List Inclusion → List Json
  | [] => []
  | i :: rest => i.toJson :: Inclusion.listToJson rest

end

mutual

/-- Reads a query from a document of a smaller depth than `fuel`. -/
def Query.ofJsonWithin? (form : Form) : (fuel : Nat) → Json → Option Query
  | 0, _ => none
  | fuel + 1, j => do
    let r ← j.record? ["model", "operation", "selection", "filter", "include", "order_by",
      "skip", "take", "cursor", "group_by", "having", "distinct", "aggregations", "payload",
      "writes", "throw_if_not_found"]
    return {
      model := ← r.need "model" str?
      operation := ← r.need "operation" (ofName Operation.ofName?)
      selection := ← r.orElse "selection" [] strings?
      filter := ← r.orElse "filter" {} Filter.ofJson?
      inclusions := ← r.orElse "include" [] (list? (Inclusion.ofJsonWithin? form fuel))
      orderBy := ← r.orElse "order_by" [] (list? Ordering.ofJson?)
      skip := ← r.maybe "skip" word?
      take := ← r.maybe "take" word?
      cursor := ← r.maybe "cursor" Cursor.ofJson?
      groupBy := ← r.orElse "group_by" [] strings?
      having := ← r.orElse "having" {} Filter.ofJson?
      distinct := ← r.orElse "distinct" [] strings?
      aggregations := ← r.orElse "aggregations" [] (list? Aggregation.ofJson?)
      payload := ← r.orElse "payload" .none (Payload.ofJson? form)
      writes := ← r.orElse "writes" [] (list? (NestedWrite.ofJson? form))
      throwIfNotFound := ← r.orElse "throw_if_not_found" false bool? }

/-- Reads an inclusion from a document of a smaller depth than `fuel`. -/
def Inclusion.ofJsonWithin? (form : Form) : (fuel : Nat) → Json → Option Inclusion
  | 0, _ => none
  | fuel + 1, j => do
    let r ← j.record? ["relation", "query", "include", "nested"]
    return {
      relation := ← r.need "relation" str?
      query := ← r.maybe "query" (Query.ofJsonWithin? form fuel)
      projects := ← r.orElse "include" true bool?
      nested := ← r.orElse "nested" [] (list? (Inclusion.ofJsonWithin? form fuel)) }

end

/-- Reads a query. -/
def Query.ofJson? (form : Form) (j : Json) : Option Query :=
  Query.ofJsonWithin? form (j.depth + 1) j

/-- Reads an inclusion. -/
def Inclusion.ofJson? (form : Form) (j : Json) : Option Inclusion :=
  Inclusion.ofJsonWithin? form (j.depth + 1) j

end SqlQuery
