import SqlQuery.Json.Record
import SqlQuery.Schema.Basic

/-!
# Schemas as documents

A schema is written as the list of its models, and read from such a list by
registering the models one after the other. A schema in a file is TOML, and what
is wrong with it is not told apart.
-/

namespace SqlQuery

open Json

namespace FieldDef

/-- The document of a field. -/
def toJson (f : FieldDef) : Json :=
  .obj [("name", .str f.name), ("column", ofOption .str f.column)]

/-- Reads a field. -/
def ofJson? (form : Form) (j : Json) : Option FieldDef := do
  let r ← form.record? ["name", "column"] j
  return { name := ← r.need "name" str?, column := ← r.maybe "column" str? }

end FieldDef

namespace Relation

/-- The document of a relation. -/
def toJson (r : Relation) : Json :=
  .obj [("name", .str r.name), ("to_model", .str r.toModel),
    ("from_fields", ofStrings r.fromFields), ("to_fields", ofStrings r.toFields),
    ("kind", .str r.kind.name)]

/-- Reads a relation. -/
def ofJson? (form : Form) (j : Json) : Option Relation := do
  let r ← form.record? ["name", "to_model", "from_fields", "to_fields", "kind"] j
  return {
    name := ← r.need "name" str?
    toModel := ← r.need "to_model" str?
    fromFields := ← r.need "from_fields" strings?
    toFields := ← r.need "to_fields" strings?
    kind := ← r.need "kind" fun k => (form.tag? k).bind RelationKind.ofName? }

end Relation

namespace Model

/-- The document of a model. -/
def toJson (m : Model) : Json :=
  .obj [("name", .str m.name), ("table", .str m.table),
    ("fields", ofList FieldDef.toJson m.fields),
    ("relations", ofList Relation.toJson m.relations)]

/-- Reads a model. -/
def ofJson? (form : Form) (j : Json) : Option Model := do
  let r ← form.record? ["name", "table", "fields", "relations"] j
  return {
    name := ← r.need "name" str?
    table := ← r.need "table" str?
    fields := ← r.orElse "fields" [] (list? (FieldDef.ofJson? form))
    relations := ← r.orElse "relations" [] (list? (Relation.ofJson? form)) }

end Model

namespace Schema

/-- The document of a schema. -/
def toJson (s : Schema) : Json :=
  .obj [("models", ofList Model.toJson s.models)]

/-- Reads a schema. -/
def ofJson? (form : Form) (j : Json) : Option Schema := do
  let r ← form.record? ["models"] j
  return .ofModels (← r.orElse "models" [] (list? (Model.ofJson? form)))

end Schema

end SqlQuery
