import SqlQuery.Compile.Query
import SqlQuery.Json.Record

/-!
# Compiled queries as documents

A statement is written with its text and its arguments, a compiled query also with
its dialect and with the mapping of its result.
-/

namespace SqlQuery

open Json

/-- The document of a field mapping. -/
def FieldMapping.toJson (f : FieldMapping) : Json :=
  .obj [("column", .str f.column), ("path", ofStrings f.path), ("field", .str f.field)]

/-- The document of a relation mapping. -/
def RelationMapping.toJson (r : RelationMapping) : Json :=
  .obj [("path", ofStrings r.path), ("alias", .str r.aliasName), ("many", .bool r.many)]

/-- The document of the mapping of a result. -/
def ResultMapping.toJson (m : ResultMapping) : Json :=
  .obj [("model", .str m.model), ("fields", ofList FieldMapping.toJson m.fields),
    ("relations", ofList RelationMapping.toJson m.relations)]

/-- The members that a text and its arguments make. -/
def Sql.Prepared.members (p : Sql.Prepared) : List (String × Json) :=
  [("sql", .str p.sql), ("args", ofList Value.toJson p.args)]

/-- The document of a text and its arguments. -/
def Sql.Prepared.toJson (p : Sql.Prepared) : Json :=
  .obj p.members

/-- The document of a compiled query in a dialect. -/
def Compiled.toJson (c : Compiled) (dialect : Dialect) : Json :=
  .obj ((c.statement.prepare dialect).members
    ++ [("dialect", .str dialect.name), ("mapping", c.mapping.toJson)])

end SqlQuery
