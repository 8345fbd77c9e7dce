import SqlQuery.Compile.Codec
import SqlQuery.Schema.Basic

/-!
# Results as lines of text

How statements and schemas are listed for a reader. Arguments stand below their
statement, each with the placeholder it belongs to; where a dialect does not number
its placeholders the question mark gets the number.
-/

namespace SqlQuery.CommandLine

/-- The text of lines. -/
def ofLines (lines : List String) : String :=
  String.join (lines.map (· ++ "\n"))

/-- How the placeholder of a number is listed. -/
def marker (dialect : Dialect) (index : Nat) : String :=
  match dialect with
  | .postgres => dialect.placeholder index
  | _ => dialect.placeholder index ++ toString index

/-- The arguments of a statement, if it has any. -/
def bindingLines (dialect : Dialect) (args : List Value) : List String :=
  if args.isEmpty then []
  else
    ["", "Bindings:"] ++ args.zipIdx.map fun a =>
      "  " ++ marker dialect (a.2 + 1) ++ " = " ++ a.1.display

/-- A statement and its arguments. -/
def statementLines (dialect : Dialect) (p : Sql.Prepared) : List String :=
  ["Generated SQL:", p.sql] ++ bindingLines dialect p.args

/-- The reminder of writes that wait for the key of their parent. -/
def pendingLines (count : Nat) : List String :=
  if count = 0 then []
  else
    ["", toString count
      ++ " nested write(s) pending; expand with `relq nested` once the key is known"]

/-- Statements to be run in their order. -/
def statementListLines (dialect : Dialect) (statements : List Sql.Prepared) : List String :=
  statements.zipIdx.flatMap fun s =>
    ("-- statement " ++ toString (s.2 + 1)) :: statementLines dialect s.1

/-- A field, with its column where that has another name. -/
def fieldLine (f : FieldDef) : String :=
  if f.columnName = f.name then "    " ++ f.name
  else "    " ++ f.name ++ " (" ++ f.columnName ++ ")"

/-- A relation, its kind and the model it leads to. -/
def relationLine (r : Relation) : String :=
  "    ↳ " ++ r.name ++ " " ++ r.kind.title ++ " " ++ r.toModel

/-- A model with its fields and relations. -/
def modelLines (m : Model) : List String :=
  (m.name ++ " -> " ++ m.table) :: m.fields.map fieldLine ++ m.relations.map relationLine

/-- The models of a schema. -/
def schemaLines (s : Schema) : List String :=
  if s.models.isEmpty then ["(no models)"] else s.models.flatMap modelLines

end SqlQuery.CommandLine
