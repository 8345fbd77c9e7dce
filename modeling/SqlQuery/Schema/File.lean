import SqlQuery.Files.Host
import SqlQuery.Schema.Codec
import SqlQuery.Toml.Reader

/-!
# Schemas in files

A schema in a file is TOML. What is wrong with such a text is not told apart: it
either describes a schema or fails to parse.
-/

namespace SqlQuery.Schema

/-- The schema that a TOML text describes. -/
def ofToml (text : String) : Except Error Schema :=
  match (Toml.ofText? text).bind (ofJson? .toml) with
  | some s => .ok s
  | none => .error (.config .schemaSyntax)

/-- The schema in a file. -/
def load {m : Type → Type} [Monad m] (host : Host m) (path : String) : m (Except Error Schema) := do
  match ← host.read path with
  | .ok text => return ofToml text
  | .error problem => return .error (.file problem)

end SqlQuery.Schema
