import SqlQuery.Files.Host
import SqlQuery.Json.Record
import SqlQuery.Toml.Reader

/-!
# Settings

Settings say which dialect to write, where the schema is and how deep trees may be.
They are read from a TOML file: the one that is asked for, or else `relq.toml` in
the working directory, or else the one in the user's directory of settings. Without
any of them the defaults hold. A schema path that is not absolute starts at the
directory of the file it stands in.
-/

namespace SqlQuery

/-- The settings of a run. -/
structure Config where
  dialect : Dialect := .postgres
  schemaPath : Option String := none
  maxDepth : Nat := defaultMaxDepth
deriving DecidableEq, Repr, Inhabited

namespace Config

open Json

/-- Reads settings from their document. -/
def ofJson? (j : Json) : Option Config := do
  let r ← Form.toml.record? ["dialect", "schema_path", "max_depth"] j
  return {
    dialect := ← r.orElse "dialect" .postgres fun d => (Form.toml.tag? d).bind Dialect.ofName?
    schemaPath := ← r.maybe "schema_path" str?
    maxDepth := ← r.orElse "max_depth" defaultMaxDepth fun n => n.word?.map (·.toNat) }

/-- The settings in a TOML text. A depth of zero would refuse every query. -/
def ofToml (text : String) : Except Error Config :=
  match (Toml.ofText? text).bind ofJson? with
  | none => .error (.config .configSyntax)
  | some c => if c.maxDepth = 0 then .error (.config .zeroDepth) else .ok c

/-- The settings with their schema path seen from the directory of a file. -/
def seenFrom (c : Config) (file : String) : Config :=
  match Path.parent? file with
  | some directory => { c with schemaPath := c.schemaPath.map (Path.join directory) }
  | none => c

/-- The name of the file of settings in the working directory. -/
def localFile : String := "relq.toml"

/-- The file of settings in the user's directory of them. -/
def userFile (directory : String) : String :=
  Path.join (Path.join directory "relq") "config.toml"

variable {m : Type → Type} [Monad m]

/-- The file of settings that is found when none is asked for. -/
def discover (host : Host m) : m (Option String) := do
  if ← host.isFile localFile then return some localFile
  match host.settingsDirectory.map userFile with
  | none => return none
  | some path => return if ← host.isFile path then some path else none

/-- The settings in a file. -/
def loadFile (host : Host m) (path : String) : m (Except Error Config) := do
  match ← host.read path with
  | .ok text => return (ofToml text).map (·.seenFrom path)
  | .error problem => return .error (.file problem)

/-- The settings of a run that asks for a file or not. -/
def load (host : Host m) (asked : Option String) : m (Except Error Config) := do
  match ← (match asked with | some path => pure (some path) | none => discover host) with
  | some path => loadFile host path
  | none => return .ok {}

end Config

end SqlQuery
