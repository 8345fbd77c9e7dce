import SqlQuery.CommandLine.Arguments
import SqlQuery.CommandLine.Listing
import SqlQuery.Compile.Nested
import SqlQuery.Config
import SqlQuery.Json.Reader
import SqlQuery.Json.Writer
import SqlQuery.Query.Codec
import SqlQuery.Schema.File

/-!
# Running a call

A call is run from the settings on: first these are loaded, then the schema, then
the files of the command are read, decoded and compiled. The first step that fails
ends the run, and its failure says at which step it was.
-/

namespace SqlQuery.CommandLine

/-- Why a run ends without a result. -/
inductive Failure where
  | config (e : Error)
  | schema (path : String) (e : Error)
  | noSchema
  | file (path : String) (problem : FileProblem)
  | input (problem : FileProblem)
  | queryText
  | keyText
  | writesText
  | refused (e : Error)
deriving DecidableEq, Repr

/-- The wording of an error with its cause; a file problem is the cause of the error
that reports it, and so stands there twice. -/
def Failure.chained : Error → String
  | .file problem => (Error.file problem).message ++ ": " ++ problem.message
  | e => e.message

/-- The wording of a failure. -/
def Failure.message : Failure → String
  | .config e => "loading config: " ++ chained e
  | .schema path e => "loading schema " ++ path ++ ": " ++ chained e
  | .noSchema => "No schema. Use --schema or set RELQ_SCHEMA"
  | .file path problem => "reading " ++ path ++ ": " ++ problem.message
  | .input problem => problem.message
  | .queryText => "parsing query JSON"
  | .keyText => "parsing parent key JSON"
  | .writesText => "parsing writes JSON"
  | .refused e => chained e

variable {m : Type → Type} [Monad m]

/-- Gives the error of a step its place in the run. -/
def at_ {ε α : Type} (step : ε → Failure) (result : m (Except ε α)) : ExceptT Failure m α :=
  ExceptT.mk do return (← result).mapError step

/-- What was decoded, or the failure of the step. -/
def decoded {α : Type} (failure : Failure) : Option α → ExceptT Failure m α
  | some a => pure a
  | none => throw failure

/-- The text of a file, or the standard input for a hyphen. -/
def readInput (host : Host m) (name : String) : ExceptT Failure m String :=
  if name = "-" then at_ .input host.input else at_ (.file name) (host.read name)

/-- The schema of a run; only a command about the schema itself cannot do without
one. -/
def loadSchema (host : Host m) (call : Call) (config : Config) : ExceptT Failure m Schema :=
  match call.schema <|> config.schemaPath with
  | some path => at_ (.schema path) (Schema.load host path)
  | none => if call.command = .schema then throw .noSchema else pure {}

/-- The output of a compiled query. -/
def showCompiled (format : OutputFormat) (dialect : Dialect) (q : Query) (c : Compiled) : String :=
  match format with
  | .json => (c.toJson dialect).pretty ++ "\n"
  | .text =>
    ofLines (statementLines dialect (c.statement.prepare dialect) ++ pendingLines q.writes.length)

/-- The output of the statements of nested writes. -/
def showStatements (format : OutputFormat) (dialect : Dialect) (statements : List Sql.Statement) :
    String :=
  let prepared := statements.map (·.prepare dialect)
  match format with
  | .json => (Json.ofList Sql.Prepared.toJson prepared).pretty ++ "\n"
  | .text => ofLines (statementListLines dialect prepared)

/-- The output of a schema. -/
def showSchema (format : OutputFormat) (s : Schema) : String :=
  match format with
  | .json => s.toJson.pretty ++ "\n"
  | .text => ofLines (schemaLines s)

/-- The output of a call, or why there is none. -/
def perform (host : Host m) (call : Call) : ExceptT Failure m String := do
  let config ← at_ .config (Config.load host call.config)
  let dialect := call.dialect.getD config.dialect
  let schema ← loadSchema host call config
  let env : Env := { schema, dialect, maxDepth := config.maxDepth }
  match call.command with
  | .compile query =>
    let text ← readInput host query
    let q ← decoded .queryText ((Json.ofText? text).bind (Query.ofJson? .text))
    let compiled ← at_ .refused (pure (q.compile env))
    return showCompiled call.format dialect q compiled
  | .nested model key writes =>
    let key ← decoded .keyText ((Json.ofText? key).bind Value.ofJson?)
    let text ← readInput host writes
    let writes ← decoded .writesText
      ((Json.ofText? text).bind (Json.list? (NestedWrite.ofJson? .text)))
    let statements ← at_ .refused (pure (NestedWrite.compileAll env model key writes))
    return showStatements call.format dialect statements
  | .schema => return showSchema call.format schema

/-! ## Reports -/

/-- What a run leaves behind: its exit code, and what it printed as its result and as
a complaint. -/
structure Report where
  exitCode : UInt8
  output : String := ""
  complaint : String := ""
deriving DecidableEq, Repr

/-- The name and the number of this program. -/
def versionLine : String := "relq 0.1.0"

/-- How the program is called. -/
def usageLines : List String :=
  ["Usage: relq [OPTIONS] <COMMAND>", "", "Commands:",
    "  compile <QUERY>                 Compile a JSON query (`-` reads stdin)",
    "  nested <MODEL> <KEY> <WRITES>   Expand nested writes for one parent row",
    "  schema                          List models and relations in the schema", "",
    "Options:",
    "  -d, --dialect <DIALECT>  Target dialect (postgres, mysql, sqlite)",
    "  -s, --schema <SCHEMA>    Schema file (TOML)",
    "  -c, --config <CONFIG>    Config file",
    "  -f, --format <FORMAT>    Output format (text, json)",
    "  -v, --verbose            Verbose output"]

/-- Runs the program with its arguments. -/
def run (host : Host m) (args : List String) : m Report := do
  match Request.ofArguments host.dialectVariable host.schemaVariable args with
  | .version => return { exitCode := 0, output := ofLines [versionLine] }
  | .help => return { exitCode := 0, output := ofLines usageLines }
  | .misuse => return { exitCode := 2, complaint := ofLines usageLines }
  | .run call =>
    match ← (perform host call).run with
    | .ok output => return { exitCode := 0, output }
    | .error failure => return { exitCode := 1, complaint := ofLines ["Error: " ++ failure.message] }

end SqlQuery.CommandLine
