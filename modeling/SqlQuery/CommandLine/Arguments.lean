import SqlQuery.Sql.Dialect

/-!
# Arguments of the command line

A call names a command and what it works on. Options may stand before the command
and after it, each of them at most once in either place, and the place after the
command wins. A value follows its option as the next argument or in the same one:
`--dialect mysql`, `--dialect=mysql`, `-d mysql`, `-dmysql` and `-d=mysql` say the
same. What starts with a hyphen is an option, the hyphen alone excepted; after `--`
nothing is.

Where neither place names a dialect or a schema, a variable of the environment
may, and a variable that cannot be read is an error unless both places make it
superfluous.
-/

namespace SqlQuery.CommandLine

/-- How results are printed. -/
inductive OutputFormat where
  | text
  | json
deriving DecidableEq, Repr, Inhabited

/-- The format of a name. -/
def OutputFormat.ofName? : String → Option OutputFormat
  | "text" => some .text
  | "json" => some .json
  | _ => none

/-- What is asked for, with the files, or texts, that it works on. -/
inductive Command where
  | compile (query : String)
  | nested (model key writes : String)
  | schema
deriving DecidableEq, Repr, Inhabited

/-- A call that can be run. -/
structure Call where
  command : Command
  dialect : Option Dialect := none
  schema : Option String := none
  config : Option String := none
  format : OutputFormat := .text
deriving DecidableEq, Repr, Inhabited

/-- What arguments ask for. -/
inductive Request where
  | run (call : Call)
  | version
  | help
  | misuse
deriving DecidableEq, Repr, Inhabited

/-! ## Options -/

/-- The options that take a value. -/
inductive Setting where
  | dialect
  | schema
  | config
  | format
deriving DecidableEq, Repr

/-- An option. -/
inductive Flag where
  | setting (s : Setting)
  | verbose
  | help
  | version
deriving DecidableEq, Repr

/-- The option of a letter. -/
def Flag.ofLetter? : Char → Option Flag
  | 'd' => some (.setting .dialect)
  | 's' => some (.setting .schema)
  | 'c' => some (.setting .config)
  | 'f' => some (.setting .format)
  | 'v' => some .verbose
  | 'h' => some .help
  | 'V' => some .version
  | _ => none

/-- The option of a name. -/
def Flag.ofName? : String → Option Flag
  | "dialect" => some (.setting .dialect)
  | "schema" => some (.setting .schema)
  | "config" => some (.setting .config)
  | "format" => some (.setting .format)
  | "verbose" => some .verbose
  | "help" => some .help
  | "version" => some .version
  | _ => none

/-- The options of one place. -/
structure Options where
  dialect : Option Dialect := none
  schema : Option String := none
  config : Option String := none
  format : Option OutputFormat := none
  verbose : Bool := false
deriving DecidableEq, Repr, Inhabited

namespace Options

/-- A path given as a value; an empty one is none. -/
def path? (value : String) : Option String :=
  if value = "" then none else some value

/-- The options with one more that has a value; none twice, and none with a value
it cannot take. -/
def set (o : Options) (s : Setting) (value : String) : Option Options :=
  match s with
  | .dialect =>
    if o.dialect.isSome then none
    else (Dialect.parse value).toOption.map fun d => { o with dialect := some d }
  | .schema =>
    if o.schema.isSome then none else (path? value).map fun p => { o with schema := some p }
  | .config =>
    if o.config.isSome then none else (path? value).map fun p => { o with config := some p }
  | .format =>
    if o.format.isSome then none
    else (OutputFormat.ofName? value).map fun f => { o with format := some f }

/-- The options with what variables of the environment add. -/
def orVariables (o : Options) (dialect schema : Option String) : Option Options := do
  let o ← match o.dialect, dialect with
    | none, some value => o.set .dialect value
    | _, _ => some o
  match o.schema, schema with
  | none, some value => o.set .schema value
  | _, _ => some o

end Options

/-! ## Words -/

/-- An argument by its look. -/
inductive Word where
  | plain (text : String)
  | stop
  | long (name : String) (value : Option String)
  | letters (cs : List Char)
deriving DecidableEq, Repr

/-- The look of an argument. -/
def Word.ofText (text : String) : Word :=
  match text.toList with
  | ['-', '-'] => .stop
  | '-' :: '-' :: cs =>
    let name := String.ofList (cs.takeWhile (· != '='))
    match cs.dropWhile (· != '=') with
    | _ :: value => .long name (some (String.ofList value))
    | [] => .long name none
  | '-' :: c :: cs => .letters (c :: cs)
  | _ => .plain text

/-- The two places where options stand. -/
inductive Place where
  | beforeCommand
  | afterCommand
deriving DecidableEq, Repr

/-- What an argument with options leads to. -/
inductive Step where
  | next (o : Options)
  | awaitValue (o : Options) (s : Setting)
  | stop (r : Request)

/-- The step after a value was given or refused. -/
def Step.ofOptions : Option Options → Step
  | some o => .next o
  | none => .stop .misuse

/-- Takes an option without a value; the version is told only before the command. -/
def Options.raise (o : Options) (place : Place) : Flag → Step
  | .setting s => .awaitValue o s
  | .verbose => if o.verbose then .stop .misuse else .next { o with verbose := true }
  | .help => .stop .help
  | .version => .stop (if place = .beforeCommand then .version else .misuse)

/-- Takes the options of letters; the first one with a value takes the rest of the
letters for it. -/
def Options.takeLetters (o : Options) (place : Place) : List Char → Step
  | [] => .next o
  | c :: cs =>
    match Flag.ofLetter? c, cs with
    | none, _ => .stop .misuse
    | some (.setting s), '=' :: value => .ofOptions (o.set s (String.ofList value))
    | some (.setting s), v :: value => .ofOptions (o.set s (String.ofList (v :: value)))
    | some flag, cs =>
      match o.raise place flag with
      | .next o => o.takeLetters place cs
      | step => step

/-- Takes the option of a name. -/
def Options.takeLong (o : Options) (place : Place) (name : String) (value : Option String) :
    Step :=
  match Flag.ofName? name, value with
  | some (.setting s), some value => .ofOptions (o.set s value)
  | some flag, none => o.raise place flag
  | _, _ => .stop .misuse

/-- What the arguments of one place come to. -/
inductive Scan where
  | stop (r : Request)
  | done (o : Options) (operands : List String)

/-- One more operand before those that follow. -/
def Scan.addOperand (text : String) : Scan → Scan
  | .done o operands => .done o (text :: operands)
  | s => s

/-- Reads the options of one place and up to `room` operands. The first operand
before the command is the command, and ends the place. -/
def scan (place : Place) (room : Nat) (o : Options) : List String → Scan
  | [] => .done o []
  | arg :: rest =>
    let step := match Word.ofText arg with
      | .long name value => some (o.takeLong place name value)
      | .letters cs => some (o.takeLetters place cs)
      | _ => none
    match step with
    | some (.next o) => scan place room o rest
    | some (.stop r) => .stop r
    | some (.awaitValue o s) =>
      match rest with
      | [] => .stop .misuse
      | value :: rest =>
        match Word.ofText value with
        | .plain value =>
          match o.set s value with
          | some o => scan place room o rest
          | none => .stop .misuse
        | _ => .stop .misuse
    | none =>
      if arg = "--" then
        if place = .beforeCommand then .stop .misuse else .done o rest
      else if place = .beforeCommand then .done o (arg :: rest)
      else if room = 0 then .stop .misuse
      else (scan place (room - 1) o rest).addOperand arg

/-! ## Requests -/

/-- How many operands a command has, by its name. -/
def operandCount? : String → Option Nat
  | "compile" => some 1
  | "nested" => some 3
  | "schema" => some 0
  | _ => none

/-- The command of a name and operands. -/
def Command.ofOperands? : String → List String → Option Command
  | "compile", [query] => some (.compile query)
  | "nested", [model, key, writes] => some (.nested model key writes)
  | "schema", [] => some .schema
  | _, _ => none

/-- Puts together what both places say. -/
def Call.ofPlaces (command : Command) (before after : Options) : Call where
  command := command
  dialect := after.dialect <|> before.dialect
  schema := after.schema <|> before.schema
  config := after.config <|> before.config
  format := (after.format <|> before.format).getD .text

/-- The request of a command that follows options, and of the arguments after it.
Variables come last, but each place has to be able to read those it needs. -/
def Request.ofCommand (dialect schema : Option String) (before : Options) (name : String)
    (args : List String) : Request :=
  match operandCount? name with
  | none =>
    if name = "help" ∧ args.length ≤ 1 ∧ args.all (operandCount? · |>.isSome) then .help
    else .misuse
  | some count =>
    match scan .afterCommand count {} args with
    | .stop r => r
    | .done after operands =>
      match Command.ofOperands? name operands, before.orVariables dialect schema,
        after.orVariables dialect schema with
      | some command, some before, some _ => .run (.ofPlaces command before after)
      | _, _, _ => .misuse

/-- What arguments ask for, given the variables for the dialect and the schema. -/
def Request.ofArguments (dialect schema : Option String) (args : List String) : Request :=
  match scan .beforeCommand 0 {} args with
  | .stop r => r
  | .done before (name :: args) => .ofCommand dialect schema before name args
  | .done _ [] => .misuse

end SqlQuery.CommandLine
