import SqlQuery.CommandLine.Run

/-!
# The program

`main` runs the command line on the machine it is started on.
-/

namespace SqlQuery

/-- The file problem behind an error of the system. -/
def FileProblem.ofSystem : IO.Error → FileProblem
  | .noFileOrDirectory .. => .notFound
  | .inappropriateType _ 20 _ => .notDirectory
  | .inappropriateType _ 21 _ => .isDirectory
  | .permissionDenied _ code details => .other s!"{details} (os error {code})"
  | .otherError code details => .other s!"{details} (os error {code})"
  | e => .other (toString e)

/-- Bytes as a text. -/
def FileProblem.decode (bytes : ByteArray) : Except FileProblem String :=
  match String.fromUTF8? bytes with
  | some text => .ok text
  | none => .error .notText

/-- Reads something as a text, telling apart why it may fail. -/
def FileProblem.reading (action : IO ByteArray) : IO (Except FileProblem String) := do
  match ← action.toBaseIO with
  | .ok bytes => return decode bytes
  | .error e => return .error (.ofSystem e)

/-- Whether what could be read, or not, is a file. -/
def FileProblem.isFile : Except FileProblem String → Bool
  | .error .notFound | .error .isDirectory | .error .notDirectory => false
  | _ => true

/-- The user's directory of settings: the one that the environment names with an
absolute path, or `.config` in the home directory. -/
def settingsDirectory : IO (Option String) := do
  match ← IO.getEnv "XDG_CONFIG_HOME" with
  | some path => if Path.isAbsolute path then return some path
  | none => pure ()
  return (← IO.getEnv "HOME").map (Path.join · ".config")

/-- The machine that the program is started on. -/
def machine : IO (Host IO) := do
  let read (path : String) := FileProblem.reading (IO.FS.readBinFile path)
  return {
    read
    isFile := fun path => do return FileProblem.isFile (← read path)
    input := FileProblem.reading (do (← IO.getStdin).readBinToEnd)
    settingsDirectory := ← settingsDirectory
    dialectVariable := ← IO.getEnv "RELQ_DIALECT"
    schemaVariable := ← IO.getEnv "RELQ_SCHEMA" }

end SqlQuery

open SqlQuery in
/-- Runs the command line; the exit code tells misuse from failure. -/
def main (args : List String) : IO UInt32 := do
  let report ← CommandLine.run (← machine) args
  (← IO.getStdout).putStr report.output
  (← IO.getStderr).putStr report.complaint
  return report.exitCode.toUInt32
