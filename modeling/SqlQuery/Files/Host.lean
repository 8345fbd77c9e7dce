import SqlQuery.Error
import SqlQuery.Files.Path

/-!
# What a run can ask of its machine

A run reads files and its standard input, asks whether a file exists, and knows the
user's directory of settings and two environment variables. `Host` gathers these,
so that a run is the same definition on a real machine and on a `FileTree`, files
held in memory.

A file tree is a whole machine's: absolute paths start at its root, all others at the
working directory, and the parent of the root is the root itself.
-/

namespace SqlQuery

/-- The machine that a run asks, in a monad of its own. -/
structure Host (m : Type → Type) where
  read : String → m (Except FileProblem String)
  isFile : String → m Bool
  input : m (Except FileProblem String)
  settingsDirectory : Option String := none
  dialectVariable : Option String := none
  schemaVariable : Option String := none

/-! ## Files in memory -/

/-- Files by the steps that lead to them from the root, directories that exist even
where no file is in them, and the directory that a run starts in. -/
structure FileTree where
  files : List (List String × String)
  directories : List (List String) := []
  workingDirectory : List String := []
deriving Repr, Inhabited

namespace FileTree

/-- What a path leads to. -/
inductive Found where
  | file (text : String)
  | directory
deriving DecidableEq, Repr

/-- How many bytes the name of a step may have. -/
def maxName : Nat := 255

/-- How many bytes a path may have. -/
def maxPath : Nat := 4095

/-- Whether there is a directory, be it one that only leads to something else. -/
def hasDirectory (t : FileTree) (directory : List String) : Bool :=
  (t.directories ++ t.files.map (·.1)).any directory.isPrefixOf

/-- Follows steps from a directory. -/
def walk (t : FileTree) : (directory steps : List String) → Except FileProblem Found
  | _, [] => .ok .directory
  | directory, step :: rest =>
    if Path.isIdle step then t.walk directory rest
    else if step = ".." then t.walk directory.dropLast rest
    else if maxName < step.utf8ByteSize then .error .nameTooLong
    else
      match t.files.lookup (directory ++ [step]) with
      | some text => if rest.isEmpty then .ok (.file text) else .error .notDirectory
      | none =>
        if t.hasDirectory (directory ++ [step]) then t.walk (directory ++ [step]) rest
        else .error .notFound

/-- What a path leads to. -/
def find (t : FileTree) (path : String) : Except FileProblem Found :=
  if path = "" then .error .notFound
  else if path.toList.contains '\x00' then .error .nulInName
  else if maxPath < path.utf8ByteSize then .error .nameTooLong
  else t.walk (if Path.isAbsolute path then [] else t.workingDirectory) (Path.steps path)

/-- The text of a file. -/
def read (t : FileTree) (path : String) : Except FileProblem String :=
  match t.find path with
  | .ok (.file text) => .ok text
  | .ok .directory => .error .isDirectory
  | .error problem => .error problem

/-- Whether a path leads to a file. -/
def isFile (t : FileTree) (path : String) : Bool :=
  match t.find path with
  | .ok (.file _) => true
  | _ => false

/-- A machine that has only these files. -/
def host (t : FileTree) (input : String) : Host Id where
  read := t.read
  isFile := t.isFile
  input := .ok input

end FileTree

end SqlQuery
