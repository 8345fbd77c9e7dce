/-!
# Paths

A path is a text whose steps are parted by slashes. Nothing is looked up and
nothing is simplified here: `a/../b` stays as it is, and only where the parent of a
path is taken do empty steps and single dots at its end not count.
-/

namespace SqlQuery.Path

/-- Whether a path starts at the root. -/
def isAbsolute (path : String) : Bool :=
  path.toList.head? == some '/'

/-- The parts of a text before, between and after its slashes. -/
def splitSteps : List Char → List (List Char)
  | [] => [[]]
  | c :: cs =>
    match splitSteps cs with
    | [] => [[c]]
    | step :: rest => if c = '/' then [] :: step :: rest else (c :: step) :: rest

/-- The steps of a path; the first one of an absolute path is empty. -/
def steps (path : String) : List String :=
  (splitSteps path.toList).map String.ofList

/-- The path of steps. -/
def ofSteps (steps : List String) : String :=
  "/".intercalate steps

/-- Whether a step leads nowhere. -/
def isIdle (step : String) : Bool :=
  step == "" || step == "."

/-- Steps without the ones at their end that lead nowhere. -/
def trim : List String → List String
  | [] => []
  | step :: rest =>
    match trim rest with
    | [] => if isIdle step then [] else [step]
    | rest => step :: rest

/-- The path of the directory that holds a path: empty for a single step, and
nothing for the root and for the empty path. -/
def parent? (path : String) : Option String :=
  match steps path with
  | [] => none
  | first :: rest =>
    match trim rest with
    | [] => if first = "" then none else some ""
    | rest =>
      match first, trim rest.dropLast with
      | "", [] => some "/"
      | first, rest => some (ofSteps (first :: rest))

/-- A path seen from a directory; an absolute one stays as it is. -/
def join (directory path : String) : String :=
  if isAbsolute path || directory == "" then path
  else if directory.toList.getLast? == some '/' then directory ++ path
  else directory ++ "/" ++ path

end SqlQuery.Path
