import SqlQuery.Json.Basic

/-!
# Tables of a TOML text

The lines of a TOML text say which keys lead to which values, in any order and by
several spellings. Here the lines are put together into one document; a line that
says a second time what has been said before spoils the text.

What may be added to a table depends on how the table came to be. A header
declares one, and the tables on the way to it are implied; a dotted key makes
tables that only dotted keys go on to fill. An implied table can still be declared
once; keys are added to a dotted table and to the one being declared, and to no
other. A value, an inline table or an inline array is closed from the start.
-/

namespace SqlQuery.Toml

/-- How a table came to be. -/
inductive Origin where
  | declared
  | implied
  | dotted
deriving DecidableEq, Repr, Inhabited

/-- What stands under a key. -/
inductive Node where
  | value (j : Json)
  | table (origin : Origin) (entries : List (String × Node))
  | tables (items : List (List (String × Node)))
deriving Repr, Inhabited

/-- The keys of a table, in the order of their first mention. -/
abbrev Entries := List (String × Node)

mutual

/-- The document of what stands under a key. -/
def Node.toJson : Node → Json
  | .value j => j
  | .table _ entries => .obj (members entries)
  | .tables items => .arr (objects items)

/-- The members that the keys of a table make. -/
def members : List (String × Node) → List (String × Json)
  | [] => []
  | (key, node) :: rest => (key, node.toJson) :: members rest

/-- The documents of the tables of an array. -/
def objects : List (List (String × Node)) → List Json
  | [] => []
  | entries :: rest => .obj (members entries) :: objects rest

end

/-- Puts a node under a key, in the place of what stood there. -/
def put (key : String) (node : Node) : Entries → Entries
  | [] => [(key, node)]
  | (k, n) :: rest => if k = key then (k, node) :: rest else (k, n) :: put key node rest

/-- Changes the last item of a list that has one. -/
def changeLast {α : Type} (change : α → Option α) : List α → Option (List α)
  | [] => none
  | [a] => (change a).map ([·])
  | a :: rest => (changeLast change rest).map (a :: ·)

/-! ## Values under keys -/

/-- A key, the dotted keys before it, and its value. -/
structure Pair where
  path : List String
  key : String
  value : Json
deriving Repr, Inhabited

/-- Adds a value to the table that dotted keys lead to from a table which is `isOpen`
to new keys or not. -/
def insert (key : String) (value : Json) (isOpen : Bool) : List String → Entries → Option Entries
  | [], entries =>
    if isOpen && (entries.lookup key).isNone then some (entries ++ [(key, .value value)]) else none
  | step :: path, entries => do
    let node ← match entries.lookup step with
      | none => (insert key value true path []).map (.table .dotted)
      | some (.table .declared _) | some (.value _) => none
      | some (.table origin inner) =>
        (insert key value (origin == .dotted) path inner).map (.table origin)
      | some (.tables items) => (changeLast (insert key value false path) items).map .tables
    return put step node entries

/-- Adds the pairs of a table that is being declared. -/
def fill (pairs : List Pair) (entries : Entries) : Option Entries :=
  pairs.foldlM (fun es p => insert p.key p.value true p.path es) entries

/-! ## Headers -/

/-- What a header declares: a table, or one more table of an array. -/
inductive HeaderKind where
  | table
  | item
deriving DecidableEq, Repr

/-- A header: the keys on the way, and the key of what it declares. -/
structure Header where
  kind : HeaderKind
  path : List String
  key : String
deriving Repr

/-- Changes the table that the keys of a header lead to; one that is missing is
implied, and of an array of tables the last one is meant. -/
def within (change : Entries → Option Entries) : List String → Entries → Option Entries
  | [], entries => change entries
  | step :: path, entries => do
    let node ← match entries.lookup step with
      | none => (within change path []).map (.table .implied)
      | some (.value _) => none
      | some (.table origin inner) => (within change path inner).map (.table origin)
      | some (.tables items) => (changeLast (within change path) items).map .tables
    return put step node entries

/-- What a header with its pairs makes of what stands under its key. -/
def declare (kind : HeaderKind) (pairs : List Pair) : Option Node → Option Node
  | none =>
    (fill pairs []).map fun es =>
      match kind with
      | .table => .table .declared es
      | .item => .tables [es]
  | some (.table .implied inner) =>
    if kind = .table then (fill pairs inner).map (.table .declared) else none
  | some (.tables items) =>
    if kind = .item then (fill pairs []).map fun es => .tables (items ++ [es]) else none
  | some _ => none

/-- Adds a header with its pairs to the tables before it. -/
def addSection (root : Entries) (section_ : Header × List Pair) : Option Entries :=
  let h := section_.1
  within (fun entries => do
    let node ← declare h.kind section_.2 (entries.lookup h.key)
    return put h.key node entries) h.path root

/-! ## Lines -/

/-- A line that says something. -/
inductive Line where
  | pair (p : Pair)
  | header (h : Header)
deriving Repr

/-- The pairs before the first header, and each header with the pairs after it. -/
def sections : List Line → List Pair × List (Header × List Pair)
  | [] => ([], [])
  | .pair p :: rest =>
    let r := sections rest
    (p :: r.1, r.2)
  | .header h :: rest =>
    let r := sections rest
    ([], (h, r.1) :: r.2)

/-- The document that lines make together. -/
def ofLines? (lines : List Line) : Option Json := do
  let (pairs, rest) := sections lines
  let root ← fill pairs []
  return .obj (members (← rest.foldlM addSection root))

/-- The document of an inline table. -/
def inlineTable? (pairs : List Pair) : Option Json :=
  (fill pairs []).map fun es => .obj (members es)

end SqlQuery.Toml
