import SqlQuery.Sql.Predicate

/-!
# Statements

The statements that queries compile to, as data. `Statement.tokens` writes one;
its text is the layout of these tokens and its arguments are what their slots
hold, so the n-th placeholder of the text is the n-th argument whatever the
statement is.
-/

namespace SqlQuery.Sql

/-- How a selection drops rows that are alike. -/
inductive Distinct where
  | keep
  | rows
  | on (columns : List ColumnRef)
deriving DecidableEq, Repr, Inhabited

/-- One item of a selection. -/
inductive SelectItem where
  | star (qualifier : Option String)
  | column (c : ColumnRef) (aliasName : Option String)
  | aggregate (f : AggregateFunction) (c : ColumnRef) (aliasName : String)
deriving DecidableEq, Repr, Inhabited

/-- A table joined to those before it; rows without a partner are kept. -/
structure Join where
  table : String
  aliasName : String
  on : Predicate
deriving Repr, Inhabited

/-- A selection of rows, or of aggregates of them. -/
structure Select where
  distinct : Distinct := .keep
  items : List SelectItem
  table : String
  joins : List Join := []
  where_ : Option Predicate := none
  groupBy : List ColumnRef := []
  having : Option Predicate := none
  orderBy : List (ColumnRef × SortOrder) := []
  limit : Option Nat := none
  offset : Option Nat := none
deriving Repr, Inhabited

/-- What a column is set to: a value, nothing, or what an insertion proposed. -/
inductive Source where
  | value (v : Value)
  | null
  | proposed
deriving DecidableEq, Repr, Inhabited

/-- A column and what it is set to. -/
structure Assignment where
  column : String
  source : Source
deriving DecidableEq, Repr, Inhabited

/-- What an insertion does where it meets a row with the same keys. -/
structure Conflict where
  keys : List String
  assignments : List Assignment
deriving DecidableEq, Repr, Inhabited

/-- A statement; where `returning`, the written rows are asked for. -/
inductive Statement where
  | select (s : Select)
  | insert (table : String) (columns : List String) (rows : List (List Value))
      (conflict : Option Conflict) (returning : Bool)
  | insertUnless (table : String) (columns : List String) (row : List Value)
      (present : Predicate)
  | update (table : String) (assignments : List Assignment) (where_ : Predicate)
      (returning : Bool)
  | delete (table : String) (where_ : Predicate) (returning : Bool)
deriving Repr, Inhabited

/-- Text and the arguments of its placeholders. -/
structure Prepared where
  sql : String
  args : List Value
deriving DecidableEq, Repr, Inhabited

/-- The word of a sort direction. -/
def Keyword.ofOrder : SortOrder → Keyword
  | .asc => .asc
  | .desc => .desc

/-- Names with commas between them. -/
def nameList {α : Type} (names : List String) : Fragment α :=
  commas (names.map fun n => [.name n])

/-- The name given to an item, if it is given one. -/
def aliasTokens {α : Type} : Option String → Fragment α
  | some a => [.word .as, .name a]
  | none => []

/-- A clause that is left out where there is nothing to say. -/
def clause {α : Type} (words : List Keyword) (body : Fragment α) : Fragment α :=
  if body.isEmpty then [] else words.map .word ++ body

namespace SelectItem

/-- The tokens of an item. -/
def tokens {α : Type} : SelectItem → Fragment α
  | .star qualifier => ColumnRef.tokens { qualifier, column := "*" }
  | .column c aliasName => c.tokens ++ aliasTokens aliasName
  | .aggregate f c aliasName => (Operand.aggregate f c).tokens ++ aliasTokens (some aliasName)

end SelectItem

/-- The tokens of a way to drop rows. -/
def Distinct.tokens {α : Type} : Distinct → Fragment α
  | .keep => []
  | .rows => [.word .distinct]
  | .on columns => [.word .distinct, .word .on] ++ grouped (commas (columns.map (·.tokens)))

/-- The tokens of a join. -/
def Join.tokens (d : Dialect) (j : Join) : Fragment Value :=
  [.word .left, .word .join, .name j.table, .word .as, .name j.aliasName, .word .on]
    ++ j.on.tokens d

/-- The tokens of a predicate that may be left out. -/
def optional (d : Dialect) : Option Predicate → Fragment Value
  | some p => p.tokens d
  | none => []

/-- The tokens of a selection. -/
def Select.tokens (d : Dialect) (s : Select) : Fragment Value :=
  .word .select :: s.distinct.tokens ++ commas (s.items.map (·.tokens))
    ++ [.word .from_, .name s.table]
    ++ s.joins.flatMap (·.tokens d)
    ++ clause [.where_] (optional d s.where_)
    ++ clause [.group, .by_] (commas (s.groupBy.map (·.tokens)))
    ++ clause [.having] (optional d s.having)
    ++ clause [.order, .by_]
        (commas (s.orderBy.map fun o => o.1.tokens ++ [.word (.ofOrder o.2)]))
    ++ d.limitOffset s.limit s.offset

/-- The tokens of an assignment. -/
def Assignment.tokens (d : Dialect) (a : Assignment) : Fragment Value :=
  compared .eq [.name a.column] <|
    match a.source with
    | .value v => [.slot v]
    | .null => [.word .null]
    | .proposed => d.proposed [.name a.column]

/-- Assignments with commas between them. -/
def assignmentList (d : Dialect) (assignments : List Assignment) : Fragment Value :=
  commas (assignments.map (·.tokens d))

/-- The request for the written rows, where the dialect knows one. -/
def returningTokens {α : Type} (d : Dialect) (returning : Bool) : Fragment α :=
  if returning && d.returnsRows then [.word .returning, .name "*"] else []

/-- The tokens of what to do on a conflict. -/
def Conflict.tokens (d : Dialect) (c : Conflict) : Fragment Value :=
  d.onConflict (nameList c.keys) (assignmentList d c.assignments)

/-- The start of an insertion: the table and the columns that get values. -/
def insertInto {α : Type} (table : String) (columns : List String) : Fragment α :=
  [.word .insert, .word .into, .name table] ++ grouped (nameList columns)

/-- A test that no row of a table meets a predicate. -/
def notExists (d : Dialect) (table : String) (p : Predicate) : Fragment Value :=
  [.word .not, .word .exists_]
    ++ grouped ([.word .select, .number 1, .word .from_, .name table, .word .where_]
        ++ p.tokens d)

namespace Statement

/-- The tokens of a statement. -/
def tokens (d : Dialect) : Statement → Fragment Value
  | .select s => s.tokens d
  | .insert table columns rows conflict returning =>
    insertInto table columns ++ .word .values :: commas (rows.map fun r => grouped (slotList r))
      ++ (match conflict with | some c => c.tokens d | none => [])
      ++ returningTokens d returning
  | .insertUnless table columns row present =>
    insertInto table columns ++ .word .select :: slotList row ++ d.dual
      ++ .word .where_ :: notExists d table present
  | .update table assignments where_ returning =>
    [.word .update, .name table, .word .set] ++ assignmentList d assignments
      ++ .word .where_ :: where_.tokens d ++ returningTokens d returning
  | .delete table where_ returning =>
    [.word .delete, .word .from_, .name table, .word .where_] ++ where_.tokens d
      ++ returningTokens d returning

/-- The text and the arguments of a statement. -/
def prepare (d : Dialect) (s : Statement) : Prepared :=
  { sql := d.render 0 (s.tokens d), args := slots (s.tokens d) }

end Statement

end SqlQuery.Sql
