import SqlQuery.Sql.Token

/-!
# Dialects

What differs between PostgreSQL, MySQL and SQLite: the quote character, the form
of placeholders, and the clauses that each of them writes in its own way. The
clauses are fragments over anything that can stand in a slot.

Arrays are either native or JSON documents; SQLite has none.
-/

namespace SqlQuery

/-- A dialect of SQL. -/
inductive Dialect where
  | postgres
  | mysql
  | sqlite
deriving DecidableEq, Repr, Inhabited

namespace Dialect

/-- The name of a dialect. -/
def name : Dialect → String
  | .postgres => "postgres"
  | .mysql => "mysql"
  | .sqlite => "sqlite"

/-- The dialect that a document names, in lower case. -/
def ofName? : String → Option Dialect
  | "postgres" => some .postgres
  | "mysql" | "mariadb" => some .mysql
  | "sqlite" => some .sqlite
  | _ => none

/-- The dialect that a user names, in any letter case and with common short names;
an unknown one is answered with what was expected. -/
def parse (s : String) : Except String Dialect :=
  match String.ofList (s.toList.map Char.toLower) with
  | "postgres" | "postgresql" | "pg" => .ok .postgres
  | "mysql" | "mariadb" => .ok .mysql
  | "sqlite" | "sqlite3" => .ok .sqlite
  | other => .error ("unknown dialect '" ++ other ++ "' (expected postgres, mysql or sqlite)")

/-- The character that quotes names. -/
def quote : Dialect → Char
  | .mysql => '\x60'
  | _ => '"'

/-- The placeholder of a number, the first one being 1. -/
def placeholder (d : Dialect) (index : Nat) : String :=
  match d with
  | .postgres => "$" ++ toString index
  | _ => "?"

/-- Whether a write can return the rows it wrote. -/
def returnsRows (d : Dialect) : Bool :=
  d == .postgres

/-- Whether rows can be made distinct by some of their columns. -/
def distinctOn (d : Dialect) : Bool :=
  d == .postgres

/-- A name as this dialect writes it. -/
def quoteName (d : Dialect) (n : String) : String :=
  Sql.escape d.quote n

/-- The text of a fragment whose slots say what to write. -/
def write (d : Dialect) (f : Sql.Fragment String) : String :=
  String.ofList (Sql.layout d.quote id f)

/-- The text of a fragment with placeholders in its slots, after `bound` values. -/
def render {α : Type} (d : Dialect) (bound : Nat) (f : Sql.Fragment α) : String :=
  String.ofList (Sql.layout d.quote d.placeholder (Sql.number bound f))

end Dialect

/-- How a dialect stores arrays. -/
inductive ArrayStyle where
  | native
  | json
deriving DecidableEq, Repr, Inhabited

/-- The arrays of a dialect, if it has any. -/
def Dialect.arrays? : Dialect → Option ArrayStyle
  | .postgres => some .native
  | .mysql => some .json
  | .sqlite => none

namespace ArrayStyle

open Sql

variable {α : Type}

/-- The test that an array column has no element. -/
def isEmpty (s : ArrayStyle) (column : Fragment α) : Fragment α :=
  match s with
  | .native =>
    compared .eq (call .coalesce [call .arrayLength [column, [.number 1]], [.number 0]]) [.number 0]
  | .json => compared .eq (call .jsonLength [column]) [.number 0]

/-- The test that an array column has an element. -/
def has (s : ArrayStyle) (column element : Fragment α) : Fragment α :=
  match s with
  | .native => compared .eq element (call .any [column])
  | .json => call .jsonContains [column, call .jsonArray [element]]

/-- A native array of elements. -/
def nativeArray (elements : Fragment α) : Fragment α :=
  .word .array :: .symbol .items :: elements ++ [.symbol .closeItems]

/-- The test that an array column has every one of some elements. -/
def hasEvery (s : ArrayStyle) (column elements : Fragment α) : Fragment α :=
  match s with
  | .native => compared .includes column (nativeArray elements)
  | .json => call .jsonContains [column, call .jsonArray [elements]]

/-- The test that an array column has one of some elements. -/
def hasSome (s : ArrayStyle) (column elements : Fragment α) : Fragment α :=
  match s with
  | .native => compared .overlaps column (nativeArray elements)
  | .json => call .jsonOverlaps [column, call .jsonArray [elements]]

end ArrayStyle

namespace Dialect

open Sql

variable {α : Type}

/-- The test that a text column matches the words of a search. -/
def search (d : Dialect) (column query : Fragment α) : Fragment α :=
  match d with
  | .postgres => compared .matches (call .toTsvector [column]) (call .plaintoTsquery [query])
  | .mysql =>
    call .match_ [column]
      ++ call .against
        [query ++ [.word .in_, .word .natural, .word .language, .word .mode]]
  | .sqlite => column ++ .word .match_ :: query

/-- The limit that stands for none, where an offset cannot stand alone. -/
def noLimit? : Dialect → Option (Fragment α)
  | .postgres => none
  | .mysql => some [.number 18446744073709551615]
  | .sqlite => some [.symbol .minus, .number 1]

/-- The clause for a page of rows. -/
def limitOffset (d : Dialect) (limit offset : Option Nat) : Fragment α :=
  let skipped : Fragment α := match offset with
    | some n => [.word .offset, .number n]
    | none => []
  match limit, offset, d.noLimit? with
  | some n, _, _ => .word .limit :: .number n :: skipped
  | none, some _, some unlimited => .word .limit :: unlimited ++ skipped
  | none, _, _ => skipped

/-- What a selection without a table selects from. -/
def dual (d : Dialect) : Fragment α :=
  match d with
  | .mysql => [.word .from_, .word .dual]
  | _ => []

/-- The clause that turns an insertion into an update where it meets a row with
the same keys. -/
def onConflict (d : Dialect) (keys assignments : Fragment α) : Fragment α :=
  match d with
  | .mysql => [.word .on, .word .duplicate, .word .key, .word .update] ++ assignments
  | _ =>
    [.word .on, .word .conflict] ++ grouped keys
      ++ [.word .do_, .word .update, .word .set] ++ assignments

/-- The value that an insertion would have given to a column. -/
def proposed (d : Dialect) (column : Fragment α) : Fragment α :=
  match d with
  | .mysql => call .values [column]
  | _ => .word .excluded :: .symbol .dot :: column

end Dialect

end SqlQuery
