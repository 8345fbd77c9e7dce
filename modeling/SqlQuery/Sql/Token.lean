import SqlQuery.Query.Operator
import SqlQuery.Sql.Identifier

/-!
# Tokens and their layout

SQL text is made of tokens: fixed words and symbols, names, numbers, and slots for
bound values. `layout` writes a list of tokens with one blank between any two,
except around brackets, commas and dots, so no two words ever touch.

A slot holds whatever is bound there. `slots` is what is bound, in order, and
`number` puts in place of it the number of its placeholder, counted on from the
values bound before.
-/

namespace SqlQuery.Sql

/-- The bare words of the language that statements are written with. -/
inductive Keyword where
  | select | distinct | on | from_ | dual | left | join | as | where_ | and | or | not
  | exists_ | group | by_ | having | order | asc | desc | limit | offset
  | insert | into | values | update | set | delete | returning
  | conflict | do_ | duplicate | key | excluded
  | null | is | in_ | like | match_ | against | natural | language | mode
  | any | array | coalesce | arrayLength | jsonLength | jsonContains | jsonArray | jsonOverlaps
  | toTsvector | plaintoTsquery | lower | count | sum | avg | min | max
deriving DecidableEq, Repr

/-- The spelling of a word. -/
def Keyword.text : Keyword → String
  | .select => "SELECT"
  | .distinct => "DISTINCT"
  | .on => "ON"
  | .from_ => "FROM"
  | .dual => "DUAL"
  | .left => "LEFT"
  | .join => "JOIN"
  | .as => "AS"
  | .where_ => "WHERE"
  | .and => "AND"
  | .or => "OR"
  | .not => "NOT"
  | .exists_ => "EXISTS"
  | .group => "GROUP"
  | .by_ => "BY"
  | .having => "HAVING"
  | .order => "ORDER"
  | .asc => "ASC"
  | .desc => "DESC"
  | .limit => "LIMIT"
  | .offset => "OFFSET"
  | .insert => "INSERT"
  | .into => "INTO"
  | .values => "VALUES"
  | .update => "UPDATE"
  | .set => "SET"
  | .delete => "DELETE"
  | .returning => "RETURNING"
  | .conflict => "CONFLICT"
  | .do_ => "DO"
  | .duplicate => "DUPLICATE"
  | .key => "KEY"
  | .excluded => "EXCLUDED"
  | .null => "NULL"
  | .is => "IS"
  | .in_ => "IN"
  | .like => "LIKE"
  | .match_ => "MATCH"
  | .against => "AGAINST"
  | .natural => "NATURAL"
  | .language => "LANGUAGE"
  | .mode => "MODE"
  | .any => "ANY"
  | .array => "ARRAY"
  | .coalesce => "COALESCE"
  | .arrayLength => "array_length"
  | .jsonLength => "JSON_LENGTH"
  | .jsonContains => "JSON_CONTAINS"
  | .jsonArray => "JSON_ARRAY"
  | .jsonOverlaps => "JSON_OVERLAPS"
  | .toTsvector => "to_tsvector"
  | .plaintoTsquery => "plainto_tsquery"
  | .lower => "LOWER"
  | .count => "COUNT"
  | .sum => "SUM"
  | .avg => "AVG"
  | .min => "MIN"
  | .max => "MAX"

/-- The word of an aggregate function. -/
def Keyword.ofAggregate : AggregateFunction → Keyword
  | .count => .count
  | .sum => .sum
  | .avg => .avg
  | .min => .min
  | .max => .max

/-- The symbols that statements are written with. A parenthesis that opens the
arguments of a function stands at its word, one that groups does not. -/
inductive Symbol where
  | arguments | group | close
  | items | closeItems
  | comma | dot | minus
  | eq | ne | lt | le | gt | ge
  | includes | overlaps | matches
deriving DecidableEq, Repr

/-- The spelling of a symbol. -/
def Symbol.text : Symbol → String
  | .arguments => "("
  | .group => "("
  | .close => ")"
  | .items => "["
  | .closeItems => "]"
  | .comma => ","
  | .dot => "."
  | .minus => "-"
  | .eq => "="
  | .ne => "!="
  | .lt => "<"
  | .le => "<="
  | .gt => ">"
  | .ge => ">="
  | .includes => "@>"
  | .overlaps => "&&"
  | .matches => "@@"

/-- Whether what follows stands at the symbol. -/
def Symbol.holdsNext : Symbol → Bool
  | .arguments | .group | .items | .dot | .minus => true
  | _ => false

/-- Whether the symbol stands at what goes before it. -/
def Symbol.holdsPrevious : Symbol → Bool
  | .arguments | .close | .items | .closeItems | .comma | .dot => true
  | _ => false

/-- A token of SQL text, with something of type `α` in its slots. -/
inductive Token (α : Type) where
  | word (k : Keyword)
  | symbol (s : Symbol)
  | name (n : String)
  | number (n : Nat)
  | slot (a : α)
deriving DecidableEq, Repr

/-- A list of tokens. -/
abbrev Fragment (α : Type) := List (Token α)

/-- Whether no blank stands between two tokens. -/
def Token.touches {α : Type} : Token α → Token α → Bool
  | .symbol s, .symbol t => s.holdsNext || t.holdsPrevious
  | .symbol s, _ => s.holdsNext
  | _, .symbol t => t.holdsPrevious
  | _, _ => false

/-- The characters of one token. -/
def Token.chars {α : Type} (quote : Char) (write : α → String) : Token α → List Char
  | .word k => k.text.toList
  | .symbol s => s.text.toList
  | .name n => escapeChars quote n.toList
  | .number n => Nat.toDigits 10 n
  | .slot a => (write a).toList

/-- The characters of a list of tokens. -/
def layout {α : Type} (quote : Char) (write : α → String) : Fragment α → List Char
  | [] => []
  | [t] => t.chars quote write
  | t :: u :: rest =>
    t.chars quote write ++ (if t.touches u then [] else [' ']) ++ layout quote write (u :: rest)

/-- What the slots hold, in order. -/
def slots {α : Type} : Fragment α → List α
  | [] => []
  | .slot a :: rest => a :: slots rest
  | _ :: rest => slots rest

/-- The tokens with the numbers of the placeholders in the slots, the first one
following `bound`. -/
def number {α : Type} (bound : Nat) : Fragment α → Fragment Nat
  | [] => []
  | .slot _ :: rest => .slot (bound + 1) :: number (bound + 1) rest
  | .word k :: rest => .word k :: number bound rest
  | .symbol s :: rest => .symbol s :: number bound rest
  | .name n :: rest => .name n :: number bound rest
  | .number n :: rest => .number n :: number bound rest

theorem slots_append {α : Type} (a b : Fragment α) : slots (a ++ b) = slots a ++ slots b := by
  induction a with
  | nil => rfl
  | cons t a ih => cases t <;> simp [slots, ih]

/-- To number a fragment is to number its slots behind the bound values. -/
theorem slots_number {α : Type} (bound : Nat) (ts : Fragment α) :
    slots (number bound ts) = (List.range' (bound + 1) (slots ts).length) := by
  induction ts generalizing bound with
  | nil => rfl
  | cons t ts ih => cases t <;> simp [slots, number, ih, List.range'_succ]

/-- The second of two fragments is numbered behind the first. -/
theorem number_append {α : Type} (bound : Nat) (a b : Fragment α) :
    number bound (a ++ b) = number bound a ++ number (bound + (slots a).length) b := by
  induction a generalizing bound with
  | nil => rfl
  | cons t a ih => cases t <;> simp [slots, number, ih, Nat.add_assoc, Nat.add_comm 1]

/-! ## Building fragments -/

/-- The fragments with commas between them. -/
def commas {α : Type} (parts : List (Fragment α)) : Fragment α :=
  [.symbol .comma].intercalate parts

/-- The fragments with a word between them. -/
def joined {α : Type} (k : Keyword) (parts : List (Fragment α)) : Fragment α :=
  [.word k].intercalate parts

/-- A function applied to arguments. -/
def call {α : Type} (k : Keyword) (arguments : List (Fragment α)) : Fragment α :=
  .word k :: .symbol .arguments :: commas arguments ++ [.symbol .close]

/-- A fragment in parentheses. -/
def grouped {α : Type} (f : Fragment α) : Fragment α :=
  .symbol .group :: f ++ [.symbol .close]

/-- Two fragments with a symbol between them. -/
def compared {α : Type} (s : Symbol) (a b : Fragment α) : Fragment α :=
  a ++ .symbol s :: b

end SqlQuery.Sql
