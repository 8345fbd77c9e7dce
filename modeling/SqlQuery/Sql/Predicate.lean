import SqlQuery.Sql.Dialect
import SqlQuery.Value.Basic

/-!
# Predicates

A predicate is a tree over atoms, each the SQL form of one comparison. It is
written just as it stands: parentheses are nodes of their own, and nothing is
added for the sake of precedence. `Predicate.operand` puts a disjunction into
parentheses, so that it can stand beside other operands of an AND.

Atoms hold the values they bind, so the text of a predicate and its arguments
come from one list of tokens.
-/

namespace SqlQuery.Sql

/-- A reference to a column, of the table or alias that qualifies it. -/
structure ColumnRef where
  qualifier : Option String := none
  column : String
deriving DecidableEq, Repr, Inhabited

/-- The tokens of a column reference. -/
def ColumnRef.tokens {α : Type} (c : ColumnRef) : Fragment α :=
  match c.qualifier with
  | some q => [.name q, .symbol .dot, .name c.column]
  | none => [.name c.column]

/-- What a comparison looks at: a column or an aggregate of one. -/
inductive Operand where
  | column (c : ColumnRef)
  | aggregate (f : AggregateFunction) (c : ColumnRef)
deriving DecidableEq, Repr, Inhabited

/-- The column that an operand reads. -/
def Operand.ref : Operand → ColumnRef
  | .column c => c
  | .aggregate _ c => c

/-- The tokens of an operand. -/
def Operand.tokens {α : Type} : Operand → Fragment α
  | .column c => c.tokens
  | .aggregate f c => call (.ofAggregate f) [c.tokens]

/-- The comparisons of two scalars. -/
inductive Comparison where
  | eq | ne | lt | le | gt | ge
deriving DecidableEq, Repr, Inhabited

/-- The symbol of a comparison. -/
def Comparison.symbol : Comparison → Symbol
  | .eq => .eq
  | .ne => .ne
  | .lt => .lt
  | .le => .le
  | .gt => .gt
  | .ge => .ge

/-- The tests of an array column. -/
inductive ArrayTest where
  | empty (expected : Bool)
  | has (element : Value)
  | hasEvery (elements : List Value)
  | hasSome (elements : List Value)
deriving DecidableEq, Repr, Inhabited

/-- One comparison in SQL. Where `folded`, both sides are put in lower case. -/
inductive Atom where
  | compare (lhs : Operand) (folded : Bool) (op : Comparison) (value : Value)
  | sameColumn (a b : ColumnRef)
  | null (lhs : Operand) (expected : Bool)
  | oneOf (lhs : Operand) (folded : Bool) (expected : Bool) (items : List Value)
  | like (lhs : Operand) (folded : Bool) (pattern : String)
  | array (style : ArrayStyle) (lhs : Operand) (test : ArrayTest)
  | search (lhs : Operand) (query : String)
  | constant (truth : Bool)
deriving DecidableEq, Repr, Inhabited

/-- A fragment in lower case, where that is wanted. -/
def folding {α : Type} (folded : Bool) (f : Fragment α) : Fragment α :=
  if folded then call .lower [f] else f

/-- A slot for each of some values, with commas between them. -/
def slotList (items : List Value) : Fragment Value :=
  commas (items.map fun v => [.slot v])

/-- The tokens of a test of an array column. -/
def ArrayTest.tokens (style : ArrayStyle) (column : Fragment Value) : ArrayTest → Fragment Value
  | .empty true => style.isEmpty column
  | .empty false => .word .not :: grouped (style.isEmpty column)
  | .has element => style.has column [.slot element]
  | .hasEvery elements => style.hasEvery column (slotList elements)
  | .hasSome elements => style.hasSome column (slotList elements)

/-- The tokens of an atom. -/
def Atom.tokens (d : Dialect) : Atom → Fragment Value
  | .compare lhs folded op value =>
    compared op.symbol (folding folded lhs.tokens) (folding folded [.slot value])
  | .sameColumn a b => compared .eq a.tokens b.tokens
  | .null lhs true => lhs.tokens ++ [.word .is, .word .null]
  | .null lhs false => lhs.tokens ++ [.word .is, .word .not, .word .null]
  | .oneOf lhs folded expected items =>
    folding folded lhs.tokens ++ (if expected then [.word .in_] else [.word .not, .word .in_])
      ++ grouped (commas (items.map fun v => folding folded [.slot v]))
  | .like lhs folded pattern =>
    folding folded lhs.tokens ++ .word .like :: folding folded [.slot (.string pattern)]
  | .array style lhs test => test.tokens style lhs.tokens
  | .search lhs query => d.search lhs.tokens [.slot (.string query)]
  | .constant truth => compared .eq [.number 1] [.number (if truth then 1 else 0)]

/-- The values that an atom binds, in order. -/
def Atom.values : Atom → List Value
  | .compare _ _ _ value => [value]
  | .sameColumn _ _ => []
  | .null _ _ => []
  | .oneOf _ _ _ items => items
  | .like _ _ pattern => [.string pattern]
  | .array _ _ test => match test with
    | .empty _ => []
    | .has element => [element]
    | .hasEvery elements => elements
    | .hasSome elements => elements
  | .search _ query => [.string query]
  | .constant _ => []

/-- A tree of atoms, written as it stands. -/
inductive Predicate where
  | atom (a : Atom)
  | group (p : Predicate)
  | not (p : Predicate)
  | all (parts : List Predicate)
  | any (parts : List Predicate)
deriving Repr, Inhabited

namespace Predicate

mutual

/-- The tokens of a predicate; a denial is always in parentheses. -/
def tokens (d : Dialect) : Predicate → Fragment Value
  | .atom a => a.tokens d
  | .group p => grouped (tokens d p)
  | .not p => .word .not :: grouped (tokens d p)
  | .all parts => joined .and (tokensOf d parts)
  | .any parts => joined .or (tokensOf d parts)

/-- The tokens of each part. -/
def tokensOf (d : Dialect) : List Predicate → List (Fragment Value)
  | [] => []
  | p :: rest => tokens d p :: tokensOf d rest

end

mutual

/-- The values that a predicate binds, in order. -/
def values : Predicate → List Value
  | .atom a => a.values
  | .group p => values p
  | .not p => values p
  | .all parts => valuesOf parts
  | .any parts => valuesOf parts

/-- The values that some predicates bind, in order. -/
def valuesOf : List Predicate → List Value
  | [] => []
  | p :: rest => values p ++ valuesOf rest

end

/-- The predicate as an operand of AND: a disjunction of several parts stands in
parentheses. -/
def operand : Predicate → Predicate
  | .any (p :: q :: rest) => .group (.any (p :: q :: rest))
  | p => p

end Predicate

end SqlQuery.Sql
