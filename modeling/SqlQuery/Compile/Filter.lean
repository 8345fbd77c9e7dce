import SqlQuery.Schema.Basic
import SqlQuery.Sql.Predicate

/-!
# From filters to predicates

`Filter.compile` turns a filter into a predicate, or into nothing when no condition
stands in it. A node becomes the conjunction or disjunction of its atoms and its
non-empty groups, every group in parentheses; a NOT node becomes the denial of
their conjunction, a lone group losing its own parentheses.

Conditions are taken in order, a node's own before those of its groups. Where one
is refused, the `Refusal` says which values the conditions before it had bound.
-/

namespace SqlQuery

open Sql

/-- The surroundings in which queries are compiled. -/
structure Env where
  schema : Schema
  dialect : Dialect
  maxDepth : Nat := defaultMaxDepth
deriving Repr, Inhabited

/-- An error, with the values that had been bound before it. -/
structure Refusal where
  bound : List Value
  cause : Error
deriving DecidableEq, Repr

/-- An error before which nothing had been bound. -/
def Refusal.of {α : Type} (x : Except Error α) : Except Refusal α :=
  x.mapError fun e => ⟨[], e⟩

/-- What happens after some values have been bound. -/
def Refusal.after {α : Type} (values : List Value) (x : Except Refusal α) : Except Refusal α :=
  x.mapError fun r => ⟨values ++ r.bound, r.cause⟩

/-- The outcome without the values bound before an error. -/
def Refusal.forget {α : Type} (x : Except Refusal α) : Except Error α :=
  x.mapError (·.cause)

/-- The clause that a filter is compiled for; aggregates belong to HAVING. -/
inductive Clause where
  | where_
  | having
  | joinOn
deriving DecidableEq, Repr, Inhabited

/-- What the fields of a filter refer to: the fields of a model, or the columns of
a table that no model describes, with the qualifier to write before them. -/
structure FilterScope where
  model : Option String
  qualifier : Option String := none
  clause : Clause := .where_
deriving DecidableEq, Repr, Inhabited

/-- The comparison that an operator is where both sides are scalars. -/
def Operator.comparison? : Operator → Option Comparison
  | .equals => some .eq
  | .not => some .ne
  | .lt => some .lt
  | .lte => some .le
  | .gt => some .gt
  | .gte => some .ge
  | _ => none

namespace Condition

/-- The column of the condition's field; `*` is never qualified. -/
def columnRef (c : Condition) (env : Env) (scope : FilterScope) : Except Error ColumnRef := do
  let column ← env.schema.columnOf scope.model c.field
  return { qualifier := if column = "*" then none else scope.qualifier, column }

/-- The refusal of the condition's operator. -/
def unsupported {α : Type} (c : Condition) (reason : Unsupported) : Except Error α :=
  .error (.unsupportedOperator c.field c.op reason)

/-- The refusal of the condition's value. -/
def wrongValue {α : Type} (c : Condition) (expected : Expected) : Except Error α :=
  c.unsupported (.wrongValue expected c.value.kind)

/-- What the condition looks at. -/
def operand (c : Condition) (env : Env) (scope : FilterScope) : Except Error Operand := do
  let column ← c.columnRef env scope
  match c.aggregate with
  | none => return .column column
  | some f =>
    if scope.clause = .having then return .aggregate f column
    else c.unsupported (.aggregateOutsideHaving f)

/-- The operators for which letter case cannot be ignored. -/
def isCaseBound (op : Operator) : Bool :=
  match op with
  | .isEmpty | .has | .hasEvery | .hasSome | .search => true
  | _ => false

/-- The arrays of the dialect, which the condition needs. -/
def arrays (c : Condition) (env : Env) : Except Error ArrayStyle :=
  match env.dialect.arrays? with
  | some style => .ok style
  | none => c.unsupported (.noArrays env.dialect)

/-- Whether the condition ignores letter case. -/
def folds (c : Condition) : Bool :=
  c.mode == .insensitive

/-- The atom of a comparison with a scalar. -/
def ordered (c : Condition) (lhs : Operand) (op : Comparison) : Except Error Atom :=
  match c.value with
  | .null | .array _ => c.wrongValue .scalar
  | v => .ok (.compare lhs c.folds op v)

/-- The atom of a comparison that null turns into a test for null. -/
def matching (c : Condition) (lhs : Operand) (op : Comparison) (nullExpected : Bool) : Atom :=
  if c.value.isNull then .null lhs nullExpected else .compare lhs c.folds op c.value

/-- The atom of a search for one of some items. -/
def membership (c : Condition) (lhs : Operand) (expected : Bool) : Except Error Atom :=
  match c.value.array? with
  | none => c.wrongValue .list
  | some [] => .ok (.constant (!expected))
  | some items => .ok (.oneOf lhs c.folds expected items)

/-- The atom of a comparison with a pattern around a text. -/
def patterned (c : Condition) (lhs : Operand) (before after : String) : Except Error Atom :=
  match c.value.string? with
  | none => c.wrongValue .string
  | some s => .ok (.like lhs c.folds (before ++ s ++ after))

/-- The atom of a test of an array column with some elements; `vacuous` is what it
says of no elements. -/
def elements (c : Condition) (env : Env) (lhs : Operand) (vacuous : Bool)
    (test : List Value → ArrayTest) : Except Error Atom :=
  match c.value.array? with
  | none => c.wrongValue .list
  | some items => do
    let style ← c.arrays env
    return if items.isEmpty then .constant vacuous else .array style lhs (test items)

/-- The atom of a condition. -/
def atom (c : Condition) (env : Env) (scope : FilterScope) : Except Error Atom := do
  let lhs ← c.operand env scope
  if c.folds && isCaseBound c.op then c.unsupported .caseInsensitive
  else
    match c.op with
    | .equals => return c.matching lhs .eq true
    | .not => return c.matching lhs .ne false
    | .lt => c.ordered lhs .lt
    | .lte => c.ordered lhs .le
    | .gt => c.ordered lhs .gt
    | .gte => c.ordered lhs .ge
    | .isIn => c.membership lhs true
    | .notIn => c.membership lhs false
    | .contains => c.patterned lhs "%" "%"
    | .startsWith => c.patterned lhs "" "%"
    | .endsWith => c.patterned lhs "%" ""
    | .isNull =>
      match c.value.bool? with
      | some b => return .null lhs b
      | none => c.wrongValue .bool
    | .isEmpty =>
      match c.value.bool? with
      | some b => return .array (← c.arrays env) lhs (.empty b)
      | none => c.wrongValue .bool
    | .has =>
      match c.value.array? with
      | some _ => c.wrongValue .element
      | none => return .array (← c.arrays env) lhs (.has c.value)
    | .hasEvery => c.elements env lhs true .hasEvery
    | .hasSome => c.elements env lhs false .hasSome
    | .search =>
      match c.value.string? with
      | some s => return .search lhs s
      | none => c.wrongValue .string

/-- The atoms of conditions, in order. -/
def atoms (env : Env) (scope : FilterScope) : List Condition → Except Refusal (List Atom)
  | [] => .ok []
  | c :: rest => do
    let a ← Refusal.of (c.atom env scope)
    let more ← Refusal.after a.values (atoms env scope rest)
    return a :: more

end Condition

namespace Filter

/-- The predicate of a node with some atoms and some groups, if it has either. -/
def assemble (op : LogicalOp) (atoms : List Atom) (groups : List Predicate) : Option Predicate :=
  let parts := atoms.map .atom ++ groups.map .group
  match op, atoms, groups with
  | _, [], [] => none
  | .and, _, _ => some (.all parts)
  | .or, _, _ => some (.any parts)
  | .not, [], [p] => some (.not p)
  | .not, _, _ => some (.not (.all parts))

mutual

/-- The predicate of a node that is `depth` levels down, if a condition stands in
it. -/
def compileNode (env : Env) (scope : FilterScope) (depth : Nat) :
    Filter → Except Refusal (Option Predicate)
  | ⟨op, conditions, nested⟩ =>
    if env.maxDepth < depth then .error ⟨[], .depthExceeded .filter env.maxDepth⟩
    else do
      let atoms ← Condition.atoms env scope conditions
      let groups ← Refusal.after (atoms.flatMap (·.values))
        (compileNodes env scope (depth + 1) nested)
      return assemble op atoms groups

/-- The predicates of those nodes in which a condition stands. -/
def compileNodes (env : Env) (scope : FilterScope) (depth : Nat) :
    List Filter → Except Refusal (List Predicate)
  | [] => .ok []
  | f :: rest => do
    let p ← compileNode env scope depth f
    let more ← Refusal.after (Predicate.valuesOf p.toList) (compileNodes env scope depth rest)
    return p.toList ++ more

end

/-- The predicate of a filter, if a condition stands in it. -/
def compile (f : Filter) (env : Env) (scope : FilterScope) :
    Except Refusal (Option Predicate) :=
  compileNode env scope 1 f

/-- The predicate of a filter as an operand of AND, if a condition stands in it. -/
def compileOperand (f : Filter) (env : Env) (scope : FilterScope) :
    Except Refusal (Option Predicate) := do
  return (← f.compile env scope).map (·.operand)

end Filter

end SqlQuery
