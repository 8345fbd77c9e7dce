import SqlQuery.Query.Operator
import SqlQuery.Value.Basic

/-!
# Filters

A filter is a tree: a node holds conditions and further nodes, joined by one
logical operator; a NOT node denies the conjunction of everything it holds. A
node without any condition below it is empty and says nothing.

`andCondition` adds a condition beside a filter: to the node itself where it is a
conjunction, above it otherwise, and in place of an empty one.
-/

namespace SqlQuery

/-- One comparison of a field, or of an aggregate of it, with a value. -/
structure Condition where
  field : String
  op : Operator
  value : Value := .null
  mode : CaseMode := .default
  aggregate : Option AggregateFunction := none
deriving DecidableEq, Repr, Inhabited

namespace Condition

/-- The condition that a field equals a value. -/
def equals (field : String) (value : Value) : Condition :=
  { field, op := .equals, value }

/-- The condition that a field is one of the items of an array. -/
def isIn (field : String) (items : Value) : Condition :=
  { field, op := .isIn, value := items }

/-- The condition that a field is null. -/
def isNull (field : String) : Condition :=
  { field, op := .isNull, value := .bool true }

/-- The condition with letter case ignored. -/
def insensitive (c : Condition) : Condition :=
  { c with mode := .insensitive }

/-- The condition on an aggregate of the field. -/
def onAggregate (c : Condition) (f : AggregateFunction) : Condition :=
  { c with aggregate := some f }

end Condition

/-- A node of a filter tree. -/
structure Filter where
  op : LogicalOp := .and
  conditions : List Condition := []
  nested : List Filter := []
deriving Repr, Inhabited

namespace Filter

/-- The conjunction of conditions. -/
def and (conditions : List Condition) : Filter :=
  { op := .and, conditions }

/-- The disjunction of conditions. -/
def or (conditions : List Condition) : Filter :=
  { op := .or, conditions }

/-- The denial of the conjunction of filters. -/
def not (nested : List Filter) : Filter :=
  { op := .not, nested }

/-- The filter with a condition added to its root node. -/
def addCondition (f : Filter) (c : Condition) : Filter :=
  { f with conditions := f.conditions ++ [c] }

/-- The filter with a node added below its root node. -/
def addGroup (f : Filter) (g : Filter) : Filter :=
  { f with nested := f.nested ++ [g] }

mutual

/-- Whether no condition stands anywhere in the tree. -/
def isEmpty : Filter → Bool
  | ⟨_, conditions, nested⟩ => conditions.isEmpty && allEmpty nested

/-- Whether every tree of a list is empty. -/
def allEmpty : List Filter → Bool
  | [] => true
  | f :: rest => isEmpty f && allEmpty rest

end

mutual

/-- The levels of nodes; a node alone is one level. -/
def height : Filter → Nat
  | ⟨_, _, nested⟩ => heights nested + 1

/-- The height of the tallest tree of a list. -/
def heights : List Filter → Nat
  | [] => 0
  | f :: rest => max (height f) (heights rest)

end

/-- The filter that asks for both the filter and one more condition. -/
def andCondition (f : Filter) (c : Condition) : Filter :=
  if f.isEmpty then .and [c]
  else if f.op = .and then f.addCondition c
  else { op := .and, conditions := [c], nested := [f] }

end Filter

end SqlQuery
