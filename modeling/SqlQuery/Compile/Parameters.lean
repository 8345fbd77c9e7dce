import SqlQuery.Compile.Join

/-!
# Placeholders across fragments

Where several fragments are to go into one text, their placeholders are counted on
from one to the next. `Parameters` is the list of values bound so far; every
operation gives the text of a fragment and the list after it. A fragment that is
refused leaves bound what had been bound before the refusal.
-/

namespace SqlQuery

open Sql

/-- The values bound so far. -/
structure Parameters where
  dialect : Dialect
  bound : List Value := []
deriving Repr, Inhabited

/-- The texts of the joins, items and mappings of a plan. -/
structure JoinTexts where
  joins : List String
  items : List String
  plan : JoinPlan

namespace Parameters

/-- The list with more values bound. -/
def bindAll (p : Parameters) (values : List Value) : Parameters :=
  { p with bound := p.bound ++ values }

/-- The text of a fragment, and the list after it. -/
def write (p : Parameters) (f : Fragment Value) : String × Parameters :=
  (p.dialect.render p.bound.length f, p.bindAll (slots f))

/-- The placeholder of one more value. -/
def bind (p : Parameters) (v : Value) : String × Parameters :=
  p.write [.slot v]

/-- The texts of fragments, one after the other, and the list after them. -/
def writeAll (p : Parameters) : List (Fragment Value) → List String × Parameters
  | [] => ([], p)
  | f :: rest =>
    let (text, p) := p.write f
    let (texts, p) := p.writeAll rest
    (text :: texts, p)

/-- The text of what a filter compiles to; an empty one has no text. -/
def writePredicate (p : Parameters) (outcome : Except Refusal (Option Predicate)) :
    Except Error String × Parameters :=
  match outcome with
  | .ok predicate =>
    let (text, p) := p.write (optional p.dialect predicate)
    (.ok text, p)
  | .error r => (.error r.cause, p.bindAll r.bound)

/-- The texts of what inclusions compile to. -/
def writeJoins (p : Parameters) (outcome : Except Refusal JoinPlan) :
    Except Error JoinTexts × Parameters :=
  match outcome with
  | .ok plan =>
    let (joins, p) := p.writeAll (plan.joins.map (·.tokens p.dialect))
    let (items, p) := p.writeAll (plan.items.map (·.tokens))
    (.ok { joins, items, plan }, p)
  | .error r => (.error r.cause, p.bindAll r.bound)

end Parameters

end SqlQuery
