import SqlQuery.Proofs.Compile.FilterText

/-!
# The steps of an operator

`Condition.write` makes the atom of a condition first and writes it then, so nothing in it tells
when a value is bound. `Condition.writeSteps` is the same pass step by step: it looks at the field,
at the aggregate and at the letter case, then at what its operator needs, and it binds a value where
the placeholder of the value goes into the text. An operator that needs more than one thing could
bind a value too early, and a list operator could be refused in the middle of its items.

> `Condition.writeSteps_eq`: step by step, a condition is written as by its atom.

> `Condition.writeSteps_eq_error_iff`: so a condition that is refused has bound nothing.
-/

namespace SqlQuery

open Sql

/-- What an outcome gives, or its refusal. -/
def Writer.lift {α : Type} (x : Except Error α) : Writer α :=
  MonadExcept.ofExcept x

/-- What is refused at once leaves the list of bound values as it was. -/
theorem Parameters.settle_of_eq_error_iff {α β : Type} {p p' : Parameters} {text : α → β}
    {values : α → List Value} {x : Except Error α} {e : Error} :
    p.settle text values (Refusal.of x) = (.error e, p') ↔ x = .error e ∧ p' = p := by
  cases x with
  | error e' => simp [Refusal.of, Except.mapError, settle, eq_comm]
  | ok a => simp [Refusal.of, Except.mapError, settle]

namespace Condition

/-! ## The steps -/

/-- The comparison of a side with the value of the condition. -/
def writeCompared (c : Condition) (column : String) (op : Comparison) : Writer String := do
  let placeholder ← Writer.slot c.value
  return foldingText c.folds column ++ " " ++ op.symbol.text ++ " "
    ++ foldingText c.folds placeholder

/-- A comparison that null turns into a test for null. -/
def writeMatching (c : Condition) (column : String) (op : Comparison) (nullExpected : Bool) :
    Writer String :=
  if c.value.isNull then return column ++ (if nullExpected then " IS NULL" else " IS NOT NULL")
  else c.writeCompared column op

/-- A comparison with a scalar. -/
def writeOrdered (c : Condition) (column : String) (op : Comparison) : Writer String :=
  match c.value with
  | .null | .array _ => Writer.lift (c.wrongValue .scalar)
  | _ => c.writeCompared column op

/-- A search for one of some items; the items are bound one after the other. -/
def writeMembership (c : Condition) (column : String) (expected : Bool) : Writer String :=
  match c.value.array? with
  | none => Writer.lift (c.wrongValue .list)
  | some [] => return if expected then "1 = 0" else "1 = 1"
  | some items => do
    let placeholders ← items.mapM Writer.slot
    return foldingText c.folds column ++ (if expected then " IN (" else " NOT IN (")
      ++ ", ".intercalate (placeholders.map (foldingText c.folds)) ++ ")"

/-- A comparison with a pattern around a text. -/
def writePatterned (c : Condition) (column before after : String) : Writer String :=
  match c.value.string? with
  | none => Writer.lift (c.wrongValue .string)
  | some s => do
    let placeholder ← Writer.slot (.string (before ++ s ++ after))
    return foldingText c.folds column ++ " LIKE " ++ foldingText c.folds placeholder

/-- A test of an array column for having no elements. -/
def writeEmptiness (c : Condition) (env : Env) (column : String) : Writer String :=
  match c.value.bool? with
  | none => Writer.lift (c.wrongValue .bool)
  | some empty => do
    let style ← Writer.lift (c.arrays env)
    return if empty then style.isEmptyText column else "NOT (" ++ style.isEmptyText column ++ ")"

/-- A test of an array column for one element. -/
def writeElement (c : Condition) (env : Env) (column : String) : Writer String :=
  match c.value.array? with
  | some _ => Writer.lift (c.wrongValue .element)
  | none => do
    let style ← Writer.lift (c.arrays env)
    let placeholder ← Writer.slot c.value
    return style.hasText column placeholder

/-- A test of an array column for some elements; they are bound one after the other. -/
def writeElements (c : Condition) (env : Env) (column : String) (vacuous : Bool)
    (text : ArrayStyle → String → String → String) : Writer String :=
  match c.value.array? with
  | none => Writer.lift (c.wrongValue .list)
  | some items => do
    let style ← Writer.lift (c.arrays env)
    if items.isEmpty then return if vacuous then "1 = 1" else "1 = 0"
    else do
      let placeholders ← items.mapM Writer.slot
      return text style column (", ".intercalate placeholders)

/-- A search for words. -/
def writeSearch (c : Condition) (env : Env) (column : String) : Writer String :=
  match c.value.string? with
  | none => Writer.lift (c.wrongValue .string)
  | some _ => do
    let placeholder ← Writer.slot c.value
    return env.dialect.searchText column placeholder

/-- The pass over a condition, step by step. -/
def writeSteps (c : Condition) (env : Env) (scope : FilterScope) : Writer String := do
  let lhs ← Writer.lift (c.operand env scope)
  let column := lhs.written env.dialect
  if c.folds && isCaseBound c.op then Writer.lift (c.unsupported .caseInsensitive)
  else
    match c.op with
    | .equals => c.writeMatching column .eq true
    | .not => c.writeMatching column .ne false
    | .lt => c.writeOrdered column .lt
    | .lte => c.writeOrdered column .le
    | .gt => c.writeOrdered column .gt
    | .gte => c.writeOrdered column .ge
    | .isIn => c.writeMembership column true
    | .notIn => c.writeMembership column false
    | .contains => c.writePatterned column "%" "%"
    | .startsWith => c.writePatterned column "" "%"
    | .endsWith => c.writePatterned column "%" ""
    | .isNull =>
      match c.value.bool? with
      | some expected => return column ++ (if expected then " IS NULL" else " IS NOT NULL")
      | none => Writer.lift (c.wrongValue .bool)
    | .isEmpty => c.writeEmptiness env column
    | .has => c.writeElement env column
    | .hasEvery => c.writeElements env column true ArrayStyle.hasEveryText
    | .hasSome => c.writeElements env column false ArrayStyle.hasSomeText
    | .search => c.writeSearch env column

/-! ## The steps and the atom -/

variable {c : Condition} {env : Env} {scope : FilterScope} {lhs : Operand}

/-- Writes the atom that an outcome gives. -/
def writeAtom (d : Dialect) (x : Except Error Atom) : Writer String :=
  Writer.lift x >>= Atom.write d

/-- The pass over a condition writes the atom that it is compiled to. -/
theorem write_eq_writeAtom (c : Condition) (env : Env) (scope : FilterScope) :
    c.write env scope = writeAtom env.dialect (c.atom env scope) :=
  rfl

/-- The steps of equality, with a value or with null. -/
theorem writeMatching_eq (d : Dialect) (op : Comparison) (nullExpected : Bool) :
    c.writeMatching (lhs.written d) op nullExpected
      = writeAtom d (.ok (c.matching lhs op nullExpected)) := by
  unfold writeMatching matching
  split <;> rfl

/-- The steps of a comparison of order. -/
theorem writeOrdered_eq (d : Dialect) (op : Comparison) :
    c.writeOrdered (lhs.written d) op = writeAtom d (c.ordered lhs op) := by
  unfold writeOrdered writeCompared ordered
  cases c.value <;> rfl

/-- The steps of a condition on a list, item by item. -/
theorem writeMembership_eq (d : Dialect) (expected : Bool) :
    c.writeMembership (lhs.written d) expected = writeAtom d (c.membership lhs expected) := by
  unfold writeMembership membership
  cases c.value.array? with
  | none => rfl
  | some items =>
    cases items with
    | nil => cases expected <;> rfl
    | cons v items => rfl

/-- The steps of a condition on text. -/
theorem writePatterned_eq (d : Dialect) (before after : String) :
    c.writePatterned (lhs.written d) before after
      = writeAtom d (c.patterned lhs before after) := by
  unfold writePatterned patterned
  cases c.value.string? <;> rfl

/-- The tests of array columns for some elements differ in their templates. -/
theorem writeElements_eq {vacuous : Bool} {text : ArrayStyle → String → String → String}
    {test : List Value → ArrayTest}
    (htest : ∀ style items, (Atom.array style lhs (test items)).write env.dialect = (do
      let placeholders ← items.mapM Writer.slot
      return text style (lhs.written env.dialect) (", ".intercalate placeholders))) :
    c.writeElements env (lhs.written env.dialect) vacuous text
      = writeAtom env.dialect (c.elements env lhs vacuous test) := by
  unfold writeElements elements
  cases c.value.array? with
  | none => rfl
  | some items =>
    cases c.arrays env with
    | error e => rfl
    | ok style =>
      cases items with
      | nil => cases vacuous <;> rfl
      | cons v items => exact (htest style (v :: items)).symm

/-- The steps of a test for an empty array, which bind nothing. -/
theorem writeEmptiness_eq :
    c.writeEmptiness env (lhs.written env.dialect)
      = writeAtom env.dialect (match c.value.bool? with
        | some b => return .array (← c.arrays env) lhs (.empty b)
        | none => c.wrongValue .bool) := by
  unfold writeEmptiness
  cases c.value.bool? with
  | none => rfl
  | some empty =>
    cases c.arrays env with
    | error e => rfl
    | ok style => cases empty <;> rfl

/-- The steps of a test for one element. -/
theorem writeElement_eq :
    c.writeElement env (lhs.written env.dialect)
      = writeAtom env.dialect (match c.value.array? with
        | some _ => c.wrongValue .element
        | none => return .array (← c.arrays env) lhs (.has c.value)) := by
  unfold writeElement
  cases c.value.array? with
  | some items => rfl
  | none => cases c.arrays env <;> rfl

theorem writeSearch_eq :
    c.writeSearch env (lhs.written env.dialect)
      = writeAtom env.dialect (match c.value.string? with
        | some s => return .search lhs s
        | none => c.wrongValue .string) := by
  unfold writeSearch
  cases c.value <;> rfl

/-- Step by step, a condition is written as by its atom. -/
theorem writeSteps_eq (c : Condition) (env : Env) (scope : FilterScope) :
    c.writeSteps env scope = c.write env scope := by
  rw [write_eq_writeAtom, writeSteps, atom]
  cases c.operand env scope with
  | error e => rfl
  | ok lhs =>
    show (if c.folds && isCaseBound c.op then _ else _)
      = writeAtom env.dialect (if c.folds && isCaseBound c.op then _ else _)
    by_cases hcase : (c.folds && isCaseBound c.op) = true
    · rw [if_pos hcase, if_pos hcase]
      rfl
    · rw [if_neg hcase, if_neg hcase]
      cases c.op with
      | equals | not => exact writeMatching_eq env.dialect _ _
      | lt | lte | gt | gte => exact writeOrdered_eq env.dialect _
      | isIn | notIn => exact writeMembership_eq env.dialect _
      | contains | startsWith | endsWith => exact writePatterned_eq env.dialect _ _
      | isNull => cases c.value.bool? <;> rfl
      | isEmpty => exact writeEmptiness_eq
      | has => exact writeElement_eq
      | hasEvery | hasSome => exact writeElements_eq fun _ _ => rfl
      | search => exact writeSearch_eq

/-- A condition is refused for what its atom is refused for, and before it has bound anything. -/
theorem writeSteps_eq_error_iff {p p' : Parameters} (hp : p.dialect = env.dialect) {e : Error} :
    c.writeSteps env scope p = (.error e, p') ↔ c.atom env scope = .error e ∧ p' = p := by
  rw [writeSteps_eq, write_eq hp]
  exact Parameters.settle_of_eq_error_iff

end Condition

end SqlQuery
