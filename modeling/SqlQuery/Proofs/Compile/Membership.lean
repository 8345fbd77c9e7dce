import SqlQuery.Proofs.Compile.BoundValues
import SqlQuery.Proofs.Compile.FilterTruth
import SqlQuery.Proofs.Compile.WellFormed

/-!
# Being one of some items

To be one of some items is to be equal to the first, or to the second, and so on. A condition that
asks for equality with null tests whether there is a value; one that asks for one of some items
compares with each of them, and of a comparison with null nothing is known. So the two part where
an item is null, unless another one is equal to what the column holds, which settles both of them.

> `Condition.truth_isIn`, `Condition.truth_equals`: what the two kinds of conditions say.

> `Condition.any_equals_ne_none`: with a null among the items, the conditions on them leave nothing
> open, while the comparisons do.

> `Condition.membership_agrees_iff`: where being one of some items is being equal to one of them,
> and the same of being none of them.
-/

namespace SqlQuery

open Sql

/-- Letters in lower case are not nothing. -/
def Sql.Engine.LowersValues (E : Engine) : Prop :=
  ∀ v : Value, v.isNull = false → (E.lower v).isNull = false

/-- The engine that compares exactly makes no value null by folding it. -/
theorem Sql.Engine.exact_lowersValues : Engine.exact.LowersValues := by
  intro v hv
  cases v <;> first | rfl | cases hv

namespace Condition

/-- The condition with another operator and another value. -/
def asking (c : Condition) (op : Operator) (value : Value) : Condition :=
  { c with op, value }

/-- What the comparison of an operand with an item says. -/
def compared (c : Condition) (E : Engine) (found item : Value) : Truth :=
  E.compare .eq (E.fold c.folds found) (E.fold c.folds item)

variable {c : Condition} {env : Env} {scope : FilterScope} {lhs : Operand}

/-- What a condition looks at does not hang on what it asks. -/
theorem operand_asking (h : c.operand env scope = .ok lhs) (op : Operator) (value : Value) :
    (c.asking op value).operand env scope = .ok lhs := by
  unfold operand at h ⊢
  obtain ⟨ref, href, h⟩ := bind_eq_ok.mp h
  refine bind_eq_ok.mpr ⟨ref, href, ?_⟩
  dsimp only [asking]
  split at h
  next => exact h
  next =>
    split at h
    next hclause => rw [if_pos hclause, ← h]
    next => cases h

/-- A condition with an operator that can ignore letter case has the atom of its operator. -/
theorem atom_asking (h : c.operand env scope = .ok lhs) (value : Value) :
    (c.asking .equals value).atom env scope = .ok ((c.asking .equals value).matching lhs .eq true) ∧
      (c.asking .not value).atom env scope = .ok ((c.asking .not value).matching lhs .ne false) ∧
      (c.asking .isIn value).atom env scope = (c.asking .isIn value).membership lhs true ∧
      (c.asking .notIn value).atom env scope = (c.asking .notIn value).membership lhs false := by
  have hcase (op : Operator) (hop : isCaseBound op = false) :
      ((c.asking op value).folds && isCaseBound (c.asking op value).op) = false := by
    rw [asking, hop, Bool.and_false]
  refine ⟨?_, ?_, ?_, ?_⟩ <;>
  · unfold atom
    rw [operand_asking h, hcase _ rfl]
    rfl

section

variable {E : Engine} {look : Operand → Value}

/-- Equality tests for NULL where the value is null, and compares where it is not. -/
theorem truth_matching (c : Condition) (lhs : Operand) (op : Comparison) (expected : Bool) :
    (c.matching lhs op expected).truth E look
      = if c.value.isNull then some ((look lhs).isNull == expected)
        else E.compare op (E.fold c.folds (look lhs)) (E.fold c.folds c.value) := by
  unfold matching
  split <;> rfl

/-- To ask for a value is to compare with it, or to test for NULL. -/
theorem truth_equals (h : c.operand env scope = .ok lhs) (item : Value) :
    (c.asking .equals item).truth E env scope look
      = if item.isNull then some (look lhs).isNull else c.compared E (look lhs) item := by
  rw [truth_of_atom (atom_asking h item).1, truth_matching, beq_true]
  rfl

/-- To deny equality is to be different, also from null. -/
theorem truth_not (h : c.operand env scope = .ok lhs) (item : Value) :
    (c.asking .not item).truth E env scope look
      = ((c.asking .equals item).truth E env scope look).not := by
  have hne (a b : Value) : E.compare .ne a b = (E.compare .eq a b).not := by
    unfold Engine.compare Engine.known
    split <;> rfl
  rw [truth_equals h, truth_of_atom (atom_asking h item).2.1, truth_matching, beq_false, hne,
    apply_ite Truth.not]
  rfl

/-- To ask for one of some items is to compare with each of them. -/
theorem truth_isIn (h : c.operand env scope = .ok lhs) (items : List Value) :
    (c.asking .isIn (.array items)).truth E env scope look
      = .any (items.map (c.compared E (look lhs))) := by
  rw [truth, (atom_asking h _).2.2.1]
  cases items with
  | nil => rfl
  | cons item rest => rfl

/-- To ask for none of some items is to deny that there is one. -/
theorem truth_notIn (h : c.operand env scope = .ok lhs) (items : List Value) :
    (c.asking .notIn (.array items)).truth E env scope look
      = ((c.asking .isIn (.array items)).truth E env scope look).not := by
  rw [truth_isIn h, truth, (atom_asking h _).2.2.2]
  cases items with
  | nil => rfl
  | cons item rest => rfl

/-! ## Items that are null -/

theorem compared_of_null (found : Value) {item : Value} (hnull : item.isNull = true) :
    c.compared E found item = none := by
  have hfold : E.fold c.folds item = item := by
    rw [Engine.fold, hnull, Bool.not_true, Bool.and_false]
    rfl
  unfold compared Engine.compare Engine.known
  rw [hfold, hnull, Bool.or_true]
  rfl

/-- Of values that are not null it is known whether they are equal. -/
theorem compared_ne_none (hlower : E.LowersValues) {found item : Value}
    (hfound : found.isNull = false) (hitem : item.isNull = false) :
    c.compared E found item ≠ none := by
  have hfold {v : Value} (hv : v.isNull = false) : (E.fold c.folds v).isNull = false := by
    unfold Engine.fold
    split
    next => exact hlower v hv
    next => exact hv
  unfold compared Engine.compare Engine.known
  rw [hfold hfound, hfold hitem]
  simp

/-- To ask for null is a test that is always true or false. -/
theorem truth_equals_null (h : c.operand env scope = .ok lhs) {item : Value}
    (hnull : item.isNull = true) :
    (c.asking .equals item).truth E env scope look = some (look lhs).isNull := by
  rw [truth_equals h, if_pos hnull]

/-- To ask for a value that is not null is a comparison. -/
theorem truth_equals_value (h : c.operand env scope = .ok lhs) {item : Value}
    (hvalue : item.isNull = false) :
    (c.asking .equals item).truth E env scope look = c.compared E (look lhs) item := by
  rw [truth_equals h, hvalue]
  rfl

/-- With a null among them and none that is equal, nothing is known of the comparisons with the
items. -/
theorem any_compared_eq_none (h : c.operand env scope = .ok lhs) {items : List Value}
    (hnull : ∃ v ∈ items, v.isNull = true)
    (hnone : ∀ v ∈ items, v.isNull = false →
      (c.asking .equals v).truth E env scope look ≠ some true) :
    Truth.any (items.map (c.compared E (look lhs))) = none := by
  obtain ⟨v, hv, hvnull⟩ := hnull
  refine Truth.any_eq_none.mpr ⟨fun hmem => ?_, ?_⟩
  · obtain ⟨w, hw, htrue⟩ := List.mem_map.mp hmem
    cases hwnull : w.isNull with
    | true =>
      rw [compared_of_null _ hwnull] at htrue
      cases htrue
    | false => exact hnone w hw hwnull ((truth_equals_value h hwnull).trans htrue)
  · exact List.mem_map.mpr ⟨v, hv, compared_of_null _ hvnull⟩

/-- With a null among the items, it is always known whether one of the conditions on them is
true. -/
theorem any_equals_ne_none (hlower : E.LowersValues) (h : c.operand env scope = .ok lhs)
    {items : List Value} (hnull : ∃ v ∈ items, v.isNull = true) :
    Truth.any (items.map fun v => (c.asking .equals v).truth E env scope look) ≠ none := by
  obtain ⟨v, hv, hvnull⟩ := hnull
  intro hany
  obtain ⟨hntrue, hmem⟩ := Truth.any_eq_none.mp hany
  -- the condition on null is not true, so something is found
  have hfound : (look lhs).isNull = false := by
    rw [← Bool.not_eq_true]
    intro hfound
    refine hntrue (List.mem_map.mpr ⟨v, hv, ?_⟩)
    rw [truth_equals_null h hvnull, hfound]
  obtain ⟨w, -, hwnone⟩ := List.mem_map.mp hmem
  cases hwnull : w.isNull with
  | true =>
    rw [truth_equals_null h hwnull] at hwnone
    cases hwnone
  | false =>
    rw [truth_equals_value h hwnull] at hwnone
    exact compared_ne_none hlower hfound hwnull hwnone

/-- Being one of some items is being equal to one of them exactly if none is null, or one that is
not is equal to what is found. -/
theorem isIn_agrees_iff (hlower : E.LowersValues) (h : c.operand env scope = .ok lhs)
    (items : List Value) :
    (c.asking .isIn (.array items)).truth E env scope look
        = .any (items.map fun v => (c.asking .equals v).truth E env scope look) ↔
      (∀ v ∈ items, v.isNull = false) ∨ ∃ v ∈ items, v.isNull = false ∧
        (c.asking .equals v).truth E env scope look = some true := by
  rw [truth_isIn h]
  constructor
  · intro hagree
    by_contra hnot
    push Not at hnot
    obtain ⟨⟨v, hv, hvnull⟩, hnone⟩ := hnot
    have hnull : ∃ v ∈ items, v.isNull = true := ⟨v, hv, by simpa using hvnull⟩
    rw [any_compared_eq_none h hnull hnone] at hagree
    exact any_equals_ne_none hlower h hnull hagree.symm
  · rintro (hall | ⟨v, hv, hvalue, htrue⟩)
    · refine congrArg Truth.any (List.map_congr_left fun v hv => ?_)
      exact (truth_equals_value h (hall v hv)).symm
    · have hcompared : some true ∈ items.map (c.compared E (look lhs)) :=
        List.mem_map.mpr ⟨v, hv, (truth_equals_value h hvalue).symm.trans htrue⟩
      have hequals : some true
          ∈ items.map fun v => (c.asking .equals v).truth E env scope look :=
        List.mem_map.mpr ⟨v, hv, htrue⟩
      rw [Truth.any_eq_true.mpr hcompared, Truth.any_eq_true.mpr hequals]

end

/-- Where being one of some items is being equal to one of them, and being none of them is being
different from all. Such conditions are accepted wherever the condition looks at a column or an
aggregate that is known. Without items the first says of every row that it is false and the second
that it is true, as the empty disjunction and the empty conjunction do. With items each of them says
what the others do together exactly if no item is null, or one that is not is equal to what is
found. -/
theorem membership_agrees_iff (E : Engine) (hlower : E.LowersValues) (c : Condition) (env : Env)
    (scope : FilterScope) (items : List Value) (look : Operand → Value) (lhs : Operand)
    (h : c.operand env scope = .ok lhs) :
    (∃ a, (c.asking .isIn (.array items)).atom env scope = .ok a) ∧
      (∃ a, (c.asking .notIn (.array items)).atom env scope = .ok a) ∧
      (∀ v, (∃ a, (c.asking .equals v).atom env scope = .ok a) ∧
        ∃ a, (c.asking .not v).atom env scope = .ok a) ∧
      ((c.asking .isIn (.array items)).truth E env scope look
          = .any (items.map fun v => (c.asking .equals v).truth E env scope look) ↔
        (∀ v ∈ items, v.isNull = false) ∨ ∃ v ∈ items, v.isNull = false ∧
          (c.asking .equals v).truth E env scope look = some true) ∧
      ((c.asking .notIn (.array items)).truth E env scope look
          = .all (items.map fun v => (c.asking .not v).truth E env scope look) ↔
        (∀ v ∈ items, v.isNull = false) ∨ ∃ v ∈ items, v.isNull = false ∧
          (c.asking .equals v).truth E env scope look = some true) ∧
      (items = [] → (c.asking .isIn (.array items)).truth E env scope look = some false ∧
        (c.asking .notIn (.array items)).truth E env scope look = some true) := by
  have hdenials : items.map (fun v => (c.asking .not v).truth E env scope look)
      = (items.map fun v => (c.asking .equals v).truth E env scope look).map Truth.not := by
    rw [List.map_map]
    exact List.map_congr_left fun v _ => truth_not h v
  refine ⟨?_, ?_, ?_, isIn_agrees_iff hlower h items, ?_, ?_⟩
  · rw [(atom_asking h _).2.2.1]
    exact membership_ok_iff.mpr rfl
  · rw [(atom_asking h _).2.2.2]
    exact membership_ok_iff.mpr rfl
  · exact fun v => ⟨⟨_, (atom_asking h v).1⟩, ⟨_, (atom_asking h v).2.1⟩⟩
  · rw [truth_notIn h, hdenials, ← Truth.not_any, Truth.not_inj]
    exact isIn_agrees_iff hlower h items
  · rintro rfl
    rw [truth_notIn h, truth_isIn h]
    exact ⟨rfl, rfl⟩

/-- A condition on when a book is late. -/
def lateCondition : Condition :=
  { field := "late", op := .isIn, value := .array [.int 1, .null] }

/-- A list with a null in it agrees where the row has one of the other items. -/
theorem membership_agrees_iff_late :
    lateCondition.truth Engine.exact { schema := librarySchema, dialect := .mysql }
        { model := some "Book" } (TableRow.look fun _ => .int 1)
      = .any ([.int 1, .null].map fun v =>
          (lateCondition.asking .equals v).truth Engine.exact
            { schema := librarySchema, dialect := .mysql } { model := some "Book" }
            (TableRow.look fun _ => .int 1)) := by
  obtain ⟨-, -, -, hagree, -⟩ := membership_agrees_iff Engine.exact Engine.exact_lowersValues
    lateCondition { schema := librarySchema, dialect := .mysql } { model := some "Book" }
    [.int 1, .null] (TableRow.look fun _ => .int 1) (.column { column := "late" }) (by decide)
  exact hagree.mpr (Or.inr ⟨.int 1, by simp, rfl, by decide⟩)

/-- Of a book that is not late at all it is unknown whether its lateness is one of some items of
which one is null, but it is null. Of any other one it is unknown whether it is none of them, but it
is not null. -/
theorem membership_of_null :
    let env : Env := { schema := librarySchema, dialect := .postgres }
    let scope : FilterScope := { model := some "Book" }
    (lateCondition.asking .isIn (.array [.null])).truth Engine.exact env scope
        (TableRow.look fun _ => .null) = none ∧
      Truth.any ([.null].map fun v => (lateCondition.asking .equals v).truth Engine.exact env scope
        (TableRow.look fun _ => .null)) = some true ∧
      (lateCondition.asking .notIn (.array [.null])).truth Engine.exact env scope
        (TableRow.look fun _ => .int 1) = none ∧
      Truth.all ([.null].map fun v => (lateCondition.asking .not v).truth Engine.exact env scope
        (TableRow.look fun _ => .int 1)) = some true := by
  decide

end Condition

end SqlQuery
