import SqlQuery.Proofs.Compile.BoundValues
import SqlQuery.Proofs.Compile.FilterTruth
import SqlQuery.Proofs.Compile.Route

/-!
# A cursor is one more condition

A query with a cursor is compiled as if it had neither a cursor nor an offset and one more
condition on its root filter. How that condition is merged into the filter hangs on the root
of the tree: it joins the conditions of a conjunction, stands above any other operator, and is
all there is of an empty filter. In each of these shapes the merged filter says what the filter
and the condition say together, so that a cursor leaves rows out and lets none in.

> `Filter.meaning_andCondition`: the merged filter is true where both parts are, whichever of
> the conditions hold.

> `Filter.truth_andCondition`: it is true of a row exactly where both parts are true of it.

> `Query.cursor_narrows`: the query with a cursor and the one with the condition are one.

The conditions of a filter are known by their numbers, and the merged filter has one more of
them. What is said of the others is carried over by `meaning_congr`: a filter sees of a truth
assignment only the numbers of its own conditions.
-/

namespace SqlQuery

open Sql

namespace Filter

/-! ## The numbers of conditions -/

/-- Numbers in order, looked at from two starts. -/
theorem map_range'_congr {truth truth' : Nat → Bool} {start start' n : Nat}
    (h : ∀ i < n, truth (start + i) = truth' (start' + i)) :
    (List.range' start n).map truth = (List.range' start' n).map truth' := by
  rw [List.range'_eq_map_range, List.range'_eq_map_range, List.map_map, List.map_map]
  exact List.map_congr_left fun i hi => h i (List.mem_range.mp hi)

mutual

/-- A filter sees of a truth assignment only the numbers of its own conditions. -/
theorem meaning_congr {truth truth' : Nat → Bool} :
    ∀ (f : Filter) {start start' : Nat},
      (∀ i < f.allConditions.length, truth (start + i) = truth' (start' + i)) →
        f.meaning truth start = f.meaning truth' start'
  | ⟨op, conditions, nested⟩, start, start', h => by
    rw [allConditions, List.length_append] at h
    have hconditions := map_range'_congr (n := conditions.length) fun i hi => h i (by omega)
    have hnested : meanings truth (start + conditions.length) nested
        = meanings truth' (start' + conditions.length) nested := by
      refine meanings_congr nested fun i hi => ?_
      rw [Nat.add_assoc, Nat.add_assoc]
      exact h (conditions.length + i) (by omega)
    rw [meaning, meaning, hconditions, hnested]

/-- Some filters see of a truth assignment only the numbers of their own conditions. -/
theorem meanings_congr {truth truth' : Nat → Bool} :
    ∀ (fs : List Filter) {start start' : Nat},
      (∀ i < (conditionsOf fs).length, truth (start + i) = truth' (start' + i)) →
        meanings truth start fs = meanings truth' start' fs
  | [], _, _, _ => rfl
  | f :: rest, start, start', h => by
    rw [conditionsOf, List.length_append] at h
    have hfirst : f.meaning truth start = f.meaning truth' start' :=
      meaning_congr f fun i hi => h i (by omega)
    have hrest : meanings truth (start + f.allConditions.length) rest
        = meanings truth' (start' + f.allConditions.length) rest := by
      refine meanings_congr rest fun i hi => ?_
      rw [Nat.add_assoc, Nat.add_assoc]
      exact h (f.allConditions.length + i) (by omega)
    rw [meanings, meanings, hfirst, hrest]

end

/-! ## Merging -/

/-- The truth assignment without one of its numbers; those behind it move up. -/
def without (truth : Nat → Bool) (k : Nat) (i : Nat) : Bool :=
  truth (if i < k then i else i + 1)

/-- The merged filter holds one more condition, and is true where the filter is true of the
others, or has none, and the condition is true. -/
theorem meaning_andCondition (f : Filter) (c : Condition) :
    ∃ before after, f.allConditions = before ++ after ∧
      (f.andCondition c).allConditions = before ++ c :: after ∧
      ∀ truth : Nat → Bool, (f.andCondition c).meaning truth 0
        = ((f.isEmpty || f.meaning (without truth before.length) 0) && truth before.length) := by
  unfold andCondition
  by_cases hempty : f.isEmpty = true
  -- nothing but the condition
  · rw [if_pos hempty]
    refine ⟨[], [], (isEmpty_iff f).mp hempty, rfl, ?_⟩
    intro truth
    simp [Filter.and, meaning, meanings, LogicalOp.holds, hempty]
  · rw [if_neg hempty]
    obtain ⟨op, conditions, nested⟩ := f
    by_cases hop : op = .and
    -- behind the conditions of the root, before those of its groups
    · subst hop
      rw [if_pos rfl]
      refine ⟨conditions, conditionsOf nested, rfl, by simp [addCondition, allConditions], ?_⟩
      intro truth
      have hconditions : (List.range' 0 conditions.length).map truth
          = (List.range' 0 conditions.length).map (without truth conditions.length) := by
        refine map_range'_congr fun i hi => ?_
        rw [without, if_pos (by omega)]
      have hnested : meanings truth (conditions.length + 1) nested
          = meanings (without truth conditions.length) conditions.length nested := by
        refine meanings_congr nested fun i _ => ?_
        rw [without, if_neg (by omega), Nat.add_right_comm]
      rw [Bool.eq_false_iff.mpr hempty, Bool.false_or, addCondition, meaning, meaning,
        List.length_append, List.length_singleton, List.range'_concat, List.map_append]
      simp only [Nat.zero_add, Nat.one_mul, hconditions, hnested, LogicalOp.holds,
        List.all_append, List.map_cons, List.map_nil, List.all_cons, List.all_nil, id,
        Bool.and_true]
      exact Bool.and_right_comm ..
    -- above the root
    · rw [if_neg hop]
      refine ⟨[], (⟨op, conditions, nested⟩ : Filter).allConditions, rfl,
        by simp [allConditions, conditionsOf], ?_⟩
      intro truth
      have hbelow : (⟨op, conditions, nested⟩ : Filter).meaning truth 1
          = (⟨op, conditions, nested⟩ : Filter).meaning (without truth 0) 0 := by
        refine meaning_congr _ fun i _ => ?_
        rw [without, if_neg (by omega), Nat.add_comm 1, Nat.zero_add]
      rw [meaning, meanings, meanings, if_neg hempty, Bool.eq_false_iff.mpr hempty]
      simp [LogicalOp.holds, hbelow, Bool.and_comm]

/-- The merged filter is true of a row exactly where the filter is, or holds no condition, and
the condition is. -/
theorem truth_andCondition {E : Engine} {env : Env} {scope : FilterScope}
    {look : Operand → Value} (f : Filter) (c : Condition) :
    (f.andCondition c).truth E env scope look = some true ↔
      (f.isEmpty = true ∨ f.truth E env scope look = some true) ∧
        c.truth E env scope look = some true := by
  unfold andCondition
  by_cases hempty : f.isEmpty = true
  · rw [if_pos hempty]
    simp [Filter.and, truth, truths, LogicalOp.truth, Truth.all_eq_true, hempty]
  · rw [if_neg hempty]
    obtain ⟨op, conditions, nested⟩ := f
    by_cases hop : op = .and
    · subst hop
      rw [if_pos rfl]
      simp only [addCondition, truth, LogicalOp.truth, Truth.all_eq_true, List.map_append,
        List.forall_mem_append, List.map_cons, List.map_nil, List.forall_mem_singleton]
      rw [or_iff_right hempty]
      exact and_right_comm
    · rw [if_neg hop, truth, truths, truths, if_neg hempty]
      simp [LogicalOp.truth, Truth.all_eq_true, hempty, and_comm]

end Filter

/-! ## Queries -/

namespace Query

/-- The first entry in the sort by a field, if there is any, is a descending one. -/
def SortsDown (q : Query) (field : String) : Prop :=
  ∃ o ∈ q.orderBy.find? (·.field = field), o.order = .desc

instance (q : Query) (field : String) : Decidable (q.SortsDown field) :=
  inferInstanceAs (Decidable (∃ o ∈ q.orderBy.find? (·.field = field), o.order = .desc))

/-- Behind a cursor are the smaller values where the query sorts down by its field, else the larger.
-/
theorem seekOperator_eq_ite (q : Query) (field : String) :
    q.seekOperator field = if q.SortsDown field then .lt else .gt := by
  have hsorts {found : Option Ordering} (hfound : q.orderBy.find? (·.field == field) = found) :
      q.SortsDown field ↔ ∃ o ∈ found, o.order = .desc := by
    rw [← hfound]
    rfl
  unfold seekOperator
  cases hfound : q.orderBy.find? (·.field == field) with
  | none =>
    rw [if_neg (by simp [hsorts hfound])]
  | some o =>
    have ho : q.SortsDown field ↔ o.order = .desc := by simp [hsorts hfound]
    simp only [ho]

/-- The query with one more condition in the place of its cursor and its offset. -/
def replaceCursor (q : Query) (c : Condition) : Query :=
  { q with cursor := none, skip := none, filter := q.filter.andCondition c }

/-- The selection of a query with a cursor is the one with its condition in the place of it. -/
theorem compileSelect_of_cursor {q : Query} {c : Cursor} (env : Env) (hc : q.cursor = some c) :
    q.compileSelect env = (q.replaceCursor (q.seek c)).compileSelect env := by
  have hfilter : q.seekFilter = (q.replaceCursor (q.seek c)).seekFilter := by
    unfold seekFilter
    rw [hc]
    rfl
  have hoffset : q.offset = (q.replaceCursor (q.seek c)).offset := by
    unfold offset
    rw [hc]
    rfl
  unfold compileSelect
  rw [hfilter, hoffset]
  rfl

/-- A query that neither writes nor deletes is compiled to its selection, once its payload has
been checked. -/
theorem compile_of_reads {q : Query} (env : Env) (hop : expectedPayload q.operation = .none)
    (hdelete : ¬(q.operation = .delete ∨ q.operation = .deleteMany)) :
    q.compile env = (do
      q.checkPayload
      let (select, mapping) ← q.compileSelect env
      return { statement := .select select, mapping }) := by
  unfold compile
  cases hpassed : q.checkPayload with
  | error e => rfl
  | ok u =>
    have hkind := kind_of_checkPayload hpassed
    rw [hop] at hkind
    have hpayload : q.payload = .none := by
      cases hp : q.payload with
      | none => rfl
      | _ => rw [hp] at hkind; cases hkind
    unfold compileWrite?
    rw [hpayload]
    dsimp only
    rw [if_neg hdelete]

/-- A query that finds or aggregates rows and has a cursor is compiled as the query with the
cursor's condition in the place of it: its rows come after the cursor in the direction in which
the query sorts by that field. The condition is merged into the filter as one more that has to
be met, whatever the filter is. -/
theorem cursor_narrows :
    (∀ (q : Query) (c : Cursor) (env : Env),
      q.operation ∈ [.findMany, .findFirst, .findUnique, .aggregate, .groupBy] →
      q.cursor = some c →
        q.compile env = (q.replaceCursor
          { field := c.field, op := if q.SortsDown c.field then .lt else .gt
            value := c.value }).compile env) ∧
    ∀ (f : Filter) (c : Condition),
      ∃ before after, f.allConditions = before ++ after ∧
        (f.andCondition c).allConditions = before ++ c :: after ∧
        ∀ truth : Nat → Bool, (f.andCondition c).meaning truth 0
          = ((f.isEmpty || f.meaning (Filter.without truth before.length) 0)
              && truth before.length) := by
  refine ⟨?_, Filter.meaning_andCondition⟩
  intro q c env hreads hc
  have hop : expectedPayload q.operation = .none ∧
      ¬(q.operation = .delete ∨ q.operation = .deleteMany) := by
    revert hreads
    cases q.operation <;> decide
  rw [← seekOperator_eq_ite, compile_of_reads env hop.1 hop.2, compileSelect_of_cursor env hc,
    compile_of_reads (q := q.replaceCursor _) env hop.1 hop.2]
  rfl

/-- A page of the readers of a name, sorted downwards by their number; a later entry in the sort
by the same field does not count. -/
def readersDown : Query :=
  { model := "Reader", operation := .findMany, skip := some 20, take := some 10
    filter := { op := .or, conditions := [.equals "name" (.string "a")], nested := [{}] }
    orderBy := [{ field := "name" }, { field := "id", order := .desc }, { field := "id" }]
    cursor := some { field := "id", value := .int 5 } }

/-- The direction is taken from the first entry for the field, not from the second one. -/
theorem cursor_narrows_down :
    readersDown.operation ∈ [.findMany, .findFirst, .findUnique, .aggregate, .groupBy] ∧
      readersDown.cursor = some { field := "id", value := .int 5 } ∧
      readersDown.compile { schema := librarySchema, dialect := .postgres }
        = (readersDown.replaceCursor { field := "id", op := .lt, value := .int 5 }).compile
            { schema := librarySchema, dialect := .postgres } ∧
      (readersDown.compile { schema := librarySchema, dialect := .postgres }).map
          (fun c => (c.statement.prepare .postgres).sql)
        = .ok ("SELECT * FROM readers WHERE id < $1 AND (name = $2) "
            ++ "ORDER BY name ASC, id DESC, id ASC LIMIT 10") := by
  have hreads : readersDown.operation ∈
      [.findMany, .findFirst, .findUnique, .aggregate, .groupBy] := by decide
  have hcompile := cursor_narrows.1 readersDown { field := "id", value := .int 5 }
    { schema := librarySchema, dialect := .postgres } hreads rfl
  have hdown : readersDown.SortsDown "id" := by decide
  have htext : (readersDown.compile { schema := librarySchema, dialect := .postgres }).map
        (fun c => (c.statement.prepare .postgres).sql)
      = .ok ("SELECT * FROM readers WHERE id < $1 AND (name = $2) "
          ++ "ORDER BY name ASC, id DESC, id ASC LIMIT 10") := by decide +kernel
  rw [if_pos hdown] at hcompile
  exact ⟨hreads, rfl, hcompile, htext⟩

end Query

end SqlQuery
