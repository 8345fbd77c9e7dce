import SqlQuery.Proofs.Compile.ColumnScope
import SqlQuery.Proofs.Compile.Lookups
import SqlQuery.Proofs.Compile.ResultColumn
import SqlQuery.Proofs.Sql.OperandText
import SqlQuery.Proofs.Sql.Spacing

/-!
# Aggregates of groups and in conditions on them

A query asks for aggregates among its items and compares them in HAVING. The items are checked
before they are written: only a count may be of rows and not of a field, whether it says so by `*`
or by no name. Conditions are compiled like any others. They look their field up, which lets `*`
through for every function, and do not know that no name means rows.

> `Query.selectsAs_iff`: which aggregates are accepted as items, and how they are written.

> `Condition.operand_having_iff`: what a condition of HAVING looks at.

> `Query.having_agrees_iff`: where a condition is accepted, its aggregate is accepted as an item and
> written the same, except for these stars and for declared columns called `*`.
-/

namespace SqlQuery

open Sql

/-- Aggregates are checked one by one: only a count may be of rows. -/
theorem requireFields_ok_iff {aggregations : List Aggregation} :
    requireFields aggregations = .ok () ↔
      ∀ a ∈ aggregations, a.isStar = true → a.function = .count := by
  induction aggregations with
  | nil => exact iff_of_true rfl fun _ ha => absurd ha List.not_mem_nil
  | cons a rest ih =>
    rw [requireFields, List.forall_mem_cons, ← ih]
    by_cases hrefused : (a.function ≠ .count && a.isStar) = true
    · rw [if_pos hrefused]
      refine iff_of_false (fun h => nomatch h) fun h => ?_
      simp only [ne_eq, decide_not, Bool.and_eq_true, Bool.not_eq_eq_eq_not, Bool.not_true,
        decide_eq_false_iff_not] at hrefused
      exact hrefused.1 (h.1 hrefused.2)
    · rw [if_neg hrefused]
      refine (and_iff_right fun hstar => ?_).symm
      by_contra hcount
      exact hrefused (by simp [hcount, hstar])

namespace Sql.SelectItem

/-- The text of an aggregate among the items. -/
theorem render_aggregate (d : Dialect) (f : AggregateFunction) (c : ColumnRef)
    (aliasName : String) :
    d.render 0 ((aggregate f c aliasName).tokens : Fragment Value)
      = (Operand.aggregate f c).text d ++ " AS " ++ d.quoteName aliasName := by
  have hcall : Closes ((Operand.aggregate f c).tokens : Fragment Value) := closes_call ..
  have hname : Opens [(.name aliasName : Token Value)] := opens_cons rfl []
  show d.render 0 ((Operand.aggregate f c).tokens ++ [Token.word .as, .name aliasName]) = _
  have has : " AS " = " " ++ (Keyword.as.text ++ " ") := by decide
  rw [render_append d 0 hcall (opens_cons rfl _), render_word_cons d _ _ hname, render_name, has]
  simp only [String.append_assoc]
  rfl

end Sql.SelectItem

namespace Query

variable {q : Query} {env : Env} {qualifier : Option String} {a : Aggregation}

/-- An aggregate is accepted as an item of a query, and written there as an expression with the
name of the aggregate. -/
structure SelectsAs (q : Query) (env : Env) (qualifier : Option String) (a : Aggregation)
    (expression : String) : Prop where
  checked : ({ q with operation := .aggregate, aggregations := [a] } : Query).checkAggregates
    = .ok ()
  written : ∃ item, q.aggregateItem env.schema qualifier a = .ok item ∧
    env.dialect.render 0 (item.tokens : Fragment Value)
      = expression ++ " AS " ++ env.dialect.quoteName a.aliasName

/-- Aggregates that pass their checks have the fields that they need. -/
theorem requireFields_of_checkAggregates (h : q.checkAggregates = .ok ()) :
    requireFields q.aggregations = .ok () := by
  unfold checkAggregates at h
  split at h
  next => cases h
  next =>
    split at h
    next => cases h
    next => exact h

/-- The item of an aggregate is of all columns, or of that of its field. -/
theorem aggregateItem_ok_iff {schema : Schema} {item : SelectItem} :
    q.aggregateItem schema qualifier a = .ok item ↔
      ∃ c : ColumnRef, item = .aggregate a.function c a.aliasName ∧
        if a.isStar then c = { column := "*" }
        else schema.column q.model a.field = .ok c.column ∧ c.qualifier = qualifier := by
  unfold aggregateItem
  by_cases hstar : a.isStar = true
  · simp only [if_pos hstar]
    constructor
    · intro h
      cases h
      exact ⟨_, rfl, rfl⟩
    · rintro ⟨c, rfl, rfl⟩
      rfl
  · simp only [if_neg hstar]
    constructor
    · intro h
      obtain ⟨c, hc, h⟩ := bind_eq_ok.mp h
      obtain ⟨column, hcolumn, hc⟩ := bind_eq_ok.mp hc
      cases hc
      cases h
      exact ⟨_, rfl, hcolumn, rfl⟩
    · rintro ⟨⟨qualifier, column⟩, rfl, hcolumn, rfl⟩
      exact bind_eq_ok.mpr ⟨_, bind_eq_ok.mpr ⟨column, hcolumn, rfl⟩, rfl⟩

/-- An aggregate is an item where it is of a field that has a column, or the count of rows. -/
theorem selectsAs_iff {e : String} :
    q.SelectsAs env qualifier a e ↔
      (a.isStar = true → a.function = .count) ∧
        ∃ c : ColumnRef, e = (Operand.aggregate a.function c).text env.dialect ∧
          if a.isStar then c = { column := "*" }
          else env.schema.column q.model a.field = .ok c.column ∧ c.qualifier = qualifier := by
  have hchecked : ({ q with operation := .aggregate, aggregations := [a] } : Query).checkAggregates
      = .ok () ↔ (a.isStar = true → a.function = .count) :=
    requireFields_ok_iff.trans List.forall_mem_singleton
  constructor
  · rintro ⟨hcheck, item, hitem, htext⟩
    obtain ⟨c, rfl, hc⟩ := aggregateItem_ok_iff.mp hitem
    rw [SelectItem.render_aggregate, String.append_left_inj, String.append_left_inj] at htext
    exact ⟨hchecked.mp hcheck, c, htext.symm, hc⟩
  · rintro ⟨hcount, c, rfl, hc⟩
    exact ⟨hchecked.mpr hcount, _, aggregateItem_ok_iff.mpr ⟨c, rfl, hc⟩,
      SelectItem.render_aggregate ..⟩

end Query

/-- The aggregate of a column as a condition of HAVING looks at it: `*` is never qualified. -/
def havingOperand (qualifier : Option String) (f : AggregateFunction) (column : String) : Operand :=
  .aggregate f { qualifier := if column = "*" then none else qualifier, column }

namespace Condition

/-- A condition of HAVING on an aggregate looks at the column of its field. -/
theorem operand_having_iff {c : Condition} {env : Env} {model : String} {qualifier : Option String}
    {f : AggregateFunction} {o : Operand} (hf : c.aggregate = some f) :
    c.operand env { model := some model, qualifier, clause := .having } = .ok o ↔
      ∃ column, env.schema.column model c.field = .ok column ∧
        o = havingOperand qualifier f column := by
  unfold operand columnRef
  rw [hf]
  constructor
  · intro h
    obtain ⟨ref, href, h⟩ := bind_eq_ok.mp h
    obtain ⟨column, hcolumn, href⟩ := bind_eq_ok.mp href
    cases href
    cases h
    exact ⟨column, hcolumn, rfl⟩
  · rintro ⟨column, hcolumn, rfl⟩
    exact bind_eq_ok.mpr ⟨_, bind_eq_ok.mpr ⟨column, hcolumn, rfl⟩, rfl⟩

/-- An atom that looks at nothing but an aggregate compares it, or says nothing about it. -/
theorem operands_eq_of_aggregate {a : Atom} {f : AggregateFunction} {c : ColumnRef}
    (h : ∀ o ∈ a.operands, o = .aggregate f c) :
    a.operands = [.aggregate f c] ∨ ∃ truth, a = .constant truth := by
  cases a with
  | sameColumn b c => cases h _ (List.mem_cons_self ..)
  | constant truth => exact Or.inr ⟨truth, rfl⟩
  | _ => exact Or.inl (congrArg (fun o => [o]) (h _ (List.mem_singleton_self _)))

end Condition

namespace Query

variable {q : Query} {env : Env}

/-- An aggregate is an item and written as HAVING writes it exactly where it is the count of rows
and HAVING finds `*` for it, or where it is of a field whose column may be qualified. -/
theorem selectsAs_having_iff (q : Query) (env : Env) (qualifier : Option String) {a : Aggregation}
    {column : String} (hcolumn : env.schema.column q.model a.field = .ok column) :
    q.SelectsAs env qualifier a ((havingOperand qualifier a.function column).text env.dialect) ↔
      if a.isStar then a.function = .count ∧ column = "*"
      else qualifier = none ∨ column ≠ "*" := by
  rw [selectsAs_iff]
  by_cases hstar : a.isStar = true
  · simp only [if_pos hstar]
    constructor
    · rintro ⟨hcount, c, htext, rfl⟩
      exact ⟨hcount hstar, congrArg ColumnRef.column (Operand.text_aggregate_inj htext)⟩
    · rintro ⟨hcount, rfl⟩
      exact ⟨fun _ => hcount, _, by rw [havingOperand, if_pos rfl], rfl⟩
  · simp only [if_neg hstar]
    constructor
    · rintro ⟨-, c, htext, -, hqualifier⟩
      rw [← Operand.text_aggregate_inj htext] at hqualifier
      refine or_iff_not_imp_right.mpr fun hcolumn => ?_
      exact hqualifier.symm.trans (if_pos (not_not.mp hcolumn))
    · intro h
      have hqualifier : (if column = "*" then none else qualifier) = qualifier := by
        by_cases hcolumn : column = "*"
        · rw [if_pos hcolumn, h.resolve_right (not_not.mpr hcolumn)]
        · exact if_neg hcolumn
      exact ⟨fun h => absurd h hstar, { qualifier, column }, by rw [havingOperand, hqualifier],
        hcolumn, rfl⟩

/-- In a compiled query the aggregates of the items and of the conditions are under one
qualifier. -/
theorem exists_qualifier_of_compile {compiled : Compiled}
    (haggregate : q.operation.isAggregate = true) (h : q.compile env = .ok compiled) :
    ∃ qualifier,
      (∀ c ∈ q.having.allConditions, ∃ a,
        c.atom env { model := some q.model, qualifier, clause := .having } = .ok a) ∧
      ∀ a ∈ q.aggregations, ∃ e, q.SelectsAs env qualifier a e := by
  have hreads : q.operation.reads = true := by rw [Operation.reads, haggregate, Bool.or_true]
  obtain ⟨s, plan, -, hselected⟩ := selectedAs_of_compile hreads h
  refine ⟨_, Filter.atom_of_compile hselected.having_eq, fun a ha => ?_⟩
  have hitems := hselected.items_eq
  rw [if_pos haggregate] at hitems
  obtain ⟨groups, -, hitems⟩ := bind_eq_ok.mp hitems
  obtain ⟨aggregates, haggregates, -⟩ := bind_eq_ok.mp hitems
  obtain ⟨item, -, hitem⟩ :=
    exists_mem_of_forall₂ (List.Forall₂.flip (forall₂_of_mapM haggregates)) a ha
  obtain ⟨c, -, hc⟩ := aggregateItem_ok_iff.mp hitem
  have hcount := requireFields_ok_iff.mp
    (requireFields_of_checkAggregates (hselected.checked haggregate)) a ha
  exact ⟨_, selectsAs_iff.mpr ⟨hcount, c, rfl, hc⟩⟩

/-- Items that are no fields are only counts, of rows. A condition of HAVING on an aggregate that is
accepted writes the aggregate of the column of its field, without a qualifier if the column is `*`,
unless its operator makes it constant. The aggregate is accepted among the items and has the same
text there exactly if it is the count of rows and the condition writes a star, or if it is of a
field whose column is not `*` or is not qualified. A compiled query has one qualifier for both. -/
theorem having_agrees_iff (q : Query) (env : Env) :
    (∀ (qualifier : Option String) (a : Aggregation), a.isStar = true → ∀ e,
      q.SelectsAs env qualifier a e ↔ a.function = .count ∧ e = "COUNT(*)") ∧
    (∀ (qualifier : Option String) (c : Condition) (f : AggregateFunction) (a : Atom),
      c.aggregate = some f →
      c.atom env { model := some q.model, qualifier, clause := .having } = .ok a →
        ∃ column, env.schema.column q.model c.field = .ok column ∧
          (c.field = "*" → column = "*") ∧
          (a.operands = [havingOperand qualifier f column] ∨ ∃ truth, a = .constant truth) ∧
          (∀ o ∈ a.operands, ∀ bound, (o.text env.dialect).toList
            <:+: (env.dialect.render bound (a.tokens env.dialect)).toList) ∧
          (q.SelectsAs env qualifier { function := f, field := c.field }
              ((havingOperand qualifier f column).text env.dialect) ↔
            if c.field = "" ∨ c.field = "*" then f = .count ∧ column = "*"
            else qualifier = none ∨ column ≠ "*")) ∧
    ∀ compiled, q.operation.isAggregate = true → q.compile env = .ok compiled →
      ∃ qualifier,
        (∀ c ∈ q.having.allConditions, ∃ a,
          c.atom env { model := some q.model, qualifier, clause := .having } = .ok a) ∧
        ∀ a ∈ q.aggregations, ∃ e, q.SelectsAs env qualifier a e := by
  refine ⟨?_, ?_, fun compiled => exists_qualifier_of_compile⟩
  · intro qualifier a hstar e
    rw [selectsAs_iff]
    simp only [if_pos hstar]
    have htext : (Operand.aggregate .count { column := "*" }).text env.dialect = "COUNT(*)" := by
      cases env.dialect <;> decide
    constructor
    · rintro ⟨hcount, c, rfl, rfl⟩
      rw [hcount hstar]
      exact ⟨rfl, htext⟩
    · rintro ⟨hcount, rfl⟩
      exact ⟨fun _ => hcount, _, by rw [hcount, htext], rfl⟩
  · intro qualifier c f a hf h
    obtain ⟨lhs, hlhs, -⟩ := bind_eq_ok.mp (show (c.operand _ _ >>= _) = _ from h)
    obtain ⟨column, hcolumn, rfl⟩ := (Condition.operand_having_iff hf).mp hlhs
    have hoperands : ∀ o ∈ a.operands, o = havingOperand qualifier f column :=
      fun o ho => Except.ok.inj ((Condition.operand_of_atom h o ho).symm.trans hlhs)
    refine ⟨column, hcolumn, fun hstar => ?_, Condition.operands_eq_of_aggregate hoperands,
      fun o ho bound => Operand.text_infix env.dialect bound o ho, ?_⟩
    · rw [hstar] at hcolumn
      obtain ⟨m, -, hcolumn⟩ := bind_eq_ok.mp hcolumn
      exact Except.ok.inj (hcolumn.symm.trans m.column_star)
    · rw [selectsAs_having_iff q env qualifier (a := { function := f, field := c.field }) hcolumn]
      simp [Aggregation.isStar]

end Query

/-- Users, one group for each, on a condition on the groups. -/
def usersHaving (c : Condition) (aggregations : List Aggregation) : Query :=
  { model := "User", operation := .groupBy, groupBy := ["id"], aggregations, having := .and [c] }

/-- The condition that an aggregate is two. -/
def twoOf (f : AggregateFunction) (field : String) : Condition :=
  (Condition.equals field (.int 2)).onAggregate f

/-- A count of addresses is written alike on both sides, and a sum of all columns is never selected.
-/
theorem Query.having_agrees_iff_addresses :
    let q := usersHaving (twoOf .count "email") [{ function := .count, field := "email" }]
    let env : Env := { schema := usersSchema, dialect := .postgres }
    (∃ compiled, q.compile env = .ok compiled ∧
      (compiled.statement.prepare .postgres).sql
        = "SELECT id, COUNT(email_address) AS count_email FROM users GROUP BY id " ++
          "HAVING COUNT(email_address) = $1" ∧
      ∃ qualifier, ∀ a ∈ q.aggregations, ∃ e, q.SelectsAs env qualifier a e) ∧
    (∃ a, (twoOf .count "email").atom env { model := some "User", clause := .having } = .ok a ∧
      q.SelectsAs env none { function := .count, field := "email" } "COUNT(email_address)") ∧
    q.SelectsAs env none .countAll "COUNT(*)" ∧
    ∀ e, ¬q.SelectsAs env none { function := .sum, field := "*" } e := by
  intro q env
  obtain ⟨hstars, hhaving, hcompiled⟩ := Query.having_agrees_iff q env
  refine ⟨?_, ?_, (hstars none .countAll rfl _).mpr ⟨rfl, rfl⟩, fun e h => ?_⟩
  · obtain ⟨compiled, hc, hsql⟩ : ∃ compiled, q.compile env = .ok compiled ∧
        (compiled.statement.prepare .postgres).sql
          = "SELECT id, COUNT(email_address) AS count_email FROM users GROUP BY id " ++
            "HAVING COUNT(email_address) = $1" :=
      ⟨_, rfl, by decide +kernel⟩
    obtain ⟨qualifier, -, hitems⟩ := hcompiled compiled rfl hc
    exact ⟨compiled, hc, hsql, qualifier, hitems⟩
  · obtain ⟨a, ha⟩ : ∃ a,
        (twoOf .count "email").atom env { model := some "User", clause := .having } = .ok a :=
      ⟨_, rfl⟩
    obtain ⟨column, hcolumn, -, -, -, hagrees⟩ := hhaving none _ .count a rfl ha
    obtain rfl : "email_address" = column := Except.ok.inj hcolumn
    exact ⟨a, ha, hagrees.mpr (Or.inl rfl)⟩
  · cases ((hstars none _ rfl e).mp h).1

/-- A condition on the sum of rows is written, while the sum of rows is refused as an item. A count
without a field is an item, while a condition on it is refused. -/
theorem Query.rows_compared :
    (∃ compiled, (usersHaving (twoOf .sum "*") []).compile
          { schema := usersSchema, dialect := .postgres } = .ok compiled ∧
        (compiled.statement.prepare .postgres).sql
          = "SELECT id FROM users GROUP BY id HAVING SUM(*) = $1") ∧
    (usersHaving (twoOf .sum "*") [{ function := .sum, field := "*" }]).compile
        { schema := usersSchema, dialect := .postgres }
      = .error (.missingAggregationField .sum) ∧
    (∃ compiled, (usersHaving (twoOf .count "*") [{ function := .count }]).compile
          { schema := usersSchema, dialect := .postgres } = .ok compiled ∧
        (compiled.statement.prepare .postgres).sql
          = "SELECT id, COUNT(*) AS count_ FROM users GROUP BY id HAVING COUNT(*) = $1") ∧
    ∃ e, (usersHaving (twoOf .count "") []).compile
        { schema := usersSchema, dialect := .postgres } = .error e :=
  ⟨⟨_, rfl, by decide +kernel⟩, rfl, ⟨_, rfl, by decide +kernel⟩, _, rfl⟩

end SqlQuery
