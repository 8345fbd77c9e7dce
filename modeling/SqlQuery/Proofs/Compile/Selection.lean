import SqlQuery.Proofs.Compile.JoinNode
import SqlQuery.Proofs.Compile.Route

/-!
# What a query that reads is compiled to

A query for rows or for aggregates becomes one selection, clause by clause. `SelectedAs` keeps
for every clause the compilation that it came from, and the plan of the joins beside them.

> `Query.selectedAs_of_compile`: a query that reads and compiles is a selection, and
> each of its clauses was compiled.
-/

namespace SqlQuery

open Sql

/-- Whether an operation finds rows of a model. -/
def Operation.finds : Operation → Bool
  | .findMany | .findFirst | .findUnique => true
  | _ => false

/-- Whether an operation finds rows or aggregates them. -/
def Operation.reads (o : Operation) : Bool :=
  o.finds || o.isAggregate

/-- An operation that finds rows aggregates none. -/
theorem Operation.isAggregate_of_finds {o : Operation} (h : o.finds = true) :
    o.isAggregate = false := by
  revert h
  cases o <;> decide

namespace Query

/-- What the columns of the root model are qualified with: its table, as soon as anything is
joined. -/
def qualifier (plan : JoinPlan) (table : String) : Option String :=
  if plan.joins.isEmpty then none else some table

/-- A selection with its mapping, each part of which a query was compiled to. -/
structure SelectedAs (q : Query) (env : Env) (plan : JoinPlan) (s : Select)
    (mapping : ResultMapping) : Prop where
  checked : q.operation.isAggregate = true → q.checkAggregates = .ok ()
  table_eq : env.schema.table q.model = .ok s.table
  plan_eq : compileJoins env q.model s.table q.inclusions = .ok plan
  items_eq : (if q.operation.isAggregate then
      q.aggregateItems env.schema (qualifier plan s.table)
    else q.rowItems env (qualifier plan s.table) plan) = .ok (s.items, mapping.fields)
  distinct_eq : q.distinctRows env (qualifier plan s.table) = .ok s.distinct
  where_eq : q.seekFilter.compile env { model := some q.model, qualifier := qualifier plan s.table }
    = .ok s.where_
  groupBy_eq : q.groupBy.mapM (q.rootColumn env.schema (qualifier plan s.table)) = .ok s.groupBy
  having_eq : q.having.compile env
      { model := some q.model, qualifier := qualifier plan s.table, clause := .having }
    = .ok s.having
  orderBy_eq : (q.orderBy.mapM fun o => do
      return (← q.rootColumn env.schema (qualifier plan s.table) o.field, o.order))
    = .ok s.orderBy
  joins_eq : s.joins = plan.joins
  relations_eq : mapping.relations = plan.relations

variable {q : Query} {env : Env}

/-- A selection comes from the clauses of its query, with the plan of the joins behind them. -/
theorem selectedAs_of_compileSelect {s : Select} {mapping : ResultMapping}
    (h : q.compileSelect env = .ok (s, mapping)) : ∃ plan, q.SelectedAs env plan s mapping := by
  unfold compileSelect at h
  have hchecked := passed_of_check h
  have h := check_eq_ok h
  obtain ⟨table, htable, h⟩ := bind_eq_ok.mp h
  obtain ⟨plan, hplan, h⟩ := bind_eq_ok.mp h
  obtain ⟨⟨items, fields⟩, hitems, h⟩ := choice_eq_ok h
  obtain ⟨distinct, hdistinct, h⟩ := bind_eq_ok.mp h
  obtain ⟨where_, hwhere, h⟩ := bind_eq_ok.mp h
  obtain ⟨groupBy, hgroupBy, h⟩ := bind_eq_ok.mp h
  obtain ⟨having, hhaving, h⟩ := bind_eq_ok.mp h
  obtain ⟨orderBy, horderBy, h⟩ := bind_eq_ok.mp h
  cases h
  exact ⟨plan,
    { checked := hchecked
      table_eq := htable
      plan_eq := Refusal.forget_eq_ok.mp hplan
      items_eq := hitems
      distinct_eq := hdistinct
      where_eq := Refusal.forget_eq_ok.mp hwhere
      groupBy_eq := hgroupBy
      having_eq := Refusal.forget_eq_ok.mp hhaving
      orderBy_eq := horderBy
      joins_eq := rfl
      relations_eq := rfl }⟩

/-- A query that reads is compiled to a selection, clause by clause. -/
theorem selectedAs_of_compile {c : Compiled} (hreads : q.operation.reads = true)
    (h : q.compile env = .ok c) :
    ∃ s plan, c.statement = .select s ∧ q.SelectedAs env plan s c.mapping := by
  have hroute := route_of_compile h
  generalize hs : c.statement = statement at hroute
  cases hroute with
  | create hop | createMany hop | upsert hop =>
    rw [hop] at hreads
    cases hreads
  | update hop | delete hop =>
    rcases hop with hop | hop <;> rw [hop] at hreads <;> cases hreads
  | @select s _ hdelete _ hpayload _ =>
    obtain ⟨plan, hselected⟩ :=
      selectedAs_of_compileSelect (compileSelect_of_compile hdelete hpayload h hs)
    exact ⟨s, plan, rfl, hselected⟩

end Query

end SqlQuery
