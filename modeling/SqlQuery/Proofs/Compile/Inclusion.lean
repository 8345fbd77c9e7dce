import SqlQuery.Proofs.Compile.Meaning

/-!
# Inclusions and their joins

The inclusions of a query are a forest and its joins are a list. `Inclusion.sites`
goes through the forest in pre-order and keeps for every inclusion the model that it
hangs on, which the relations on the way to it decide.

> `Inclusion.compile_spec`: the joins of a plan are those of the sites, one by one.
-/

namespace SqlQuery

open Sql

/-- An inclusion, and the model whose relation it is. -/
structure JoinSite where
  model : String
  inclusion : Inclusion

namespace Inclusion

/-- The filter of the rows that are joined. -/
def ownFilter (i : Inclusion) : Filter :=
  match i.query with
  | some q => q.filter
  | none => {}

mutual

/-- The inclusions of a tree in pre-order: each before those below it. -/
def preorder : Inclusion → List Inclusion
  | ⟨relation, query, projects, nested⟩ =>
    ⟨relation, query, projects, nested⟩ :: preorderOf nested

/-- The inclusions of some trees in pre-order. -/
def preorderOf : List Inclusion → List Inclusion
  | [] => []
  | i :: rest => preorder i ++ preorderOf rest

end

mutual

/-- The inclusions of a tree in pre-order, each with its model; where a relation is
unknown, nothing below it has one. -/
def sites (schema : Schema) (model : String) : Inclusion → List JoinSite
  | ⟨relation, query, projects, nested⟩ =>
    ⟨model, ⟨relation, query, projects, nested⟩⟩ ::
      match schema.relation model relation with
      | .ok r => sitesOf schema r.toModel nested
      | .error _ => []

/-- The inclusions of some trees in pre-order, each with its model. -/
def sitesOf (schema : Schema) (model : String) : List Inclusion → List JoinSite
  | [] => []
  | i :: rest => sites schema model i ++ sitesOf schema model rest

end

end Inclusion

/-- The join of an inclusion: the table of the relation, on the relation's equalities
and on the inclusion's filter. -/
structure JoinedBy (env : Env) (site : JoinSite) (j : Join) (relation : Relation)
    (parent : JoinParent) (equalities : List Atom) (filter : Option Predicate) : Prop where
  model_eq : parent.model = site.model
  relation_eq : env.schema.relation site.model site.inclusion.relation = .ok relation
  equalities_eq : relationEqualities env.schema parent relation j.aliasName = .ok equalities
  filter_eq : site.inclusion.compileFilter env relation.toModel j.aliasName = .ok filter
  on_eq : j.on = .all (equalities.map .atom ++ filter.toList)

/-- The join that an inclusion is compiled to. -/
def JoinSite.CompiledTo (env : Env) (site : JoinSite) (j : Join) : Prop :=
  ∃ relation parent equalities filter, JoinedBy env site j relation parent equalities filter

/-- The joins of two plans are in the order of the plans. -/
theorem JoinPlan.joins_append (a b : JoinPlan) : (a ++ b).joins = a.joins ++ b.joins :=
  rfl

/-- An atom says that the columns of a pair of fields are equal. -/
def Pairs (schema : Schema) (parent : JoinParent) (target aliasName : String)
    (pair : String × String) (e : Atom) : Prop :=
  ∃ a b, schema.column parent.model pair.1 = .ok a ∧ schema.column target pair.2 = .ok b ∧
    e = .sameColumn ⟨some aliasName, b⟩ ⟨some parent.aliasName, a⟩

/-- Every pair of fields gives the equality of their columns. -/
theorem pairings_spec {schema : Schema} {parent : JoinParent} {target aliasName : String} :
    ∀ {pairs : List (String × String)} {equalities : List Atom},
      pairings schema parent target aliasName pairs = .ok equalities →
        List.Forall₂ (Pairs schema parent target aliasName) pairs equalities := by
  intro pairs
  induction pairs with
  | nil =>
    intro equalities h
    cases h
    exact .nil
  | cons pair rest ih =>
    intro equalities h
    rw [pairings] at h
    obtain ⟨a, ha, h⟩ := bind_eq_ok.mp h
    obtain ⟨b, hb, h⟩ := bind_eq_ok.mp h
    obtain ⟨more, hmore, h⟩ := bind_eq_ok.mp h
    cases h
    exact .cons ⟨a, b, ha, hb, rfl⟩ (ih hmore)

/-- A relation that is joined lists as many fields on one side as on the other, and some. -/
theorem paired_of_relationEqualities {schema : Schema} {parent : JoinParent}
    {relation : Relation} {aliasName : String} {equalities : List Atom}
    (h : relationEqualities schema parent relation aliasName = .ok equalities) :
    relation.fromFields.length = relation.toFields.length ∧ relation.fromFields ≠ [] := by
  unfold relationEqualities at h
  split at h
  next => cases h
  next hpaired => simpa using hpaired

/-- A relation has an equality for every pair of its fields, and at least one. -/
theorem relationEqualities_spec {schema : Schema} {parent : JoinParent} {relation : Relation}
    {aliasName : String} {equalities : List Atom}
    (h : relationEqualities schema parent relation aliasName = .ok equalities) :
    equalities ≠ [] ∧
      List.Forall₂ (Pairs schema parent relation.toModel aliasName)
        (relation.fromFields.zip relation.toFields) equalities := by
  obtain ⟨hlength, hsome⟩ := paired_of_relationEqualities h
  have hpairs : List.Forall₂ (Pairs schema parent relation.toModel aliasName)
      (relation.fromFields.zip relation.toFields) equalities := by
    unfold relationEqualities at h
    split at h
    next => cases h
    next => exact pairings_spec h
  refine ⟨?_, hpairs⟩
  rintro rfl
  have hnone := hpairs.length_eq
  rw [List.length_zip, ← hlength, Nat.min_self, List.length_nil, List.length_eq_zero_iff] at hnone
  exact hsome hnone

namespace Inclusion

/-- Fields are returned without a join of their own. -/
theorem joins_projectFields {schema : Schema} {model aliasName : String} {path : List String} :
    ∀ {fields : List String} {plan : JoinPlan},
      projectFields schema model aliasName path fields = .ok plan → plan.joins = [] := by
  intro fields
  induction fields with
  | nil =>
    intro plan h
    cases h
    rfl
  | cons field rest ih =>
    intro plan h
    rw [projectFields] at h
    obtain ⟨column, -, h⟩ := bind_eq_ok.mp h
    obtain ⟨more, hmore, h⟩ := bind_eq_ok.mp h
    cases h
    have hrest := ih hmore
    rw [JoinPlan.joins_append, hrest]
    rfl

/-- What an inclusion returns joins nothing. -/
theorem joins_project {i : Inclusion} {schema : Schema} {model aliasName : String}
    {path : List String} {plan : JoinPlan}
    (h : i.project schema model aliasName path = .ok plan) : plan.joins = [] := by
  unfold project at h
  split at h
  next =>
    obtain ⟨fields, -, h⟩ := bind_eq_ok.mp h
    split at h
    next => cases h; rfl
    next => exact joins_projectFields h
  next => cases h; rfl

/-- An inclusion's own plan is one join, and what hangs below it hangs on the model of
its relation. -/
theorem compileOwn_spec {i : Inclusion} {env : Env} {parent : JoinParent} {used : List String}
    {own : JoinPlan} {here : JoinParent} (h : i.compileOwn env parent used = .ok (own, here)) :
    ∃ relation j, env.schema.relation parent.model i.relation = .ok relation ∧
      here.model = relation.toModel ∧ own.joins = [j] ∧
      JoinSite.CompiledTo env ⟨parent.model, i⟩ j := by
  unfold compileOwn at h
  obtain ⟨relation, hrelation, h⟩ := bind_eq_ok.mp h
  obtain ⟨table, _, h⟩ := bind_eq_ok.mp h
  obtain ⟨equalities, hequalities, h⟩ := bind_eq_ok.mp h
  obtain ⟨filter, hfilter, h⟩ := bind_eq_ok.mp h
  obtain ⟨items, hitems, h⟩ := bind_eq_ok.mp h
  cases h
  have hrelation := Refusal.of_eq_ok.mp hrelation
  have hitems := joins_project (Refusal.of_eq_ok.mp (Refusal.after_eq_ok.mp hitems))
  let j : Join :=
    { table, aliasName := freshAlias used (parent.aliasName ++ "_" ++ relation.name)
      on := .all (equalities.map .atom ++ filter.toList) }
  have hj : JoinedBy env ⟨parent.model, i⟩ j relation parent equalities filter :=
    ⟨rfl, hrelation, Refusal.of_eq_ok.mp hequalities, hfilter, rfl⟩
  refine ⟨relation, j, hrelation, rfl, ?_, relation, parent, equalities, filter, hj⟩
  rw [JoinPlan.joins_append, hitems]
  rfl

mutual

/-- The joins of an inclusion and of those below it are those of their sites, and every
one of them has a site. -/
theorem compile_spec (env : Env) :
    ∀ (i : Inclusion) (parent : JoinParent) (depth : Nat) (used : List String)
      (out : JoinPlan × List String), compile env parent depth used i = .ok out →
        (i.sites env.schema parent.model).map (·.inclusion) = i.preorder ∧
          List.Forall₂ (JoinSite.CompiledTo env) (i.sites env.schema parent.model) out.1.joins
  | ⟨relation, query, projects, nested⟩, parent, depth, used, out, h => by
    rw [compile] at h
    split at h
    next => cases h
    next =>
      obtain ⟨⟨own, here⟩, hown, h⟩ := bind_eq_ok.mp h
      obtain ⟨⟨below, used'⟩, hbelow, h⟩ := bind_eq_ok.mp h
      cases h
      obtain ⟨r, j, hr, hmodel, hjoins, hj⟩ := compileOwn_spec hown
      obtain ⟨hall, hnested⟩ :=
        compileAll_spec env nested here _ _ _ (Refusal.after_eq_ok.mp hbelow)
      rw [hmodel] at hall hnested
      dsimp only at hr
      rw [sites, hr, JoinPlan.joins_append, hjoins]
      refine ⟨?_, .cons hj hnested⟩
      rw [List.map_cons, hall, preorder]

theorem compileAll_spec (env : Env) :
    ∀ (is : List Inclusion) (parent : JoinParent) (depth : Nat) (used : List String)
      (out : JoinPlan × List String), compileAll env parent depth used is = .ok out →
        (sitesOf env.schema parent.model is).map (·.inclusion) = preorderOf is ∧
          List.Forall₂ (JoinSite.CompiledTo env) (sitesOf env.schema parent.model is) out.1.joins
  | [], parent, depth, used, out, h => by
    rw [compileAll] at h
    cases h
    exact ⟨rfl, .nil⟩
  | i :: rest, parent, depth, used, out, h => by
    rw [compileAll] at h
    obtain ⟨⟨plan, used'⟩, hplan, h⟩ := bind_eq_ok.mp h
    obtain ⟨⟨more, used''⟩, hmore, h⟩ := bind_eq_ok.mp h
    cases h
    obtain ⟨hfirst, hjoins⟩ := compile_spec env i parent depth used _ hplan
    obtain ⟨hrest, hmorejoins⟩ :=
      compileAll_spec env rest parent depth used' _ (Refusal.after_eq_ok.mp hmore)
    rw [sitesOf, JoinPlan.joins_append]
    refine ⟨?_, List.rel_append hjoins hmorejoins⟩
    rw [List.map_append, hfirst, hrest, preorderOf]

end

/-- The inclusions of a query are joined in pre-order, each on its own site. -/
theorem compileJoins_spec {env : Env} {model aliasName : String} {inclusions : List Inclusion}
    {plan : JoinPlan} (h : compileJoins env model aliasName inclusions = .ok plan) :
    (sitesOf env.schema model inclusions).map (·.inclusion) = preorderOf inclusions ∧
      List.Forall₂ (JoinSite.CompiledTo env) (sitesOf env.schema model inclusions) plan.joins := by
  unfold compileJoins at h
  obtain ⟨out, hout, h⟩ := bind_eq_ok.mp h
  cases h
  exact compileAll_spec env inclusions _ _ _ _ hout

/-- The filter of a join as an operand of its condition. -/
theorem compileFilter_spec {env : Env} {i : Inclusion} {model aliasName : String}
    {filter : Option Predicate} (h : i.compileFilter env model aliasName = .ok filter) :
    i.ownFilter.OperandOf env
      { model := some model, qualifier := some aliasName, clause := .joinOn } filter := by
  unfold compileFilter at h
  unfold ownFilter
  cases hq : i.query with
  | some q =>
    rw [hq] at h
    exact Filter.compileOperand_spec h
  | none =>
    rw [hq] at h
    cases h
    exact ⟨.nil, by simp, fun _ _ => rfl⟩

end Inclusion

end SqlQuery
