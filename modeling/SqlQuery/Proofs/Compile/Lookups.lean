import SqlQuery.Proofs.Compile.NamedQueries
import SqlQuery.Proofs.Compile.Selection
import SqlQuery.Proofs.Compile.TwoDialects
import SqlQuery.Proofs.Compile.WellFormed

/-!
# Which fields of a query for rows are looked up

A query for rows names fields in many places, of its own model and of the models of its
inclusions. `Query.LooksUp` lists the places that the compilation reads. The filter and the
selection of an inclusion are read, its selection only where the inclusion returns anything. What
is distinct is read where it decides what is written: in a dialect that has DISTINCT ON, and in the
others where it stands in for a selection.

> `Query.hasColumn_of_compile`: a query for rows that compiles has a column for all of them.

> `Query.atom_of_compile`: every condition that a query reads has been compiled.
-/

namespace SqlQuery

open Sql

/-- A field of a model has a column. -/
def Schema.HasColumn (s : Schema) (model field : String) : Prop :=
  ∃ column, s.column model field = .ok column

/-! ## Conditions -/

namespace Condition

variable {c : Condition} {env : Env} {scope : FilterScope} {a : Atom}

/-- A condition that is compiled is about a column. -/
theorem hasColumn_of_atom {model : String} (hmodel : scope.model = some model)
    (h : c.atom env scope = .ok a) : env.schema.HasColumn model c.field := by
  have hfield := (atom_ok_iff.mp ⟨a, h⟩).field
  rw [hmodel] at hfield
  exact Schema.columnOf_ok_iff.mpr hfield

/-- A condition on an array column is compiled only where there are arrays. -/
theorem arrays_of_atom (hc : c.onArrays = true) (h : c.atom env scope = .ok a) :
    env.dialect.arrays?.isSome = true := by
  have hop : c.op ∈ [.isEmpty, .has, .hasEvery, .hasSome] := by
    revert hc
    unfold onArrays
    cases c.op <;> simp
  have hdialect := (atom_ok_iff.mp ⟨a, h⟩).arrays hop
  cases hd : env.dialect with
  | sqlite => exact absurd hd hdialect
  | postgres | mysql => rfl

end Condition

namespace Filter

variable {f : Filter} {env : Env} {scope : FilterScope} {p : Option Predicate}

/-- Every condition of a filter has been compiled with it. -/
theorem atom_of_compile (h : f.compile env scope = .ok p) :
    ∀ c ∈ f.allConditions, ∃ a, c.atom env scope = .ok a := by
  have hatoms := (compileNode_spec env scope f 1 p h).atoms
  intro c hc
  obtain ⟨a, -, ha⟩ := exists_mem_of_forall₂ (List.Forall₂.flip hatoms) c hc
  exact ⟨a, ha⟩

end Filter

/-- A condition added to a filter stands behind those that were there. -/
theorem Filter.mem_andCondition (f : Filter) (added : Condition) :
    added ∈ (f.andCondition added).allConditions ∧
      ∀ c ∈ f.allConditions, c ∈ (f.andCondition added).allConditions := by
  unfold andCondition
  split
  next hempty =>
    rw [(isEmpty_iff f).mp hempty]
    simp [Filter.and, allConditions, conditionsOf]
  next =>
    obtain ⟨op, conditions, nested⟩ := f
    split
    · simp +contextual [addCondition, allConditions, or_imp]
    · simp +contextual [allConditions, conditionsOf]

namespace Query

/-- The conditions that a selection reads: those of the filters of the inclusions, those of the
root filter with the cursor, and those on groups. -/
def readBySelect (q : Query) : List Condition :=
  (Inclusion.preorderOf q.inclusions).flatMap (·.ownFilter.allConditions)
    ++ q.seekFilter.allConditions ++ q.having.allConditions

/-- The conditions that the compilation of a query reads; an insertion reads none. -/
def conditions (q : Query) : List Condition :=
  match q.payload with
  | .create _ | .createMany _ | .upsert .. => []
  | .update _ => q.filter.allConditions
  | .none =>
    if q.operation = .delete ∨ q.operation = .deleteMany then q.filter.allConditions
    else q.readBySelect

/-- The fields that the compilation of a query for rows looks up, each with its model. -/
inductive LooksUp (q : Query) (schema : Schema) (d : Dialect) : String → String → Prop where
  | selection {field : String} : field ∈ q.selection → LooksUp q schema d q.model field
  | distinct {field : String} : d.distinctOn = true ∨ q.selection = [] → field ∈ q.distinct →
      LooksUp q schema d q.model field
  | filter {c : Condition} : c ∈ q.filter.allConditions → LooksUp q schema d q.model c.field
  | having {c : Condition} : c ∈ q.having.allConditions → LooksUp q schema d q.model c.field
  | orderBy {o : Ordering} : o ∈ q.orderBy → LooksUp q schema d q.model o.field
  | groupBy {field : String} : field ∈ q.groupBy → LooksUp q schema d q.model field
  | cursor {c : Cursor} : q.cursor = some c → LooksUp q schema d q.model c.field
  | joined {site : JoinSite} {r : Relation} {c : Condition} :
      site ∈ Inclusion.sitesOf schema q.model q.inclusions →
      schema.relation site.model site.inclusion.relation = .ok r →
      c ∈ site.inclusion.ownFilter.allConditions → LooksUp q schema d r.toModel c.field
  | returned {site : JoinSite} {r : Relation} {inner : Query} {field : String} :
      site ∈ Inclusion.sitesOf schema q.model q.inclusions →
      schema.relation site.model site.inclusion.relation = .ok r →
      site.inclusion.projects = true → site.inclusion.query = some inner →
      field ∈ inner.selection → LooksUp q schema d r.toModel field

end Query

/-! ## Joins -/

namespace Inclusion

mutual

/-- Every site of a tree has its node. -/
theorem JoinedAs.sites_eq {env : Env} :
    ∀ {i : Inclusion} {parent : JoinParent} {used : List String} {nodes : List JoinNode},
      JoinedAs env parent used i nodes →
        sites env.schema parent.model i
          = nodes.map fun n => { model := n.parent.model, inclusion := n.inclusion }
  | ⟨relation, query, projects, nested⟩, parent, _, n :: below, .mk hparent _ hi hn hbelow => by
    have hrelation : env.schema.relation parent.model relation = .ok n.relation := by
      have h := hn.relation_eq
      rwa [hparent, hi] at h
    have hrest : sitesOf env.schema n.relation.toModel nested = _ := hbelow.sites_eq
    rw [sites, hrelation, List.map_cons, hparent, hi]
    exact congrArg _ hrest

/-- The sites of a forest are where its nodes hang. -/
theorem AllJoinedAs.sites_eq {env : Env} :
    ∀ {is : List Inclusion} {parent : JoinParent} {used : List String} {nodes : List JoinNode},
      AllJoinedAs env parent used is nodes →
        sitesOf env.schema parent.model is
          = nodes.map fun n => { model := n.parent.model, inclusion := n.inclusion }
  | _, _, _, _, .nil => by rw [sitesOf, List.map_nil]
  | _, _, _, _, .cons hfirst hrest => by
    rw [sitesOf, hfirst.sites_eq, hrest.sites_eq, List.map_append]

end

end Inclusion

/-- A site of a query that selects is that of a node. -/
theorem Query.SelectedAs.exists_node {q : Query} {env : Env} {plan : JoinPlan} {s : Select}
    {mapping : ResultMapping} (h : q.SelectedAs env plan s mapping) :
    ∃ nodes : List JoinNode, nodes.map (·.inclusion) = Inclusion.preorderOf q.inclusions ∧
      (Inclusion.sitesOf env.schema q.model q.inclusions
        = nodes.map fun n => { model := n.parent.model, inclusion := n.inclusion }) ∧
      ∀ n ∈ nodes, n.Compiled env := by
  obtain ⟨nodes, hjoined, -⟩ := Inclusion.allJoinedAs_of_compileJoins h.plan_eq
  exact ⟨nodes, hjoined.inclusions, hjoined.sites_eq, hjoined.spec.2⟩

namespace JoinNode.Compiled

variable {env : Env} {n : JoinNode}

/-- The conditions of an inclusion are compiled with its join. -/
theorem atom (h : n.Compiled env) :
    ∀ c ∈ n.inclusion.ownFilter.allConditions, ∃ a,
      c.atom env { model := some n.relation.toModel, qualifier := some n.join.aliasName
                   clause := .joinOn } = .ok a := by
  obtain ⟨equalities, filter, hjoined⟩ := h.joined
  have hatoms := (Inclusion.compileFilter_spec hjoined.filter_eq).atoms
  intro c hc
  obtain ⟨a, -, ha⟩ := exists_mem_of_forall₂ (List.Forall₂.flip hatoms) c hc
  exact ⟨a, ha⟩

/-- The fields that an inclusion selects have columns where it returns them. -/
theorem hasColumn_of_selection (h : n.Compiled env) (hprojects : n.inclusion.projects = true)
    {inner : Query} (hinner : n.inclusion.query = some inner) :
    ∀ field ∈ inner.selection, env.schema.HasColumn n.relation.toModel field := by
  intro field hfield
  have hne : inner.selection.isEmpty = false := by
    rw [List.isEmpty_eq_false_iff]
    rintro hnil
    rw [hnil] at hfield
    cases hfield
  have hwanted : n.inclusion.wantedFields env.schema n.relation.toModel = .ok inner.selection := by
    unfold Inclusion.wantedFields
    rw [hinner]
    simp [hne]
  have hreturns := h.returns
  generalize n.returned = returned at hreturns
  cases hreturns with
  | nothing hhidden => rw [hprojects] at hhidden; cases hhidden
  | star _ hnone =>
    rw [Except.ok.inj (hwanted.symm.trans hnone)] at hfield
    cases hfield
  | fields _ hfields _ hitems =>
    rw [Except.ok.inj (hwanted.symm.trans hfields)] at hfield
    obtain ⟨item, -, column, hcolumn, -⟩ :=
      exists_mem_of_forall₂ (List.Forall₂.flip hitems) field hfield
    exact ⟨column, hcolumn⟩

end JoinNode.Compiled

/-! ## Queries -/

namespace Query

variable {q : Query} {env : Env}

/-- A field of the root model that is found has a column. -/
theorem hasColumn_of_rootColumn {qualifier : Option String} {field : String} {ref : ColumnRef}
    (h : q.rootColumn env.schema qualifier field = .ok ref) :
    env.schema.HasColumn q.model field := by
  unfold rootColumn at h
  obtain ⟨column, hcolumn, -⟩ := bind_eq_ok.mp h
  exact ⟨column, hcolumn⟩

/-- Fields of the root model that are found have columns. -/
theorem hasColumn_of_rootColumns {qualifier : Option String} {fields : List String}
    {refs : List ColumnRef} (h : fields.mapM (q.rootColumn env.schema qualifier) = .ok refs) :
    ∀ field ∈ fields, env.schema.HasColumn q.model field := by
  intro field hfield
  obtain ⟨ref, -, href⟩ :=
    exists_mem_of_forall₂ (List.Forall₂.flip (forall₂_of_mapM h)) field hfield
  exact hasColumn_of_rootColumn href

namespace SelectedAs

variable {plan : JoinPlan} {s : Select} {mapping : ResultMapping}

/-- Every condition that a selection reads has been compiled. -/
theorem atom (h : q.SelectedAs env plan s mapping) :
    ∀ c ∈ q.readBySelect, ∃ scope a, c.atom env scope = .ok a := by
  intro c hc
  obtain ⟨nodes, hinclusions, -, hnodes⟩ := h.exists_node
  unfold readBySelect at hc
  rw [List.mem_append, List.mem_append, List.mem_flatMap] at hc
  rcases hc with (⟨i, hi, hc⟩ | hc) | hc
  · rw [← hinclusions] at hi
    obtain ⟨n, hn, rfl⟩ := List.mem_map.mp hi
    exact ⟨_, (hnodes n hn).atom c hc⟩
  · exact ⟨_, Filter.atom_of_compile h.where_eq c hc⟩
  · exact ⟨_, Filter.atom_of_compile h.having_eq c hc⟩

/-- The fields that a query for rows selects have columns. -/
theorem hasColumn_of_selected (h : q.SelectedAs env plan s mapping)
    (hfinds : q.operation.finds = true) :
    ∀ field ∈ q.selectedFields env.dialect, env.schema.HasColumn q.model field := by
  have hitems := h.items_eq
  rw [Operation.isAggregate_of_finds hfinds] at hitems
  unfold rowItems at hitems
  obtain ⟨items, hitems, -⟩ := bind_eq_ok.mp hitems
  intro field hfield
  obtain ⟨item, -, hitem⟩ :=
    exists_mem_of_forall₂ (List.Forall₂.flip (forall₂_of_mapM hitems)) field hfield
  unfold rootItem at hitem
  obtain ⟨ref, href, -⟩ := bind_eq_ok.mp hitem
  exact hasColumn_of_rootColumn href

/-- The fields by which rows are distinct have columns where the dialect writes them. -/
theorem hasColumn_of_distinctOn (h : q.SelectedAs env plan s mapping)
    (hfinds : q.operation.finds = true) (hon : env.dialect.distinctOn = true) :
    ∀ field ∈ q.distinct, env.schema.HasColumn q.model field := by
  have hdistinct := h.distinct_eq
  unfold distinctRows at hdistinct
  intro field hfield
  have hsome : ¬(q.distinct.isEmpty || q.operation.isAggregate) = true := by
    rw [Operation.isAggregate_of_finds hfinds, Bool.or_false, List.isEmpty_iff]
    rintro hnil
    rw [hnil] at hfield
    cases hfield
  rw [if_neg hsome, if_pos hon] at hdistinct
  obtain ⟨refs, hrefs, -⟩ := bind_eq_ok.mp hdistinct
  exact hasColumn_of_rootColumns hrefs field hfield

end SelectedAs

/-- A query for rows that compiles has a column for every field that is looked up, and a relation
for every inclusion. -/
theorem hasColumn_of_compile {c : Compiled} (hfinds : q.operation.finds = true)
    (h : q.compile env = .ok c) :
    (∀ model field, q.LooksUp env.schema env.dialect model field →
      env.schema.HasColumn model field) ∧
    ∀ site ∈ Inclusion.sitesOf env.schema q.model q.inclusions,
      ∃ r, env.schema.relation site.model site.inclusion.relation = .ok r := by
  have hreads : q.operation.reads = true := by rw [Operation.reads, hfinds, Bool.true_or]
  obtain ⟨s, plan, -, hselected⟩ := selectedAs_of_compile hreads h
  obtain ⟨nodes, -, hsites, hnodes⟩ := hselected.exists_node
  -- a site is that of a node, whose relation is the one that is found for it
  have hnode {site : JoinSite} (hsite : site ∈ Inclusion.sitesOf env.schema q.model q.inclusions) :
      ∃ n : JoinNode, n.Compiled env ∧ n.inclusion = site.inclusion ∧
        env.schema.relation site.model site.inclusion.relation = .ok n.relation := by
    rw [hsites] at hsite
    obtain ⟨n, hn, rfl⟩ := List.mem_map.mp hsite
    exact ⟨n, hnodes n hn, rfl, (hnodes n hn).relation_eq⟩
  have hwhere {c : Condition} (hc : c ∈ q.seekFilter.allConditions) :
      env.schema.HasColumn q.model c.field := by
    obtain ⟨a, ha⟩ := Filter.atom_of_compile hselected.where_eq c hc
    exact c.hasColumn_of_atom rfl ha
  refine ⟨?_, fun site hsite => ?_⟩
  · intro model field hlooks
    cases hlooks with
    | selection hfield =>
      refine hselected.hasColumn_of_selected hfinds field ?_
      unfold selectedFields
      rw [if_neg]
      · exact hfield
      · rw [Bool.and_eq_true, List.isEmpty_iff]
        rintro ⟨hnil, -⟩
        rw [hnil] at hfield
        cases hfield
    | distinct hread hfield =>
      cases hon : env.dialect.distinctOn with
      | true => exact hselected.hasColumn_of_distinctOn hfinds hon field hfield
      | false =>
        have hnil : q.selection = [] := hread.resolve_left (by simp [hon])
        refine hselected.hasColumn_of_selected hfinds field ?_
        unfold selectedFields
        rw [if_pos (by simp [hnil, hon])]
        exact hfield
    | @filter c hc =>
      refine hwhere ?_
      unfold seekFilter
      cases q.cursor with
      | none => exact hc
      | some cursor => exact (q.filter.mem_andCondition _).2 c hc
    | @having c hc =>
      obtain ⟨a, ha⟩ := Filter.atom_of_compile hselected.having_eq c hc
      exact c.hasColumn_of_atom rfl ha
    | orderBy ho =>
      obtain ⟨entry, -, hentry⟩ := exists_mem_of_forall₂
        (List.Forall₂.flip (forall₂_of_mapM hselected.orderBy_eq)) _ ho
      obtain ⟨ref, href, -⟩ := bind_eq_ok.mp hentry
      exact hasColumn_of_rootColumn href
    | groupBy hfield => exact hasColumn_of_rootColumns hselected.groupBy_eq field hfield
    | @cursor cursor hcursor =>
      have hmem : q.seek cursor ∈ q.seekFilter.allConditions := by
        unfold seekFilter
        rw [hcursor]
        exact (q.filter.mem_andCondition _).1
      exact hwhere hmem
    | joined hsite hr hc =>
      obtain ⟨n, hn, hinclusion, hrelation⟩ := hnode hsite
      cases hr.symm.trans hrelation
      rw [← hinclusion] at hc
      obtain ⟨a, ha⟩ := hn.atom _ hc
      exact Condition.hasColumn_of_atom rfl ha
    | returned hsite hr hprojects hinner hfield =>
      obtain ⟨n, hn, hinclusion, hrelation⟩ := hnode hsite
      cases hr.symm.trans hrelation
      rw [← hinclusion] at hprojects hinner
      exact hn.hasColumn_of_selection hprojects hinner _ hfield
  · obtain ⟨n, -, -, hrelation⟩ := hnode hsite
    exact ⟨n.relation, hrelation⟩

/-- Every condition that a compiled query reads has been compiled. -/
theorem atom_of_compile {compiled : Compiled} (h : q.compile env = .ok compiled) :
    ∀ c ∈ q.conditions, ∃ scope a, c.atom env scope = .ok a := by
  have hsafe {p : Predicate} (h : q.safeWhere env = .ok p) :
      ∀ c ∈ q.filter.allConditions, ∃ scope a, c.atom env scope = .ok a :=
    fun c hc => ⟨_, Filter.atom_of_compile (compile_of_safeWhere h) c hc⟩
  intro c hc
  unfold conditions at hc
  have hroute := route_of_compile h
  generalize compiled.statement = statement at hroute
  cases hroute with
  | create _ hpayload _ | createMany _ hpayload _ | upsert _ hpayload _ =>
    rw [hpayload] at hc
    cases hc
  | update _ hpayload hupdate =>
    rw [hpayload] at hc
    unfold compileUpdate at hupdate
    obtain ⟨-, -, hupdate⟩ := bind_eq_ok.mp hupdate
    obtain ⟨table, -, hupdate⟩ := bind_eq_ok.mp hupdate
    obtain ⟨assignments, -, hupdate⟩ := bind_eq_ok.mp hupdate
    obtain ⟨p, hp, -⟩ := bind_eq_ok.mp hupdate
    exact hsafe hp c hc
  | delete hdelete hpayload hcompiled =>
    rw [hpayload] at hc
    dsimp only at hc
    rw [if_pos hdelete] at hc
    unfold compileDelete at hcompiled
    obtain ⟨table, -, hcompiled⟩ := bind_eq_ok.mp hcompiled
    obtain ⟨p, hp, -⟩ := bind_eq_ok.mp hcompiled
    exact hsafe hp c hc
  | select hdelete _ hpayload hselect =>
    rw [hpayload] at hc
    dsimp only at hc
    rw [if_neg hdelete] at hc
    obtain ⟨plan, hselected⟩ := selectedAs_of_compileSelect hselect
    exact hselected.atom c hc

end Query

end SqlQuery
