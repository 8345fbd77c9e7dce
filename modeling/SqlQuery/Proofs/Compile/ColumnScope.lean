import SqlQuery.Proofs.Compile.Meaning
import SqlQuery.Proofs.Compile.Selection
import SqlQuery.Proofs.Sql.References

/-!
# Every column is looked up in one table

As soon as a query joins anything, a bare column could belong to several tables, so every
reference has to say which table or alias it means, and to mean one that the statement
declares. The references come from the fields of the root model, from the conditions of
filters, from the equalities of relations and from what the inclusions return; each of them
takes its qualifier from its surroundings, and `ColumnRef.Under` says which one.

> `Condition.columnRef_of_atom`: an atom reads the column of its condition and no other.

> `JoinNode.Compiled.on_under`: the condition of a join reads the joined table and the one
> that it hangs on.

> `Query.select_scoped`: the selections that queries are compiled to are well scoped.
-/

namespace SqlQuery

open Sql

/-- A reference under a qualifier, or to the columns of all tables. -/
def Sql.ColumnRef.Under (qualifier : Option String) (ref : ColumnRef) : Prop :=
  ref.qualifier = qualifier ∨ ref = { column := "*" }

/-- A reference that says which one of some tables it means, or one to the columns of all
tables. -/
def Sql.ColumnRef.Names (aliases : List String) (ref : ColumnRef) : Prop :=
  ref = { column := "*" } ∨ ∃ a ∈ aliases, ref.qualifier = some a

/-- A reference that stands under an alias names a declared one, if that is declared. -/
theorem Sql.ColumnRef.Under.names {ref : ColumnRef} {aliasName : String} {aliases : List String}
    (h : ref.Under (some aliasName)) (hmem : aliasName ∈ aliases) : ref.Names aliases := by
  rcases h with hown | hstar
  · exact Or.inr ⟨aliasName, hmem, hown⟩
  · exact Or.inl hstar

/-- A reference that stands under no alias is not qualified. -/
theorem Sql.ColumnRef.Under.unqualified {ref : ColumnRef} (h : ref.Under none) :
    ref.qualifier = none := by
  rcases h with hown | rfl
  · exact hown
  · rfl

/-! ## Filters -/

namespace Condition

variable {c : Condition} {env : Env} {scope : FilterScope} {lhs : Operand} {a : Atom}

/-- An operand refers to the column of its condition. -/
theorem columnRef_of_operand (h : c.operand env scope = .ok lhs) :
    c.columnRef env scope = .ok lhs.ref := by
  unfold operand at h
  obtain ⟨ref, href, h⟩ := bind_eq_ok.mp h
  rw [href]
  split at h
  next => cases h; rfl
  next =>
    split at h
    · cases h; rfl
    · cases h

theorem operands_matching (op : Comparison) (nullExpected : Bool) :
    (c.matching lhs op nullExpected).operands ⊆ [lhs] := by
  unfold matching
  split <;> exact List.Subset.refl _

/-- A comparison of order has the operand of its condition. -/
theorem operands_ordered {op : Comparison} (h : c.ordered lhs op = .ok a) : a.operands ⊆ [lhs] := by
  unfold ordered at h
  split at h <;> cases h
  exact List.Subset.refl _

/-- A condition on a list has the operand of its condition, or none. -/
theorem operands_membership {expected : Bool} (h : c.membership lhs expected = .ok a) :
    a.operands ⊆ [lhs] := by
  unfold membership at h
  split at h <;> cases h
  · exact List.nil_subset _
  · exact List.Subset.refl _

/-- A condition on text has the operand of its condition. -/
theorem operands_patterned {before after : String} (h : c.patterned lhs before after = .ok a) :
    a.operands ⊆ [lhs] := by
  unfold patterned at h
  split at h <;> cases h
  exact List.Subset.refl _

/-- A condition on elements has the operand of its condition, or none. -/
theorem operands_elements {vacuous : Bool} {test : List Value → ArrayTest}
    (h : c.elements env lhs vacuous test = .ok a) : a.operands ⊆ [lhs] := by
  unfold elements at h
  split at h
  next => cases h
  next =>
    obtain ⟨style, -, h⟩ := bind_eq_ok.mp h
    cases h
    split
    · exact List.nil_subset _
    · exact List.Subset.refl _

/-- An atom looks at what its condition looks at, if it looks at anything. -/
theorem operand_of_atom (h : c.atom env scope = .ok a) :
    ∀ o ∈ a.operands, c.operand env scope = .ok o := by
  unfold atom at h
  obtain ⟨lhs, hlhs, h⟩ := bind_eq_ok.mp h
  have hsub : a.operands ⊆ [lhs] := by
    split at h
    next => cases h
    next =>
      cases hop : c.op <;> rw [hop] at h <;> dsimp only at h
      case equals | not => cases h; exact operands_matching ..
      case isIn | notIn => exact operands_membership h
      case lt | lte | gt | gte => exact operands_ordered h
      case contains | startsWith | endsWith => exact operands_patterned h
      case isNull =>
        split at h <;> cases h
        exact List.Subset.refl _
      case isEmpty | has =>
        split at h
        all_goals first
          | cases h
          | obtain ⟨style, rfl⟩ := arrays_spec h
            exact List.Subset.refl _
      case hasEvery | hasSome => exact operands_elements h
      case search =>
        split at h <;> cases h
        exact List.Subset.refl _
  intro o ho
  rw [List.mem_singleton.mp (hsub ho)]
  exact hlhs

/-- An atom reads the column of its condition, if it reads any. -/
theorem columnRef_of_atom (h : c.atom env scope = .ok a) :
    ∀ ref ∈ a.refs, c.columnRef env scope = .ok ref := by
  intro ref href
  rw [Atom.refs_eq] at href
  obtain ⟨o, ho, rfl⟩ := List.mem_map.mp href
  exact columnRef_of_operand (operand_of_atom h o ho)

/-- The column of a condition stands under the qualifier of its filter. -/
theorem under_of_columnRef {ref : ColumnRef} (h : c.columnRef env scope = .ok ref) :
    ref.Under scope.qualifier := by
  unfold columnRef at h
  obtain ⟨column, -, h⟩ := bind_eq_ok.mp h
  cases h
  by_cases hstar : column = "*"
  · right
    simp [hstar]
  · left
    exact if_neg hstar

end Condition

namespace Filter

variable {f : Filter} {env : Env} {scope : FilterScope} {p : Option Predicate}

/-- The columns of a compiled filter are those of its conditions. -/
theorem columnRef_of_compiledTo
    (h : Condition.CompiledTo env scope f.allConditions (Predicate.atomsOf p.toList)) :
    ∀ ref ∈ p.toList.flatMap (·.refs), ∃ c ∈ f.allConditions, c.columnRef env scope = .ok ref := by
  intro ref href
  obtain ⟨q, hq, href⟩ := List.mem_flatMap.mp href
  obtain ⟨a, ha, href⟩ := List.mem_flatMap.mp href
  have hatom : a ∈ Predicate.atomsOf p.toList := by
    rw [Predicate.atomsOf_eq]
    exact List.mem_flatMap.mpr ⟨q, hq, ha⟩
  obtain ⟨c, hc, hcompiled⟩ := exists_mem_of_forall₂ h a hatom
  exact ⟨c, hc, Condition.columnRef_of_atom hcompiled ref href⟩

/-- All references of compiled conditions stand under the qualifier of the filter. -/
theorem under_of_compiledTo
    (h : Condition.CompiledTo env scope f.allConditions (Predicate.atomsOf p.toList)) :
    ∀ ref ∈ p.toList.flatMap (·.refs), ref.Under scope.qualifier := by
  intro ref href
  obtain ⟨c, -, hc⟩ := columnRef_of_compiledTo h ref href
  exact Condition.under_of_columnRef hc

/-- All references of a filter stand under its qualifier. -/
theorem under_of_compile (h : f.compile env scope = .ok p) :
    ∀ ref ∈ p.toList.flatMap (·.refs), ref.Under scope.qualifier :=
  under_of_compiledTo (compileNode_spec env scope f 1 p h).atoms

end Filter

/-! ## Joins -/

theorem refs_all (parts : List Predicate) :
    (Predicate.all parts).refs = parts.flatMap (·.refs) := by
  show (Predicate.atomsOf parts).flatMap Atom.refs = parts.flatMap (·.refs)
  rw [Predicate.atomsOf_eq, List.flatMap_assoc]
  rfl

namespace JoinNode

variable {env : Env} {n : JoinNode}

/-- The condition of a join reads the joined table and the one that it hangs on. -/
theorem Compiled.on_under (h : n.Compiled env) :
    ∀ ref ∈ n.join.on.refs, ref.Names [n.join.aliasName, n.parent.aliasName] := by
  obtain ⟨equalities, filter, hjoined⟩ := h.joined
  rw [hjoined.on_eq, refs_all, List.flatMap_append]
  refine List.forall_mem_append.mpr ⟨?_, ?_⟩
  · intro ref href
    obtain ⟨p, hp, href⟩ := List.mem_flatMap.mp href
    obtain ⟨e, he, rfl⟩ := List.mem_map.mp hp
    obtain ⟨pair, -, a, b, -, -, rfl⟩ :=
      exists_mem_of_forall₂ (relationEqualities_spec hjoined.equalities_eq).2 e he
    rcases List.mem_cons.mp (by simpa [Predicate.refs, Predicate.atoms, Atom.refs] using href :
      ref ∈ [(⟨some n.join.aliasName, b⟩ : ColumnRef), ⟨some n.parent.aliasName, a⟩])
      with rfl | href
    · exact Or.inr ⟨n.join.aliasName, by simp, rfl⟩
    · rw [List.mem_singleton.mp href]
      exact Or.inr ⟨n.parent.aliasName, by simp, rfl⟩
  · intro ref href
    have hunder := Filter.under_of_compiledTo
      (Inclusion.compileFilter_spec hjoined.filter_eq).atoms ref href
    exact hunder.names (List.mem_cons_self ..)

/-- What a node returns is read from the joined table. -/
theorem Compiled.items_under (h : n.Compiled env) :
    ∀ item ∈ n.returned.items, item.ref.Under (some n.join.aliasName) := by
  obtain ⟨wanted, -, -, hitems⟩ := h.returns.spec
  intro item hitem
  rcases hitems with hitems | hitems
  · rw [hitems] at hitem
    rw [List.mem_singleton.mp hitem]
    exact Or.inl rfl
  · obtain ⟨field, -, column, -, rfl⟩ := exists_mem_of_forall₂ hitems item hitem
    exact Or.inl rfl

end JoinNode

/-! ## Selections -/

namespace Query

variable {q : Query} {schema : Schema} {env : Env} {qualifier : Option String}

/-- A column of the root model stands under the qualifier of the query. -/
theorem under_of_rootColumn {field : String} {ref : ColumnRef}
    (h : q.rootColumn schema qualifier field = .ok ref) : ref.Under qualifier := by
  unfold rootColumn at h
  obtain ⟨column, -, h⟩ := bind_eq_ok.mp h
  cases h
  exact Or.inl rfl

theorem under_of_rootColumns {fields : List String} {refs : List ColumnRef}
    (h : fields.mapM (q.rootColumn schema qualifier) = .ok refs) :
    ∀ ref ∈ refs, ref.Under qualifier := by
  intro ref href
  obtain ⟨field, -, hfield⟩ := exists_mem_of_forall₂ (forall₂_of_mapM h) ref href
  exact under_of_rootColumn hfield

/-- Groups and aggregates refer to columns of the root model. -/
theorem under_of_aggregateItems {items : List SelectItem} {fields : List FieldMapping}
    (h : q.aggregateItems schema qualifier = .ok (items, fields)) :
    ∀ item ∈ items, item.ref.Under qualifier := by
  unfold aggregateItems at h
  obtain ⟨groups, hgroups, h⟩ := bind_eq_ok.mp h
  obtain ⟨aggregates, haggregates, h⟩ := bind_eq_ok.mp h
  cases h
  refine List.forall_mem_append.mpr ⟨?_, ?_⟩
  · intro item hitem
    obtain ⟨field, -, hcompiled⟩ := exists_mem_of_forall₂ (forall₂_of_mapM hgroups) item hitem
    obtain ⟨ref, href, hcompiled⟩ := bind_eq_ok.mp hcompiled
    cases hcompiled
    exact under_of_rootColumn href
  · intro item hitem
    obtain ⟨a, -, hcompiled⟩ := exists_mem_of_forall₂ (forall₂_of_mapM haggregates) item hitem
    unfold aggregateItem at hcompiled
    split at hcompiled
    · cases hcompiled
      exact Or.inr rfl
    · obtain ⟨ref, href, hcompiled⟩ := bind_eq_ok.mp hcompiled
      cases hcompiled
      exact under_of_rootColumn href

/-- The items of rows are read from the root table, and behind them stand those of the
joins. -/
theorem under_of_rowItems {plan : JoinPlan} {items : List SelectItem}
    {fields : List FieldMapping} (h : q.rowItems env qualifier plan = .ok (items, fields)) :
    ∀ item ∈ items, item.ref.Under qualifier ∨ item ∈ plan.items := by
  unfold rowItems at h
  obtain ⟨own, hown, h⟩ := bind_eq_ok.mp h
  cases h
  refine List.forall_mem_append.mpr ⟨?_, fun item hitem => Or.inr hitem⟩
  intro item hitem
  left
  split at hitem
  · rw [List.mem_singleton.mp hitem]
    exact Or.inl rfl
  · obtain ⟨field, -, hcompiled⟩ := exists_mem_of_forall₂ (forall₂_of_mapM hown) item hitem
    unfold rootItem at hcompiled
    obtain ⟨ref, href, hcompiled⟩ := bind_eq_ok.mp hcompiled
    cases hcompiled
    exact under_of_rootColumn href

/-- Rows are made distinct by columns of the root model. -/
theorem under_of_distinctRows {distinct : Distinct}
    (h : q.distinctRows env qualifier = .ok distinct) :
    ∀ ref ∈ distinct.refs, ref.Under qualifier := by
  unfold distinctRows at h
  split at h
  next =>
    cases h
    exact fun _ href => absurd href List.not_mem_nil
  next =>
    split at h
    next =>
      obtain ⟨refs, hrefs, h⟩ := bind_eq_ok.mp h
      cases h
      exact under_of_rootColumns hrefs
    next =>
      cases h
      exact fun _ href => absurd href List.not_mem_nil

/-- Rows are sorted by columns of the root model. -/
theorem under_of_orderBy {entries : List (ColumnRef × SortOrder)}
    (h : (q.orderBy.mapM fun o => do
      return (← q.rootColumn schema qualifier o.field, o.order)) = .ok entries) :
    ∀ ref ∈ entries.map (·.1), ref.Under qualifier := by
  intro ref href
  obtain ⟨entry, hentry, rfl⟩ := List.mem_map.mp href
  obtain ⟨o, -, hcompiled⟩ := exists_mem_of_forall₂ (forall₂_of_mapM h) entry hentry
  obtain ⟨ref, hcolumn, hcompiled⟩ := bind_eq_ok.mp hcompiled
  cases hcompiled
  exact under_of_rootColumn hcolumn

/-- What a selection refers to is a column of the root table, or of a join that says so. -/
theorem SelectedAs.refs {plan : JoinPlan} {s : Select} {mapping : ResultMapping}
    (h : q.SelectedAs env plan s mapping) :
    ∀ ref ∈ s.refs, ref.Under (Query.qualifier plan s.table) ∨
      (∃ item ∈ plan.items, item.ref = ref) ∨ ∃ j ∈ plan.joins, ref ∈ j.on.refs := by
  have hitems : ∀ item ∈ s.items, item.ref.Under (Query.qualifier plan s.table) ∨
      item ∈ plan.items := by
    have hcompiled := h.items_eq
    split at hcompiled
    · exact fun item hitem => Or.inl (under_of_aggregateItems hcompiled item hitem)
    · exact under_of_rowItems hcompiled
  have hown : ∀ {refs : List ColumnRef},
      (∀ ref ∈ refs, ref.Under (Query.qualifier plan s.table)) →
        ∀ ref ∈ refs, ref.Under (Query.qualifier plan s.table) ∨
          (∃ item ∈ plan.items, item.ref = ref) ∨ ∃ j ∈ plan.joins, ref ∈ j.on.refs :=
    fun hrefs ref href => Or.inl (hrefs ref href)
  unfold Select.refs
  simp only [List.forall_mem_append]
  refine ⟨⟨⟨⟨⟨⟨hown (under_of_distinctRows h.distinct_eq), ?_⟩, ?_⟩,
    hown (Filter.under_of_compile h.where_eq)⟩, hown (under_of_rootColumns h.groupBy_eq)⟩,
    hown (Filter.under_of_compile h.having_eq)⟩, hown (under_of_orderBy h.orderBy_eq)⟩
  · intro ref href
    obtain ⟨item, hitem, rfl⟩ := List.mem_map.mp href
    exact (hitems item hitem).imp_right fun hplan => Or.inl ⟨item, hplan, rfl⟩
  · intro ref href
    obtain ⟨j, hj, href⟩ := List.mem_flatMap.mp href
    exact Or.inr (Or.inr ⟨j, h.joins_eq ▸ hj, href⟩)

end Query

/-! ## Well scoped selections -/

/-- The names that a selection declares for its table and its joins. -/
def Sql.Select.declared (s : Select) : List String :=
  s.table :: s.joins.map (·.aliasName)

/-- A selection in which every reference finds its column. The nodes are those of its joins;
each of them is tied to the one that its inclusion hangs on. -/
structure Sql.Select.Scoped (d : Dialect) (s : Select) (nodes : List JoinNode) : Prop where
  declared : s.declared.Nodup
  qualified : s.joins ≠ [] → ∀ ref ∈ references (s.tokens d), ref.Names s.declared
  unqualified : s.joins = [] → ∀ ref ∈ references (s.tokens d), ref.qualifier = none
  on : ∀ before n after, nodes = before ++ n :: after →
    n.parent.aliasName ∈ s.table :: before.map (·.join.aliasName) ∧
      ∀ ref ∈ references (n.join.on.tokens d), ref.Names [n.join.aliasName, n.parent.aliasName]

namespace Query

variable {q : Query} {env : Env}

/-- The nodes of a selection scope it. -/
theorem SelectedAs.scoped {plan : JoinPlan} {s : Select} {mapping : ResultMapping}
    (h : q.SelectedAs env plan s mapping) {nodes : List JoinNode}
    (hnodes : Inclusion.AllJoinedAs env { model := q.model, aliasName := s.table } [s.table]
      q.inclusions nodes) (hplan : plan = planOf nodes) : s.Scoped env.dialect nodes := by
  subst hplan
  have hcompiled := hnodes.spec.2
  have hdeclared : s.declared = s.table :: nodes.map (·.join.aliasName) := by
    rw [Select.declared, h.joins_eq, planOf, List.map_map]
    rfl
  have hown : ∀ n ∈ nodes, n.join.aliasName ∈ s.declared := by
    intro n hn
    rw [hdeclared]
    exact List.mem_cons_of_mem _ (List.mem_map_of_mem hn)
  have hparent : ∀ n ∈ nodes, n.parent.aliasName ∈ s.declared := by
    intro n hn
    obtain ⟨before, after, rfl⟩ := List.append_of_mem hn
    have hmem := hnodes.parent_declared rfl
    rw [hdeclared, List.map_append]
    exact List.cons_subset_cons _ (List.subset_append_left ..) hmem
  refine ⟨hdeclared ▸ hnodes.nodup, ?_, ?_, ?_⟩
  · intro hjoined ref href
    rw [Select.references_tokens] at href
    have hqualifier : qualifier (planOf nodes) s.table = some s.table := by
      rw [h.joins_eq, ← List.isEmpty_eq_false_iff] at hjoined
      simp [qualifier, hjoined]
    rcases h.refs ref href with hroot | ⟨item, hitem, rfl⟩ | ⟨j, hj, href⟩
    · rw [hqualifier] at hroot
      exact hroot.names (List.mem_cons_self ..)
    · obtain ⟨n, hn, hitem⟩ := List.mem_flatMap.mp hitem
      exact ((hcompiled n hn).items_under item hitem).names (hown n hn)
    · obtain ⟨n, hn, rfl⟩ := List.mem_map.mp hj
      refine ((hcompiled n hn).on_under ref href).imp_right ?_
      rintro ⟨a, ha, hqualified⟩
      have hdeclared : a ∈ s.declared := by
        rcases List.mem_pair.mp ha with rfl | rfl
        · exact hown n hn
        · exact hparent n hn
      exact ⟨a, hdeclared, hqualified⟩
  · intro hnone ref href
    rw [Select.references_tokens] at href
    have hnil : nodes = [] := by simpa [h.joins_eq, planOf] using hnone
    subst hnil
    rcases h.refs ref href with hroot | ⟨item, hitem, -⟩ | ⟨j, hj, -⟩
    · exact hroot.unqualified
    · exact absurd hitem List.not_mem_nil
    · exact absurd hj List.not_mem_nil
  · intro before n after hsplit
    refine ⟨hnodes.parent_declared hsplit, ?_⟩
    rw [(n.join.on.refersTo env.dialect).references_eq]
    exact (hcompiled n (by simp [hsplit])).on_under

/-- The selection of a query that reads is well scoped. Its joins are those of its inclusions;
where there are any, every reference but a bare `*` is qualified with the base table or an
alias of the statement, and else none is. No alias is declared twice, and the condition of a
join mentions no other alias than its own and that of its parent, which stands before it. -/
theorem select_scoped {c : Compiled} (hreads : q.operation.reads = true)
    (h : q.compile env = .ok c) :
    ∃ s nodes, c.statement = .select s ∧ s.joins = nodes.map (·.join) ∧
      Inclusion.AllJoinedAs env { model := q.model, aliasName := s.table } [s.table]
        q.inclusions nodes ∧
      (s.joins = [] ↔ q.inclusions = []) ∧ s.Scoped env.dialect nodes := by
  obtain ⟨s, plan, hs, hselected⟩ := selectedAs_of_compile hreads h
  obtain ⟨nodes, hnodes, hplan⟩ := Inclusion.allJoinedAs_of_compileJoins hselected.plan_eq
  have hjoins : s.joins = nodes.map (·.join) := by rw [hselected.joins_eq, hplan, planOf]
  refine ⟨s, nodes, hs, hjoins, hnodes, ?_, hselected.scoped hnodes hplan⟩
  rw [hjoins, List.map_eq_nil_iff, hnodes.nodes_eq_nil]

end Query

/-- Employees who report to one another. -/
def staffSchema : Schema :=
  .ofModels
    [{ name := "Employee", table := "staff", relations :=
        [{ name := "boss", toModel := "Employee", fromFields := ["boss_id"], toFields := ["id"]
           kind := .manyToOne }] }]

/-- Employees with their bosses, one of them joined twice. -/
def hierarchyQuery : Query :=
  { model := "Employee", operation := .findMany, selection := ["name"]
    filter := .and [.equals "name" (.string "a")]
    inclusions :=
      [{ relation := "boss", projects := false, nested := [{ relation := "boss" }] },
        { relation := "boss", projects := false }] }

/-- A table that is joined to itself twice over has an alias for each of its roles. -/
theorem Query.select_scoped_hierarchy :
    ∃ c s nodes, hierarchyQuery.compile { schema := staffSchema, dialect := .sqlite } = .ok c ∧
      (c.statement.prepare .sqlite).sql
        = "SELECT staff.name AS name, staff_boss_boss.* FROM staff"
          ++ " LEFT JOIN staff AS staff_boss ON staff_boss.id = staff.boss_id"
          ++ " LEFT JOIN staff AS staff_boss_boss ON staff_boss_boss.id = staff_boss.boss_id"
          ++ " LEFT JOIN staff AS staff_boss_2 ON staff_boss_2.id = staff.boss_id"
          ++ " WHERE staff.name = ?" ∧
      c.statement = .select s ∧ s.Scoped .sqlite nodes := by
  have htext : (hierarchyQuery.compile { schema := staffSchema, dialect := .sqlite }).map
        (fun c => (c.statement.prepare .sqlite).sql)
      = .ok ("SELECT staff.name AS name, staff_boss_boss.* FROM staff"
          ++ " LEFT JOIN staff AS staff_boss ON staff_boss.id = staff.boss_id"
          ++ " LEFT JOIN staff AS staff_boss_boss ON staff_boss_boss.id = staff_boss.boss_id"
          ++ " LEFT JOIN staff AS staff_boss_2 ON staff_boss_2.id = staff.boss_id"
          ++ " WHERE staff.name = ?") := by decide +kernel
  cases hc : hierarchyQuery.compile { schema := staffSchema, dialect := .sqlite } with
  | error e =>
    rw [hc] at htext
    cases htext
  | ok c =>
    rw [hc] at htext
    obtain ⟨s, nodes, hs, -, -, -, hscoped⟩ := Query.select_scoped (by decide) hc
    exact ⟨c, s, nodes, rfl, Except.ok.inj htext, hs, hscoped⟩

end SqlQuery
