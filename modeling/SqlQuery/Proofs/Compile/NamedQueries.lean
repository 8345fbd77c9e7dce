import SqlQuery.Proofs.Compile.Named

/-!
# The names of a query

`Query.known` says what the names of a compiled query can be: tables and columns of the
schema, by way of the models and fields that the query is about, and the aliases and columns
that its mapping announces.

> `Query.named_of_compile`: the statement of a query holds known names only.
-/

namespace SqlQuery

open Sql

/-! ## What a query is about -/

/-- The fields of written data, and the keys of an upsert. -/
def Payload.fields : Payload → List String
  | .none => []
  | .create row => row.fields
  | .createMany rows => rows.flatMap Row.fields
  | .update row => row.fields
  | .upsert keys created updated => keys ++ created.fields ++ updated.fields

namespace Query

/-- The fields of the root model that the query is about. -/
def fields (q : Query) : List String :=
  q.selection ++ q.filter.fields ++ q.cursor.toList.map (·.field) ++ q.orderBy.map (·.field)
    ++ q.groupBy ++ q.having.fields ++ q.distinct ++ q.aggregations.map (·.field)
    ++ q.payload.fields

/-- The fields that the query is about, each with its model. -/
inductive Reads (q : Query) (schema : Schema) : String → String → Prop where
  | root {field : String} : field ∈ q.fields → Reads q schema q.model field
  | joined {site : JoinSite} {model field : String} :
      site ∈ Inclusion.sitesOf schema q.model q.inclusions → site.Reads schema model field →
      Reads q schema model field

/-- What names stand in the text of the query, by their roles; the mapping announces the
aliases, and a count of all rows is a count of `*`. -/
def known (q : Query) (schema : Schema) (mapping : ResultMapping) : Known
  | .table, n => schema.table q.model = .ok n ∨
      ∃ site ∈ Inclusion.sitesOf schema q.model q.inclusions, site.HasTable schema n
  | .column, n => (∃ model field, q.Reads schema model field ∧ schema.column model field = .ok n) ∨
      (n = "*" ∧ ∃ a ∈ q.aggregations, a.isStar = true)
  | .qualifier, n => schema.table q.model = .ok n ∨ ∃ r ∈ mapping.relations, r.aliasName = n
  | .alias, n => ∃ r ∈ mapping.relations, r.aliasName = n
  | .output, n => ∃ f ∈ mapping.fields, f.column = n

/-- A query knows the columns of the fields that it is about. -/
theorem knows_fields (q : Query) (schema : Schema) (mapping : ResultMapping) :
    schema.Knows (q.known schema mapping) (some q.model) q.fields :=
  fun field hfield _ hcolumn => Or.inl ⟨q.model, field, .root hfield, hcolumn⟩

/-- A query knows the tables and columns of its inclusions. -/
theorem knows_sites (q : Query) (schema : Schema) (mapping : ResultMapping) :
    KnowsSites schema (q.known schema mapping)
      (Inclusion.sitesOf schema q.model q.inclusions) where
  table site hsite _ htable := Or.inr ⟨site, hsite, htable⟩
  column _ hsite model field _ hreads hcolumn :=
    Or.inl ⟨model, field, .joined hsite hreads, hcolumn⟩

end Query

/-! ## Selections -/

/-- A condition added to a filter adds its field. -/
theorem Filter.fields_andCondition (f : Filter) (c : Condition) :
    (f.andCondition c).fields ⊆ c.field :: f.fields := by
  obtain ⟨op, conditions, nested⟩ := f
  unfold andCondition
  split
  next => simp [fields, Filter.and, allConditions, conditionsOf]
  next =>
    split
    · simp [fields, addCondition, allConditions]
    · simp [fields, allConditions, conditionsOf]

namespace Query

variable {q : Query} {schema : Schema} {env : Env} {known : Known} {qualifier : Option String}

/-- The field of a cursor is one that the query is about. -/
theorem fields_seekFilter (q : Query) : q.seekFilter.fields ⊆ q.fields := by
  have hfilter : q.filter.fields ⊆ q.fields := fun field h => by simp [fields, h]
  unfold seekFilter
  cases hcursor : q.cursor with
  | none => exact hfilter
  | some c =>
    have hc : c.field ∈ q.fields := by simp [fields, hcursor]
    exact List.Subset.trans (Filter.fields_andCondition ..) (List.cons_subset.mpr ⟨hc, hfilter⟩)

/-- A column of the root model is known by its field. -/
theorem named_of_rootColumn {fields : List String} {field : String} {ref : ColumnRef}
    (hqualifier : ∀ n, qualifier = some n → known .qualifier n)
    (hknows : schema.Knows known (some q.model) fields) (hfield : field ∈ fields)
    (h : q.rootColumn schema qualifier field = .ok ref) : ref.Alike (named known) ref := by
  unfold rootColumn at h
  obtain ⟨column, hcolumn, h⟩ := bind_eq_ok.mp h
  cases h
  exact ⟨optional_self hqualifier, rfl, hknows field hfield column hcolumn⟩

theorem named_of_rootColumns {fields : List String} {refs : List ColumnRef}
    (hqualifier : ∀ n, qualifier = some n → known .qualifier n)
    (hknows : schema.Knows known (some q.model) fields)
    (h : fields.mapM (q.rootColumn schema qualifier) = .ok refs) :
    List.Forall₂ (ColumnRef.Alike (named known)) refs refs := by
  refine List.forall₂_same.mpr fun ref href => ?_
  obtain ⟨field, hfield, hcolumn⟩ := exists_mem_of_forall₂ (forall₂_of_mapM h) ref href
  exact named_of_rootColumn hqualifier hknows hfield hcolumn

/-- A selected field is named by its column and by itself. -/
theorem named_of_rootItem {fields : List String} {field : String} {item : SelectItem}
    (hqualifier : ∀ n, qualifier = some n → known .qualifier n)
    (hknows : schema.Knows known (some q.model) fields) (hfield : field ∈ fields)
    (houtput : known .output field) (h : q.rootItem schema qualifier field = .ok item) :
    item.Alike (named known) item := by
  unfold rootItem at h
  obtain ⟨c, hc, h⟩ := bind_eq_ok.mp h
  cases h
  refine .column (named_of_rootColumn hqualifier hknows hfield hc) ?_
  split
  · exact .some ⟨rfl, houtput⟩
  · exact .none

/-- An aggregate is named by its column, or the star, and by its alias. -/
theorem named_of_aggregateItem {fields : List String} {a : Aggregation} {item : SelectItem}
    (hqualifier : ∀ n, qualifier = some n → known .qualifier n)
    (hknows : schema.Knows known (some q.model) fields) (hfield : a.field ∈ fields)
    (hstar : a.isStar = true → known .column "*") (houtput : known .output a.aliasName)
    (h : q.aggregateItem schema qualifier a = .ok item) : item.Alike (named known) item := by
  unfold aggregateItem at h
  split at h
  next ha =>
    cases h
    exact .aggregate _ ⟨.none, rfl, hstar ha⟩ ⟨rfl, houtput⟩
  next =>
    obtain ⟨c, hc, h⟩ := bind_eq_ok.mp h
    cases h
    exact .aggregate _ (named_of_rootColumn hqualifier hknows hfield hc) ⟨rfl, houtput⟩

/-- The items of aggregates are named as their fields in the mapping. -/
theorem named_of_aggregateItems {mapping : ResultMapping} {items : List SelectItem}
    {fields : List FieldMapping}
    (hqualifier : ∀ n, qualifier = some n → q.known schema mapping .qualifier n)
    (hfields : mapping.fields = fields)
    (h : q.aggregateItems schema qualifier = .ok (items, fields)) :
    List.Forall₂ (SelectItem.Alike (named (q.known schema mapping))) items items := by
  have hknows := q.knows_fields schema mapping
  unfold aggregateItems at h
  obtain ⟨groups, hgroups, h⟩ := bind_eq_ok.mp h
  obtain ⟨aggregates, haggregates, h⟩ := bind_eq_ok.mp h
  cases h
  refine List.forall₂_same.mpr fun item hitem => ?_
  rcases List.mem_append.mp hitem with hitem | hitem
  · obtain ⟨field, hfield, hcompiled⟩ :=
      exists_mem_of_forall₂ (forall₂_of_mapM hgroups) item hitem
    obtain ⟨ref, href, hcompiled⟩ := bind_eq_ok.mp hcompiled
    cases hcompiled
    exact .column (named_of_rootColumn hqualifier hknows (by simp [Query.fields, hfield]) href)
      .none
  · obtain ⟨a, ha, hcompiled⟩ :=
      exists_mem_of_forall₂ (forall₂_of_mapM haggregates) item hitem
    refine named_of_aggregateItem hqualifier hknows ?_ (fun hstar => ?_) ?_ hcompiled
    · have hmem : a.field ∈ q.aggregations.map (·.field) := List.mem_map_of_mem ha
      simp [Query.fields, hmem]
    · exact Or.inr ⟨rfl, a, ha, hstar⟩
    · refine ⟨.root a.aliasName, ?_, rfl⟩
      rw [hfields]
      exact List.mem_map_of_mem (List.mem_append_right _ (List.mem_map_of_mem ha))

/-- The items of rows are named as their fields in the mapping. -/
theorem named_of_rowItems {mapping : ResultMapping} {plan : JoinPlan} {items : List SelectItem}
    {fields : List FieldMapping}
    (hqualifier : ∀ n, qualifier = some n → q.known env.schema mapping .qualifier n)
    (hplan : plan.Named (q.known env.schema mapping)) (hfields : mapping.fields = fields)
    (h : q.rowItems env qualifier plan = .ok (items, fields)) :
    List.Forall₂ (SelectItem.Alike (named (q.known env.schema mapping))) items items := by
  have hknows := q.knows_fields env.schema mapping
  have hselected : q.selectedFields env.dialect ⊆ q.fields := by
    intro field hfield
    unfold selectedFields at hfield
    split at hfield <;> simp [Query.fields, hfield]
  unfold rowItems at h
  obtain ⟨own, hown, h⟩ := bind_eq_ok.mp h
  cases h
  have hannounced : ∀ f ∈ plan.fields, q.known env.schema mapping .output f.column := by
    intro f hf
    refine ⟨f, ?_, rfl⟩
    rw [hfields]
    exact List.mem_append_right _ hf
  refine List.rel_append ?_ (hplan.items hannounced)
  split
  · exact .cons (.star (optional_self hqualifier)) .nil
  · refine List.forall₂_same.mpr fun item hitem => ?_
    obtain ⟨field, hfield, hcompiled⟩ := exists_mem_of_forall₂ (forall₂_of_mapM hown) item hitem
    refine named_of_rootItem hqualifier hknows (hselected hfield) ?_ hcompiled
    refine ⟨.root field, ?_, rfl⟩
    rw [hfields]
    exact List.mem_append_left _ (List.mem_map_of_mem hfield)

theorem named_of_distinctRows {kept : Distinct}
    (hqualifier : ∀ n, qualifier = some n → known .qualifier n)
    (hknows : env.schema.Knows known (some q.model) q.distinct)
    (h : q.distinctRows env qualifier = .ok kept) : kept.Alike (named known) kept := by
  unfold distinctRows at h
  split at h
  next => cases h; exact .keep
  next =>
    split at h
    next =>
      obtain ⟨refs, hrefs, h⟩ := bind_eq_ok.mp h
      cases h
      exact .on (named_of_rootColumns hqualifier hknows hrefs)
    next => cases h; exact .rows

theorem named_of_orderBy {entries : List (ColumnRef × SortOrder)}
    (hqualifier : ∀ n, qualifier = some n → known .qualifier n)
    (hknows : schema.Knows known (some q.model) (q.orderBy.map (·.field)))
    (h : (q.orderBy.mapM fun o => do
      return (← q.rootColumn schema qualifier o.field, o.order)) = .ok entries) :
    List.Forall₂ (fun o o' => o.1.Alike (named known) o'.1 ∧ o.2 = o'.2) entries entries := by
  refine List.forall₂_same.mpr fun entry hentry => ⟨?_, rfl⟩
  obtain ⟨o, ho, hcompiled⟩ := exists_mem_of_forall₂ (forall₂_of_mapM h) entry hentry
  obtain ⟨ref, href, hcompiled⟩ := bind_eq_ok.mp hcompiled
  cases hcompiled
  exact named_of_rootColumn hqualifier hknows (List.mem_map_of_mem ho) href

/-- A selection holds names that its query knows, with the aliases of its mapping. -/
theorem named_of_compileSelect {s : Select} {mapping : ResultMapping}
    (h : q.compileSelect env = .ok (s, mapping)) :
    s.Alike (named (q.known env.schema mapping)) s := by
  unfold compileSelect at h
  have h := check_eq_ok h
  obtain ⟨table, htable, h⟩ := bind_eq_ok.mp h
  obtain ⟨plan, hplan, h⟩ := bind_eq_ok.mp h
  obtain ⟨⟨items, fields⟩, hitems, h⟩ := choice_eq_ok h
  obtain ⟨distinct, hdistinct, h⟩ := bind_eq_ok.mp h
  obtain ⟨where_, hwhere, h⟩ := bind_eq_ok.mp h
  obtain ⟨groupBy, hgroupBy, h⟩ := bind_eq_ok.mp h
  obtain ⟨having, hhaving, h⟩ := bind_eq_ok.mp h
  obtain ⟨orderBy, horderBy, h⟩ := bind_eq_ok.mp h
  cases h
  generalize hmapping : ({ model := q.model, fields, relations := plan.relations } :
    ResultMapping) = mapping
  have hfields : mapping.fields = fields := by rw [← hmapping]
  have hrelations : mapping.relations = plan.relations := by rw [← hmapping]
  have hknows := q.knows_fields env.schema mapping
  have hroot : q.known env.schema mapping .qualifier table := Or.inl htable
  have hqualifier : ∀ n, (if plan.joins.isEmpty then none else some table) = some n →
      q.known env.schema mapping .qualifier n := by
    intro n hn
    split at hn <;> cases hn
    exact hroot
  have hannounced : plan.Announced (q.known env.schema mapping) := by
    intro r hr
    have hmem : r ∈ mapping.relations := by rw [hrelations]; exact hr
    exact ⟨⟨r, hmem, rfl⟩, Or.inr ⟨r, hmem, rfl⟩⟩
  have hplan := Inclusion.named_of_compileJoins (q.knows_sites env.schema mapping) hroot hannounced
    (Refusal.forget_eq_ok.mp hplan)
  refine
    { distinct := named_of_distinctRows hqualifier (hknows.mono ?_) hdistinct
      items := ?_
      table := ⟨rfl, Or.inl htable⟩
      joins := hplan.joins
      where_ := Filter.named_of_compile ⟨hqualifier, hknows.mono q.fields_seekFilter⟩
        (Refusal.forget_eq_ok.mp hwhere)
      groupBy := named_of_rootColumns hqualifier (hknows.mono ?_) hgroupBy
      having := Filter.named_of_compile ⟨hqualifier, hknows.mono ?_⟩
        (Refusal.forget_eq_ok.mp hhaving)
      orderBy := named_of_orderBy hqualifier (hknows.mono ?_) horderBy
      limit := rfl
      offset := rfl }
  · exact fun field hfield => by simp [Query.fields, hfield]
  · split at hitems
    · exact named_of_aggregateItems hqualifier hfields hitems
    · exact named_of_rowItems hqualifier hplan hfields hitems
  · exact fun field hfield => by simp [Query.fields, hfield]
  · exact fun field hfield => by simp [Query.fields, hfield]
  · exact fun field hfield => by simp only [Query.fields, List.mem_append, hfield, true_or, or_true]

/-! ## Writes of the root model -/

/-- The condition of an update or a deletion names the columns of its fields. -/
theorem named_of_safeWhere {mapping : ResultMapping} {p : Predicate}
    (h : q.safeWhere env = .ok p) : p.Alike (named (q.known env.schema mapping)) p := by
  have hknows := (q.knows_fields env.schema mapping).mono
    (fun field hfield => by simp [Query.fields, hfield] : q.filter.fields ⊆ q.fields)
  have hp := Filter.named_of_compiledTo (.unqualified hknows) (safeWhere_spec h).atoms
  cases hp with
  | some hp => exact hp

/-- The fields of a payload are fields of its query. -/
theorem knows_payload (schema : Schema) (mapping : ResultMapping) {payload : Payload}
    (h : q.payload = payload) :
    schema.Knows (q.known schema mapping) (some q.model) payload.fields := by
  refine (q.knows_fields schema mapping).mono fun field hfield => ?_
  rw [← h] at hfield
  simp [Query.fields, hfield]

section

variable {mapping : ResultMapping} {row : Row} {s : Statement}

/-- The insertion of a row names its table and the columns of its fields. -/
theorem named_of_compileCreate
    (hknows : env.schema.Knows (q.known env.schema mapping) (some q.model) row.fields)
    (h : q.compileCreate env row = .ok s) : s.Alike (named (q.known env.schema mapping)) s := by
  unfold compileCreate at h
  obtain ⟨-, -, h⟩ := bind_eq_ok.mp h
  obtain ⟨table, htable, h⟩ := bind_eq_ok.mp h
  obtain ⟨columns, hcolumns, h⟩ := bind_eq_ok.mp h
  cases h
  exact .insert true ⟨rfl, Or.inl htable⟩ (named_of_columnsOf hknows hcolumns) (rows_self _) .none

/-- The insertion of rows names the table and the columns of all their fields. -/
theorem named_of_compileCreateMany {rows : List Row}
    (hknows : env.schema.Knows (q.known env.schema mapping) (some q.model)
      (rows.flatMap Row.fields))
    (h : q.compileCreateMany env rows = .ok s) :
    s.Alike (named (q.known env.schema mapping)) s := by
  unfold compileCreateMany at h
  obtain ⟨table, htable, h⟩ := bind_eq_ok.mp h
  obtain ⟨⟨columns, values⟩, hinsertion, h⟩ := bind_eq_ok.mp h
  cases h
  exact .insert true ⟨rfl, Or.inl htable⟩
    (named_of_insertion (fun _ h => by cases h) hknows hinsertion) (rows_self _) .none

/-- An update names what it sets and what it looks at. -/
theorem named_of_compileUpdate
    (hknows : env.schema.Knows (q.known env.schema mapping) (some q.model) row.fields)
    (h : q.compileUpdate env row = .ok s) : s.Alike (named (q.known env.schema mapping)) s := by
  unfold compileUpdate at h
  obtain ⟨-, -, h⟩ := bind_eq_ok.mp h
  obtain ⟨table, htable, h⟩ := bind_eq_ok.mp h
  obtain ⟨assignments, hassignments, h⟩ := bind_eq_ok.mp h
  obtain ⟨p, hp, h⟩ := bind_eq_ok.mp h
  cases h
  exact .update _ ⟨rfl, Or.inl htable⟩ (named_of_assignmentsOf hknows hassignments)
    (named_of_safeWhere hp)

/-- A deletion names its table and what it looks at. -/
theorem named_of_compileDelete (h : q.compileDelete env = .ok s) :
    s.Alike (named (q.known env.schema mapping)) s := by
  unfold compileDelete at h
  obtain ⟨table, htable, h⟩ := bind_eq_ok.mp h
  obtain ⟨p, hp, h⟩ := bind_eq_ok.mp h
  cases h
  exact .delete _ ⟨rfl, Or.inl htable⟩ (named_of_safeWhere hp)

/-- An upsert names its keys and what it inserts and sets. -/
theorem named_of_compileUpsert {keys : List String} {created updated : Row}
    (hknows : env.schema.Knows (q.known env.schema mapping) (some q.model)
      (keys ++ created.fields ++ updated.fields))
    (h : q.compileUpsert env keys created updated = .ok s) :
    s.Alike (named (q.known env.schema mapping)) s := by
  unfold compileUpsert at h
  have h := check_eq_ok (check_eq_ok h)
  obtain ⟨-, -, h⟩ := bind_eq_ok.mp h
  obtain ⟨-, -, h⟩ := bind_eq_ok.mp h
  obtain ⟨table, htable, h⟩ := bind_eq_ok.mp h
  obtain ⟨columns, hcolumns, h⟩ := bind_eq_ok.mp h
  obtain ⟨keyColumns, hkeys, h⟩ := bind_eq_ok.mp h
  obtain ⟨assignments, hassignments, h⟩ := choice_eq_ok h
  cases h
  have hinserted := hknows.mono (List.subset_append_left ..)
  have hkeys := named_of_columnsOf (hinserted.mono (List.subset_append_left ..)) hkeys
  have hcolumns := named_of_columnsOf (hinserted.mono (List.subset_append_right ..)) hcolumns
  refine .insert true ⟨rfl, Or.inl htable⟩ hcolumns (rows_self _) (.some ⟨hkeys, ?_⟩)
  split at hassignments
  next =>
    -- nothing is to be updated, so the keys are assigned what they are already
    cases hassignments
    refine List.forall₂_same.mpr fun a ha => ?_
    obtain ⟨column, hcolumn, rfl⟩ := List.mem_map.mp ha
    exact ⟨List.forall₂_same.mp hkeys column hcolumn, .proposed⟩
  next =>
    exact named_of_assignmentsOf (hknows.mono (List.subset_append_right ..)) hassignments

end

/-! ## Whole queries -/

/-- The statement of a query holds names that the query knows. -/
theorem named_of_compile {c : Compiled} (h : q.compile env = .ok c) :
    c.statement.Alike (named (q.known env.schema c.mapping)) c.statement := by
  have hroute := route_of_compile h
  generalize hs : c.statement = s at hroute ⊢
  cases hroute with
  | create _ hpayload hc => exact named_of_compileCreate (knows_payload _ _ hpayload) hc
  | createMany _ hpayload hc => exact named_of_compileCreateMany (knows_payload _ _ hpayload) hc
  | update _ hpayload hc => exact named_of_compileUpdate (knows_payload _ _ hpayload) hc
  | upsert _ hpayload hc => exact named_of_compileUpsert (knows_payload _ _ hpayload) hc
  | delete _ _ hc => exact named_of_compileDelete hc
  | select hdelete _ hpayload _ =>
    exact .select (named_of_compileSelect (compileSelect_of_compile hdelete hpayload h hs))

end Query

end SqlQuery
