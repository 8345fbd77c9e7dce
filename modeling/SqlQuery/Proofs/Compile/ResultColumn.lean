import SqlQuery.Proofs.Compile.Selection
import SqlQuery.Proofs.Sql.SelectList

/-!
# Where a mapping finds its columns

The mapping of a query says under which name each field is returned, and the select list gives
the names. Both are made side by side: for root fields, for groups, for aggregates and for
what joins return. Only the groups of an aggregation are never named, and so are returned
under their columns while the mapping announces their fields.

> `Query.SelectedAs.named`: the items of a selection have the names of the mapping, groups
> apart.

> `Query.result_columns_iff`: reading the text, a mapping finds its columns exactly where
> every group has the name of its column.
-/

namespace SqlQuery

open Sql

/-- An item is returned under the name that the mapping announces for a field. -/
def Sql.SelectItem.NamedBy (i : SelectItem) (f : FieldMapping) : Prop :=
  i.resultName = some f.column

/-- Items that are named like fields are returned under their names. -/
theorem resultNames_of_named {items : List SelectItem} {fields : List FieldMapping}
    (h : List.Forall₂ SelectItem.NamedBy items fields) :
    items.map (·.resultName) = (fields.map (·.column)).map some := by
  induction h with
  | nil => rfl
  | @cons item field items fields hitem _ ih =>
    rw [List.map_cons, List.map_cons, List.map_cons, ih, hitem]

/-- Some items are all columns together. -/
def HasStar (items : List SelectItem) : Prop :=
  ∃ qualifier, SelectItem.star qualifier ∈ items

/-- Without a star in both there is none in either. -/
theorem not_hasStar_append {a b : List SelectItem} (h : ¬HasStar (a ++ b)) :
    ¬HasStar a ∧ ¬HasStar b :=
  ⟨fun ⟨qualifier, hmem⟩ => h ⟨qualifier, List.mem_append_left _ hmem⟩,
    fun ⟨qualifier, hmem⟩ => h ⟨qualifier, List.mem_append_right _ hmem⟩⟩

/-! ## Joins -/

/-- The fields that a node returns are named by its mapping. -/
theorem JoinNode.Compiled.named {env : Env} {n : JoinNode} (h : n.Compiled env)
    (hstar : ¬HasStar n.returned.items) :
    List.Forall₂ SelectItem.NamedBy n.returned.items n.returned.fields := by
  obtain ⟨wanted, -, hfields, hitems⟩ := h.returns.spec
  rcases hitems with hitems | hitems
  · refine absurd ⟨some n.join.aliasName, ?_⟩ hstar
    rw [hitems]
    exact List.mem_singleton_self _
  · rw [hfields]
    refine List.forall₂_map_right_iff.mpr (List.Forall₂.flip ?_)
    refine hitems.imp ?_
    rintro field item ⟨column, -, rfl⟩
    rfl

/-- The items of joins are named like the fields that the mapping announces. -/
theorem named_of_nodes {env : Env} {nodes : List JoinNode}
    (hcompiled : ∀ n ∈ nodes, n.Compiled env) (hstar : ¬HasStar (planOf nodes).items) :
    List.Forall₂ SelectItem.NamedBy (planOf nodes).items (planOf nodes).fields := by
  induction nodes with
  | nil => exact .nil
  | cons n rest ih =>
    obtain ⟨hn, hrest⟩ := List.forall_mem_cons.mp hcompiled
    obtain ⟨hown, hmore⟩ := not_hasStar_append hstar
    exact List.rel_append (hn.named hown) (ih hrest hmore)

/-! ## Selections -/

namespace Query

variable {q : Query} {schema : Schema} {env : Env} {qualifier : Option String}
  {fields : List String}

/-- A field of the root model is returned under its own name. -/
theorem named_of_selected {field : String} {item : SelectItem}
    (h : q.rootItem schema qualifier field = .ok item) : item.NamedBy (.root field) := by
  unfold rootItem at h
  obtain ⟨c, -, h⟩ := bind_eq_ok.mp h
  cases h
  show some ((if c.column ≠ field || qualifier.isSome then some field else none).getD c.column)
    = some field
  split
  next => rfl
  next hsame =>
    -- without a name of its own it is returned under its column, which has that name
    have hcolumn : c.column = field := by
      by_contra hne
      exact hsame (by simp [hne])
    rw [hcolumn]
    rfl

theorem named_of_aggregate {a : Aggregation} {item : SelectItem}
    (h : q.aggregateItem schema qualifier a = .ok item) : item.NamedBy (.root a.aliasName) := by
  unfold aggregateItem at h
  split at h
  · cases h
    rfl
  · obtain ⟨c, -, h⟩ := bind_eq_ok.mp h
    cases h
    rfl

/-- What rows are returned under are the names of the mapping. -/
theorem named_of_rows {plan : JoinPlan} {items : List SelectItem} {fields : List FieldMapping}
    (hplan : ¬HasStar plan.items → List.Forall₂ SelectItem.NamedBy plan.items plan.fields)
    (hstar : ¬HasStar items) (h : q.rowItems env qualifier plan = .ok (items, fields)) :
    items ≠ [] ∧ List.Forall₂ SelectItem.NamedBy items fields := by
  unfold rowItems at h
  obtain ⟨own, hown, h⟩ := bind_eq_ok.mp h
  cases h
  obtain ⟨hroot, hjoined⟩ := not_hasStar_append hstar
  have hselected := forall₂_of_mapM hown
  split at hroot
  next => exact absurd ⟨_, List.mem_singleton_self _⟩ hroot
  next hsome =>
    rw [if_neg hsome]
    refine ⟨?_, List.rel_append ?_ (hplan hjoined)⟩
    · intro hnil
      have hlength := hselected.length_eq
      rw [(List.append_eq_nil_iff.mp hnil).1, List.length_nil, List.length_eq_zero_iff] at hlength
      exact hsome (List.isEmpty_iff.mpr hlength)
    · refine List.forall₂_map_right_iff.mpr (List.Forall₂.flip ?_)
      exact hselected.imp fun _ _ hitem => named_of_selected hitem

/-- A query for aggregates has items. -/
theorem exists_of_checkAggregates (haggregate : q.operation.isAggregate = true)
    (h : q.checkAggregates = .ok ()) : q.groupBy ≠ [] ∨ q.aggregations ≠ [] := by
  unfold checkAggregates at h
  split at h
  next => cases h
  next haggregations =>
    split at h
    next => cases h
    next hgroups =>
      revert haggregate haggregations hgroups
      cases q.operation <;> simp +contextual [Operation.isAggregate]

/-- Groups are returned under their columns. -/
theorem names_of_groups {groups : List SelectItem}
    (h : List.Forall₂ (fun field item => (do
      return SelectItem.column (← q.rootColumn schema qualifier field) none) = .ok item)
      fields groups) :
    ∃ columns, List.Forall₂ (fun field column => schema.column q.model field = .ok column)
      fields columns ∧ groups.map (·.resultName) = columns.map some := by
  induction h with
  | nil => exact ⟨[], .nil, rfl⟩
  | cons hitem _ ih =>
    obtain ⟨columns, hcolumns, hnames⟩ := ih
    obtain ⟨c, hc, hitem⟩ := bind_eq_ok.mp hitem
    obtain ⟨column, hcolumn, hc⟩ := bind_eq_ok.mp hc
    cases hc
    cases hitem
    exact ⟨column :: columns, .cons hcolumn hcolumns, congrArg (some column :: ·) hnames⟩

/-- Groups are returned under their columns, and aggregates under the names of the mapping. -/
theorem names_of_aggregates {items : List SelectItem} {fields : List FieldMapping}
    (h : q.aggregateItems schema qualifier = .ok (items, fields)) :
    ∃ columns, List.Forall₂ (fun field column => schema.column q.model field = .ok column)
        q.groupBy columns ∧
      items.map (·.resultName) = (columns ++ q.aggregations.map (·.aliasName)).map some ∧
      fields.map (·.column) = q.groupBy ++ q.aggregations.map (·.aliasName) := by
  unfold aggregateItems at h
  obtain ⟨groups, hgroups, h⟩ := bind_eq_ok.mp h
  obtain ⟨aggregates, haggregates, h⟩ := bind_eq_ok.mp h
  cases h
  obtain ⟨columns, hcolumns, hnames⟩ := names_of_groups (forall₂_of_mapM hgroups)
  have hnamed : List.Forall₂ SelectItem.NamedBy aggregates
      (q.aggregations.map fun a => .root a.aliasName) := by
    refine List.forall₂_map_right_iff.mpr (List.Forall₂.flip ?_)
    exact (forall₂_of_mapM haggregates).imp fun _ _ hitem => named_of_aggregate hitem
  have haliases := resultNames_of_named hnamed
  rw [List.map_map (l := q.aggregations)] at haliases
  refine ⟨columns, hcolumns, ?_, ?_⟩
  · rw [List.map_append, List.map_append, hnames, haliases]
    rfl
  · rw [List.map_map]
    exact List.map_id _

/-- Where no item is all columns together, every item has a name, one for each field of the
mapping. These are the names that the mapping announces, but for groups, which are returned
under their columns. -/
theorem SelectedAs.named {plan : JoinPlan} {s : Select} {mapping : ResultMapping}
    (h : q.SelectedAs env plan s mapping) (hstar : ¬HasStar s.items) :
    s.items ≠ [] ∧ s.items.length = mapping.fields.length ∧
      ∃ names, s.items.map (·.resultName) = names.map some ∧
        (names = mapping.fields.map (·.column) ↔ (q.operation.isAggregate = true →
          ∀ field ∈ q.groupBy, env.schema.column q.model field = .ok field)) := by
  have hitems := h.items_eq
  by_cases haggregate : q.operation.isAggregate = true
  · rw [if_pos haggregate] at hitems
    obtain ⟨columns, hcolumns, hnames, hfields⟩ := names_of_aggregates hitems
    have hlength : s.items.length = q.groupBy.length + q.aggregations.length := by
      have hsame := congrArg List.length hnames
      simpa [← hcolumns.length_eq] using hsame
    refine ⟨?_, ?_, _, hnames, ?_⟩
    · rintro hnil
      have hsome := exists_of_checkAggregates haggregate (h.checked haggregate)
      rw [hnil, List.length_nil] at hlength
      rcases hsome with hsome | hsome
      · exact hsome (List.length_eq_zero_iff.mp (by omega))
      · exact hsome (List.length_eq_zero_iff.mp (by omega))
    · have hsame := congrArg List.length hfields
      rw [hlength]
      simpa using hsame.symm
    · rw [hfields, List.append_left_inj]
      constructor
      · rintro rfl _
        exact List.forall₂_same.mp hcolumns
      · intro hsame
        have hown : List.Forall₂
            (fun field column => env.schema.column q.model field = .ok column)
            q.groupBy q.groupBy := List.forall₂_same.mpr (hsame haggregate)
        exact List.right_unique_forall₂'
          (fun _ _ _ h h' => Except.ok.inj (h.symm.trans h')) hcolumns hown
  · rw [if_neg haggregate] at hitems
    obtain ⟨nodes, hnodes, rfl⟩ := Inclusion.allJoinedAs_of_compileJoins h.plan_eq
    obtain ⟨hsome, hnamed⟩ := named_of_rows (named_of_nodes hnodes.spec.2) hstar hitems
    exact ⟨hsome, hnamed.length_eq, _, resultNames_of_named hnamed,
      fun _ hyes => absurd hyes haggregate, fun _ => rfl⟩

theorem SelectedAs.items_ne_nil {plan : JoinPlan} {s : Select} {mapping : ResultMapping}
    (h : q.SelectedAs env plan s mapping) : s.items ≠ [] := by
  intro hnil
  refine (h.named ?_).1 hnil
  rintro ⟨qualifier, hmem⟩
  rw [hnil] at hmem
  exact List.not_mem_nil hmem

/-- Read from its text, the select list of a query without stars has one item for each field of
the mapping. The names of the items are those that the mapping announces, in order, exactly
where the query is for rows or the columns of all its groups are named like the fields. -/
theorem result_columns_iff {c : Compiled} (hreads : q.operation.reads = true)
    (h : q.compile env = .ok c) :
    ∃ ls, lexemes env.dialect.quote (c.statement.prepare env.dialect).sql.toList = some ls ∧
      ((∀ item ∈ selectItems ls, item.getLast? ≠ some (.mark '*')) →
        (selectItems ls).length = c.mapping.fields.length ∧
          ((selectItems ls).map resultColumn? = c.mapping.fields.map (fun f => some f.column) ↔
            (q.operation.isAggregate = true →
              ∀ field ∈ q.groupBy, env.schema.column q.model field = .ok field))) := by
  obtain ⟨s, plan, hs, hselected⟩ := selectedAs_of_compile hreads h
  refine ⟨_, lexemes_prepare env.dialect c.statement, ?_⟩
  have hitems := selectItems_tokens env.dialect hselected.items_ne_nil
  rw [hs, Statement.tokens, hitems]
  intro hends
  have hstar : ¬HasStar s.items := by
    rintro ⟨qualifier, hmem⟩
    exact hends _ (List.mem_map_of_mem hmem) (getLast?_star env.dialect qualifier)
  obtain ⟨-, hlength, names, hnames, hiff⟩ := hselected.named hstar
  have hread : (s.items.map fun i => lexemesOf env.dialect 0 (i.tokens : Fragment Value)).map
      resultColumn? = names.map some := by
    rw [List.map_map, ← hnames]
    refine List.map_congr_left fun i hi => ?_
    cases i with
    | star qualifier => exact absurd ⟨qualifier, hi⟩ hstar
    | column c aliasName => exact resultColumn?_tokens env.dialect rfl
    | aggregate f c aliasName => exact resultColumn?_tokens env.dialect rfl
  have hcolumns : c.mapping.fields.map (fun f => some f.column)
      = (c.mapping.fields.map (·.column)).map some := by
    rw [List.map_map]
    rfl
  refine ⟨by rw [List.length_map, hlength], ?_⟩
  rw [hread, hcolumns, List.map_inj_right fun _ _ hsame => Option.some.inj hsame]
  exact hiff

end Query

/-- Users, whose field for an address is held by a column of another name. -/
def usersSchema : Schema :=
  .ofModels
    [{ name := "User", table := "users", fields :=
        [{ name := "id" }, { name := "email", column := some "email_address" }] }]

/-- How many users have each address. -/
def usersByAddress : Query :=
  { model := "User", operation := .groupBy, groupBy := ["email"], aggregations := [.countAll] }

/-- The addresses of users. -/
def addresses : Query :=
  { model := "User", operation := .findMany, selection := ["id", "email"] }

/-- A column that is named otherwise than its field is returned under the field's name. -/
theorem Query.result_columns_iff_addresses :
    ∃ c ls, addresses.compile { schema := usersSchema, dialect := .postgres } = .ok c ∧
      (c.statement.prepare .postgres).sql = "SELECT id, email_address AS email FROM users" ∧
      lexemes '"' (c.statement.prepare .postgres).sql.toList = some ls ∧
      (selectItems ls).map resultColumn? = c.mapping.fields.map (fun f => some f.column) := by
  have htext : (addresses.compile { schema := usersSchema, dialect := .postgres }).map
      (fun c => (c.statement.prepare .postgres).sql)
      = .ok "SELECT id, email_address AS email FROM users" := by decide
  cases hc : addresses.compile { schema := usersSchema, dialect := .postgres } with
  | error e =>
    rw [hc] at htext
    cases htext
  | ok c =>
    rw [hc] at htext
    have hsql : (c.statement.prepare .postgres).sql
        = "SELECT id, email_address AS email FROM users" := Except.ok.inj htext
    obtain ⟨ls, hls, hcolumns⟩ := Query.result_columns_iff (by decide) hc
    refine ⟨c, ls, rfl, hsql, hls, (hcolumns ?_).2.mpr (by decide)⟩
    have hread : lexemes '"' "SELECT id, email_address AS email FROM users".toList
        = some (["SELECT", "id"].map (fun w => Lexeme.word w.toList) ++ .mark ','
          :: ["email_address", "AS", "email", "FROM", "users"].map fun w => .word w.toList) := by
      decide
    have hsame : lexemes '"' (c.statement.prepare .postgres).sql.toList = some ls := hls
    rw [hsql, hread] at hsame
    rw [← Option.some.inj hsame]
    decide

/-- A group is returned under its column, while the mapping announces its field. -/
theorem Query.group_unnamed :
    ∃ c ls, usersByAddress.compile { schema := usersSchema, dialect := .postgres } = .ok c ∧
      (c.statement.prepare .postgres).sql
        = "SELECT email_address, COUNT(*) AS count_ FROM users GROUP BY email_address" ∧
      lexemes '"' (c.statement.prepare .postgres).sql.toList = some ls ∧
      (selectItems ls).map resultColumn? = [some "email_address", some "count_"] ∧
      c.mapping.fields.map (·.column) = ["email", "count_"] := by
  have hcompiled : (usersByAddress.compile { schema := usersSchema, dialect := .postgres }).map
      (fun c => ((c.statement.prepare .postgres).sql, c.mapping.fields.map (·.column)))
      = .ok ("SELECT email_address, COUNT(*) AS count_ FROM users GROUP BY email_address",
        ["email", "count_"]) := by decide
  cases hc : usersByAddress.compile { schema := usersSchema, dialect := .postgres } with
  | error e =>
    rw [hc] at hcompiled
    cases hcompiled
  | ok c =>
    rw [hc] at hcompiled
    obtain ⟨hsql, hcolumns⟩ := Prod.mk.inj (Except.ok.inj hcompiled)
    have hread : (lexemes '"' (c.statement.prepare .postgres).sql.toList).map
        (fun ls => (selectItems ls).map resultColumn?)
        = some [some "email_address", some "count_"] := by
      rw [hsql]
      decide
    obtain ⟨ls, hls, hnames⟩ := Option.map_eq_some_iff.mp hread
    exact ⟨c, ls, rfl, hsql, hls, hnames, hcolumns⟩

end SqlQuery
