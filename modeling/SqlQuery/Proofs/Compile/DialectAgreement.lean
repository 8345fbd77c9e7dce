import SqlQuery.Compile.Query
import SqlQuery.Proofs.Compile.Lookups
import SqlQuery.Proofs.Compile.Selection
import SqlQuery.Proofs.Compile.TwoDialects

/-!
# What a query means to the dialects

Two dialects differ in three things when they compile a query: how they store arrays, whether
they have DISTINCT ON, and how they write what they have compiled. The last one cannot fail, and
`TwoDialects` has the first one for filters and joins. What is left is what is distinct. Postgres
looks its fields up behind the selected ones. The others select them where nothing else is
selected, and otherwise they write DISTINCT and drop them: a field that does not exist is then
overlooked.

So the rows of a query (`Query.rows`: what it selects and what is distinct, in this order) are
compared first, for the three ways in which they can be asked for. From them comes the selection,
clause by clause, and from the selection the query.

> `dialects_agree`: a query is compiled by all dialects or by none, and refused with one error,
> up to conditions on arrays in SQLite and distinct fields that are overlooked. A field that is
> looked up and does not exist is refused by every dialect.

Which SQL comes out is left open here: `Agree` compares refusals, and of results it says only that
both are there.
-/

namespace SqlQuery

open Sql

variable {X : Error → Prop}

namespace Query

/-- The items and the distinction of a query for rows, one after the other. -/
def rows (q : Query) (env : Env) (qualifier : Option String) (plan : JoinPlan) :
    Except Error ((List SelectItem × List FieldMapping) × Distinct) := do
  let items ← q.rowItems env qualifier plan
  return (items, ← q.distinctRows env qualifier)

variable {q : Query} {env env' : Env}

/-- The clauses behind the items, whatever is made of them. -/
theorem agreeUnless_clauses (hbeside : env.Beside env')
    (hX : Excused X env'.dialect q.readBySelect) (qualifier : Option String) {β β' : Type}
    (f : Option Predicate → List ColumnRef → Option Predicate → List (ColumnRef × SortOrder) → β)
    (f' : Option Predicate → List ColumnRef → Option Predicate → List (ColumnRef × SortOrder) →
      β') :
    AgreeUnless X (fun _ _ => True)
      (do
        let where_ ← Refusal.forget (q.seekFilter.compile env { model := some q.model, qualifier })
        let groupBy ← q.groupBy.mapM (q.rootColumn env.schema qualifier)
        let having ← Refusal.forget
          (q.having.compile env { model := some q.model, qualifier, clause := .having })
        let orderBy ← q.orderBy.mapM fun o => do
          return (← q.rootColumn env.schema qualifier o.field, o.order)
        return f where_ groupBy having orderBy)
      (do
        let where_ ← Refusal.forget (q.seekFilter.compile env' { model := some q.model, qualifier })
        let groupBy ← q.groupBy.mapM (q.rootColumn env.schema qualifier)
        let having ← Refusal.forget
          (q.having.compile env' { model := some q.model, qualifier, clause := .having })
        let orderBy ← q.orderBy.mapM fun o => do
          return (← q.rootColumn env.schema qualifier o.field, o.order)
        return f' where_ groupBy having orderBy) := by
  have hwhere : Excused X env'.dialect q.seekFilter.allConditions :=
    hX.mono fun c hc => by simp [readBySelect, hc]
  have hhaving : Excused X env'.dialect q.having.allConditions :=
    hX.mono fun c hc => by simp [readBySelect, hc]
  refine SameUnless.bind (Filter.agreeUnless_compile hbeside hwhere _).forget fun _ _ _ => ?_
  refine AgreeUnless.bind_self fun groupBy => ?_
  refine SameUnless.bind (Filter.agreeUnless_compile hbeside hhaving _).forget fun _ _ _ => ?_
  exact AgreeUnless.bind_self fun orderBy => .ok trivial

/-- Two selections agree where their items and what is distinct in them do. -/
theorem agreeUnless_compileSelect (hbeside : env.Beside env') (distinct : List String)
    (hX : Excused X env'.dialect q.readBySelect)
    (hrows : q.operation.isAggregate = false → ∀ qualifier plan plan',
      AgreeUnless X (fun _ _ => True) ({ q with distinct := distinct }.rows env qualifier plan)
        (q.rows env' qualifier plan')) :
    AgreeUnless X (fun _ _ => True) ({ q with distinct := distinct }.compileSelect env)
      (q.compileSelect env') := by
  unfold compileSelect
  dsimp only
  rw [hbeside.schema_eq]
  refine AgreeUnless.check fun _ => AgreeUnless.bind_self fun table => ?_
  refine SameUnless.bind (Inclusion.agreeUnless_compileJoins hbeside
    (hX.mono fun c hc => by simp [readBySelect, hc]) _ _).forget fun plan plan' hjoins => ?_
  -- as many joins on both sides, so columns are qualified on both or on neither
  have hempty : plan'.joins.isEmpty = plan.joins.isEmpty := by
    rw [Bool.eq_iff_iff, List.isEmpty_iff_length_eq_zero, List.isEmpty_iff_length_eq_zero, hjoins]
  rw [hempty]
  generalize (if plan.joins.isEmpty = true then none else some table) = qualifier
  refine SameUnless.ite (fun hagg => ?_) fun hagg => ?_
  · -- what is distinct is left aside by aggregates
    have hkeep : { q with distinct := distinct }.distinctRows env qualifier = .ok .keep := by
      unfold distinctRows
      rw [if_pos (by simp [hagg])]
    have hkeep' : q.distinctRows env' qualifier = .ok .keep := by
      unfold distinctRows
      rw [if_pos (by simp [hagg])]
    rw [hkeep, hkeep']
    exact AgreeUnless.bind_self fun items => agreeUnless_clauses hbeside hX qualifier _ _
  · exact AgreeUnless.bind_both (hrows (by simpa using hagg) qualifier plan plan')
      fun _ _ _ _ => agreeUnless_clauses hbeside hX qualifier _ _

/-! ## Updates and deletions -/

/-- An empty filter is refused in both dialects. -/
theorem agreeUnless_safeWhere (hbeside : env.Beside env')
    (hX : Excused X env'.dialect q.filter.allConditions) :
    AgreeUnless X (fun _ _ => True) (q.safeWhere env) (q.safeWhere env') := by
  unfold safeWhere
  refine SameUnless.bind (Filter.agreeUnless_compile hbeside hX _).forget fun p p' hsome => ?_
  cases p with
  | some p =>
    obtain ⟨p', rfl⟩ := Option.isSome_iff_exists.mp hsome.symm
    exact .ok trivial
  | none =>
    obtain rfl : p' = none := by simpa using hsome.symm
    exact .error rfl

theorem agreeUnless_compileUpdate (hbeside : env.Beside env')
    (hX : Excused X env'.dialect q.filter.allConditions) (row : Row) :
    AgreeUnless X (fun _ _ => True) (q.compileUpdate env row) (q.compileUpdate env' row) := by
  unfold compileUpdate
  rw [hbeside.schema_eq]
  refine AgreeUnless.bind_self fun _ => AgreeUnless.bind_self fun table => ?_
  refine AgreeUnless.bind_self fun assignments => ?_
  exact SameUnless.bind (agreeUnless_safeWhere hbeside hX) fun _ _ _ => .ok trivial

theorem agreeUnless_compileDelete (hbeside : env.Beside env')
    (hX : Excused X env'.dialect q.filter.allConditions) :
    AgreeUnless X (fun _ _ => True) (q.compileDelete env) (q.compileDelete env') := by
  unfold compileDelete
  rw [hbeside.schema_eq]
  refine AgreeUnless.bind_self fun table => ?_
  exact SameUnless.bind (agreeUnless_safeWhere hbeside hX) fun _ _ _ => .ok trivial

/-! ## Queries -/

/-- A query whose payload is checked and that neither writes nor aggregates is for rows. -/
theorem finds_of_checkPayload {u : Unit} (hcheck : q.checkPayload = .ok u)
    (hpayload : q.payload = .none)
    (hdelete : ¬(q.operation = .delete ∨ q.operation = .deleteMany))
    (hagg : q.operation.isAggregate = false) : q.operation.finds = true := by
  have hkind := kind_of_checkPayload hcheck
  rw [hpayload, Payload.kind] at hkind
  revert hkind hdelete hagg
  cases q.operation <;> decide

/-- A query with other distinct fields and the query itself, in two dialects, agree where the rows
of both do. -/
theorem agreeUnless_compile (hbeside : env.Beside env') (distinct : List String)
    (hX : Excused X env'.dialect q.conditions)
    (hrows : q.operation.finds = true → ∀ qualifier plan plan',
      AgreeUnless X (fun _ _ => True) ({ q with distinct := distinct }.rows env qualifier plan)
        (q.rows env' qualifier plan')) :
    AgreeUnless X (fun _ _ => True) ({ q with distinct := distinct }.compile env)
      (q.compile env') := by
  unfold compile
  cases hcheck : q.checkPayload with
  | error e =>
    have hcheck' : { q with distinct := distinct }.checkPayload = .error e := hcheck
    rw [hcheck']
    exact .error rfl
  | ok u =>
    have hcheck' : { q with distinct := distinct }.checkPayload = .ok u := hcheck
    rw [hcheck']
    -- what a query writes is compiled without a look at what is distinct
    have hwritten {x y : Except Error Statement} (hxy : AgreeUnless X (fun _ _ => True) x y) :
        AgreeUnless X (fun _ _ => True)
          (x >>= fun s => .ok ({ statement := s, mapping := { model := q.model } } : Compiled))
          (y >>= fun s => .ok ({ statement := s, mapping := { model := q.model } } : Compiled)) :=
      SameUnless.bind hxy fun _ _ _ => .ok trivial
    unfold conditions at hX
    refine SameUnless.bind (SameUnless.ok (R := fun _ _ => True) trivial) fun _ _ _ => ?_
    unfold compileWrite?
    cases hpayload : q.payload with
    -- insertions ask the schema only
    | create row =>
      refine hwritten ?_
      unfold compileCreate
      rw [hbeside.schema_eq]
      exact AgreeUnless.self (fun _ => trivial) _
    | createMany rows =>
      refine hwritten ?_
      unfold compileCreateMany
      rw [hbeside.schema_eq]
      exact AgreeUnless.self (fun _ => trivial) _
    | upsert keys create update =>
      refine hwritten ?_
      unfold compileUpsert
      rw [hbeside.schema_eq]
      exact AgreeUnless.self (fun _ => trivial) _
    | update row =>
      rw [hpayload] at hX
      exact hwritten (agreeUnless_compileUpdate hbeside hX row)
    | none =>
      rw [hpayload] at hX
      dsimp only at hX ⊢
      by_cases hdelete : q.operation = .delete ∨ q.operation = .deleteMany
      · rw [if_pos hdelete] at hX
        rw [if_pos hdelete, if_pos hdelete]
        exact hwritten (agreeUnless_compileDelete hbeside hX)
      · rw [if_neg hdelete] at hX
        rw [if_neg hdelete, if_neg hdelete]
        refine SameUnless.bind (agreeUnless_compileSelect hbeside distinct hX ?_)
          fun _ _ _ => .ok trivial
        exact fun hagg => hrows (finds_of_checkPayload hcheck hpayload hdelete hagg)

/-- A query in two dialects agrees where its rows do. -/
theorem agreeUnless_compile_self (hbeside : env.Beside env')
    (hX : Excused X env'.dialect q.conditions)
    (hrows : q.operation.finds = true → ∀ qualifier plan plan',
      AgreeUnless X (fun _ _ => True) (q.rows env qualifier plan)
        (q.rows env' qualifier plan')) :
    AgreeUnless X (fun _ _ => True) (q.compile env) (q.compile env') := by
  have hsame := agreeUnless_compile hbeside q.distinct hX fun hfinds qualifier plan plan' => by
    rw [q.eta]
    exact hrows hfinds qualifier plan plan'
  rwa [q.eta] at hsame

/-! ## What is distinct -/

/-- Fields that are selected succeed where their columns do. -/
theorem agreeUnless_rootItems (q : Query) (schema : Schema) (qualifier : Option String) :
    ∀ fields : List String,
      AgreeUnless X (fun _ _ => True) (fields.mapM (q.rootColumn schema qualifier))
        (fields.mapM (q.rootItem schema qualifier)) := by
  intro fields
  induction fields with
  | nil => exact .ok trivial
  | cons field rest ih =>
    rw [List.mapM_cons, List.mapM_cons]
    have hitem : AgreeUnless X (fun _ _ => True) (q.rootColumn schema qualifier field)
        (q.rootItem schema qualifier field) := by
      unfold rootItem
      cases q.rootColumn schema qualifier field with
      | ok ref => exact .ok trivial
      | error e => exact .error rfl
    exact SameUnless.bind hitem fun _ _ _ => SameUnless.bind ih fun _ _ _ => .ok trivial

/-- Dialects that write what is distinct in one way have the same rows. -/
theorem agreeUnless_rows (hschema : env'.schema = env.schema)
    (hon : env'.dialect.distinctOn = env.dialect.distinctOn) (qualifier : Option String)
    (plan plan' : JoinPlan) :
    AgreeUnless X (fun _ _ => True) (q.rows env qualifier plan) (q.rows env' qualifier plan') := by
  unfold rows rowItems selectedFields distinctRows
  rw [hschema, hon]
  simp only [bind_assoc, pure_bind]
  exact AgreeUnless.bind_self fun items => AgreeUnless.bind_self fun distinct => .ok trivial

/-- Fields that have columns are found, whatever qualifies them. -/
theorem exists_rootColumns {schema : Schema} {fields : List String}
    (h : ∀ field ∈ fields, schema.HasColumn q.model field) (qualifier : Option String) :
    ∃ refs, fields.mapM (q.rootColumn schema qualifier) = .ok refs := by
  cases hrefs : fields.mapM (q.rootColumn schema qualifier) with
  | ok refs => exact ⟨refs, rfl⟩
  | error e =>
    obtain ⟨field, hfield, he⟩ := exists_mem_of_mapM_eq_error hrefs
    obtain ⟨column, hcolumn⟩ := h field hfield
    unfold rootColumn at he
    rw [hcolumn] at he
    cases he

/-- A selection is not replaced by the distinct fields in any dialect. -/
theorem selectedFields_of_ne_nil {q : Query} (h : q.selection ≠ []) (d : Dialect) :
    q.selectedFields d = q.selection := by
  unfold selectedFields
  rw [if_neg]
  simp [h]

/-- A dialect without DISTINCT ON looks nothing up for what is distinct. -/
theorem exists_distinctRows (q : Query) (hoff : env.dialect.distinctOn = false)
    (qualifier : Option String) : ∃ kept, q.distinctRows env qualifier = .ok kept := by
  unfold distinctRows
  rw [hoff]
  split
  · exact ⟨_, rfl⟩
  · exact ⟨_, rfl⟩

/-- What is distinct is looked up behind the items, or in their place where nothing is selected. -/
theorem agreeUnless_distinct (hschema : env'.schema = env.schema)
    (hon : env.dialect.distinctOn = true) (hoff : env'.dialect.distinctOn = false)
    (hselection : q.selection = []) (hagg : q.operation.isAggregate = false)
    (qualifier : Option String) (plan plan' : JoinPlan) :
    AgreeUnless X (fun _ _ => True) (q.rows env qualifier plan) (q.rows env' qualifier plan') := by
  obtain ⟨kept, hkept⟩ := q.exists_distinctRows hoff qualifier
  -- one dialect selects nothing and looks the fields up behind, the other selects them
  have hleft : q.selectedFields env.dialect = [] := by
    unfold selectedFields
    rw [hon, hselection]
    rfl
  have hright : q.selectedFields env'.dialect = q.distinct := by
    unfold selectedFields
    rw [hoff, hselection]
    rfl
  unfold rows
  rw [hkept]
  unfold distinctRows rowItems
  rw [hleft, hright, hon, hagg, hschema]
  simp only [List.mapM_nil, bind_assoc, pure_bind]
  by_cases hnone : q.distinct = []
  · rw [hnone]
    exact .ok trivial
  · rw [if_neg (by simpa using hnone), if_pos trivial]
    simp only [bind_assoc, pure_bind]
    exact SameUnless.bind (agreeUnless_rootItems q env.schema qualifier q.distinct)
      fun _ _ _ => .ok trivial

/-- Where fields are selected, what is distinct makes no difference as soon as it has columns. -/
theorem agreeUnless_selection {distinct : List String} (hschema : env'.schema = env.schema)
    (hoff : env'.dialect.distinctOn = false) (hselection : q.selection ≠ [])
    (hknown : ∀ field ∈ distinct, env.schema.HasColumn q.model field)
    (qualifier : Option String) (plan plan' : JoinPlan) :
    AgreeUnless X (fun _ _ => True) ({ q with distinct := distinct }.rows env qualifier plan)
      (q.rows env' qualifier plan') := by
  obtain ⟨kept', hkept'⟩ := q.exists_distinctRows hoff qualifier
  obtain ⟨refs, hrefs⟩ : ∃ refs, distinct.mapM
      ({ q with distinct := distinct }.rootColumn env.schema qualifier) = .ok refs :=
    exists_rootColumns (q := { q with distinct := distinct }) hknown qualifier
  obtain ⟨kept, hkept⟩ : ∃ kept,
      { q with distinct := distinct }.distinctRows env qualifier = .ok kept := by
    unfold distinctRows
    rw [hrefs]
    split
    · exact ⟨_, rfl⟩
    · split
      · exact ⟨_, rfl⟩
      · exact ⟨_, rfl⟩
  unfold rows
  rw [hkept, hkept']
  unfold rowItems
  rw [selectedFields_of_ne_nil hselection,
    selectedFields_of_ne_nil (q := { q with distinct := distinct }) hselection, hschema]
  simp only [bind_assoc, pure_bind]
  exact AgreeUnless.bind_self fun items => .ok trivial

/-- The query is for rows, it selects fields, and it asks for rows that are distinct by a field
that has no column. -/
def Overlooks (q : Query) (schema : Schema) : Prop :=
  q.operation.finds = true ∧ q.selection ≠ [] ∧
    ∃ field ∈ q.distinct, ¬schema.HasColumn q.model field

end Query

section

variable {schema : Schema} {maxDepth : Nat} {q : Query}

/-- Postgres and MySQL go the same way unless a field is overlooked. -/
theorem agree_postgres_mysql (h : ¬q.Overlooks schema) :
    Agree (fun _ _ => True) (q.compile { schema, dialect := .postgres, maxDepth })
      (q.compile { schema, dialect := .mysql, maxDepth }) := by
  let postgres : Env := { schema, dialect := .postgres, maxDepth }
  let mysql : Env := { schema, dialect := .mysql, maxDepth }
  have hbeside : postgres.Beside mysql := ⟨rfl, rfl, rfl⟩
  have hexcused : Excused (fun _ => False) mysql.dialect q.conditions := Excused.of_arrays rfl _
  have hrows : q.operation.finds = true → ∀ qualifier plan plan',
      AgreeUnless (fun _ => False) (fun _ _ => True) (q.rows postgres qualifier plan)
        (q.rows mysql qualifier plan') := by
    intro hfinds qualifier plan plan'
    by_cases hselection : q.selection = []
    · exact Query.agreeUnless_distinct hbeside.schema_eq rfl rfl hselection
        (Operation.isAggregate_of_finds hfinds) qualifier plan plan'
    · have hknown : ∀ field ∈ q.distinct, schema.HasColumn q.model field := by
        intro field hfield
        by_contra hunknown
        exact h ⟨hfinds, hselection, field, hfield, hunknown⟩
      have hsame := Query.agreeUnless_selection (X := fun _ => False) hbeside.schema_eq rfl
        hselection hknown qualifier plan plan'
      rwa [q.eta] at hsame
  exact (Query.agreeUnless_compile_self hbeside hexcused hrows).agree

/-- Where fields are selected, MySQL goes the way of Postgres on the query without what is
distinct. -/
theorem agree_without_distinct (hselection : q.selection ≠ []) :
    Agree (fun _ _ => True)
      ({ q with distinct := [] }.compile { schema, dialect := .postgres, maxDepth })
      (q.compile { schema, dialect := .mysql, maxDepth }) := by
  let postgres : Env := { schema, dialect := .postgres, maxDepth }
  let mysql : Env := { schema, dialect := .mysql, maxDepth }
  have hbeside : postgres.Beside mysql := ⟨rfl, rfl, rfl⟩
  have hexcused : Excused (fun _ => False) mysql.dialect q.conditions := Excused.of_arrays rfl _
  have hnone : ∀ field ∈ ([] : List String), schema.HasColumn q.model field :=
    fun _ hfield => absurd hfield List.not_mem_nil
  exact (Query.agreeUnless_compile hbeside [] hexcused fun _ =>
    Query.agreeUnless_selection hbeside.schema_eq rfl hselection hnone).agree

/-- SQLite goes the way of MySQL, unless it is refused for a condition on arrays. -/
theorem agreeUnless_mysql_sqlite (hX : Excused X .sqlite q.conditions) :
    AgreeUnless X (fun _ _ => True) (q.compile { schema, dialect := .mysql, maxDepth })
      (q.compile { schema, dialect := .sqlite, maxDepth }) := by
  let mysql : Env := { schema, dialect := .mysql, maxDepth }
  let sqlite : Env := { schema, dialect := .sqlite, maxDepth }
  have hbeside : mysql.Beside sqlite := ⟨rfl, rfl, rfl⟩
  exact Query.agreeUnless_compile_self hbeside hX fun _ =>
    Query.agreeUnless_rows hbeside.schema_eq rfl

/-- A query that reads a condition on arrays is refused by SQLite: for what MySQL refuses it for,
or for such a condition. -/
theorem refused_by_sqlite (h : ∃ c ∈ q.conditions, c.onArrays = true) :
    ∃ e, q.compile { schema, dialect := .sqlite, maxDepth } = .error e ∧
      (q.compile { schema, dialect := .mysql, maxDepth } = .error e ∨
        ∃ c ∈ q.conditions, c.onArrays = true ∧ e = c.arrayless .sqlite) := by
  let ForArrays (e : Error) := ∃ c ∈ q.conditions, c.onArrays = true ∧ e = c.arrayless .sqlite
  have hsame : AgreeUnless ForArrays (fun _ _ => True)
      (q.compile { schema, dialect := .mysql, maxDepth })
      (q.compile { schema, dialect := .sqlite, maxDepth }) :=
    agreeUnless_mysql_sqlite fun _ c hc harrays => ⟨c, hc, harrays, rfl⟩
  cases hsqlite : q.compile { schema, dialect := .sqlite, maxDepth } with
  | ok compiled =>
    -- then every condition has been compiled, and one of them cannot be
    obtain ⟨c, hc, harrays⟩ := h
    obtain ⟨scope, a, ha⟩ := Query.atom_of_compile hsqlite c hc
    cases c.arrays_of_atom harrays ha
  | error e =>
    refine ⟨e, rfl, ?_⟩
    rw [hsqlite] at hsame
    rcases hsame with hsame | ⟨e', he', hexcused⟩
    · generalize q.compile { schema, dialect := .mysql, maxDepth } = outcome at hsame ⊢
      cases hsame with
      | error he => exact Or.inl (congrArg _ he)
    · cases he'
      exact Or.inr hexcused

/-- A query for rows that looks up a field without a column, or a relation that is not there, is
refused. -/
theorem refused_of_unknown {d : Dialect} (hfinds : q.operation.finds = true)
    (h : (∃ model field, q.LooksUp schema d model field ∧ ¬schema.HasColumn model field) ∨
      ∃ site ∈ Inclusion.sitesOf schema q.model q.inclusions,
        ∀ r, schema.relation site.model site.inclusion.relation ≠ .ok r) :
    ∃ e, q.compile { schema, dialect := d, maxDepth } = .error e := by
  cases hcompiled : q.compile { schema, dialect := d, maxDepth } with
  | error e => exact ⟨e, rfl⟩
  | ok compiled =>
    obtain ⟨hcolumns, hrelations⟩ := Query.hasColumn_of_compile hfinds hcompiled
    rcases h with ⟨model, field, hlooks, hunknown⟩ | ⟨site, hsite, hunknown⟩
    · exact absurd (hcolumns model field hlooks) hunknown
    · obtain ⟨r, hr⟩ := hrelations site hsite
      exact absurd hr (hunknown r)

end

/-- What a query means to the dialects, for every schema and every limit on depths.

Postgres and MySQL compile it both, or refuse it with one error, but for a field that is overlooked:
then Postgres refuses the query, and MySQL goes the way of Postgres on the query without what is
distinct. MySQL and SQLite compile it both, or refuse it with one error, where it reads no condition
on arrays. Where it reads one, SQLite refuses it, with the error of MySQL or, where MySQL compiles
the query, for such a condition. And a query for rows that looks up a field without a column, or
includes a relation that is not there, is refused by every dialect. -/
theorem dialects_agree (schema : Schema) (maxDepth : Nat) (q : Query) :
    let outcome (d : Dialect) (q : Query) := q.compile { schema, dialect := d, maxDepth }
    (¬q.Overlooks schema →
      Agree (fun _ _ => True) (outcome .postgres q) (outcome .mysql q)) ∧
    (q.Overlooks schema → (∃ e, outcome .postgres q = .error e) ∧
      Agree (fun _ _ => True) (outcome .postgres { q with distinct := [] }) (outcome .mysql q)) ∧
    ((∀ c ∈ q.conditions, c.onArrays = false) →
      Agree (fun _ _ => True) (outcome .mysql q) (outcome .sqlite q)) ∧
    ((∃ c ∈ q.conditions, c.onArrays = true) → ∃ e, outcome .sqlite q = .error e ∧
      (outcome .mysql q = .error e ∨
        ∃ c ∈ q.conditions, c.onArrays = true ∧
          e = .unsupportedOperator c.field c.op (.noArrays .sqlite))) ∧
    ∀ d, q.operation.finds = true →
      ((∃ model field, q.LooksUp schema d model field ∧ ¬schema.HasColumn model field) ∨
        ∃ site ∈ Inclusion.sitesOf schema q.model q.inclusions,
          ∀ r, schema.relation site.model site.inclusion.relation ≠ .ok r) →
      ∃ e, outcome d q = .error e := by
  intro outcome
  refine ⟨agree_postgres_mysql, ?_, ?_, refused_by_sqlite, fun d => refused_of_unknown⟩
  · rintro ⟨hfinds, hselection, field, hfield, hunknown⟩
    refine ⟨refused_of_unknown hfinds (Or.inl ⟨q.model, field, ?_, hunknown⟩),
      agree_without_distinct hselection⟩
    exact .distinct (Or.inl rfl) hfield
  · intro hnone
    refine (agreeUnless_mysql_sqlite fun _ c hc harrays => ?_).agree
    rw [hnone c hc] at harrays
    cases harrays

/-- Books by a field that they have, distinct by one that they have not. -/
def distinctBooks : Query :=
  { model := "Book", operation := .findMany, selection := ["late"], distinct := ["title"] }

/-- Readers with a tag, one of each name. -/
def taggedReaders : Query :=
  { model := "Reader", operation := .findMany, distinct := ["name"]
    filter := .and [{ field := "tags", op := .has, value := .string "a" }] }

/-- Books that are distinct by title have no conditions. -/
theorem distinctBooks_conditions : distinctBooks.conditions = [] :=
  rfl

theorem title_unknown : ¬librarySchema.HasColumn "Book" "title" := by
  rintro ⟨column, hcolumn⟩
  have hunknown : librarySchema.column "Book" "title"
      = .error (.unknownField "Book" "title" none) := by decide
  cases hunknown.symm.trans hcolumn

/-- The distinct field is not looked up beside a selection. -/
theorem distinctBooks_overlooks : distinctBooks.Overlooks librarySchema :=
  ⟨rfl, by simp [distinctBooks], "title", .head _, title_unknown⟩

/-- Readers with a tag are found in Postgres and in MySQL, and refused by SQLite; books that are
distinct by an unknown field are refused by Postgres, found alike in MySQL and in SQLite, and
refused by all of them where the field stands in a sort. -/
theorem dialects_agree_tags :
    let outcome (d : Dialect) (q : Query) := q.compile { schema := librarySchema, dialect := d }
    let sorted : Query := { distinctBooks with distinct := [], orderBy := [{ field := "title" }] }
    Agree (fun _ _ => True) (outcome .postgres taggedReaders) (outcome .mysql taggedReaders) ∧
      (∃ e, outcome .sqlite taggedReaders = .error e) ∧
      (∃ e, outcome .postgres distinctBooks = .error e) ∧
      Agree (fun _ _ => True) (outcome .postgres { distinctBooks with distinct := [] })
        (outcome .mysql distinctBooks) ∧
      Agree (fun _ _ => True) (outcome .mysql distinctBooks) (outcome .sqlite distinctBooks) ∧
      ∀ d, ∃ e, outcome d sorted = .error e := by
  intro outcome sorted
  have htagged : ¬taggedReaders.Overlooks librarySchema := fun ⟨_, hselection, _⟩ =>
    hselection rfl
  have harrays : ∃ c ∈ taggedReaders.conditions, c.onArrays = true :=
    ⟨{ field := "tags", op := .has, value := .string "a" }, .head _, rfl⟩
  have hplain : ∀ c ∈ distinctBooks.conditions, c.onArrays = false := by
    rw [distinctBooks_conditions]
    simp
  obtain ⟨hagree, -, -, hsqlite, -⟩ := dialects_agree librarySchema defaultMaxDepth taggedReaders
  obtain ⟨-, hoverlooked, hsame, -, -⟩ :=
    dialects_agree librarySchema defaultMaxDepth distinctBooks
  obtain ⟨-, -, -, -, hunknown⟩ := dialects_agree librarySchema defaultMaxDepth sorted
  obtain ⟨e, he, -⟩ := hsqlite harrays
  obtain ⟨hrefused, hbare⟩ := hoverlooked distinctBooks_overlooks
  refine ⟨hagree htagged, ⟨e, he⟩, hrefused, hbare, hsame hplain, fun d => ?_⟩
  have hlooks : sorted.LooksUp librarySchema d sorted.model "title" :=
    .orderBy (o := { field := "title" }) (List.mem_singleton_self _)
  exact hunknown d rfl (Or.inl ⟨sorted.model, "title", hlooks, title_unknown⟩)

/-- What is distinct by an unknown field is found in MySQL, where Postgres refuses it. -/
theorem distinct_overlooked :
    (∀ c ∈ distinctBooks.conditions, c.onArrays = false) ∧
      (distinctBooks.compile { schema := librarySchema, dialect := .postgres }).map
          (fun c => (c.statement.prepare .postgres).sql)
        = .error (.unknownField "Book" "title" none) ∧
      (distinctBooks.compile { schema := librarySchema, dialect := .mysql }).map
          (fun c => (c.statement.prepare .mysql).sql)
        = .ok "SELECT DISTINCT late FROM books" := by
  refine ⟨?_, by decide, by decide⟩
  rw [distinctBooks_conditions]
  simp

end SqlQuery
