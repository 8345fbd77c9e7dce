import SqlQuery.Proofs.Compile.Safety
import SqlQuery.Proofs.Compile.Selection
import SqlQuery.Proofs.Compile.Settled

/-!
# How deep a query goes

The limit of levels is looked at in two places, at every node of a filter and at every
inclusion. A node without any condition is looked at like any other, and of the inclusions also
those of which nothing is returned. So the levels that a query needs are those of its tallest
tree, whatever stands in it: `Query.depth`.

> `Filter.settled_compileNode`: a node needs its height, counted on from its own level.

> `Inclusion.settled_compile`: an inclusion needs that too, and what the filters below it need.

> `Query.settled_at_depth`: with fewer levels than its depth a query is refused, and with as many
> or more it has one outcome, which is no refusal for its depth.
-/

namespace SqlQuery

open Sql

/-- The surroundings with another limit of levels. -/
def Env.withLimit (env : Env) (limit : Nat) : Env :=
  { env with maxDepth := limit }

theorem Env.withLimit_schema (env : Env) (limit : Nat) :
    (env.withLimit limit).schema = env.schema :=
  rfl

/-! ## What never looks at the limit -/

/-- A name that is unknown is no matter of depth. -/
theorem Error.UnknownName.within {e : Error} (h : e.UnknownName) : ¬e.OverDepth := by
  cases h <;> exact id

namespace Schema

variable {s : Schema}

/-- A model is found or not, whatever the limit. -/
theorem within_model (name : String) : Within Error.OverDepth (s.model name) :=
  fun _ h => (unknownName_of_model h).within

theorem within_table (name : String) : Within Error.OverDepth (s.table name) :=
  fun _ h => (unknownName_of_table h).within

theorem within_columnOf (name : Option String) (field : String) :
    Within Error.OverDepth (s.columnOf name field) :=
  fun _ h => (unknownName_of_columnOf h).within

theorem within_column (name field : String) : Within Error.OverDepth (s.column name field) :=
  within_columnOf (some name) field

theorem within_fieldNames (name : String) : Within Error.OverDepth (s.fieldNames name) :=
  (within_model name).bind fun _ => .ok _

/-- A relation is found or not, whatever the limit. -/
theorem within_relation (model name : String) :
    Within Error.OverDepth (s.relation model name) := by
  refine (within_model model).bind fun m => ?_
  unfold Model.relation
  split
  · exact .ok _
  · exact .error id

end Schema

theorem Condition.within_atoms (env : Env) (scope : FilterScope) (cs : List Condition) :
    Within Refusal.OverDepth (atoms env scope cs) := by
  intro r hr
  unfold Refusal.OverDepth
  obtain ⟨c, -, ⟨reason, he⟩ | hname⟩ := refused_of_atoms hr
  · rw [he]
    exact id
  · exact hname.within

/-- The pairs of a relation have no levels. -/
theorem within_pairings (schema : Schema) (parent : JoinParent) (target aliasName : String)
    (pairs : List (String × String)) :
    Within Error.OverDepth (pairings schema parent target aliasName pairs) := by
  induction pairs with
  | nil => exact .ok _
  | cons pair rest ih =>
    rw [pairings]
    refine (Schema.within_column _ _).bind fun a => (Schema.within_column _ _).bind fun b => ?_
    exact ih.bind fun _ => .ok _

/-- The equalities of a relation have no levels. -/
theorem within_relationEqualities (schema : Schema) (parent : JoinParent) (relation : Relation)
    (aliasName : String) :
    Within Error.OverDepth (relationEqualities schema parent relation aliasName) := by
  unfold relationEqualities
  split
  · exact .error id
  · exact within_pairings _ _ _ _ _

theorem within_projectFields (schema : Schema) (model aliasName : String) (path : List String)
    (fields : List String) :
    Within Error.OverDepth (projectFields schema model aliasName path fields) := by
  induction fields with
  | nil => exact .ok _
  | cons field rest ih =>
    rw [projectFields]
    exact (Schema.within_column _ _).bind fun column => ih.bind fun _ => .ok _

/-- An inclusion returns its fields at any depth. -/
theorem Inclusion.within_project (i : Inclusion) (schema : Schema) (model aliasName : String)
    (path : List String) : Within Error.OverDepth (i.project schema model aliasName path) := by
  have hwanted : Within Error.OverDepth (i.wantedFields schema model) := by
    unfold wantedFields
    split
    · split
      · exact Schema.within_fieldNames _
      · exact .ok _
    · exact Schema.within_fieldNames _
  unfold project
  split
  · refine hwanted.bind fun fields => ?_
    split
    · exact .ok _
    · exact within_projectFields _ _ _ _ _
  · exact .ok _

/-! ## Filters -/

/-- Conditions never look at the limit. -/
theorem Condition.atoms_withLimit (env : Env) (limit : Nat) (scope : FilterScope)
    (cs : List Condition) : atoms (env.withLimit limit) scope cs = atoms env scope cs := by
  induction cs with
  | nil => rfl
  | cons c cs ih =>
    rw [atoms, atoms, ih]
    rfl

namespace Filter

variable {env : Env} {scope : FilterScope}

mutual

/-- A node needs its height, counted on from its own level. -/
theorem settled_compileNode : ∀ (f : Filter) (level : Nat),
    SettledAt Refusal.OverDepth (level + f.height)
      (fun limit => compileNode (env.withLimit limit) scope (level + 1) f)
  | ⟨op, conditions, nested⟩, level => by
    have hatoms := Condition.within_atoms env scope conditions
    have hnested := settled_compileNodes nested (level + 1)
    have hlevels : max (level + 1) (largest ((nested.map height).map (level + 1 + ·)))
        = level + height ⟨op, conditions, nested⟩ := by
      rw [max_largest_add, height, heights_eq]
      omega
    rw [← hlevels]
    simp only [compileNode, Condition.atoms_withLimit]
    refine SettledAt.guarded ?_ _
    refine SettledAt.after_fixed hatoms fun as => ?_
    exact (hnested.after _).then_fixed fun groups => .ok _

/-- Nodes beside each other need as many levels as the tallest of them. -/
theorem settled_compileNodes : ∀ (fs : List Filter) (level : Nat),
    SettledAt Refusal.OverDepth (largest ((fs.map height).map (level + ·)))
      (fun limit => compileNodes (env.withLimit limit) scope (level + 1) fs)
  | [], level => by
    simp only [compileNodes]
    exact SettledAt.fixed (.ok [])
  | f :: rest, level => by
    have hfirst := settled_compileNode f level
    have hrest := settled_compileNodes rest level
    rw [List.map_cons, List.map_cons, largest_cons]
    simp only [compileNodes]
    exact hfirst.bind fun p => (hrest.after _).then_fixed fun more => .ok _

end

/-- A filter needs its height. -/
theorem settled_compile (f : Filter) :
    SettledAt Refusal.OverDepth f.height (fun limit => f.compile (env.withLimit limit) scope) := by
  have hnode : SettledAt Refusal.OverDepth (0 + f.height)
      (fun limit => compileNode (env.withLimit limit) scope (0 + 1) f) := settled_compileNode f 0
  rwa [Nat.zero_add] at hnode

end Filter

/-! ## Inclusions -/

namespace Inclusion

/-- The height of the filter of an inclusion's query. -/
def filterHeight (i : Inclusion) : Nat :=
  match i.query with
  | some q => q.filter.height
  | none => 0

variable {env : Env}

/-- The filter of an inclusion starts at its own first level, however deep the inclusion is. -/
theorem settled_compileFilter (i : Inclusion) (model aliasName : String) :
    SettledAt Refusal.OverDepth i.filterHeight
      (fun limit => i.compileFilter (env.withLimit limit) model aliasName) := by
  unfold compileFilter filterHeight
  cases i.query with
  | some q => exact q.filter.settled_compile.then_fixed fun p => .ok _
  | none => exact SettledAt.fixed (.ok none)

/-- An inclusion alone needs the levels of its filter. -/
theorem settled_compileOwn (i : Inclusion) (parent : JoinParent) (used : List String) :
    SettledAt Refusal.OverDepth i.filterHeight
      (fun limit => i.compileOwn (env.withLimit limit) parent used) := by
  simp only [compileOwn, Env.withLimit_schema]
  refine SettledAt.after_fixed (Schema.within_relation _ _).of fun relation => ?_
  refine SettledAt.after_fixed (Schema.within_table _).of fun table => ?_
  refine SettledAt.after_fixed (within_relationEqualities _ _ _ _).of fun equalities => ?_
  refine (i.settled_compileFilter _ _).then_fixed fun filter => ?_
  exact ((i.within_project _ _ _ _).of.after _).bind fun items => .ok _

mutual

/-- An inclusion needs its height, counted on from its own level, and the height of every filter
in it. -/
theorem settled_compile : ∀ (i : Inclusion) (parent : JoinParent) (level : Nat)
    (used : List String),
    SettledAt Refusal.OverDepth (max (level + i.height) (largest (i.preorder.map filterHeight)))
      (fun limit => compile (env.withLimit limit) parent (level + 1) used i)
  | ⟨relation, query, projects, nested⟩, parent, level, used => by
    have hlevels : max (level + 1)
          (max (filterHeight ⟨relation, query, projects, nested⟩)
            (max (largest ((nested.map height).map (level + 1 + ·)))
              (largest ((preorderOf nested).map filterHeight))))
        = max (level + height ⟨relation, query, projects, nested⟩)
          (largest ((preorder ⟨relation, query, projects, nested⟩).map filterHeight)) := by
      have hbelow := max_largest_add (level + 1) (nested.map height)
      rw [preorder, List.map_cons, largest_cons, height, heights_eq]
      omega
    rw [← hlevels]
    simp only [compile]
    refine SettledAt.guarded ?_ _
    refine (settled_compileOwn _ parent used).bind fun own => ?_
    have hnested := settled_compileAll nested own.2 (level + 1) (own.2.aliasName :: used)
    exact (hnested.after _).then_fixed fun below => .ok _

/-- Inclusions beside each other need as many levels as the tallest of them. -/
theorem settled_compileAll : ∀ (is : List Inclusion) (parent : JoinParent) (level : Nat)
    (used : List String),
    SettledAt Refusal.OverDepth
      (max (largest ((is.map height).map (level + ·))) (largest ((preorderOf is).map filterHeight)))
      (fun limit => compileAll (env.withLimit limit) parent (level + 1) used is)
  | [], parent, level, used => by
    simp only [compileAll]
    exact SettledAt.fixed (.ok _)
  | i :: rest, parent, level, used => by
    have hlevels : max (max (level + i.height) (largest (i.preorder.map filterHeight)))
          (max (largest ((rest.map height).map (level + ·)))
            (largest ((preorderOf rest).map filterHeight)))
        = max (largest (((i :: rest).map height).map (level + ·)))
          (largest ((preorderOf (i :: rest)).map filterHeight)) := by
      rw [preorderOf, List.map_append, largest_append, List.map_cons, List.map_cons, largest_cons]
      omega
    rw [← hlevels]
    simp only [compileAll]
    refine (settled_compile i parent level used).bind fun plan => ?_
    exact ((settled_compileAll rest parent level plan.2).after _).then_fixed fun more => .ok _

end

/-- The joins of a forest need the levels of the forest, and the height of every filter in it. -/
theorem settled_compileJoins (is : List Inclusion) (model aliasName : String) :
    SettledAt Refusal.OverDepth (max (heights is) (largest ((preorderOf is).map filterHeight)))
      (fun limit => compileJoins (env.withLimit limit) model aliasName is) := by
  have hall : SettledAt Refusal.OverDepth _ (fun limit =>
      compileAll (env.withLimit limit) { model, aliasName } (0 + 1) [aliasName] is) :=
    settled_compileAll is { model, aliasName } 0 [aliasName]
  simp only [Nat.zero_add, List.map_id'] at hall
  rw [heights_eq]
  exact hall.then_fixed fun out => .ok _

end Inclusion

/-! ## Queries that read -/

theorem within_requireFields (aggregations : List Aggregation) :
    Within Error.OverDepth (requireFields aggregations) := by
  induction aggregations with
  | nil => exact .ok _
  | cons a rest ih =>
    rw [requireFields]
    split
    · exact .error id
    · exact ih

namespace Query

variable (q : Query) (schema : Schema) (qualifier : Option String)

theorem within_checkAggregates : Within Error.OverDepth q.checkAggregates := by
  unfold checkAggregates
  split
  · exact .error id
  · split
    · exact .error id
    · exact within_requireFields _

theorem within_rootColumn (field : String) :
    Within Error.OverDepth (q.rootColumn schema qualifier field) :=
  (Schema.within_column _ _).bind fun _ => .ok _

theorem within_rootItem (field : String) :
    Within Error.OverDepth (q.rootItem schema qualifier field) :=
  (q.within_rootColumn schema qualifier field).bind fun _ => .ok _

theorem within_aggregateItem (a : Aggregation) :
    Within Error.OverDepth (q.aggregateItem schema qualifier a) := by
  unfold aggregateItem
  split
  · exact .ok _
  · exact (q.within_rootColumn schema qualifier _).bind fun _ => .ok _

/-- The items of aggregates have no levels. -/
theorem within_aggregateItems : Within Error.OverDepth (q.aggregateItems schema qualifier) := by
  have hgroup (field : String) := q.within_rootColumn schema qualifier field
  refine (Within.mapM (fun field => (hgroup field).bind fun _ => .ok _) _).bind fun groups => ?_
  exact (Within.mapM (q.within_aggregateItem schema qualifier) _).bind fun _ => .ok _

variable {qualifier}

/-- The items of rows have no levels. -/
theorem within_rowItems (env : Env) (plan : JoinPlan) :
    Within Error.OverDepth (q.rowItems env qualifier plan) :=
  (Within.mapM (q.within_rootItem env.schema qualifier) _).bind fun _ => .ok _

/-- How rows are made distinct has no levels. -/
theorem within_distinctRows (env : Env) :
    Within Error.OverDepth (q.distinctRows env qualifier) := by
  unfold distinctRows
  split
  · exact .ok _
  · split
    · exact (Within.mapM (q.within_rootColumn env.schema qualifier) _).bind fun _ => .ok _
    · exact .ok _

/-- The levels that a query needs: of one that reads, those of its filters and of its inclusions,
the filters of these among them; of one that changes or removes rows, those of its filter. -/
def depth : Nat :=
  if q.operation.reads then
    largest ([q.seekFilter.height, q.having.height, Inclusion.heights q.inclusions]
      ++ (Inclusion.preorderOf q.inclusions).map (·.filterHeight))
  else if q.operation.needsFilter then q.filter.height
  else 0

variable {q} {env : Env}

/-- The clauses behind the items need the levels of the two filters, whatever is made of them. -/
theorem settled_clauses {β : Type}
    (f : Option Predicate → List ColumnRef → Option Predicate → List (ColumnRef × SortOrder) → β) :
    SettledAt Error.OverDepth (max q.seekFilter.height q.having.height) (fun limit => do
      let where_ ← Refusal.forget
        (q.seekFilter.compile (env.withLimit limit) { model := some q.model, qualifier })
      let groupBy ← q.groupBy.mapM (q.rootColumn env.schema qualifier)
      let having ← Refusal.forget (q.having.compile (env.withLimit limit)
        { model := some q.model, qualifier, clause := .having })
      let orderBy ← q.orderBy.mapM fun o => do
        return (← q.rootColumn env.schema qualifier o.field, o.order)
      return f where_ groupBy having orderBy) := by
  have hcolumn (field : String) := q.within_rootColumn env.schema qualifier field
  have hordering (o : Ordering) : Within Error.OverDepth
      (do return (← q.rootColumn env.schema qualifier o.field, o.order)) :=
    (hcolumn o.field).bind fun _ => .ok _
  refine (Filter.settled_compile q.seekFilter).forget.bind fun where_ => ?_
  refine SettledAt.after_fixed (Within.mapM hcolumn _) fun groupBy => ?_
  refine (Filter.settled_compile q.having).forget.then_fixed fun having => ?_
  exact (Within.mapM hordering _).bind fun orderBy => .ok _

/-- A selection needs the levels of its filters and of its inclusions. -/
theorem settled_compileSelect :
    SettledAt Error.OverDepth
      (max (max (Inclusion.heights q.inclusions)
          (largest ((Inclusion.preorderOf q.inclusions).map (·.filterHeight))))
        (max q.seekFilter.height q.having.height))
      (fun limit => q.compileSelect (env.withLimit limit)) := by
  have hdistinct (limit : Nat) (qualifier : Option String) :
      q.distinctRows (env.withLimit limit) qualifier = q.distinctRows env qualifier := rfl
  have hrows (limit : Nat) (qualifier : Option String) (plan : JoinPlan) :
      q.rowItems (env.withLimit limit) qualifier plan = q.rowItems env qualifier plan := rfl
  simp only [compileSelect, Env.withLimit_schema, hdistinct, hrows]
  refine SettledAt.check q.within_checkAggregates fun _ => ?_
  refine SettledAt.after_fixed (Schema.within_table _) fun table => ?_
  refine (Inclusion.settled_compileJoins q.inclusions q.model table).forget.bind fun plan => ?_
  generalize (if plan.joins.isEmpty = true then none else some table) = qualifier
  -- items and what is distinct are found without a look at the limit
  split
  · refine SettledAt.after_fixed (q.within_aggregateItems env.schema qualifier) fun items => ?_
    exact SettledAt.after_fixed (q.within_distinctRows env) fun distinct => settled_clauses _
  · refine SettledAt.after_fixed (q.within_rowItems env plan) fun items => ?_
    exact SettledAt.after_fixed (q.within_distinctRows env) fun distinct => settled_clauses _

/-! ## Queries that write -/

/-- The condition that an update or a deletion needs takes the levels of the filter. -/
theorem settled_safeWhere :
    SettledAt Error.OverDepth q.filter.height (fun limit => q.safeWhere (env.withLimit limit)) := by
  unfold safeWhere
  refine (Filter.settled_compile q.filter).forget.then_fixed fun p => ?_
  cases p with
  | some p => exact .ok p
  | none => exact .error id

end Query

theorem within_checkUnique (site : WriteSite) (row : Row) :
    Within Error.OverDepth (checkUnique site row) := by
  unfold checkUnique
  split
  · exact .error id
  · exact .ok _

theorem within_checkRow (site : WriteSite) (row : Row) :
    Within Error.OverDepth (checkRow site row) := by
  unfold checkRow
  split
  · exact .error id
  · exact within_checkUnique site row

theorem within_checkShapes (reference : List String) (rows : List Row) (index : Nat) :
    Within Error.OverDepth (checkShapes reference index rows) := by
  induction rows generalizing index with
  | nil => exact .ok _
  | cons row rest ih =>
    rw [checkShapes]
    split
    · exact .error id
    · exact ih (index + 1)

theorem within_forM_checkUnique (site : WriteSite) (rows : List Row) :
    Within Error.OverDepth (rows.forM (checkUnique site)) := by
  induction rows with
  | nil => exact .ok _
  | cons row rest ih =>
    show Within Error.OverDepth (checkUnique site row >>= fun _ => rest.forM (checkUnique site))
    exact (within_checkUnique site row).bind fun _ => ih

/-- The fields that rows have in common are found without levels. -/
theorem within_commonFields (site : WriteSite) (rows : List Row) :
    Within Error.OverDepth (commonFields site rows) := by
  unfold commonFields
  split
  · exact .error id
  · refine Within.check (.error id) fun _ => ?_
    refine (within_forM_checkUnique site _).bind fun _ => ?_
    exact (within_checkShapes _ _ 1).bind fun _ => .ok _

/-- The columns of fields are found without levels. -/
theorem within_columnsOf (schema : Schema) (model : Option String) (fields : List String) :
    Within Error.OverDepth (columnsOf schema model fields) :=
  Within.mapM (Schema.within_columnOf model) fields

theorem within_assignmentsOf (schema : Schema) (model : Option String) (row : Row) :
    Within Error.OverDepth (assignmentsOf schema model row) :=
  (within_columnsOf schema model row.fields).bind fun _ => .ok _

theorem within_insertion (site : WriteSite) (schema : Schema) (model : Option String)
    (fixed : List (String × Value)) (rows : List Row) :
    Within Error.OverDepth (insertion site schema model fixed rows) :=
  (within_commonFields site rows).bind fun fields =>
    (within_columnsOf schema model fields).bind fun _ => .ok _

namespace Query

variable (q : Query) (env : Env)

/-- The payload is checked before any level is looked at. -/
theorem within_checkPayload : Within Error.OverDepth q.checkPayload := by
  unfold checkPayload
  dsimp only
  split
  · exact .error id
  · split
    · exact .error id
    · exact .ok _

/-- The insertion of a row needs no level. -/
theorem within_compileCreate (row : Row) : Within Error.OverDepth (q.compileCreate env row) := by
  refine (within_checkRow _ row).bind fun _ => (Schema.within_table _).bind fun table => ?_
  exact (within_columnsOf _ _ _).bind fun columns => .ok _

/-- The insertion of rows needs no level. -/
theorem within_compileCreateMany (rows : List Row) :
    Within Error.OverDepth (q.compileCreateMany env rows) := by
  refine (Schema.within_table _).bind fun table => ?_
  exact (within_insertion _ _ _ _ _).bind fun columns => .ok _

/-- An upsert has no filter, and needs no level. -/
theorem within_compileUpsert (keys : List String) (create update : Row) :
    Within Error.OverDepth (q.compileUpsert env keys create update) := by
  unfold compileUpsert
  refine Within.check (.error id) fun _ => Within.check (.error id) fun _ => ?_
  refine (within_checkUnique _ create).bind fun _ => (within_checkUnique _ update).bind fun _ => ?_
  refine (Schema.within_table _).bind fun table => (within_columnsOf _ _ _).bind fun columns => ?_
  refine (within_columnsOf _ _ _).bind fun keyColumns => ?_
  split
  · exact .ok _
  · exact (within_assignmentsOf _ _ _).bind fun assignments => .ok _

variable {q env}

/-- An update needs the levels of its filter. -/
theorem settled_compileUpdate (row : Row) :
    SettledAt Error.OverDepth q.filter.height
      (fun limit => q.compileUpdate (env.withLimit limit) row) := by
  simp only [compileUpdate, Env.withLimit_schema]
  refine SettledAt.after_fixed (within_checkRow _ row) fun _ => ?_
  refine SettledAt.after_fixed (Schema.within_table _) fun table => ?_
  refine SettledAt.after_fixed (within_assignmentsOf _ _ _) fun assignments => ?_
  exact settled_safeWhere.then_fixed fun p => .ok _

/-- A deletion needs the levels of its filter. -/
theorem settled_compileDelete :
    SettledAt Error.OverDepth q.filter.height
      (fun limit => q.compileDelete (env.withLimit limit)) := by
  simp only [compileDelete, Env.withLimit_schema]
  refine SettledAt.after_fixed (Schema.within_table _) fun table => ?_
  exact settled_safeWhere.then_fixed fun p => .ok _

/-! ## Queries -/

/-- A query that takes data to insert goes through no tree. -/
theorem depth_of_insertion (h : expectedPayload q.operation = .create ∨
    expectedPayload q.operation = .createMany ∨ expectedPayload q.operation = .upsert) :
    q.depth = 0 := by
  have hop : q.operation.reads = false ∧ q.operation.needsFilter = false := by
    revert h
    cases q.operation <;> decide
  unfold depth
  rw [hop.1, hop.2]
  rfl

/-- The depth of a query that updates or deletes is that of its filter. -/
theorem depth_of_needsFilter (h : q.operation.needsFilter = true) : q.depth = q.filter.height := by
  have hreads : q.operation.reads = false := by
    revert h
    cases q.operation <;> decide
  unfold depth
  rw [hreads, h]
  rfl

/-- The depth of a query that reads is that of its tallest tree. -/
theorem depth_of_reads (h : q.operation.reads = true) :
    q.depth = max (max (Inclusion.heights q.inclusions)
        (largest ((Inclusion.preorderOf q.inclusions).map (·.filterHeight))))
      (max q.seekFilter.height q.having.height) := by
  unfold depth
  rw [h, if_pos rfl, largest_append]
  simp only [largest_cons]
  show max (max _ (max _ (max _ 0))) _ = _
  omega

/-- A query needs the levels of its depth. -/
theorem settled_compile :
    SettledAt Error.OverDepth q.depth (fun limit => q.compile (env.withLimit limit)) := by
  unfold compile
  cases hcheck : q.checkPayload with
  | error e => exact SettledAt.error (q.within_checkPayload e hcheck) q.depth
  | ok u =>
    have hkind := kind_of_checkPayload hcheck
    refine SettledAt.after_fixed (.ok u) fun _ => ?_
    have hinsertion (hdepth : q.depth = 0) {x : Except Error Statement}
        (hx : Within Error.OverDepth x) :
        SettledAt Error.OverDepth q.depth (fun _ => x >>= fun s =>
          .ok ({ statement := s, mapping := { model := q.model } } : Compiled)) := by
      rw [hdepth]
      exact SettledAt.fixed (hx.bind fun _ => .ok _)
    have hfiltered (hneeds : q.operation.needsFilter = true) {run : Nat → Except Error Statement}
        (hrun : SettledAt Error.OverDepth q.filter.height run) :
        SettledAt Error.OverDepth q.depth (fun limit => run limit >>= fun s =>
          .ok ({ statement := s, mapping := { model := q.model } } : Compiled)) := by
      rw [depth_of_needsFilter hneeds]
      exact hrun.then_fixed fun _ => .ok _
    unfold compileWrite?
    cases hpayload : q.payload with
    | create row =>
      rw [hpayload, Payload.kind] at hkind
      exact hinsertion (depth_of_insertion (.inl hkind)) (q.within_compileCreate env row)
    | createMany rows =>
      rw [hpayload, Payload.kind] at hkind
      exact hinsertion (depth_of_insertion (.inr (.inl hkind)))
        (q.within_compileCreateMany env rows)
    | upsert keys create update =>
      rw [hpayload, Payload.kind] at hkind
      exact hinsertion (depth_of_insertion (.inr (.inr hkind))) (q.within_compileUpsert env _ _ _)
    | update row =>
      rw [hpayload, Payload.kind] at hkind
      refine hfiltered ?_ (settled_compileUpdate row)
      revert hkind
      cases q.operation <;> decide
    | none =>
      rw [hpayload, Payload.kind] at hkind
      dsimp only
      by_cases hdelete : q.operation = .delete ∨ q.operation = .deleteMany
      · simp only [if_pos hdelete]
        refine hfiltered ?_ settled_compileDelete
        rcases hdelete with hop | hop <;> rw [hop] <;> rfl
      · have hreads : q.operation.reads = true := by
          revert hkind hdelete
          cases q.operation <;> decide
        simp only [if_neg hdelete]
        rw [depth_of_reads hreads]
        exact settled_compileSelect.then_fixed fun _ => .ok _

/-- With fewer levels than its depth a query is refused. With as many or more it has one outcome,
and that is no refusal for its depth. -/
theorem settled_at_depth (schema : Schema) (dialect : Dialect) (q : Query) :
    (∀ limit < q.depth, ∃ e, q.compile { schema, dialect, maxDepth := limit } = .error e) ∧
      ∀ limit, q.depth ≤ limit →
        (∀ tree levels,
          q.compile { schema, dialect, maxDepth := limit } ≠ .error (.depthExceeded tree levels)) ∧
        ∀ other, q.depth ≤ other →
          q.compile { schema, dialect, maxDepth := limit }
            = q.compile { schema, dialect, maxDepth := other } := by
  have hsettled : SettledAt Error.OverDepth q.depth
      (fun limit => q.compile (Env.withLimit { schema, dialect } limit)) := settled_compile
  refine ⟨hsettled.refused, fun limit hlimit => ⟨fun tree levels h => ?_, fun other hother => ?_⟩⟩
  · have hdepth : q.compile { schema, dialect, maxDepth := q.depth }
        = .error (.depthExceeded tree levels) := (hsettled.settled limit hlimit).symm.trans h
    exact hsettled.within _ hdepth trivial
  · exact (hsettled.settled limit hlimit).trans (hsettled.settled other hother).symm

/-- The filter of the page is a disjunction, so the cursor's condition stands one level above it. -/
theorem settled_at_depth_paged :
    pagedQuery.depth = 2 ∧
      (∃ e, pagedQuery.compile { schema := librarySchema, dialect := .mysql, maxDepth := 1 }
        = .error e) ∧
      (∀ tree levels,
        pagedQuery.compile { schema := librarySchema, dialect := .mysql, maxDepth := 2 }
          ≠ .error (.depthExceeded tree levels)) ∧
      pagedQuery.compile { schema := librarySchema, dialect := .mysql, maxDepth := 2 }
        = pagedQuery.compile { schema := librarySchema, dialect := .mysql, maxDepth := 32 } := by
  have hdepth : pagedQuery.depth = 2 := by decide
  obtain ⟨hless, hmore⟩ := settled_at_depth librarySchema .mysql pagedQuery
  obtain ⟨hwithin, hsame⟩ := hmore 2 (by omega)
  exact ⟨hdepth, hless 1 (by omega), hwithin, hsame 32 (by omega)⟩

end Query

end SqlQuery
