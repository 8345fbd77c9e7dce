import SqlQuery.Proofs.Compile.Lookups
import SqlQuery.Proofs.Compile.ResultColumn
import SqlQuery.Proofs.Compile.Safety
import SqlQuery.Proofs.Compile.Written

/-!
# Only declared fields are written

A query names fields of its model in its filter, in its cursor, in what it sorts and groups by, in
the rows that it writes and in the keys of an upsert. `Query.Names` lists these places. A field
comes into a statement from any of them through the same lookup, and where a model declares fields
the lookup knows these alone, and `*`, which it lets through as a column whoever asks.

> `Query.resolves_of_names`: every field that a compiled query names has been looked up.

> `Query.fields_declared`: so it is a declared field, or `*`.
-/

namespace SqlQuery

open Sql

/-- Where a model declares fields, only these and `*` stand for a column. -/
theorem Schema.declared_of_resolves {s : Schema} {name field : String} {m : Model}
    (hmodel : s.model name = .ok m) (hfields : m.fields ≠ []) (h : s.Resolves (some name) field) :
    field ∈ m.fieldNames ∨ field = "*" := by
  obtain ⟨m', hm', hfield⟩ := h name rfl
  obtain rfl : m' = m := Option.some.inj (hm'.symm.trans (Schema.model_ok_iff.mp hmodel))
  rcases hfield with hnone | hstar | hdeclared
  · exact absurd hnone hfields
  · exact Or.inr hstar
  · exact Or.inl hdeclared

namespace Query

/-- The fields that a query names of its own model, beside those of its selection. A filter and a
cursor count where the operation reads them, and every row of the data does. -/
inductive Names (q : Query) : String → Prop where
  | filter {c : Condition} : q.operation.reads = true ∨ q.operation.needsFilter = true →
      c ∈ q.filter.allConditions → Names q c.field
  | cursor {c : Cursor} : q.operation.reads = true → q.cursor = some c → Names q c.field
  | orderBy {o : Ordering} : q.operation.reads = true → o ∈ q.orderBy → Names q o.field
  | groupBy {field : String} : q.operation.reads = true → field ∈ q.groupBy → Names q field
  | written {row : Row} {field : String} : row ∈ q.payload.rows → field ∈ row.fields →
      Names q field
  | key {keys : List String} {created updated : Row} {field : String} :
      q.payload = .upsert keys created updated → field ∈ keys → Names q field

variable {q : Query} {env : Env}

/-- A field resolves in its model where a column is found for it. -/
theorem resolves_of_hasColumn {model field : String} (h : env.schema.HasColumn model field) :
    env.schema.Resolves (some model) field :=
  Schema.columnOf_ok_iff.mp h

/-- The conditions of a filter that has been compiled are about columns. -/
theorem resolves_of_filter {f : Filter} {scope : FilterScope} {p : Option Predicate}
    (h : f.compile env scope = .ok p) :
    ∀ c ∈ f.allConditions, env.schema.Resolves scope.model c.field := by
  intro c hc
  obtain ⟨a, ha⟩ := Filter.atom_of_compile h c hc
  exact (Condition.atom_ok_iff.mp ⟨a, ha⟩).field

/-- The fields in the condition of an update or a deletion have been looked up. -/
theorem resolves_of_safeWhere {p : Predicate} (h : q.safeWhere env = .ok p) :
    ∀ c ∈ q.filter.allConditions, env.schema.Resolves (some q.model) c.field :=
  resolves_of_filter (compile_of_safeWhere h)

/-- What a query that reads names has been looked up, clause by clause. -/
theorem SelectedAs.resolves {plan : JoinPlan} {s : Select} {mapping : ResultMapping}
    (h : q.SelectedAs env plan s mapping) :
    (∀ c ∈ q.filter.allConditions, env.schema.Resolves (some q.model) c.field) ∧
    (∀ c, q.cursor = some c → env.schema.Resolves (some q.model) c.field) ∧
    (∀ o ∈ q.orderBy, env.schema.Resolves (some q.model) o.field) ∧
    ∀ field ∈ q.groupBy, env.schema.Resolves (some q.model) field := by
  have hseek := resolves_of_filter h.where_eq
  unfold seekFilter at hseek
  refine ⟨fun c hc => ?_, fun cursor hcursor => ?_, fun o ho => ?_, fun field hfield => ?_⟩
  · cases hcursor : q.cursor with
    | none =>
      rw [hcursor] at hseek
      exact hseek c hc
    | some cursor =>
      rw [hcursor] at hseek
      exact hseek c ((q.filter.mem_andCondition _).2 c hc)
  · rw [hcursor] at hseek
    exact hseek (q.seek cursor) (q.filter.mem_andCondition _).1
  · obtain ⟨entry, -, hentry⟩ :=
      exists_mem_of_forall₂ (List.Forall₂.flip (forall₂_of_mapM h.orderBy_eq)) o ho
    obtain ⟨ref, href, -⟩ := bind_eq_ok.mp hentry
    exact resolves_of_hasColumn (hasColumn_of_rootColumn href)
  · exact resolves_of_hasColumn (hasColumn_of_rootColumns h.groupBy_eq field hfield)

/-- The filter of an update or a deletion has been looked up. -/
theorem WrittenAs.resolves_filter {s : Statement} (h : q.WrittenAs env s)
    (hpayload : (∃ row, q.payload = .update row) ∨ q.payload = .none) :
    ∀ c ∈ q.filter.allConditions, env.schema.Resolves (some q.model) c.field := by
  cases h with
  | update _ _ _ hp => exact resolves_of_safeWhere hp
  | delete _ hp => exact resolves_of_safeWhere hp
  | create hother _ _ | createMany hother _ _ | upsert hother _ _ _ _ _ =>
    rcases hpayload with ⟨row, hpayload⟩ | hpayload <;> rw [hpayload] at hother <;> cases hother

theorem WrittenAs.resolves_keys {s : Statement} (h : q.WrittenAs env s) {keys : List String}
    {created updated : Row} (hpayload : q.payload = .upsert keys created updated) :
    ∀ field ∈ keys, env.schema.Resolves (some q.model) field := by
  cases h with
  | upsert hsame _ _ _ hkeys _ =>
    rw [hpayload] at hsame
    cases hsame
    exact columnsOf_ok_iff.mp ⟨_, hkeys⟩
  | create hother _ _ | createMany hother _ _ | update hother _ _ _ | delete hother _ =>
    rw [hpayload] at hother
    cases hother

/-- Every field that a compiled query names has been looked up. -/
theorem resolves_of_names {c : Compiled} (h : q.compile env = .ok c) {field : String}
    (hnames : q.Names field) : env.schema.Resolves (some q.model) field := by
  cases hreads : q.operation.reads with
  | true =>
    obtain ⟨s, plan, -, hselected⟩ := selectedAs_of_compile hreads h
    obtain ⟨hfilter, hcursor, horderBy, hgroupBy⟩ := hselected.resolves
    cases hnames with
    | filter _ hc => exact hfilter _ hc
    | cursor _ hc => exact hcursor _ hc
    | orderBy _ ho => exact horderBy _ ho
    | groupBy _ hfield => exact hgroupBy _ hfield
    | written hrow _ =>
      rw [payload_of_reads hreads h] at hrow
      exact absurd hrow List.not_mem_nil
    | key hpayload _ =>
      rw [payload_of_reads hreads h] at hpayload
      cases hpayload
  | false =>
    have hwritten := writtenAs_of_compile hreads h
    cases hnames with
    | filter hread hc =>
      have hneeds : q.operation.needsFilter = true := hread.resolve_left (by simp [hreads])
      refine hwritten.resolves_filter ?_ _ hc
      exact (payload_of_needsFilter hneeds (kind_of_compile h)).imp_right And.left
    | cursor hread _ | orderBy hread _ | groupBy hread _ => exact absurd hread (by simp [hreads])
    | written hrow hfield => exact hwritten.resolves _ hrow _ hfield
    | key hpayload hfield => exact hwritten.resolves_keys hpayload _ hfield

/-- Every field that a compiled query names of a model with declared fields is one of these, or
the name `*`, for which the lookup has the column `*`. -/
theorem fields_declared {c : Compiled} {m : Model} (hmodel : env.schema.model q.model = .ok m)
    (hfields : m.fields ≠ []) (h : q.compile env = .ok c) :
    ∀ field, q.Names field →
      field ∈ m.fieldNames ∨ field = "*" ∧ env.schema.column q.model field = .ok "*" := by
  intro field hnames
  refine (Schema.declared_of_resolves hmodel hfields (resolves_of_names h hnames)).imp_right ?_
  rintro rfl
  refine ⟨rfl, ?_⟩
  rw [Schema.column, hmodel]
  exact m.column_star

end Query

/-- The users behind the seventh one that have an address. -/
def laterUsers : Query :=
  { model := "User", operation := .findMany
    filter := { conditions := [{ field := "email", op := .isNull, value := .bool false }] }
    orderBy := [{ field := "id" }], cursor := some { field := "id", value := .int 7 } }

theorem Query.fields_declared_later :
    ∃ c, laterUsers.compile { schema := usersSchema, dialect := .postgres } = .ok c ∧
      (c.statement.prepare .postgres).sql
        = "SELECT * FROM users WHERE email_address IS NOT NULL AND id > $1 ORDER BY id ASC" ∧
      laterUsers.Names "email" ∧ laterUsers.Names "id" ∧
      ∀ field, laterUsers.Names field → field ∈ ["id", "email"] ∨
        field = "*" ∧ usersSchema.column "User" field = .ok "*" := by
  have htext : (laterUsers.compile { schema := usersSchema, dialect := .postgres }).map
      (fun c => (c.statement.prepare .postgres).sql)
      = .ok "SELECT * FROM users WHERE email_address IS NOT NULL AND id > $1 ORDER BY id ASC" := by
    decide
  obtain ⟨m, hm, hnames⟩ : ∃ m, usersSchema.model "User" = .ok m ∧ m.fieldNames = ["id", "email"] :=
    ⟨_, rfl, rfl⟩
  have hfields : m.fields ≠ [] := by
    intro hnil
    rw [Model.fieldNames, hnil] at hnames
    cases hnames
  cases hc : laterUsers.compile { schema := usersSchema, dialect := .postgres } with
  | error e =>
    rw [hc] at htext
    cases htext
  | ok c =>
    rw [hc] at htext
    refine ⟨c, rfl, Except.ok.inj htext, ?_, ?_, ?_⟩
    · exact .filter (c := { field := "email", op := .isNull, value := .bool false })
        (Or.inl rfl) (List.mem_singleton_self _)
    · exact .orderBy (o := { field := "id" }) rfl (List.mem_singleton_self _)
    · rw [← hnames]
      exact Query.fields_declared hm hfields hc

/-- The users of which everything is one. -/
def starredUsers : Query :=
  { model := "User", operation := .findMany
    filter := { conditions := [.equals "*" (.int 1)] } }

/-- No field of users is called `*`, and yet a condition on it is written. -/
theorem Query.star_undeclared :
    ∃ c m, starredUsers.compile { schema := usersSchema, dialect := .postgres } = .ok c ∧
      (c.statement.prepare .postgres).sql = "SELECT * FROM users WHERE * = $1" ∧
      usersSchema.model "User" = .ok m ∧ m.fields ≠ [] ∧
      starredUsers.Names "*" ∧ "*" ∉ m.fieldNames := by
  have htext : (starredUsers.compile { schema := usersSchema, dialect := .postgres }).map
      (fun c => (c.statement.prepare .postgres).sql)
      = .ok "SELECT * FROM users WHERE * = $1" := by
    decide
  cases hc : starredUsers.compile { schema := usersSchema, dialect := .postgres } with
  | error e =>
    rw [hc] at htext
    cases htext
  | ok c =>
    rw [hc] at htext
    refine ⟨c, _, rfl, Except.ok.inj htext, rfl, by decide, ?_, by decide⟩
    exact .filter (c := .equals "*" (.int 1)) (Or.inl rfl) (List.mem_singleton_self _)

end SqlQuery
