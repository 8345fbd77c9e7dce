import SqlQuery.Proofs.Compile.RowShape
import SqlQuery.Proofs.Compile.Selection

/-!
# What a query that writes is compiled to

A query with data becomes one insertion or one update, and a deletion has no data. `WrittenAs`
keeps for each of them what was checked of the rows and which columns were found for their
fields.

> `Query.writtenAs_of_compile`: a query that writes and compiles is such a statement.

> `Query.WrittenAs.nodup`, `Query.WrittenAs.resolves`: no row of the data names a field twice, and
> every field of every row has a column.
-/

namespace SqlQuery

open Sql

/-- The rows of the data that a query writes. -/
def Payload.rows : Payload → List Row
  | .none => []
  | .create row => [row]
  | .createMany rows => rows
  | .update row => [row]
  | .upsert _ created updated => [created, updated]

namespace Query

/-- The statement of a query that writes, each part of which the query was compiled to. -/
inductive WrittenAs (q : Query) (env : Env) : Statement → Prop where
  | create {row : Row} {table : String} {columns : List String} : q.payload = .create row →
      row.fields.Nodup → columnsOf env.schema (some q.model) row.fields = .ok columns →
      WrittenAs q env (.insert table columns [row.values] none true)
  | createMany {first : Row} {rest : List Row} {table : String} {columns : List String}
      {values : List (List Value)} : q.payload = .createMany (first :: rest) →
      Insertable env.schema (some q.model) first rest →
      columnsOf env.schema (some q.model) first.fields = .ok columns →
      WrittenAs q env (.insert table columns values none true)
  | update {row : Row} {table : String} {assignments : List Assignment} {p : Predicate}
      {returning : Bool} : q.payload = .update row → row.fields.Nodup →
      assignmentsOf env.schema (some q.model) row = .ok assignments → q.safeWhere env = .ok p →
      WrittenAs q env (.update table assignments p returning)
  | upsert {keys : List String} {created updated : Row} {table : String}
      {columns keyColumns : List String} {assignments : List Assignment} :
      q.payload = .upsert keys created updated → created.fields.Nodup → updated.fields.Nodup →
      columnsOf env.schema (some q.model) created.fields = .ok columns →
      columnsOf env.schema (some q.model) keys = .ok keyColumns →
      (if updated.isEmpty then .ok (keyColumns.map fun k => { column := k, source := .proposed })
        else assignmentsOf env.schema (some q.model) updated) = .ok assignments →
      WrittenAs q env
        (.insert table columns [created.values] (some { keys := keyColumns, assignments }) true)
  | delete {table : String} {p : Predicate} {returning : Bool} : q.payload = .none →
      q.safeWhere env = .ok p → WrittenAs q env (.delete table p returning)

variable {q : Query} {env : Env} {s : Statement}

/-- The fields of a row that is assigned have columns. -/
theorem resolves_of_assignmentsOf {schema : Schema} {model : Option String} {row : Row}
    {assignments : List Assignment} (h : assignmentsOf schema model row = .ok assignments) :
    ∀ field ∈ row.fields, schema.Resolves model field := by
  unfold assignmentsOf at h
  obtain ⟨columns, hcolumns, -⟩ := bind_eq_ok.mp h
  exact columnsOf_ok_iff.mp ⟨columns, hcolumns⟩

/-! ## The ways to write -/

theorem writtenAs_of_create {row : Row} (hpayload : q.payload = .create row)
    (h : q.compileCreate env row = .ok s) : q.WrittenAs env s := by
  unfold compileCreate at h
  obtain ⟨⟨⟩, hrow, h⟩ := bind_eq_ok.mp h
  obtain ⟨table, -, h⟩ := bind_eq_ok.mp h
  obtain ⟨columns, hcolumns, h⟩ := bind_eq_ok.mp h
  cases h
  exact .create hpayload (Row.checkRow_eq_ok_iff.mp hrow).2 hcolumns

theorem writtenAs_of_createMany {rows : List Row} (hpayload : q.payload = .createMany rows)
    (h : q.compileCreateMany env rows = .ok s) : q.WrittenAs env s := by
  unfold compileCreateMany at h
  obtain ⟨table, -, h⟩ := bind_eq_ok.mp h
  obtain ⟨⟨columns, values⟩, hrows, h⟩ := bind_eq_ok.mp h
  cases h
  obtain ⟨first, rest, rfl, hinsertable⟩ := insertion_ok_iff.mp ⟨_, hrows⟩
  rw [insertion_of_alike hinsertable.nonempty hinsertable.distinct hinsertable.alike] at hrows
  obtain ⟨columns', hcolumns, hrows⟩ := bind_eq_ok.mp hrows
  cases hrows
  exact .createMany hpayload hinsertable hcolumns

theorem writtenAs_of_update {row : Row} (hpayload : q.payload = .update row)
    (h : q.compileUpdate env row = .ok s) : q.WrittenAs env s := by
  unfold compileUpdate at h
  obtain ⟨⟨⟩, hrow, h⟩ := bind_eq_ok.mp h
  obtain ⟨table, -, h⟩ := bind_eq_ok.mp h
  obtain ⟨assignments, hassignments, h⟩ := bind_eq_ok.mp h
  obtain ⟨p, hp, h⟩ := bind_eq_ok.mp h
  cases h
  exact .update hpayload (Row.checkRow_eq_ok_iff.mp hrow).2 hassignments hp

theorem writtenAs_of_upsert {keys : List String} {create update : Row}
    (hpayload : q.payload = .upsert keys create update)
    (h : q.compileUpsert env keys create update = .ok s) : q.WrittenAs env s := by
  unfold compileUpsert at h
  have h := check_eq_ok (check_eq_ok h)
  obtain ⟨⟨⟩, hcreate, h⟩ := bind_eq_ok.mp h
  obtain ⟨⟨⟩, hupdate, h⟩ := bind_eq_ok.mp h
  obtain ⟨table, -, h⟩ := bind_eq_ok.mp h
  obtain ⟨columns, hcolumns, h⟩ := bind_eq_ok.mp h
  obtain ⟨keyColumns, hkeys, h⟩ := bind_eq_ok.mp h
  obtain ⟨assignments, hassignments, h⟩ := choice_eq_ok h
  cases h
  exact .upsert hpayload (Row.checkUnique_eq_ok_iff.mp hcreate)
    (Row.checkUnique_eq_ok_iff.mp hupdate) hcolumns hkeys hassignments

theorem writtenAs_of_delete (hpayload : q.payload = .none) (h : q.compileDelete env = .ok s) :
    q.WrittenAs env s := by
  unfold compileDelete at h
  obtain ⟨table, -, h⟩ := bind_eq_ok.mp h
  obtain ⟨p, hp, h⟩ := bind_eq_ok.mp h
  cases h
  exact .delete hpayload hp

/-- A query that writes is compiled to a statement that is made of its payload and its filter. -/
theorem writtenAs_of_compile {c : Compiled} (hwrites : q.operation.reads = false)
    (h : q.compile env = .ok c) : q.WrittenAs env c.statement := by
  have hroute := route_of_compile h
  generalize c.statement = statement at hroute
  cases hroute with
  | create _ hpayload hs => exact writtenAs_of_create hpayload hs
  | createMany _ hpayload hs => exact writtenAs_of_createMany hpayload hs
  | update _ hpayload hs => exact writtenAs_of_update hpayload hs
  | upsert _ hpayload hs => exact writtenAs_of_upsert hpayload hs
  | delete _ hpayload hs => exact writtenAs_of_delete hpayload hs
  | select hdelete hkind _ _ =>
    -- the only operations without data are those that read and the deletions
    revert hwrites hdelete hkind
    cases q.operation <;> simp [Operation.reads, Operation.finds, Operation.isAggregate,
      expectedPayload]

/-- A query that compiles has a payload of the kind that its operation takes. -/
theorem kind_of_compile {c : Compiled} (h : q.compile env = .ok c) :
    expectedPayload q.operation = q.payload.kind := by
  unfold compile at h
  obtain ⟨⟨⟩, hcheck, -⟩ := bind_eq_ok.mp h
  exact kind_of_checkPayload hcheck

/-- A query that reads has no data. -/
theorem payload_of_reads {c : Compiled} (hreads : q.operation.reads = true)
    (h : q.compile env = .ok c) : q.payload = .none := by
  have hkind := kind_of_compile h
  have hnone : expectedPayload q.operation = .none := by
    revert hreads
    cases q.operation <;> decide
  cases hpayload : q.payload <;> rw [hnone, hpayload] at hkind <;> first | rfl | cases hkind

namespace WrittenAs

/-- No row of the data names a field twice. -/
theorem nodup (h : q.WrittenAs env s) : ∀ row ∈ q.payload.rows, row.fields.Nodup := by
  cases h with
  | create hpayload hrow _ | update hpayload hrow _ _ =>
    rw [hpayload]
    exact List.forall_mem_singleton.mpr hrow
  | createMany hpayload hinsertable _ =>
    rw [hpayload]
    exact hinsertable.distinct
  | upsert hpayload hcreate hupdate _ _ _ =>
    rw [hpayload]
    exact List.forall_mem_cons.mpr ⟨hcreate, List.forall_mem_singleton.mpr hupdate⟩
  | delete hpayload _ =>
    rw [hpayload]
    exact fun _ hrow => absurd hrow List.not_mem_nil

/-- Every field of every row of the data has a column. -/
theorem resolves (h : q.WrittenAs env s) :
    ∀ row ∈ q.payload.rows, ∀ field ∈ row.fields, env.schema.Resolves (some q.model) field := by
  cases h with
  | create hpayload _ hcolumns =>
    rw [hpayload]
    exact List.forall_mem_singleton.mpr (columnsOf_ok_iff.mp ⟨_, hcolumns⟩)
  | @createMany first rest _ _ _ hpayload hinsertable _ =>
    rw [hpayload]
    refine List.forall_mem_cons.mpr ⟨hinsertable.known, fun row hrow field hfield => ?_⟩
    exact hinsertable.known field ((hinsertable.alike row hrow field).mp hfield)
  | update hpayload _ hassignments _ =>
    rw [hpayload]
    exact List.forall_mem_singleton.mpr (resolves_of_assignmentsOf hassignments)
  | @upsert keys create update _ _ _ _ hpayload _ _ hcolumns _ hassignments =>
    rw [hpayload]
    refine List.forall_mem_cons.mpr ⟨columnsOf_ok_iff.mp ⟨_, hcolumns⟩,
      List.forall_mem_singleton.mpr ?_⟩
    by_cases hempty : update.isEmpty = true
    · rw [List.isEmpty_iff.mp hempty]
      exact fun _ hfield => absurd hfield List.not_mem_nil
    · rw [if_neg hempty] at hassignments
      exact resolves_of_assignmentsOf hassignments
  | delete hpayload _ =>
    rw [hpayload]
    exact fun _ hrow => absurd hrow List.not_mem_nil

end WrittenAs

end Query

end SqlQuery
