import SqlQuery.Proofs.Compile.InsertedRows
import SqlQuery.Proofs.Compile.Written
import SqlQuery.Proofs.Sql.AssignmentList

/-!
# No column is written twice

A database refuses a statement that lists a column twice for its rows, or sets one twice. The
compiler looks for fields that repeat, in every row of data before it looks up any column. So the
columns are distinct as soon as different fields of a model stand for different columns, and below
a parent as soon as the foreign key is not among them, which is checked by column.

> `nodup_columnsOf_iff`: columns repeat exactly where their fields do.

> `Query.WrittenAs.inserted_eq`, `Query.WrittenAs.assigned_eq`: the columns of a query's statement
> are those of the fields of its data.

> `NestedScope.writes_of_compile`: the same of the statements of a change to a relation.

> `columns_written_once`: read from their texts, no statement lists or sets a column twice, and
> data that names a field twice is refused wherever it stands.
-/

namespace SqlQuery

open Sql

/-! ## Fields with columns of their own -/

/-- Different names that a model accepts stand for different columns. -/
def Model.DistinctColumns (m : Model) : Prop :=
  ∀ field field' column, m.column field = .ok column → m.column field' = .ok column →
    field = field'

/-- Different names that a model of the schema accepts stand for different columns. -/
def Schema.DistinctColumns (s : Schema) : Prop :=
  ∀ name m, s.model name = .ok m → m.DistinctColumns

/-- A column is the name itself, where the model declares nothing and for `*`, or that of a
declared field. -/
theorem Model.column_eq_ok {m : Model} {field column : String} (h : m.column field = .ok column) :
    (m.fields = [] ∨ field = "*") ∧ column = field ∨
      ∃ f ∈ m.fields, f.name = field ∧ f.columnName = column := by
  unfold Model.column at h
  by_cases hany : (m.fields.isEmpty || field == "*") = true
  · rw [if_pos hany] at h
    cases h
    exact Or.inl ⟨by simpa using hany, rfl⟩
  · rw [if_neg hany] at h
    cases hfound : m.fields.find? (·.name == field) with
    | none =>
      rw [hfound] at h
      cases h
    | some f =>
      rw [hfound] at h
      cases h
      exact Or.inr ⟨f, List.mem_of_find?_eq_some hfound, by simpa using List.find?_some hfound, rfl⟩

/-- It is enough that no column is declared twice, and none is called `*`. -/
theorem Model.distinctColumns_of_nodup {m : Model}
    (hcolumns : (m.fields.map (·.columnName)).Nodup)
    (hstar : "*" ∉ m.fields.map (·.columnName)) : m.DistinctColumns := by
  -- a name that is its own column stands for no declared one
  have hown {field : String} {f : FieldDef} (hf : f ∈ m.fields)
      (hfield : m.fields = [] ∨ field = "*") : f.columnName ≠ field := by
    rintro hsame
    rcases hfield with hnone | rfl
    · rw [hnone] at hf
      cases hf
    · exact hstar (List.mem_map.mpr ⟨f, hf, hsame⟩)
  intro field field' column h h'
  rcases Model.column_eq_ok h with ⟨hfield, rfl⟩ | ⟨f, hf, rfl, rfl⟩
  · rcases Model.column_eq_ok h' with ⟨-, hsame⟩ | ⟨f', hf', -, hcolumn⟩
    · exact hsame
    · exact absurd hcolumn (hown hf' hfield)
  · rcases Model.column_eq_ok h' with ⟨hfield', hcolumn⟩ | ⟨f', hf', rfl, hcolumn⟩
    · exact absurd hcolumn (hown hf hfield')
    · rw [List.inj_on_of_nodup_map hcolumns hf hf' hcolumn.symm]

/-- Fields have columns of their own if they do in every registered model. -/
theorem Schema.distinctColumns_of_models {s : Schema} (h : ∀ m ∈ s.models, m.DistinctColumns) :
    s.DistinctColumns := by
  intro name m hm
  obtain ⟨i, -, hi⟩ := Option.bind_eq_some_iff.mp (Schema.model_ok_iff.mp hm)
  exact h m (List.mem_of_getElem? hi)

/-- Different fields of one model, or of a table that no model describes, have different
columns. -/
theorem Schema.DistinctColumns.eq_of_columnOf {s : Schema} (h : s.DistinctColumns)
    {model : Option String} {field field' column : String}
    (hfield : s.columnOf model field = .ok column)
    (hfield' : s.columnOf model field' = .ok column) : field = field' := by
  cases model with
  | none => exact (Except.ok.inj hfield).trans (Except.ok.inj hfield').symm
  | some name =>
    obtain ⟨m, hm, hcolumn⟩ := bind_eq_ok.mp hfield
    obtain ⟨m', hm', hcolumn'⟩ := bind_eq_ok.mp hfield'
    cases hm.symm.trans hm'
    exact h name m hm field field' column hcolumn hcolumn'

/-- Columns repeat exactly where their fields do. -/
theorem nodup_columnsOf_iff {schema : Schema} (hschema : schema.DistinctColumns)
    {model : Option String} {fields columns : List String}
    (h : columnsOf schema model fields = .ok columns) : columns.Nodup ↔ fields.Nodup := by
  have hone : Relator.BiUnique fun field column => schema.columnOf model field = .ok column :=
    ⟨fun _ _ _ hfield hfield' => hschema.eq_of_columnOf hfield hfield',
      fun _ _ _ hcolumn hcolumn' => Except.ok.inj (hcolumn.symm.trans hcolumn')⟩
  exact (List.rel_nodup hone (forall₂_of_mapM h)).symm

/-- There are as many columns as values. -/
theorem length_columnsOf {schema : Schema} {model : Option String} {row : Row}
    {columns : List String} (h : columnsOf schema model row.fields = .ok columns) :
    columns.length = row.values.length := by
  have hfields := (forall₂_of_mapM h).length_eq
  rw [Row.values, List.length_map, ← hfields, Row.fields, List.length_map]

/-- The columns that a row's values are assigned to are those of its fields. -/
theorem columnsOf_assignmentsOf {schema : Schema} {model : Option String} {row : Row}
    {assignments : List Assignment} (h : assignmentsOf schema model row = .ok assignments) :
    columnsOf schema model row.fields = .ok (assignments.map (·.column)) := by
  unfold assignmentsOf at h
  obtain ⟨columns, hcolumns, h⟩ := bind_eq_ok.mp h
  cases h
  rw [hcolumns, List.map_map]
  exact congrArg Except.ok (List.map_fst_zip (length_columnsOf hcolumns).le).symm

/-! ## Queries -/

/-- The fields that a query's data lists for new rows: those of the first row. -/
def Payload.insertedFields : Payload → List String
  | .create row => row.fields
  | .createMany (first :: _) => first.fields
  | .upsert _ created _ => created.fields
  | _ => []

/-- The fields that a query's data sets in rows that are there. -/
def Payload.updatedFields : Payload → List String
  | .update row => row.fields
  | .upsert _ _ updated => updated.fields
  | _ => []

namespace Query.WrittenAs

variable {q : Query} {env : Env} {s : Statement}

/-- The columns that a query's statement inserts are those of its data. -/
theorem inserted_eq (h : q.WrittenAs env s) :
    columnsOf env.schema (some q.model) q.payload.insertedFields = .ok s.inserted := by
  cases h with
  | create hpayload _ hcolumns | createMany hpayload _ hcolumns
  | upsert hpayload _ _ hcolumns _ _ =>
    rw [hpayload]
    exact hcolumns
  | update hpayload _ _ _ | delete hpayload _ =>
    rw [hpayload]
    rfl

/-- The columns that a query's statement sets are those of its data, except where there is
nothing to update. -/
theorem assigned_eq (h : q.WrittenAs env s)
    (hsome : ∀ keys created, q.payload ≠ .upsert keys created []) :
    columnsOf env.schema (some q.model) q.payload.updatedFields
      = .ok (s.assignments.map (·.column)) := by
  cases h with
  | update hpayload _ hassignments _ =>
    rw [hpayload]
    exact columnsOf_assignmentsOf hassignments
  | @upsert keys created updated _ _ _ _ hpayload _ _ _ _ hassignments =>
    have hempty : ¬updated.isEmpty = true := by
      intro hempty
      rw [List.isEmpty_iff.mp hempty] at hpayload
      exact hsome keys created hpayload
    rw [if_neg hempty] at hassignments
    rw [hpayload]
    exact columnsOf_assignmentsOf hassignments
  | create hpayload _ _ | createMany hpayload _ _ | delete hpayload _ =>
    rw [hpayload]
    rfl

end Query.WrittenAs

/-- The fields that data lists or sets repeat in none of its rows, so not in the lists either. -/
theorem Payload.nodup_fields {p : Payload} (h : ∀ row ∈ p.rows, row.fields.Nodup) :
    p.insertedFields.Nodup ∧ p.updatedFields.Nodup := by
  cases p with
  | none => exact ⟨List.nodup_nil, List.nodup_nil⟩
  | create row => exact ⟨h row (List.mem_singleton_self _), List.nodup_nil⟩
  | createMany rows =>
    cases rows with
    | nil => exact ⟨List.nodup_nil, List.nodup_nil⟩
    | cons first rest => exact ⟨h first (List.mem_cons_self ..), List.nodup_nil⟩
  | update row => exact ⟨List.nodup_nil, h row (List.mem_singleton_self _)⟩
  | upsert keys created updated =>
    exact ⟨h created (by simp [rows]), h updated (by simp [rows])⟩

/-! ## Changes to a relation -/

/-- The rows of data that a change sets in rows that are there. -/
def RelationChange.updated : RelationChange → List Row
  | .update _ row => [row]
  | .updateMany _ row => [row]
  | .upsert _ _ row => [row]
  | _ => []

/-- A row of data that names no field twice, and the columns of its fields. -/
structure Row.HasColumns (row : Row) (schema : Schema) (model : Option String)
    (columns : List String) : Prop where
  nodup : row.fields.Nodup
  columns_eq : columnsOf schema model row.fields = .ok columns

/-- The columns of a row that names no field twice differ. -/
theorem Row.HasColumns.nodup_columns {row : Row} {schema : Schema} {model : Option String}
    {columns : List String} (h : row.HasColumns schema model columns)
    (hschema : schema.DistinctColumns) : columns.Nodup :=
  (nodup_columnsOf_iff hschema h.columns_eq).mpr h.nodup

/-- The columns that a statement of a change to a relation lists for new rows and those that it
sets. New rows are listed under the foreign key and the columns of a row of the data, which do not
hold the foreign key again; set are the columns of a row of the data, or the foreign key alone. -/
structure RelationTarget.Writes (target : RelationTarget) (schema : Schema)
    (change : RelationChange) (inserted assigned : List String) : Prop where
  inserted : inserted = [] ∨ ∃ row ∈ change.created, ∃ columns,
    row.HasColumns schema target.model columns ∧ target.foreignKey ∉ columns ∧
      inserted = target.foreignKey :: columns
  assigned : assigned = [] ∨ assigned = [target.foreignKey] ∨
    ∃ row ∈ change.updated, row.HasColumns schema target.model assigned

/-- What a change to a relation writes, it writes once. -/
theorem RelationTarget.Writes.nodup {target : RelationTarget} {schema : Schema}
    {change : RelationChange} {inserted assigned : List String}
    (h : target.Writes schema change inserted assigned) (hschema : schema.DistinctColumns) :
    inserted.Nodup ∧ assigned.Nodup := by
  constructor
  · rcases h.inserted with rfl | ⟨row, -, columns, hcolumns, honce, rfl⟩
    · exact List.nodup_nil
    · exact List.nodup_cons.mpr ⟨honce, hcolumns.nodup_columns hschema⟩
  · rcases h.assigned with rfl | rfl | ⟨row, -, hcolumns⟩
    · exact List.nodup_nil
    · exact List.nodup_singleton _
    · exact hcolumns.nodup_columns hschema

namespace NestedScope

variable {x : NestedScope} {change : RelationChange} {s : Statement}

/-- A statement writes columns of the change, in the scope of a nested write. -/
def Writes (x : NestedScope) (change : RelationChange) (s : Statement) : Prop :=
  x.target.Writes x.env.schema change s.inserted (s.assignments.map (·.column))

theorem writes_attach {p : Predicate} :
    x.Writes change (.update x.target.table [x.attach] p false) :=
  ⟨Or.inl rfl, Or.inr (Or.inl rfl)⟩

theorem writes_detach {p : Predicate} :
    x.Writes change (.update x.target.table [x.detach] p false) :=
  ⟨Or.inl rfl, Or.inr (Or.inl rfl)⟩

theorem writes_connect {f : Filter} (h : x.connect f = .ok s) :
    x.Writes change s := by
  obtain ⟨p, -, h⟩ := bind_eq_ok.mp h
  cases h
  exact writes_attach

/-- A row that is checked for the foreign key does not store into its column. -/
theorem hasColumns_of_checkCreate {row : Row} {columns : List String}
    (hcheck : x.checkCreate row = .ok ())
    (hcolumns : columnsOf x.env.schema x.target.model row.fields = .ok columns) :
    row.HasColumns x.env.schema x.target.model columns ∧ x.target.foreignKey ∉ columns :=
  ⟨⟨nodup_of_checkCreate hcheck, hcolumns⟩, foreignKey_not_mem_of_checkCreate hcheck hcolumns⟩

/-- An insertion below a parent writes the foreign key beside the columns of its rows. -/
theorem writes_insert (hcheck : ∀ row ∈ change.created, x.checkCreate row = .ok ())
    (h : x.insert change.created = .ok s) : x.Writes change s := by
  obtain ⟨first, rest, columns, hrows, hcolumns, rfl⟩ := insert_spec h
  have hfirst : first ∈ change.created := hrows ▸ List.mem_cons_self ..
  obtain ⟨hrow, honce⟩ := hasColumns_of_checkCreate (hcheck first hfirst) hcolumns
  exact ⟨Or.inr ⟨first, hfirst, columns, hrow, honce, rfl⟩, Or.inl rfl⟩

/-- A guarded insertion writes the foreign key beside the columns of its row. -/
theorem writes_insertUnless {row : Row} {present : Predicate} (hrow : row ∈ change.created)
    (hcheck : x.checkCreate row = .ok ()) (h : x.insertUnless row present = .ok s) :
    x.Writes change s := by
  obtain ⟨columns, hcolumns, h⟩ := bind_eq_ok.mp h
  cases h
  obtain ⟨hcols, honce⟩ := hasColumns_of_checkCreate hcheck hcolumns
  exact ⟨Or.inr ⟨row, hrow, columns, hcols, honce, rfl⟩, Or.inl rfl⟩

theorem writes_update {row : Row} {f : Filter} (hrow : row ∈ change.updated)
    (hnodup : row.fields.Nodup) (h : x.update row f = .ok s) :
    x.Writes change s := by
  obtain ⟨assignments, hassignments, h⟩ := bind_eq_ok.mp h
  obtain ⟨p, -, h⟩ := bind_eq_ok.mp h
  cases h
  exact ⟨Or.inl rfl, Or.inr (Or.inr ⟨row, hrow, hnodup, columnsOf_assignmentsOf hassignments⟩)⟩

/-- An update with nothing to set writes nothing. -/
theorem writes_updateIfAny {row : Row} {f : Filter} {statements : List Statement}
    (hrow : row ∈ change.updated) (h : x.updateIfAny row f = .ok statements) :
    ∀ s ∈ statements, x.Writes change s := by
  unfold updateIfAny at h
  by_cases hempty : row.isEmpty = true
  · rw [if_pos hempty] at h
    cases h
    exact fun _ hs => absurd hs List.not_mem_nil
  · rw [if_neg hempty] at h
    obtain ⟨⟨⟩, hunique, h⟩ := bind_eq_ok.mp h
    obtain ⟨s, hs, h⟩ := bind_eq_ok.mp h
    cases h
    exact List.forall_mem_singleton.mpr
      (writes_update hrow (Row.checkUnique_eq_ok_iff.mp hunique) hs)

/-- Both statements of a replacement write the foreign key only. -/
theorem writes_replace {f : Filter} {statements : List Statement}
    (h : x.replace f = .ok statements) :
    ∀ s ∈ statements, x.Writes change s := by
  unfold replace at h
  dsimp only at h
  split at h
  next =>
    cases h
    exact List.forall_mem_singleton.mpr writes_detach
  next =>
    obtain ⟨s, hs, h⟩ := bind_eq_ok.mp h
    cases h
    exact List.forall_mem_cons.mpr
      ⟨writes_detach, List.forall_mem_singleton.mpr (writes_connect hs)⟩

/-- Every statement of a change writes what the change says, and nothing twice. -/
theorem writes_of_compile {statements : List Statement} (h : x.compile change = .ok statements) :
    ∀ s ∈ statements, x.Writes change s := by
  have hcheck := checkCreate_of_compile h
  cases change with
  | create row =>
    obtain ⟨-, -, h⟩ := bind_eq_ok.mp h
    obtain ⟨s, hs, h⟩ := bind_eq_ok.mp h
    cases h
    exact List.forall_mem_singleton.mpr (writes_insert hcheck hs)
  | createMany rows =>
    rw [compile] at h
    obtain ⟨-, -, h⟩ := bind_eq_ok.mp (check_eq_ok h)
    obtain ⟨s, hs, h⟩ := bind_eq_ok.mp h
    cases h
    exact List.forall_mem_singleton.mpr (writes_insert hcheck hs)
  | connect f =>
    obtain ⟨s, hs, h⟩ := bind_eq_ok.mp h
    cases h
    exact List.forall_mem_singleton.mpr (writes_connect hs)
  | connectOrCreate f row =>
    obtain ⟨-, -, h⟩ := bind_eq_ok.mp h
    obtain ⟨present, -, h⟩ := bind_eq_ok.mp h
    obtain ⟨s, hs, h⟩ := bind_eq_ok.mp h
    cases h
    have hrow : row ∈ [row] := List.mem_singleton_self _
    exact List.forall_mem_cons.mpr ⟨writes_attach,
      List.forall_mem_singleton.mpr (writes_insertUnless hrow (hcheck row hrow) hs)⟩
  | disconnect f =>
    obtain ⟨p, -, h⟩ := bind_eq_ok.mp h
    cases h
    exact List.forall_mem_singleton.mpr writes_detach
  | set f => exact writes_replace h
  | update f row | updateMany f row =>
    obtain ⟨⟨⟩, hrow, h⟩ := bind_eq_ok.mp h
    obtain ⟨s, hs, h⟩ := bind_eq_ok.mp h
    cases h
    exact List.forall_mem_singleton.mpr (writes_update (List.mem_singleton_self _)
      (Row.checkRow_eq_ok_iff.mp hrow).2 hs)
  | delete f | deleteMany f =>
    obtain ⟨s, hs, h⟩ := bind_eq_ok.mp h
    cases h
    obtain ⟨p, -, hs⟩ := bind_eq_ok.mp hs
    cases hs
    exact List.forall_mem_singleton.mpr ⟨Or.inl rfl, Or.inl rfl⟩
  | upsert f created updated =>
    unfold compile upsert at h
    obtain ⟨-, -, h⟩ := bind_eq_ok.mp h
    obtain ⟨updates, hupdates, h⟩ := bind_eq_ok.mp h
    obtain ⟨present, -, h⟩ := bind_eq_ok.mp h
    obtain ⟨s, hs, h⟩ := bind_eq_ok.mp h
    cases h
    have hrow : created ∈ [created] := List.mem_singleton_self _
    refine List.forall_mem_append.mpr ⟨writes_updateIfAny (List.mem_singleton_self _) hupdates, ?_⟩
    exact List.forall_mem_singleton.mpr (writes_insertUnless hrow (hcheck created hrow) hs)

/-- No row of the data of a compiled change names a field twice. -/
theorem nodup_of_compile {statements : List Statement} (h : x.compile change = .ok statements) :
    ∀ row ∈ change.created ++ change.updated, row.fields.Nodup := by
  refine List.forall_mem_append.mpr
    ⟨fun row hrow => nodup_of_checkCreate (checkCreate_of_compile h row hrow), ?_⟩
  cases change with
  | update f row | updateMany f row =>
    obtain ⟨⟨⟩, hrow, -⟩ := bind_eq_ok.mp h
    exact List.forall_mem_singleton.mpr (Row.checkRow_eq_ok_iff.mp hrow).2
  | upsert f created updated =>
    unfold compile upsert at h
    obtain ⟨-, -, h⟩ := bind_eq_ok.mp h
    obtain ⟨updates, hupdates, -⟩ := bind_eq_ok.mp h
    refine List.forall_mem_singleton.mpr ?_
    unfold updateIfAny at hupdates
    by_cases hempty : updated.isEmpty = true
    · rw [List.isEmpty_iff.mp hempty]
      exact List.nodup_nil
    · rw [if_neg hempty] at hupdates
      obtain ⟨⟨⟩, hunique, -⟩ := bind_eq_ok.mp hupdates
      exact Row.checkUnique_eq_ok_iff.mp hunique
  | create | createMany | connect | connectOrCreate | disconnect | set | delete | deleteMany =>
    exact fun _ hrow => absurd hrow List.not_mem_nil

end NestedScope

/-! ## The texts -/

/-- A statement that comes of a list of writes comes of one of them. -/
theorem NestedWrite.exists_of_mem_compileAll {env : Env} {parent : String} {key : Value}
    {s : Statement} : ∀ {ws : List NestedWrite} {statements : List Statement},
      compileAll env parent key ws = .ok statements → s ∈ statements →
        ∃ w ∈ ws, ∃ own, w.compile env parent key = .ok own ∧ s ∈ own := by
  intro ws
  induction ws with
  | nil =>
    intro statements h hs
    cases h
    exact absurd hs List.not_mem_nil
  | cons w ws ih =>
    intro statements h hs
    obtain ⟨own, hown, h⟩ := bind_eq_ok.mp h
    obtain ⟨more, hmore, h⟩ := bind_eq_ok.mp h
    cases h
    rcases List.mem_append.mp hs with hs | hs
    · exact ⟨w, List.mem_cons_self .., own, hown, hs⟩
    · obtain ⟨w', hw', hrest⟩ := ih hmore hs
      exact ⟨w', List.mem_cons_of_mem _ hw', hrest⟩

/-- Where different fields stand for different columns, the text of every statement of a query and
of every nested write lists each column once for the rows that it inserts, the foreign key
included, and sets each column once, the columns being those of the fields of the data. An upsert
with nothing to update is left out, as it sets its keys. Data that names a field twice in any row is
refused, of a query and of any of its nested writes. -/
theorem columns_written_once (env : Env) :
    (env.schema.DistinctColumns →
      (∀ (q : Query) (c : Compiled), q.operation.reads = false → q.compile env = .ok c →
        ∃ ls, lexemes env.dialect.quote (c.statement.prepare env.dialect).sql.toList = some ls ∧
          columnsOf env.schema (some q.model) q.payload.insertedFields = .ok (insertedColumns ls) ∧
          (insertedColumns ls).Nodup ∧
          ((∀ keys created, q.payload ≠ .upsert keys created []) →
            columnsOf env.schema (some q.model) q.payload.updatedFields
              = .ok (assignedColumns ls) ∧
            (assignedColumns ls).Nodup)) ∧
      ∀ (parent : String) (key : Value) (ws : List NestedWrite) (statements : List Statement),
        NestedWrite.compileAll env parent key ws = .ok statements → ∀ s ∈ statements,
          ∃ w ∈ ws, ∃ target ls, w.target env.schema parent = .ok target ∧
            lexemes env.dialect.quote (s.prepare env.dialect).sql.toList = some ls ∧
            target.Writes env.schema w.change (insertedColumns ls) (assignedColumns ls) ∧
            (insertedColumns ls).Nodup ∧ (assignedColumns ls).Nodup) ∧
    (∀ q : Query, (∃ row ∈ q.payload.rows, ¬row.fields.Nodup) → ∃ e, q.compile env = .error e) ∧
    ∀ (parent : String) (key : Value) (ws : List NestedWrite),
      (∃ w ∈ ws, ∃ row ∈ w.change.created ++ w.change.updated, ¬row.fields.Nodup) →
        ∃ e, NestedWrite.compileAll env parent key ws = .error e := by
  refine ⟨fun hschema => ⟨?_, ?_⟩, ?_, ?_⟩
  · intro q c hwrites h
    have hwritten := Query.writtenAs_of_compile hwrites h
    obtain ⟨hinserted, hupdated⟩ := Payload.nodup_fields hwritten.nodup
    refine ⟨_, lexemes_prepare env.dialect c.statement, ?_⟩
    rw [insertedColumns_tokens, assignedColumns_tokens]
    refine ⟨hwritten.inserted_eq, (nodup_columnsOf_iff hschema hwritten.inserted_eq).mpr hinserted,
      fun hsome => ?_⟩
    have hassigned := hwritten.assigned_eq hsome
    exact ⟨hassigned, (nodup_columnsOf_iff hschema hassigned).mpr hupdated⟩
  · intro parent key ws statements h s hs
    obtain ⟨w, hw, own, hown, hs⟩ := NestedWrite.exists_of_mem_compileAll h hs
    obtain ⟨target, htarget, hown⟩ := bind_eq_ok.mp hown
    have hwrites := NestedScope.writes_of_compile hown s hs
    refine ⟨w, hw, target, _, htarget, lexemes_prepare env.dialect s, ?_⟩
    rw [insertedColumns_tokens, assignedColumns_tokens]
    exact ⟨hwrites, RelationTarget.Writes.nodup hwrites hschema⟩
  · rintro q ⟨row, hrow, hrepeats⟩
    cases h : q.compile env with
    | error e => exact ⟨e, rfl⟩
    | ok c =>
      cases hreads : q.operation.reads with
      | true =>
        rw [Query.payload_of_reads hreads h] at hrow
        exact absurd hrow List.not_mem_nil
      | false => exact absurd ((Query.writtenAs_of_compile hreads h).nodup row hrow) hrepeats
  · rintro parent key ws ⟨w, hw, row, hrow, hrepeats⟩
    cases h : NestedWrite.compileAll env parent key ws with
    | error e => exact ⟨e, rfl⟩
    | ok statements =>
      obtain ⟨own, hown⟩ := NestedWrite.exists_of_compileAll h w hw
      obtain ⟨target, -, hown⟩ := bind_eq_ok.mp hown
      exact absurd (NestedScope.nodup_of_compile hown row hrow) hrepeats

/-- A book that is lent, or marked as late where its reader has it already. -/
def lentOrLate (created : Row) : Query :=
  .writing "Book" .upsert (.upsert ["reader"] created [("late", .bool true)])

/-- The fields of readers and books have columns of their own. -/
theorem librarySchema_distinctColumns : librarySchema.DistinctColumns := by
  refine Schema.distinctColumns_of_models fun m hm => Model.distinctColumns_of_nodup ?_ ?_
  · revert m
    decide
  · revert m
    decide

theorem columns_written_once_library :
    (∃ c ls, (lentOrLate [("reader", .int 7), ("late", .bool false)]).compile
          { schema := librarySchema, dialect := .postgres } = .ok c ∧
        (c.statement.prepare .postgres).sql
          = "INSERT INTO books (reader_id, late) VALUES ($1, $2) " ++
            "ON CONFLICT (reader_id) DO UPDATE SET late = $3 RETURNING *" ∧
        lexemes '"' (c.statement.prepare .postgres).sql.toList = some ls ∧
        insertedColumns ls = ["reader_id", "late"] ∧ (insertedColumns ls).Nodup ∧
        assignedColumns ls = ["late"] ∧ (assignedColumns ls).Nodup) ∧
    (∃ s ls, NestedWrite.compileAll { schema := librarySchema, dialect := .postgres } "Reader"
          (.int 7) [{ relation := "books", change := .createMany NestedWrite.twoBooks }]
            = .ok [s] ∧
        (s.prepare .postgres).sql
          = "INSERT INTO books (reader_id, late) VALUES ($1, $2), ($3, $4) RETURNING *" ∧
        lexemes '"' (s.prepare .postgres).sql.toList = some ls ∧
        (insertedColumns ls).Nodup ∧ (assignedColumns ls).Nodup) ∧
    ∃ e, (lentOrLate [("late", .bool true), ("late", .bool false)]).compile
      { schema := librarySchema, dialect := .postgres } = .error e := by
  obtain ⟨hread, hqueries, -⟩ :=
    columns_written_once { schema := librarySchema, dialect := .postgres }
  obtain ⟨hquery, hnested⟩ := hread librarySchema_distinctColumns
  refine ⟨?_, ?_, hqueries _ ⟨[("late", .bool true), ("late", .bool false)], ?_, by decide⟩⟩
  · obtain ⟨c, hc, hsql⟩ : ∃ c, (lentOrLate [("reader", .int 7), ("late", .bool false)]).compile
          { schema := librarySchema, dialect := .postgres } = .ok c ∧
        (c.statement.prepare .postgres).sql
          = "INSERT INTO books (reader_id, late) VALUES ($1, $2) " ++
            "ON CONFLICT (reader_id) DO UPDATE SET late = $3 RETURNING *" :=
      ⟨_, rfl, by decide +kernel⟩
    obtain ⟨ls, hls, hinserted, hinsertedOnce, hupdated⟩ := hquery _ c rfl hc
    obtain ⟨hassigned, hassignedOnce⟩ := hupdated (by simp [lentOrLate, Query.writing])
    exact ⟨c, ls, hc, hsql, hls, (Except.ok.inj hinserted).symm, hinsertedOnce,
      (Except.ok.inj hassigned).symm, hassignedOnce⟩
  · obtain ⟨s, hs, hsql⟩ : ∃ s,
        NestedWrite.compileAll { schema := librarySchema, dialect := .postgres } "Reader"
          (.int 7) [{ relation := "books", change := .createMany NestedWrite.twoBooks }]
            = .ok [s] ∧
        (s.prepare .postgres).sql
          = "INSERT INTO books (reader_id, late) VALUES ($1, $2), ($3, $4) RETURNING *" :=
      ⟨_, rfl, by decide +kernel⟩
    obtain ⟨w, -, target, ls, -, hls, -, honce⟩ :=
      hnested _ _ _ _ hs s (List.mem_singleton_self _)
    exact ⟨s, ls, hs, hsql, hls, honce⟩
  · exact List.mem_cons_self ..

end SqlQuery
