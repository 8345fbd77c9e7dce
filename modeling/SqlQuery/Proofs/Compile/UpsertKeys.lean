import SqlQuery.Proofs.Compile.DistinctColumns
import SqlQuery.Proofs.Compile.ResultColumn
import SqlQuery.Proofs.Sql.ConflictClause
import SqlQuery.Proofs.Sql.Execution

/-!
# The keys of an upsert

An upsert has a list of keys beside its two rows of data. The database looks for a row with the
keys of the proposed one, and where there is nothing to update the keys of that row are set to what
was proposed for them. Only the two rows are looked through for names that repeat, and nobody asks
whether the new row has the keys, so it is the query that decides whether the statement is sound.

> `TableRow.assign_asProposed`: a row that is set to what was proposed changes in these columns
> alone.

> `Query.WrittenAs.upsertText`: which columns the text of an upsert lists, sets and reads back.

> `Query.upsert_keys_iff`: the lists name no column twice exactly where no key repeats, what is read
> back is inserted exactly where the new row has the keys, and a row with these keys keeps them.
-/

namespace SqlQuery.Sql

/-- The assignments that set columns to what an insertion proposed for them. -/
def asProposed (columns : List String) : List Assignment :=
  columns.map fun k => { column := k, source := .proposed }

/-- Columns that are set as proposed are set in the order of the keys. -/
theorem column_asProposed (columns : List String) :
    (asProposed columns).map (·.column) = columns := by
  rw [asProposed, List.map_map]
  exact List.map_id _

/-- A row that is set to what was proposed in some columns stays as it is in the others, whether
or not a column is set twice. -/
theorem TableRow.assign_asProposed (row proposed : TableRow) (columns : List String)
    (column : String) :
    row.assign proposed (asProposed columns) column
      = if column ∈ columns then proposed column else row column := by
  by_cases h : column ∈ columns
  · have hentry : (column, proposed column) ∈ (asProposed columns).map (·.entry proposed) := by
      rw [asProposed, List.map_map]
      exact List.mem_map.mpr ⟨column, h, rfl⟩
    rw [if_pos h]
    refine write_of_unique hentry fun e he hcolumn => ?_
    rw [asProposed, List.map_map] at he
    obtain ⟨k, -, rfl⟩ := List.mem_map.mp he
    obtain rfl : k = column := hcolumn
    rfl
  · rw [if_neg h]
    exact assign_of_not_mem (by rwa [column_asProposed])

namespace Engine

variable {E : Engine}

/-- A proposed row has its values in the columns that are listed for it. -/
theorem proposal_of_mem {columns : List String} {values : List Value} (hcolumns : columns.Nodup)
    (hlength : columns.length ≤ values.length) (table : String) (rows : List TableRow) :
    ∀ e ∈ columns.zip values, E.proposal table columns rows values e.1 = e.2 := by
  intro e he
  have hunique : ((columns.zip values).map Prod.fst).Nodup := by
    rwa [List.map_fst_zip hlength]
  exact TableRow.write_of_unique he fun e' he' hcolumn =>
    List.inj_on_of_nodup_map hunique he' he hcolumn

/-- What becomes of a row when its keys are set to those of a proposed one. -/
structure Rekeys (E : Engine) (keys : List String) (proposed row row' : TableRow) : Prop where
  key : ∀ k ∈ keys, row' k = proposed k
  rest : ∀ column, column ∉ keys → row' column = row column
  kept : E.SameKeys keys row proposed → E.SameKeys keys row row'

/-- To set the keys as proposed leaves all other columns alone. -/
theorem rekeys_assign (keys : List String) (proposed row : TableRow) :
    E.Rekeys keys proposed row (row.assign proposed (asProposed keys)) := by
  have hkey : ∀ k ∈ keys, row.assign proposed (asProposed keys) k = proposed k :=
    fun k hk => (TableRow.assign_asProposed ..).trans (if_pos hk)
  refine ⟨hkey, fun column h => (TableRow.assign_asProposed ..).trans (if_neg h), ?_⟩
  intro hsame k hk
  rw [hkey k hk]
  exact hsame k hk

end Engine

end SqlQuery.Sql

namespace SqlQuery

open Sql

/-- A column is among those of some fields exactly where its field is. -/
theorem mem_columnsOf_iff {schema : Schema} (hschema : schema.DistinctColumns)
    {model : Option String} {fields columns : List String} {field column : String}
    (hcolumns : columnsOf schema model fields = .ok columns)
    (hcolumn : schema.columnOf model field = .ok column) : column ∈ columns ↔ field ∈ fields := by
  have hall := forall₂_of_mapM hcolumns
  constructor
  · intro h
    obtain ⟨field', hfield', hcolumn'⟩ := exists_mem_of_forall₂ hall column h
    rwa [hschema.eq_of_columnOf hcolumn hcolumn']
  · intro h
    obtain ⟨column', hmem, hcolumn'⟩ := exists_mem_of_forall₂ (List.Forall₂.flip hall) field h
    rwa [Except.ok.inj (hcolumn.symm.trans hcolumn')]

/-- The columns of some fields are among those of others exactly where the fields are. -/
theorem subset_columnsOf_iff {schema : Schema} (hschema : schema.DistinctColumns)
    {model : Option String} {fields columns fields' columns' : List String}
    (hcolumns : columnsOf schema model fields = .ok columns)
    (hcolumns' : columnsOf schema model fields' = .ok columns') :
    columns ⊆ columns' ↔ fields ⊆ fields' := by
  have hall := forall₂_of_mapM hcolumns
  constructor
  · intro h field hfield
    obtain ⟨column, hmem, hcolumn⟩ :=
      exists_mem_of_forall₂ (List.Forall₂.flip hall) field hfield
    exact (mem_columnsOf_iff hschema hcolumns' hcolumn).mp (h hmem)
  · intro h column hmem
    obtain ⟨field, hfield, hcolumn⟩ := exists_mem_of_forall₂ hall column hmem
    exact (mem_columnsOf_iff hschema hcolumns' hcolumn).mpr (h hfield)

/-- What the text of an upsert says, as it is read back: the columns that it lists for its row, for
its keys and for what it sets, and those that it sets to what it proposed. MySQL has no list of
keys. -/
structure UpsertText (env : Env) (model : String) (keys : List String) (created updated : Row)
    (ls : List Lexeme) : Prop where
  inserted : columnsOf env.schema (some model) created.fields = .ok (insertedColumns ls)
  conflict : env.dialect ≠ .mysql →
    columnsOf env.schema (some model) keys = .ok (conflictColumns ls)
  unnamed : env.dialect = .mysql → conflictColumns ls = []
  assigned : columnsOf env.schema (some model) (if updated = [] then keys else updated.fields)
    = .ok (assignedColumns ls)
  proposed : proposedColumns ls = if updated = [] then assignedColumns ls else []

namespace UpsertText

variable {env : Env} {model : String} {keys : List String} {created updated : Row}
  {ls : List Lexeme}

/-- Keys are listed once where none is given twice, or where the dialect lists none. -/
theorem nodup_conflict_iff (h : UpsertText env model keys created updated ls)
    (hschema : env.schema.DistinctColumns) :
    (conflictColumns ls).Nodup ↔ env.dialect = .mysql ∨ keys.Nodup := by
  by_cases hdialect : env.dialect = .mysql
  · rw [h.unnamed hdialect]
    exact iff_of_true List.nodup_nil (Or.inl hdialect)
  · rw [or_iff_right hdialect]
    exact nodup_columnsOf_iff hschema (h.conflict hdialect)

/-- Columns are set once where there is something to update, or no key is given twice. -/
theorem nodup_assigned_iff (h : UpsertText env model keys created updated ls)
    (hschema : env.schema.DistinctColumns) (hupdated : updated.fields.Nodup) :
    (assignedColumns ls).Nodup ↔ updated ≠ [] ∨ keys.Nodup := by
  rw [nodup_columnsOf_iff hschema h.assigned]
  by_cases hempty : updated = []
  · rw [if_pos hempty, or_iff_right (not_not.mpr hempty)]
  · rw [if_neg hempty]
    exact iff_of_true hupdated (Or.inl hempty)

/-- What is taken over has been inserted where there is something to update, or the new row has all
keys. -/
theorem proposed_subset_iff (h : UpsertText env model keys created updated ls)
    (hschema : env.schema.DistinctColumns) :
    proposedColumns ls ⊆ insertedColumns ls ↔ updated ≠ [] ∨ keys ⊆ created.fields := by
  have hassigned := h.assigned
  rw [h.proposed]
  by_cases hempty : updated = []
  · rw [if_pos hempty] at hassigned ⊢
    rw [or_iff_right (not_not.mpr hempty)]
    exact subset_columnsOf_iff hschema hassigned h.inserted
  · rw [if_neg hempty]
    exact iff_of_true (List.nil_subset _) (Or.inl hempty)

end UpsertText

namespace Query

variable {q : Query} {env : Env} {s : Statement} {keys : List String} {created updated : Row}

/-- An upsert is an insertion of its new row, which has for a conflict the columns of the keys, and
with nothing to update sets these. -/
theorem WrittenAs.upsert_spec (h : q.WrittenAs env s)
    (hpayload : q.payload = .upsert keys created updated) :
    ∃ table columns c, s = .insert table columns [created.values] (some c) true ∧
      columnsOf env.schema (some q.model) created.fields = .ok columns ∧
      columnsOf env.schema (some q.model) keys = .ok c.keys ∧
      if updated = [] then c.assignments = asProposed c.keys
      else assignmentsOf env.schema (some q.model) updated = .ok c.assignments := by
  cases h with
  | upsert hpayload' _ _ hcolumns hkeys hassignments =>
    cases hpayload.symm.trans hpayload'
    refine ⟨_, _, _, rfl, hcolumns, hkeys, ?_⟩
    by_cases hempty : updated = []
    · rw [if_pos (List.isEmpty_iff.mpr hempty)] at hassignments
      rw [if_pos hempty]
      exact (Except.ok.inj hassignments).symm
    · rw [if_neg (by rwa [List.isEmpty_iff])] at hassignments
      rwa [if_neg hempty]
  | create hpayload' | createMany hpayload' | update hpayload' | delete hpayload' =>
    cases hpayload.symm.trans hpayload'

/-- Data is assigned as it is, and nothing of it is read back. -/
theorem not_proposed_of_assignmentsOf {schema : Schema} {model : Option String} {row : Row}
    {assignments : List Assignment} (h : assignmentsOf schema model row = .ok assignments) :
    assignments.filter (·.source = .proposed) = [] := by
  unfold assignmentsOf at h
  obtain ⟨columns, -, h⟩ := bind_eq_ok.mp h
  cases h
  refine List.filter_eq_nil_iff.mpr fun a ha => ?_
  obtain ⟨e, -, rfl⟩ := List.mem_map.mp ha
  simp

/-- The text of an upsert lists the columns of its row and of its keys, and reads back what it sets
to what was proposed. -/
theorem WrittenAs.upsertText (h : q.WrittenAs env s)
    (hpayload : q.payload = .upsert keys created updated) :
    UpsertText env q.model keys created updated
      (lexemesOf env.dialect 0 (s.tokens env.dialect)) := by
  obtain ⟨table, columns, c, rfl, hcolumns, hkeys, hassignments⟩ := h.upsert_spec hpayload
  have hproposed : c.assignments.filter (·.source = .proposed)
      = if updated = [] then c.assignments else [] := by
    by_cases hempty : updated = []
    · rw [if_pos hempty] at hassignments ⊢
      rw [hassignments]
      exact List.filter_eq_self.mpr (by simp [asProposed])
    · rw [if_neg hempty] at hassignments ⊢
      exact not_proposed_of_assignmentsOf hassignments
  refine ⟨?_, fun hdialect => ?_, fun hdialect => ?_, ?_, ?_⟩
  · rw [insertedColumns_tokens]
    exact hcolumns
  · rw [conflictColumns_tokens, if_neg hdialect]
    exact hkeys
  · rw [conflictColumns_tokens, if_pos hdialect]
  · rw [assignedColumns_tokens]
    show _ = Except.ok (c.assignments.map (·.column))
    by_cases hempty : updated = []
    · rw [if_pos hempty] at hassignments ⊢
      rw [hassignments, column_asProposed]
      exact hkeys
    · rw [if_neg hempty] at hassignments ⊢
      exact columnsOf_assignmentsOf hassignments
  · rw [proposedColumns_tokens, assignedColumns_tokens, hproposed]
    split <;> rfl

/-- A query with keys writes. -/
theorem reads_of_upsert {c : Compiled} (hpayload : q.payload = .upsert keys created updated)
    (h : q.compile env = .ok c) : q.operation.reads = false := by
  cases hreads : q.operation.reads with
  | false => rfl
  | true => cases (payload_of_reads hreads h).symm.trans hpayload

/-- Where different fields stand for different columns, an upsert lists every key once, and sets
every column once where it has nothing to update, exactly if its keys do not repeat. What it reads
back of the row it proposed is listed for this row exactly if the row has all of the keys. A row
that it meets without having anything to update gets the keys of the proposed row, where these are
the values of the data if they are in it, and nothing else, so it keeps its keys where it is met
for having them. -/
theorem upsert_keys_iff {c : Compiled} (hschema : env.schema.DistinctColumns)
    (hpayload : q.payload = .upsert keys created updated) (h : q.compile env = .ok c) :
    ∃ ls, lexemes env.dialect.quote (c.statement.prepare env.dialect).sql.toList = some ls ∧
      UpsertText env q.model keys created updated ls ∧
      ((conflictColumns ls).Nodup ↔ env.dialect = .mysql ∨ keys.Nodup) ∧
      ((assignedColumns ls).Nodup ↔ updated ≠ [] ∨ keys.Nodup) ∧
      (proposedColumns ls ⊆ insertedColumns ls ↔ updated ≠ [] ∨ keys ⊆ created.fields) ∧
      (updated = [] → ∃ table keyColumns,
        columnsOf env.schema (some q.model) keys = .ok keyColumns ∧
        c.statement = .insert table (insertedColumns ls) [created.values]
          (some { keys := keyColumns, assignments := asProposed keyColumns }) true ∧
        ∀ (E : Engine) (rows : List TableRow),
          let proposed := E.proposal table (insertedColumns ls) rows created.values
          (∀ e ∈ (insertedColumns ls).zip created.values, proposed e.1 = e.2) ∧
          ∀ row, E.Rekeys keyColumns proposed row
            (row.assign proposed (asProposed keyColumns))) := by
  have hwritten := writtenAs_of_compile (reads_of_upsert hpayload h) h
  have htext := hwritten.upsertText hpayload
  have hdistinct : created.fields.Nodup ∧ updated.fields.Nodup := by
    have hrows := hwritten.nodup
    rw [hpayload] at hrows
    exact ⟨hrows created (by simp [Payload.rows]), hrows updated (by simp [Payload.rows])⟩
  refine ⟨_, lexemes_prepare env.dialect c.statement, htext, htext.nodup_conflict_iff hschema,
    htext.nodup_assigned_iff hschema hdistinct.2, htext.proposed_subset_iff hschema, ?_⟩
  intro hempty
  obtain ⟨table, columns, conflict, hstatement, hcolumns, hkeys, hassignments⟩ :=
    hwritten.upsert_spec hpayload
  rw [if_pos hempty] at hassignments
  have hread : insertedColumns (lexemesOf env.dialect 0 (c.statement.tokens env.dialect))
      = columns := by
    rw [insertedColumns_tokens, hstatement]
    rfl
  rw [hread]
  refine ⟨table, conflict.keys, hkeys, by rw [hstatement, ← hassignments], fun E rows => ⟨?_, ?_⟩⟩
  · exact Engine.proposal_of_mem ((nodup_columnsOf_iff hschema hcolumns).mpr hdistinct.1)
      (length_columnsOf hcolumns).le table rows
  · exact fun row => Engine.rekeys_assign conflict.keys _ row

end Query

/-- A user who is added, or left alone where the keys are taken. -/
def userByKeys (keys : List String) (created : Row) : Query :=
  .writing "User" .upsert (.upsert keys created [])

/-- The first user, with an address. -/
def firstUser : Row :=
  [("id", .int 1), ("email", .string "a@b.c")]

/-- The fields of users have columns of their own. -/
theorem usersSchema_distinctColumns : usersSchema.DistinctColumns := by
  refine Schema.distinctColumns_of_models fun m hm => Model.distinctColumns_of_nodup ?_ ?_
  · revert m
    decide
  · revert m
    decide

/-- An upsert by one key that the new row has, with nothing to update. -/
theorem Query.upsert_keys_iff_address :
    ∃ c ls, (userByKeys ["email"] firstUser).compile
          { schema := usersSchema, dialect := .postgres } = .ok c ∧
      (c.statement.prepare .postgres).sql
        = "INSERT INTO users (id, email_address) VALUES ($1, $2) ON CONFLICT (email_address) " ++
          "DO UPDATE SET email_address = EXCLUDED.email_address RETURNING *" ∧
      lexemes '"' (c.statement.prepare .postgres).sql.toList = some ls ∧
      (conflictColumns ls).Nodup ∧ (assignedColumns ls).Nodup ∧
      proposedColumns ls ⊆ insertedColumns ls ∧
      ∃ proposed : TableRow, proposed "email_address" = .string "a@b.c" ∧
        ∀ row, Engine.exact.Rekeys ["email_address"] proposed row
          (row.assign proposed (asProposed ["email_address"])) := by
  obtain ⟨c, hc, hsql⟩ : ∃ c, (userByKeys ["email"] firstUser).compile
          { schema := usersSchema, dialect := .postgres } = .ok c ∧
        (c.statement.prepare .postgres).sql
          = "INSERT INTO users (id, email_address) VALUES ($1, $2) ON CONFLICT (email_address) " ++
            "DO UPDATE SET email_address = EXCLUDED.email_address RETURNING *" :=
    ⟨_, rfl, by decide +kernel⟩
  obtain ⟨ls, hls, htext, hconflict, hassigned, hproposed, hrekeys⟩ :=
    Query.upsert_keys_iff usersSchema_distinctColumns rfl hc
  obtain ⟨table, keyColumns, hkeys, -, hrekeys⟩ := hrekeys rfl
  obtain rfl : ["email_address"] = keyColumns := Except.ok.inj hkeys
  have hinserted : ["id", "email_address"] = insertedColumns ls := Except.ok.inj htext.inserted
  rw [← hinserted] at hrekeys
  obtain ⟨hvalues, hrekeys⟩ := hrekeys .exact []
  refine ⟨c, ls, hc, hsql, hls, hconflict.mpr (Or.inr (by decide)),
    hassigned.mpr (Or.inr (by decide)), hproposed.mpr (Or.inr (by decide)), _, ?_, hrekeys⟩
  exact hvalues ("email_address", .string "a@b.c") (by decide)

/-- Keys that repeat are listed and set as often as they are named, and a key that the new row does
not have is read back of a column that nothing was proposed for. -/
theorem Query.upsert_keys_unchecked :
    (∃ c ls, (userByKeys ["email", "email"] firstUser).compile
          { schema := usersSchema, dialect := .postgres } = .ok c ∧
        (c.statement.prepare .postgres).sql
          = "INSERT INTO users (id, email_address) VALUES ($1, $2) " ++
            "ON CONFLICT (email_address, email_address) DO UPDATE SET " ++
            "email_address = EXCLUDED.email_address, email_address = EXCLUDED.email_address " ++
            "RETURNING *" ∧
        lexemes '"' (c.statement.prepare .postgres).sql.toList = some ls ∧
        ¬(conflictColumns ls).Nodup ∧ ¬(assignedColumns ls).Nodup) ∧
    ∃ c ls, (userByKeys ["email"] [("id", .int 1)]).compile
          { schema := usersSchema, dialect := .postgres } = .ok c ∧
        (c.statement.prepare .postgres).sql
          = "INSERT INTO users (id) VALUES ($1) ON CONFLICT (email_address) " ++
            "DO UPDATE SET email_address = EXCLUDED.email_address RETURNING *" ∧
        lexemes '"' (c.statement.prepare .postgres).sql.toList = some ls ∧
        "email_address" ∈ proposedColumns ls ∧ "email_address" ∉ insertedColumns ls := by
  refine ⟨⟨_, _, rfl, by decide +kernel, lexemes_prepare .postgres _, ?_, ?_⟩,
    _, _, rfl, by decide +kernel, lexemes_prepare .postgres _, ?_, ?_⟩
  · rw [conflictColumns_tokens]
    decide
  · rw [assignedColumns_tokens]
    decide
  · rw [proposedColumns_tokens]
    decide
  · rw [insertedColumns_tokens]
    decide

end SqlQuery
