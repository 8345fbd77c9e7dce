import SqlQuery.Proofs.Compile.NamedQueries
import SqlQuery.Proofs.Compile.NestedArguments

/-!
# No name leaves its place

Names are arbitrary texts, and they are written next to keywords and symbols. A table or a
field may be called by any word, symbol or placeholder of the language, or hold quote
characters, and still a reader of the text must find one name in its place and nothing else
that comes of it.

> `NestedWrite.named_of_compile`: the statements of a nested write name its target and the
> columns of its fields.

> `names_in_place`: the text of every statement is read as the form of the statement, with
> one lexeme for each name, which stands for it.
-/

namespace SqlQuery

open Sql

/-! ## Writes to relations -/

/-- The fields that a change is about. -/
def RelationChange.fields : RelationChange → List String
  | .create row => row.fields
  | .createMany rows => rows.flatMap Row.fields
  | .connect f | .disconnect f | .set f | .delete f | .deleteMany f => f.fields
  | .connectOrCreate f created => f.fields ++ created.fields
  | .update f row | .updateMany f row => f.fields ++ row.fields
  | .upsert f created updated => f.fields ++ created.fields ++ updated.fields

/-- What names stand in the texts of a nested write, by their roles. -/
def NestedWrite.known (w : NestedWrite) (schema : Schema) (target : RelationTarget) : Known
  | .table, n => n = target.table
  | .column, n => n = target.foreignKey ∨
      ∃ field ∈ w.change.fields, schema.columnOf target.model field = .ok n
  | .qualifier, _ | .alias, _ | .output, _ => False

namespace NestedScope

/-- The table and the foreign key of the target are known. -/
structure Knows (x : NestedScope) (known : Known) : Prop where
  table : known .table x.target.table
  key : known .column x.target.foreignKey

/-- The columns of some fields of the target are known. -/
abbrev KnowsFields (x : NestedScope) (known : Known) (fields : List String) : Prop :=
  x.env.schema.Knows known x.target.model fields

variable {x : NestedScope} {known : Known} {f : Filter} {row : Row}

/-- A filter that is required names the columns of its fields. -/
theorem named_of_requiredWhere {p : Predicate} (hf : x.KnowsFields known f.fields)
    (h : x.requiredWhere f = .ok p) : p.Alike (named known) p := by
  have hp := Filter.named_of_compiledTo (.unqualified hf) (requiredWhere_spec h).atoms
  cases hp with
  | some hp => exact hp

/-- The foreign key stands beside what the filter names. -/
theorem named_scoped {p : Option Predicate} (hx : x.Knows known)
    (hp : Option.Rel (Predicate.Alike (named known)) p p) :
    (Predicate.all (x.scopeAtom :: p.toList)).Alike (named known)
      (.all (x.scopeAtom :: p.toList)) := by
  have hcolumn : ColumnRef.Alike (named known) { column := x.target.foreignKey }
      { column := x.target.foreignKey } := ⟨.none, rfl, hx.key⟩
  exact Predicate.Alike.beside (.cons (.compare false .eq (.column hcolumn) rfl) .nil) hp

/-- A condition on the parent's rows names the foreign key and the columns of the filter. -/
theorem named_of_scopedWhere {p : Predicate} (hx : x.Knows known)
    (hf : x.KnowsFields known f.fields) (h : x.scopedWhere f = .ok p) :
    p.Alike (named known) p := by
  unfold scopedWhere at h
  obtain ⟨q, hq, h⟩ := bind_eq_ok.mp h
  cases h
  exact named_scoped hx (Filter.named_of_compiledTo (.unqualified hf)
    (Filter.compileOperand_spec (Refusal.forget_eq_ok.mp hq)).atoms)

/-- To tie a row to the parent sets the foreign key. -/
theorem named_attach (hx : x.Knows known) :
    List.Forall₂ (Assignment.Alike (named known)) [x.attach] [x.attach] :=
  .cons ⟨⟨rfl, hx.key⟩, .value rfl⟩ .nil

theorem named_detach (hx : x.Knows known) :
    List.Forall₂ (Assignment.Alike (named known)) [x.detach] [x.detach] :=
  .cons ⟨⟨rfl, hx.key⟩, .null⟩ .nil

/-- A connection names the table, the foreign key and the columns of its filter. -/
theorem named_of_connect {s : Statement} (hx : x.Knows known) (hf : x.KnowsFields known f.fields)
    (h : x.connect f = .ok s) : s.Alike (named known) s := by
  unfold connect at h
  obtain ⟨p, hp, h⟩ := bind_eq_ok.mp h
  cases h
  exact .update _ ⟨rfl, hx.table⟩ (named_attach hx) (named_of_requiredWhere hf hp)

/-- An insertion below a parent names the foreign key beside the columns of its rows. -/
theorem named_of_insert {rows : List Row} {s : Statement} (hx : x.Knows known)
    (hrows : x.KnowsFields known (rows.flatMap Row.fields)) (h : x.insert rows = .ok s) :
    s.Alike (named known) s := by
  unfold insert at h
  obtain ⟨⟨columns, values⟩, hinsertion, h⟩ := bind_eq_ok.mp h
  cases h
  have hkey : ∀ entry ∈ [(x.target.foreignKey, x.key)], known .column entry.1 := by
    intro entry hentry
    rw [List.mem_singleton.mp hentry]
    exact hx.key
  exact .insert true ⟨rfl, hx.table⟩ (named_of_insertion hkey hrows hinsertion) (rows_self _)
    .none

/-- A guarded insertion names what its row and its guard do. -/
theorem named_of_insertUnless {p : Predicate} {s : Statement} (hx : x.Knows known)
    (hrow : x.KnowsFields known row.fields) (hp : p.Alike (named known) p)
    (h : x.insertUnless row p = .ok s) : s.Alike (named known) s := by
  unfold insertUnless at h
  obtain ⟨columns, hcolumns, h⟩ := bind_eq_ok.mp h
  cases h
  exact .insertUnless ⟨rfl, hx.table⟩ (.cons ⟨rfl, hx.key⟩ (named_of_columnsOf hrow hcolumns))
    (values_self _) hp

/-- An update below a parent names what it sets and what it looks at. -/
theorem named_of_update {s : Statement} (hx : x.Knows known)
    (hrow : x.KnowsFields known row.fields) (hf : x.KnowsFields known f.fields)
    (h : x.update row f = .ok s) : s.Alike (named known) s := by
  unfold update at h
  obtain ⟨assignments, hassignments, h⟩ := bind_eq_ok.mp h
  obtain ⟨p, hp, h⟩ := bind_eq_ok.mp h
  cases h
  exact .update _ ⟨rfl, hx.table⟩ (named_of_assignmentsOf hrow hassignments)
    (named_of_scopedWhere hx hf hp)

/-- A deletion below a parent names what it looks at. -/
theorem named_of_delete {s : Statement} (hx : x.Knows known) (hf : x.KnowsFields known f.fields)
    (h : x.delete f = .ok s) : s.Alike (named known) s := by
  unfold delete at h
  obtain ⟨p, hp, h⟩ := bind_eq_ok.mp h
  cases h
  exact .delete _ ⟨rfl, hx.table⟩ (named_of_scopedWhere hx hf hp)

/-- Statements that hold known names only. -/
abbrev AllNamed (known : Known) (statements : List Statement) : Prop :=
  List.Forall₂ (Statement.Alike (named known)) statements statements

/-- Both statements of a replacement name only what is known. -/
theorem named_of_replace {statements : List Statement} (hx : x.Knows known)
    (hf : x.KnowsFields known f.fields) (h : x.replace f = .ok statements) :
    AllNamed known statements := by
  have hdetach := Statement.Alike.update (L := named known) false ⟨rfl, hx.table⟩
    (named_detach hx) (named_scoped hx .none)
  unfold replace at h
  split at h
  next =>
    cases h
    exact .cons hdetach .nil
  next =>
    obtain ⟨s, hs, h⟩ := bind_eq_ok.mp h
    cases h
    exact .cons hdetach (.cons (named_of_connect hx hf hs) .nil)

/-- An update with nothing to set has no statement. -/
theorem named_of_updateIfAny {statements : List Statement} (hx : x.Knows known)
    (hrow : x.KnowsFields known row.fields) (hf : x.KnowsFields known f.fields)
    (h : x.updateIfAny row f = .ok statements) : AllNamed known statements := by
  unfold updateIfAny at h
  split at h
  next =>
    cases h
    exact .nil
  next =>
    obtain ⟨-, -, h⟩ := bind_eq_ok.mp h
    obtain ⟨s, hs, h⟩ := bind_eq_ok.mp h
    cases h
    exact .cons (named_of_update hx hrow hf hs) .nil

/-- Both statements of an upsert name only what is known. -/
theorem named_of_upsert {created updated : Row} {statements : List Statement}
    (hx : x.Knows known) (hf : x.KnowsFields known f.fields)
    (hcreated : x.KnowsFields known created.fields)
    (hupdated : x.KnowsFields known updated.fields)
    (h : x.upsert f created updated = .ok statements) : AllNamed known statements := by
  unfold upsert at h
  obtain ⟨-, -, h⟩ := bind_eq_ok.mp h
  obtain ⟨updates, hupdates, h⟩ := bind_eq_ok.mp h
  obtain ⟨present, hpresent, h⟩ := bind_eq_ok.mp h
  obtain ⟨insertion, hinsertion, h⟩ := bind_eq_ok.mp h
  cases h
  have hinsertion := named_of_insertUnless hx hcreated (named_of_scopedWhere hx hf hpresent)
    hinsertion
  exact List.rel_append (named_of_updateIfAny hx hupdated hf hupdates) (.cons hinsertion .nil)

/-- The statements of a change name the target and the columns of the change's fields. -/
theorem named_of_compile {change : RelationChange} {statements : List Statement}
    (hx : x.Knows known) (hfields : x.KnowsFields known change.fields)
    (h : x.compile change = .ok statements) : AllNamed known statements := by
  have hone : ∀ {outcome : Except Error Statement},
      (∀ s, outcome = .ok s → s.Alike (named known) s) →
      (outcome >>= fun s => .ok [s]) = .ok statements → AllNamed known statements := by
    intro outcome hnamed h
    obtain ⟨s, hs, h⟩ := bind_eq_ok.mp h
    cases h
    exact .cons (hnamed s hs) .nil
  have hleft : ∀ {fields more : List String}, x.KnowsFields known (fields ++ more) →
      x.KnowsFields known fields := fun h => h.mono (List.subset_append_left ..)
  have hright : ∀ {fields more : List String}, x.KnowsFields known (fields ++ more) →
      x.KnowsFields known more := fun h => h.mono (List.subset_append_right ..)
  cases change with
  | create row =>
    obtain ⟨-, -, h⟩ := bind_eq_ok.mp h
    have hrow : x.KnowsFields known ([row].flatMap Row.fields) := by
      rw [List.flatMap_singleton]
      exact hfields
    exact hone (fun s hs => named_of_insert hx hrow hs) h
  | createMany rows =>
    rw [compile] at h
    obtain ⟨-, -, h⟩ := bind_eq_ok.mp (check_eq_ok h)
    exact hone (fun s hs => named_of_insert hx hfields hs) h
  | connect f => exact hone (fun s hs => named_of_connect hx hfields hs) h
  | connectOrCreate f created =>
    obtain ⟨-, -, h⟩ := bind_eq_ok.mp h
    obtain ⟨p, hp, h⟩ := bind_eq_ok.mp h
    obtain ⟨s, hs, h⟩ := bind_eq_ok.mp h
    cases h
    have hp := named_of_requiredWhere (hleft hfields) hp
    exact .cons (.update _ ⟨rfl, hx.table⟩ (named_attach hx) hp)
      (.cons (named_of_insertUnless hx (hright hfields) hp hs) .nil)
  | disconnect f =>
    obtain ⟨p, hp, h⟩ := bind_eq_ok.mp h
    cases h
    exact .cons (.update _ ⟨rfl, hx.table⟩ (named_detach hx) (named_of_requiredWhere hfields hp))
      .nil
  | set f => exact named_of_replace hx hfields h
  | update f row | updateMany f row =>
    obtain ⟨-, -, h⟩ := bind_eq_ok.mp h
    exact hone (fun s hs => named_of_update hx (hright hfields) (hleft hfields) hs) h
  | delete f | deleteMany f => exact hone (fun s hs => named_of_delete hx hfields hs) h
  | upsert f created updated =>
    exact named_of_upsert hx (hleft (hleft hfields)) (hright (hleft hfields)) (hright hfields) h

end NestedScope

namespace NestedWrite

variable {env : Env} {parent : String} {key : Value}

/-- The statements of a nested write name its target and the columns of its fields. -/
theorem named_of_compile {w : NestedWrite} {statements : List Statement}
    (h : w.compile env parent key = .ok statements) :
    ∃ target, w.target env.schema parent = .ok target ∧
      ∀ s ∈ statements, s.Alike (named (w.known env.schema target)) s := by
  unfold compile at h
  obtain ⟨target, htarget, h⟩ := bind_eq_ok.mp h
  let x : NestedScope := { env, target, relation := w.relation, kind := w.change.kind, key }
  have hx : x.Knows (w.known env.schema target) := ⟨rfl, Or.inl rfl⟩
  have hfields : x.KnowsFields (w.known env.schema target) w.change.fields :=
    fun field hfield column hcolumn => Or.inr ⟨field, hfield, hcolumn⟩
  exact ⟨target, htarget, List.forall₂_same.mp (NestedScope.named_of_compile hx hfields h)⟩

/-- A statement of some writes is one of a single write. -/
theorem exists_mem_of_compileAll :
    ∀ {ws : List NestedWrite} {statements : List Statement},
      compileAll env parent key ws = .ok statements → ∀ s ∈ statements,
        ∃ w ∈ ws, ∃ own, w.compile env parent key = .ok own ∧ s ∈ own := by
  intro ws
  induction ws with
  | nil =>
    intro statements h s hs
    cases h
    cases hs
  | cons w ws ih =>
    intro statements h s hs
    rw [compileAll] at h
    obtain ⟨own, hown, h⟩ := bind_eq_ok.mp h
    obtain ⟨more, hmore, h⟩ := bind_eq_ok.mp h
    cases h
    rcases List.mem_append.mp hs with hs | hs
    · exact ⟨w, List.mem_cons_self .., own, hown, hs⟩
    · obtain ⟨w', hw', h⟩ := ih hmore s hs
      exact ⟨w', List.mem_cons_of_mem _ hw', h⟩

end NestedWrite

/-! ## Texts -/

/-- No name leaves its place. The form of a statement is the same whatever its names are. The
text of a compiled query never ends inside a quoted name, and is read as the form of
its statement: its words, symbols, numbers and placeholders, and at the place of each name one
lexeme that stands for the name. The name is the one that the statement holds there: a table,
column, alias or output column that the query or the schema gave. The same holds of each
statement of nested writes. -/
theorem names_in_place (env : Env) :
    (∀ (ρ : Renaming) (s : Statement), (s.rename ρ).form = s.form) ∧
      (∀ (q : Query) (c : Compiled), q.compile env = .ok c →
        ∃ pieces, c.statement.ReadsBack env.dialect (q.known env.schema c.mapping) pieces) ∧
      ∀ (parent : String) (key : Value) (ws : List NestedWrite) (statements : List Statement),
        NestedWrite.compileAll env parent key ws = .ok statements →
          ∀ s ∈ statements, ∃ w ∈ ws, ∃ target, w.target env.schema parent = .ok target ∧
            ∃ pieces, s.ReadsBack env.dialect (w.known env.schema target) pieces := by
  refine ⟨Statement.form_rename, ?_, ?_⟩
  · intro q c h
    exact Statement.exists_readsBack env.dialect (Query.named_of_compile h)
  · intro parent key ws statements h s hs
    obtain ⟨w, hw, own, hown, hs⟩ := NestedWrite.exists_mem_of_compileAll h s hs
    obtain ⟨target, htarget, hnamed⟩ := NestedWrite.named_of_compile hown
    exact ⟨w, hw, target, htarget, Statement.exists_readsBack env.dialect (hnamed s hs)⟩

/-- A write to fields whose names read as SQL. -/
def awkwardWrite : NestedWrite :=
  { relation := "r?"
    change := .updateMany (.or [.equals "\x60) OR 1" (.int 1), .isNull "*"])
      [("select", .int 2), ("1_x", .null)] }

/-- Names with quote characters, dollar signs and words of the language stand in the places of the
form. -/
theorem names_in_place_awkward :
    (∃ c pieces, awkwardQuery.compile { schema := awkwardSchema, dialect := .postgres } = .ok c ∧
      (c.statement.form.prepare .postgres).sql
        = "SELECT qualifier.column AS output, qualifier.* FROM \"table\""
          ++ " LEFT JOIN \"table\" AS alias ON qualifier.column = qualifier.column"
          ++ " AND qualifier.column = $1"
          ++ " WHERE qualifier.column = $2 OR qualifier.column IN ($3, $4)" ∧
      c.statement.ReadsBack .postgres (awkwardQuery.known awkwardSchema c.mapping) pieces) ∧
      ∃ s target pieces, NestedWrite.compileAll { schema := awkwardSchema, dialect := .mysql } "U"
            (.int 7) [awkwardWrite] = .ok [s] ∧
        (s.prepare .mysql).sql
          = "UPDATE v SET \x60select\x60 = ?, \x601_x\x60 = ?"
            ++ " WHERE y = ? AND (\x60\x60\x60) OR 1\x60 = ? OR * IS NULL)" ∧
        (s.form.prepare .mysql).sql
          = "UPDATE \x60table\x60 SET column = ?, column = ?"
            ++ " WHERE column = ? AND (column = ? OR column IS NULL)" ∧
        s.ReadsBack .mysql (awkwardWrite.known awkwardSchema target) pieces := by
  refine ⟨?_, ?_⟩
  · have hform : (awkwardQuery.compile { schema := awkwardSchema, dialect := .postgres }).map
          (fun c => (c.statement.form.prepare .postgres).sql)
        = .ok ("SELECT qualifier.column AS output, qualifier.* FROM \"table\""
          ++ " LEFT JOIN \"table\" AS alias ON qualifier.column = qualifier.column"
          ++ " AND qualifier.column = $1"
          ++ " WHERE qualifier.column = $2 OR qualifier.column IN ($3, $4)") := by decide +kernel
    cases hc : awkwardQuery.compile { schema := awkwardSchema, dialect := .postgres } with
    | error e =>
      rw [hc] at hform
      cases hform
    | ok c =>
      rw [hc] at hform
      obtain ⟨pieces, hread⟩ := (names_in_place _).2.1 _ _ hc
      exact ⟨c, pieces, rfl, Except.ok.inj hform, hread⟩
  · have htexts : (NestedWrite.compileAll { schema := awkwardSchema, dialect := .mysql } "U"
          (.int 7) [awkwardWrite]).map
          (·.map fun s => ((s.prepare .mysql).sql, (s.form.prepare .mysql).sql))
        = .ok [("UPDATE v SET \x60select\x60 = ?, \x601_x\x60 = ?"
            ++ " WHERE y = ? AND (\x60\x60\x60) OR 1\x60 = ? OR * IS NULL)",
          "UPDATE \x60table\x60 SET column = ?, column = ?"
            ++ " WHERE column = ? AND (column = ? OR column IS NULL)")] := by decide
    cases hs : NestedWrite.compileAll { schema := awkwardSchema, dialect := .mysql } "U" (.int 7)
        [awkwardWrite] with
    | error e =>
      rw [hs] at htexts
      cases htexts
    | ok statements =>
      rw [hs] at htexts
      obtain ⟨s, rfl, htext⟩ := List.map_eq_singleton_iff.mp (Except.ok.inj htexts)
      obtain ⟨hsql, hform⟩ := Prod.ext_iff.mp htext
      obtain ⟨w, hw, target, -, pieces, hread⟩ :=
        (names_in_place _).2.2 "U" (.int 7) _ _ hs s (List.mem_singleton_self s)
      rw [List.mem_singleton.mp hw] at hread
      exact ⟨s, target, pieces, rfl, hsql, hform, hread⟩

end SqlQuery
