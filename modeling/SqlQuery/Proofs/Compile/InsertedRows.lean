import SqlQuery.Proofs.Compile.EitherOr
import SqlQuery.Proofs.Compile.NestedArguments
import SqlQuery.Proofs.Sql.InsertText

/-!
# Rows that are inserted below a parent

A row that a nested write inserts gets the foreign key from its parent and never from the data.
Data with a field that is stored in the foreign key's column is refused, whatever the field is
called and in whichever row it stands, and with it the whole list of writes. What is inserted then
has the foreign key as its first column and nowhere else, and the parent's key in front of the
values of every row.

Rows are inserted by two kinds of statement: in groups, as many as there are, or one row on the
condition that no other is there. `RelationTarget.InsertsBelow` says of either what it has to do
with the parent: in its text, in its arguments and in what it does to its table.

> `NestedScope.insertsBelow_of_compile`: the insertion of a compiled change, its last statement.

> `NestedWrite.inserted_below`: the same of nested writes, and what is refused.
-/

namespace SqlQuery

open Sql

/-- The rows of data that a change inserts, or may have to. -/
def RelationChange.created : RelationChange → List Row
  | .create row => [row]
  | .createMany rows => rows
  | .connectOrCreate _ row | .upsert _ row _ => [row]
  | _ => []

/-- Whether a statement inserts rows. -/
def Sql.Statement.isInsertion : Statement → Bool
  | .insert .. | .insertUnless .. => true
  | _ => false

/-- What an insertion of rows is written as: groups of placeholders behind VALUES, or the
placeholders of its one row behind SELECT, and a condition. -/
inductive InsertionText (d : Dialect) (table : String) (columns : List String) :
    List (List Value) → String → Prop
  | groups (rows : List (List Value)) (returning : Bool) :
    InsertionText d table columns rows
      (insertIntoText d table columns ++ " VALUES " ++ ", ".intercalate (groupTexts d 0 rows)
        ++ returningText d returning)
  | selection (row : List Value) (condition : String) :
    InsertionText d table columns [row]
      (insertIntoText d table columns ++ " SELECT " ++ placeholdersText d 0 row.length
        ++ dualText d ++ " WHERE " ++ condition)

/-- A statement inserts rows below a parent, under the foreign key and other columns: its text
lists the foreign key first, its arguments begin with the rows, each behind the key, and every row
that it adds to the table has the key in its foreign key. -/
structure RelationTarget.InsertsBelow (target : RelationTarget) (d : Dialect) (key : Value)
    (columns : List String) (rows : List Row) (s : Statement) : Prop where
  once : target.foreignKey ∉ columns
  text : InsertionText d target.table (target.foreignKey :: columns) (insertedRows key rows)
    (s.prepare d).sql
  args : (insertedRows key rows).flatten <+: (s.prepare d).args
  added : ∀ (E : Engine) (db : Database), ∃ added,
    s.run E db target.table = db target.table ++ added ∧
      ∀ row ∈ added, row target.foreignKey = key

namespace NestedScope

variable {x : NestedScope}

/-! ## Checked data -/

/-- A change is compiled only where all its data passes. -/
theorem checkCreate_of_compile {change : RelationChange} {statements : List Statement}
    (h : x.compile change = .ok statements) :
    ∀ row ∈ change.created, x.checkCreate row = .ok () := by
  cases change with
  | create row | connectOrCreate f row | upsert f row update =>
    obtain ⟨⟨⟩, hrow, -⟩ := bind_eq_ok.mp h
    exact List.forall_mem_singleton.mpr hrow
  | createMany rows =>
    rw [compile] at h
    obtain ⟨⟨⟩, hrows, -⟩ := bind_eq_ok.mp (check_eq_ok h)
    exact forM_eq_ok_iff.mp hrows
  | connect | disconnect | set | update | updateMany | delete | deleteMany =>
    exact fun _ hrow => absurd hrow List.not_mem_nil

/-! ## The two insertions -/

/-- An insertion of checked rows has the columns of the first one behind the foreign key. -/
theorem insertsBelow_insert {rows : List Row} {s : Statement}
    (hcheck : ∀ row ∈ rows, x.checkCreate row = .ok ()) (h : x.insert rows = .ok s) :
    ∃ first rest columns, rows = first :: rest ∧
      columnsOf x.env.schema x.target.model first.fields = .ok columns ∧
      x.target.InsertsBelow x.env.dialect x.key columns rows s := by
  have hargs : (s.prepare x.env.dialect).args = insertedValues x.key rows := arguments_insert h
  obtain ⟨first, rest, columns, rfl, hcolumns, rfl⟩ := insert_spec h
  have honce := foreignKey_not_mem_of_checkCreate (hcheck first (List.mem_cons_self ..)) hcolumns
  refine ⟨first, rest, columns, rfl, hcolumns, honce, ?_, ?_, fun E db => ?_⟩
  · rw [Statement.sql_insert x.env.dialect x.target.table _ (by simp [insertedRows]) true]
    exact .groups ..
  · exact (hargs.trans (insertedValues_eq ..)) ▸ List.prefix_rfl
  · obtain ⟨added, hrows, hadded⟩ := Statement.run_insert E db x.target.table
      (x.target.foreignKey :: columns) (insertedRows x.key (first :: rest)) true
    refine ⟨added, hrows, fun row hrow => ?_⟩
    obtain ⟨v, hv, rows, rfl⟩ := exists_mem_of_forall₂ hadded row hrow
    obtain ⟨data, -, rfl⟩ := List.mem_map.mp hv
    exact E.proposal_first honce ..

/-- A guarded insertion of a checked row has its columns behind the foreign key. -/
theorem insertsBelow_insertUnless {row : Row} {present : Predicate} {s : Statement}
    (hcheck : x.checkCreate row = .ok ()) (h : x.insertUnless row present = .ok s) :
    ∃ columns, columnsOf x.env.schema x.target.model row.fields = .ok columns ∧
      x.target.InsertsBelow x.env.dialect x.key columns [row] s := by
  have hargs : (s.prepare x.env.dialect).args = _ := arguments_insertUnless h
  have hrows : insertedRows x.key [row] = [x.key :: row.values] := by
    show [x.key :: row.inOrder row.fields] = _
    rw [Row.inOrder_fields (nodup_of_checkCreate hcheck)]
  unfold insertUnless at h
  obtain ⟨columns, hcolumns, h⟩ := bind_eq_ok.mp h
  cases h
  have honce := foreignKey_not_mem_of_checkCreate hcheck hcolumns
  refine ⟨columns, hcolumns, honce, ?_, ?_, fun E db => ⟨_, Statement.run_insertUnless .., ?_⟩⟩
  · rw [hrows, Statement.sql_insertUnless _ _ _ (by simp)]
    exact .selection ..
  · rw [hargs, hrows, List.flatten_singleton]
    exact List.prefix_append ..
  · intro added hadded
    split at hadded
    next => exact absurd hadded List.not_mem_nil
    next =>
      rw [List.mem_singleton.mp hadded]
      exact E.proposal_first honce ..

/-! ## Changes -/

/-- An update inserts nothing, whether it is written or left out. -/
theorem isInsertion_of_updateIfAny {row : Row} {f : Filter} {statements : List Statement}
    (h : x.updateIfAny row f = .ok statements) : ∀ u ∈ statements, u.isInsertion = false := by
  unfold updateIfAny at h
  split at h
  next =>
    cases h
    exact fun _ hu => absurd hu List.not_mem_nil
  next =>
    obtain ⟨-, -, h⟩ := bind_eq_ok.mp h
    obtain ⟨s, hs, h⟩ := bind_eq_ok.mp h
    cases h
    obtain ⟨assignments, -, hs⟩ := bind_eq_ok.mp hs
    obtain ⟨p, -, hs⟩ := bind_eq_ok.mp hs
    cases hs
    exact List.forall_mem_singleton.mpr rfl

/-- The insertion of a compiled change is its last statement, and no other one inserts. -/
theorem insertsBelow_of_compile {change : RelationChange} {statements : List Statement}
    (h : x.compile change = .ok statements) {first : Row} {rest : List Row}
    (hcreated : change.created = first :: rest) :
    ∃ columns before s, columnsOf x.env.schema x.target.model first.fields = .ok columns ∧
      statements = before ++ [s] ∧ (∀ u ∈ before, u.isInsertion = false) ∧
      x.target.InsertsBelow x.env.dialect x.key columns (first :: rest) s := by
  have hcheck := checkCreate_of_compile h
  rw [hcreated] at hcheck
  have hfirst := hcheck first (List.mem_cons_self ..)
  -- the insertion of several rows stands alone
  have hrows {s : Statement} (hs : x.insert (first :: rest) = .ok s) :
      ∃ columns before s', columnsOf x.env.schema x.target.model first.fields = .ok columns ∧
        [s] = before ++ [s'] ∧ (∀ u ∈ before, u.isInsertion = false) ∧
        x.target.InsertsBelow x.env.dialect x.key columns (first :: rest) s' := by
    obtain ⟨first', rest', columns, heq, hcolumns, hbelow⟩ := insertsBelow_insert hcheck hs
    cases heq
    exact ⟨columns, [], s, hcolumns, rfl, fun _ hu => absurd hu List.not_mem_nil, hbelow⟩
  cases change with
  | create row =>
    cases hcreated
    obtain ⟨-, -, h⟩ := bind_eq_ok.mp h
    obtain ⟨s, hs, h⟩ := bind_eq_ok.mp h
    cases h
    exact hrows hs
  | createMany rows =>
    obtain rfl : rows = first :: rest := hcreated
    rw [compile] at h
    obtain ⟨-, -, h⟩ := bind_eq_ok.mp (check_eq_ok h)
    obtain ⟨s, hs, h⟩ := bind_eq_ok.mp h
    cases h
    exact hrows hs
  | connectOrCreate f row =>
    cases hcreated
    obtain ⟨-, -, h⟩ := bind_eq_ok.mp h
    obtain ⟨present, -, h⟩ := bind_eq_ok.mp h
    obtain ⟨s, hs, h⟩ := bind_eq_ok.mp h
    cases h
    obtain ⟨columns, hcolumns, hbelow⟩ := insertsBelow_insertUnless hfirst hs
    exact ⟨columns, [_], s, hcolumns, rfl, List.forall_mem_singleton.mpr rfl, hbelow⟩
  | upsert f row update =>
    cases hcreated
    unfold compile upsert at h
    obtain ⟨-, -, h⟩ := bind_eq_ok.mp h
    obtain ⟨updates, hupdates, h⟩ := bind_eq_ok.mp h
    obtain ⟨present, -, h⟩ := bind_eq_ok.mp h
    obtain ⟨s, hs, h⟩ := bind_eq_ok.mp h
    cases h
    obtain ⟨columns, hcolumns, hbelow⟩ := insertsBelow_insertUnless hfirst hs
    exact ⟨columns, updates, s, hcolumns, rfl, isInsertion_of_updateIfAny hupdates, hbelow⟩
  | connect | disconnect | set | update | updateMany | delete | deleteMany => cases hcreated

end NestedScope

/-! ## Nested writes -/

namespace NestedWrite

/-- Writes are compiled only where each of them is. -/
theorem exists_of_compileAll {env : Env} {parent : String} {key : Value} {ws : List NestedWrite} :
    ∀ {statements : List Statement}, compileAll env parent key ws = .ok statements →
      ∀ w ∈ ws, ∃ own, w.compile env parent key = .ok own := by
  induction ws with
  | nil => exact fun _ w hw => absurd hw List.not_mem_nil
  | cons first rest ih =>
    intro statements h
    obtain ⟨own, hown, h⟩ := bind_eq_ok.mp h
    obtain ⟨more, hmore, -⟩ := bind_eq_ok.mp h
    exact List.forall_mem_cons.mpr ⟨⟨own, hown⟩, ih hmore⟩

/-- A nested write that creates rows inserts them with its last statement and with no other, under
the foreign key and the columns of the first row's fields, so that each row that is added is the
parent's. If any of the rows has a field that is stored in the foreign key, nothing is compiled of
the list in which the write stands. -/
theorem inserted_below (env : Env) (parent : String) (key : Value) :
    (∀ (w : NestedWrite) (statements : List Statement) (first : Row) (rest : List Row),
      w.compile env parent key = .ok statements → w.change.created = first :: rest →
        ∃ target columns before s, w.target env.schema parent = .ok target ∧
          columnsOf env.schema target.model first.fields = .ok columns ∧
          statements = before ++ [s] ∧ (∀ u ∈ before, u.isInsertion = false) ∧
          target.InsertsBelow env.dialect key columns (first :: rest) s) ∧
      ∀ (ws : List NestedWrite) (w : NestedWrite) (target : RelationTarget), w ∈ ws →
        w.target env.schema parent = .ok target →
          (∃ row ∈ w.change.created, ∃ field ∈ row.fields,
            env.schema.columnOf target.model field = .ok target.foreignKey) →
          ∃ e, compileAll env parent key ws = .error e := by
  refine ⟨fun w statements first rest h hcreated => ?_, fun ws w target hw htarget hsets => ?_⟩
  · unfold compile at h
    obtain ⟨target, htarget, h⟩ := bind_eq_ok.mp h
    obtain ⟨columns, before, s, hbelow⟩ := NestedScope.insertsBelow_of_compile h hcreated
    exact ⟨target, columns, before, s, htarget, hbelow⟩
  · obtain ⟨row, hrow, field, hfield, hkey⟩ := hsets
    cases h : compileAll env parent key ws with
    | error e => exact ⟨e, rfl⟩
    | ok statements =>
      obtain ⟨own, hown⟩ := exists_of_compileAll h w hw
      unfold compile at hown
      rw [htarget] at hown
      have hcheck := NestedScope.checkCreate_of_compile hown row hrow
      obtain ⟨column, hcolumn, hne⟩ := NestedScope.checkForeignKey_eq_ok_iff.mp
        (NestedScope.checkForeignKey_of_checkCreate hcheck) field hfield
      have hsame : column = target.foreignKey := Except.ok.inj (hcolumn.symm.trans hkey)
      exact absurd hsame hne

/-- Two books, of which one is late. -/
def twoBooks : List Row :=
  [[("late", .bool true)], [("late", .bool false)]]

/-- Both books are inserted for the seventh reader, but not if one of them says whose it is. -/
theorem inserted_below_seven :
    (∃ s, compile { relation := "books", change := .createMany twoBooks }
          { schema := librarySchema, dialect := .postgres } "Reader" (.int 7) = .ok [s] ∧
        (s.prepare .postgres).sql
          = "INSERT INTO books (reader_id, late) VALUES ($1, $2), ($3, $4) RETURNING *" ∧
        booksOfSeven.target.InsertsBelow .postgres (.int 7) ["late"] twoBooks s) ∧
      ∃ e, compileAll { schema := librarySchema, dialect := .postgres } "Reader" (.int 7)
        [{ relation := "books", change := .createMany (twoBooks ++ [[("reader", .int 9)]]) }]
          = .error e := by
  obtain ⟨hbelow, hrefused⟩ :=
    inserted_below { schema := librarySchema, dialect := .postgres } "Reader" (.int 7)
  constructor
  · obtain ⟨s, hs, hsql⟩ : ∃ s,
        compile { relation := "books", change := .createMany twoBooks }
          { schema := librarySchema, dialect := .postgres } "Reader" (.int 7) = .ok [s] ∧
        (s.prepare .postgres).sql
          = "INSERT INTO books (reader_id, late) VALUES ($1, $2), ($3, $4) RETURNING *" :=
      ⟨_, rfl, by decide +kernel⟩
    obtain ⟨target, columns, before, s', htarget, hcolumns, hstatements, -, hinserts⟩ :=
      hbelow _ _ _ _ hs rfl
    obtain rfl : booksOfSeven.target = target :=
      Except.ok.inj (htarget.symm.trans (by decide)).symm
    obtain rfl : ["late"] = columns := Except.ok.inj (hcolumns.symm.trans (by decide)).symm
    have hlast : [s] = [s'] :=
      List.append_inj_right' (show [] ++ [s] = before ++ [s'] from hstatements) rfl
    cases hlast
    exact ⟨s, hs, hsql, hinserts⟩
  · exact hrefused _ _ booksOfSeven.target (List.mem_singleton_self _) (by decide)
      ⟨[("reader", .int 9)], by decide, "reader", by decide, by decide⟩

end NestedWrite

end SqlQuery
