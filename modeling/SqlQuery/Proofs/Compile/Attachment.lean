import SqlQuery.Proofs.Compile.EitherOr
import SqlQuery.Proofs.Compile.NestedArguments

/-!
# Rows that are tied to a parent

To connect rows below a parent is to write the parent's key into the foreign key of those that a
filter selects. The rows that a filter selects are read off the table as it stands when the
statement is run. Where the filter reads the foreign key itself, a statement before it may have
changed what it selects.

Setting a relation first unties all rows of the parent and then connects those that are selected:
with a filter that does not read the foreign key, the second statement selects the same rows as it
would have at the start. Connecting or creating connects first, and the insertion behind it is held
back where a row is selected still. A filter that asks for another parent's rows selects none of
them any longer, and so a row is created although there were some to connect.

> `NestedScope.rows_of_replace`: what setting a relation makes of each row.

> `NestedScope.connectsOrCreates_iff`: rows are connected or one is created exactly where, of the
> selected rows, one is selected still with the parent's key in it.

> `NestedWrite.set_replaces`, `NestedWrite.connects_or_creates`: the same of nested writes.
-/

namespace SqlQuery

open Sql

/-- The entries that a row of data writes are its fields, each under the column of the field. -/
theorem Row.mem_zip_values {schema : Schema} {model : Option String} {row : Row}
    {columns : List String} (h : columnsOf schema model row.fields = .ok columns)
    {e : String × Value} :
    e ∈ columns.zip row.values ↔
      ∃ entry ∈ row, schema.columnOf model entry.1 = .ok e.1 ∧ entry.2 = e.2 := by
  have hcolumns := forall₂_of_mapM h
  clear h
  induction row generalizing columns with
  | nil =>
    cases hcolumns
    simp [values]
  | cons entry rest ih =>
    rw [fields, List.map_cons, List.forall₂_cons_left_iff] at hcolumns
    obtain ⟨column, more, hcolumn, hmore, rfl⟩ := hcolumns
    rw [values, List.map_cons, List.zip_cons_cons, List.mem_cons, List.exists_mem_cons_iff]
    refine or_congr ?_ (ih hmore)
    rw [hcolumn, Except.ok.injEq, Prod.ext_iff, eq_comm, eq_comm (a := e.2)]

namespace NestedScope

variable (E : Engine) (x : NestedScope) (f : Filter)

/-- Whether a filter selects a row, whoever its parent is; one without any condition selects
none. -/
def Selects (row : TableRow) : Prop :=
  f.isEmpty = false ∧ f.truth E x.env x.filterScope row.look = some true

instance (row : TableRow) : Decidable (x.Selects E f row) :=
  inferInstanceAs (Decidable (_ = false ∧ _ = some true))

/-- No condition of the filter reads the foreign key. -/
def IgnoresKey : Prop :=
  ∀ c ∈ f.allConditions, ∀ ref, c.columnRef x.env x.filterScope = .ok ref →
    ref.column ≠ x.target.foreignKey

/-- The row with something else in its foreign key. -/
def tie (row : TableRow) (v : Value) : TableRow :=
  Function.update row x.target.foreignKey v

/-- The row, tied to the parent if it is selected. -/
def connected (row : TableRow) : TableRow :=
  if x.Selects E f row then x.tie row x.key else row

/-- The row, tied to no parent if it was tied to this one. -/
def untied (row : TableRow) : TableRow :=
  if x.Owns E row then x.tie row .null else row

variable {E x f}

/-- A row that is tied to a parent whose key is not null is among that parent's rows. -/
theorem owns_tie (hkey : x.key.isNull = false) (row : TableRow) :
    x.Owns E (x.tie row x.key) := by
  unfold Owns tie
  rw [Function.update_self]
  exact E.compare_self hkey

/-- A filter that does not read the foreign key selects a row whatever stands there. -/
theorem IgnoresKey.selects_tie (h : x.IgnoresKey f) (row : TableRow) (v : Value) :
    x.Selects E f (x.tie row v) ↔ x.Selects E f row := by
  have htruth : f.truth E x.env x.filterScope (x.tie row v).look
      = f.truth E x.env x.filterScope row.look :=
    f.truth_congr fun c hc ref href => Function.update_of_ne (h c hc ref href) ..
  unfold Selects
  rw [htruth]

/-! ## One statement -/

/-- The predicate of a filter that must not be empty picks the rows that the filter selects. -/
theorem picks_of_requiredWhere {p : Predicate} (h : x.requiredWhere f = .ok p) (row : TableRow) :
    p.Picks E row ↔ x.Selects E f row := by
  have hempty : f.isEmpty = false := by
    rw [Bool.eq_false_iff]
    intro he
    cases (requiredWhere_spec h).none_iff.mpr he
  unfold Predicate.Picks Selects
  rw [Filter.truth_of_compile (compile_of_requiredWhere h)]
  exact (and_iff_right hempty).symm

/-- An update that sets the foreign key ties the rows that the filter selects. -/
theorem rows_of_attach {p : Predicate} (h : x.requiredWhere f = .ok p) (db : Database) :
    (Statement.update x.target.table [x.attach] p false).run E db x.target.table
      = (db x.target.table).map (x.connected E f) := by
  rw [Statement.run_update]
  refine List.map_congr_left fun row _ => ?_
  exact if_congr (picks_of_requiredWhere h row) rfl rfl

/-- What a connection does to the rows of the table. -/
theorem rows_of_connect {s : Statement} (h : x.connect f = .ok s) (db : Database) :
    s.run E db x.target.table = (db x.target.table).map (x.connected E f) := by
  unfold connect at h
  obtain ⟨p, hp, h⟩ := bind_eq_ok.mp h
  cases h
  exact rows_of_attach hp db

theorem rows_of_detach (db : Database) :
    (Statement.update x.target.table [x.detach] (.all [x.scopeAtom]) false).run E db x.target.table
      = (db x.target.table).map (x.untied E) := by
  have hpicks (row : TableRow) : (Predicate.all [x.scopeAtom]).Picks E row ↔ x.Owns E row := by
    unfold Predicate.Picks
    rw [Predicate.truth, Predicate.truths, Predicate.truths, Truth.all_singleton]
    exact Iff.rfl
  rw [Statement.run_update]
  refine List.map_congr_left fun row _ => ?_
  exact if_congr (hpicks row) rfl rfl

/-! ## Setting a relation -/

variable (E x f) in
/-- The row after a relation is set to what a filter selects. -/
def replaced (row : TableRow) : TableRow :=
  if x.Selects E f row then x.tie row x.key else x.untied E row

variable (E x f) in
/-- What setting a relation is to make of a row: it is the parent's exactly if it was selected, it
has no parent if it was the parent's and was not selected, and else it is as it was. -/
structure ReplacedBy (row row' : TableRow) : Prop where
  owns_iff : x.Owns E row' ↔ x.Selects E f row
  selected : x.Selects E f row → row' x.target.foreignKey = x.key
  untied : x.Owns E row → ¬x.Selects E f row → row' x.target.foreignKey = .null
  kept : ¬x.Owns E row → ¬x.Selects E f row →
    row' x.target.foreignKey = row x.target.foreignKey
  others : ∀ column, column ≠ x.target.foreignKey → row' column = row column

/-- A row that has been untied is among no parent's rows. -/
theorem not_owns_untied (row : TableRow) : ¬x.Owns E (x.untied E row) := by
  unfold untied
  split
  next =>
    unfold Owns tie
    rw [Function.update_self]
    -- nothing is known of a comparison with null
    intro h
    cases h
  next h => exact h

/-- Row by row, what the two statements of a replacement leave behind. -/
theorem replacedBy_replaced (hkey : x.key.isNull = false) (row : TableRow) :
    x.ReplacedBy E f row (x.replaced E f row) := by
  unfold replaced
  by_cases hselects : x.Selects E f row
  · rw [if_pos hselects]
    refine ⟨iff_of_true (owns_tie hkey row) hselects, fun _ => Function.update_self .., ?_, ?_, ?_⟩
    · exact fun _ hnot => absurd hselects hnot
    · exact fun _ hnot => absurd hselects hnot
    · exact fun column hcolumn => Function.update_of_ne hcolumn ..
  · rw [if_neg hselects]
    refine ⟨iff_of_false (not_owns_untied row) hselects, fun h => absurd h hselects, ?_, ?_, ?_⟩
    · intro howns _
      rw [untied, if_pos howns]
      exact Function.update_self ..
    · intro hnot _
      rw [untied, if_neg hnot]
    · intro column hcolumn
      unfold untied
      split
      next => exact Function.update_of_ne hcolumn ..
      next => rfl

/-- Rows that are untied and then connected are replaced, where the filter does not read the
foreign key. -/
theorem connected_untied (hclear : x.IgnoresKey f) (row : TableRow) :
    x.connected E f (x.untied E row) = x.replaced E f row := by
  have hselects : x.Selects E f (x.untied E row) ↔ x.Selects E f row := by
    unfold untied
    split
    next => exact hclear.selects_tie row .null
    next => exact Iff.rfl
  unfold connected replaced
  by_cases h : x.Selects E f row
  · rw [if_pos h, if_pos (hselects.mpr h)]
    unfold untied tie
    split
    next => exact Function.update_idem ..
    next => rfl
  · rw [if_neg h, if_neg (mt hselects.mp h)]

/-- What setting a relation makes of each row. -/
theorem rows_of_replace {statements : List Statement} (hclear : x.IgnoresKey f)
    (h : x.replace f = .ok statements) (db : Database) :
    Statement.runAll E statements db x.target.table
      = (db x.target.table).map (x.replaced E f) := by
  unfold replace at h
  by_cases hempty : f.isEmpty = true
  · rw [if_pos hempty] at h
    cases h
    -- nothing is selected, so all there is to it is that rows are untied
    have hsame : x.replaced E f = x.untied E := by
      funext row
      refine if_neg fun hselects => ?_
      rw [hselects.1] at hempty
      cases hempty
    rw [hsame]
    exact rows_of_detach db
  · rw [if_neg hempty] at h
    obtain ⟨s, hs, h⟩ := bind_eq_ok.mp h
    cases h
    have hrows := rows_of_connect (E := E) hs
    show s.run E (Statement.run E db _) x.target.table = _
    rw [hrows, rows_of_detach, List.map_map]
    exact List.map_congr_left fun row _ => connected_untied hclear row

/-! ## Connecting or creating -/

variable (x) in
/-- A row that is made of data below the parent: it has the parent's key, and the values of the
data under the columns of their fields. Where two fields share a column, it can have one value of
the two only, and nothing is said of that column. -/
structure MadeOf (create : Row) (row : TableRow) : Prop where
  key : row x.target.foreignKey = x.key
  values : ∀ entry ∈ create, ∀ column,
    x.env.schema.columnOf x.target.model entry.1 = .ok column →
      (∀ other ∈ create, x.env.schema.columnOf x.target.model other.1 = .ok column →
        other = entry) → row column = entry.2

/-- The row that an insertion proposes has the parent's key and the values of the payload. -/
theorem madeOf_proposal {create : Row} {columns : List String}
    (hcolumns : columnsOf x.env.schema x.target.model create.fields = .ok columns)
    (hnot : x.target.foreignKey ∉ columns) (rows : List TableRow) :
    x.MadeOf create (E.proposal x.target.table (x.target.foreignKey :: columns) rows
      (x.key :: create.values)) := by
  refine ⟨E.proposal_first hnot .., fun entry hentry column hcolumn hunique => ?_⟩
  unfold Engine.proposal
  rw [List.zip_cons_cons]
  have hmem : (column, entry.2) ∈ columns.zip create.values :=
    (Row.mem_zip_values hcolumns).mpr ⟨entry, hentry, hcolumn, rfl⟩
  refine TableRow.write_of_unique (e := (column, entry.2)) (List.mem_cons_of_mem _ hmem) ?_
  intro e he hsame
  rcases List.mem_cons.mp he with rfl | he
  · have hkey : x.target.foreignKey = column := hsame
    exact absurd (hkey ▸ (List.of_mem_zip hmem).1) hnot
  · obtain ⟨other, hother, hfield, hvalue⟩ := (Row.mem_zip_values hcolumns).mp he
    rw [hsame] at hfield
    obtain rfl := hunique other hother hfield
    exact Prod.ext hsame hvalue.symm

variable (E x f)

/-- What connecting or creating is to make of the rows of its table: where some are selected these
get the parent's key, and no row changes or is added besides; where none is, no row changes and one
is made of the data. -/
structure ConnectsOrCreates (create : Row) (before after : List TableRow) : Prop where
  connects : (∃ r ∈ before, x.Selects E f r) →
    List.Forall₂
      (fun r r' => (x.Selects E f r → r' = x.tie r x.key) ∧ (¬x.Selects E f r → r' = r))
      before after
  creates : (∀ r ∈ before, ¬x.Selects E f r) →
    ∃ new, x.MadeOf create new ∧ after = before ++ [new]

/-- Of the selected rows of a table, one is selected still when it is tied to the parent. -/
def StaysSelected (rows : List TableRow) : Prop :=
  (∃ r ∈ rows, x.Selects E f r) →
    ∃ r ∈ rows, x.Selects E f r ∧ x.Selects E f (x.tie r x.key)

variable {E x f}

/-- A filter that does not look at the foreign key goes on selecting the rows that are tied. -/
theorem IgnoresKey.staysSelected (h : x.IgnoresKey f) (rows : List TableRow) :
    x.StaysSelected E f rows := by
  rintro ⟨r, hr, hselects⟩
  exact ⟨r, hr, hselects, (h.selects_tie r x.key).mpr hselects⟩

/-- Row by row, what a connection leaves behind. -/
theorem forall₂_connected (rows : List TableRow) :
    List.Forall₂
      (fun r r' => (x.Selects E f r → r' = x.tie r x.key) ∧ (¬x.Selects E f r → r' = r)) rows
      (rows.map (x.connected E f)) := by
  rw [List.forall₂_map_right_iff, List.forall₂_same]
  exact fun r _ => ⟨fun hselects => if_pos hselects, fun hnot => if_neg hnot⟩

/-- The rows that connecting or creating leaves: those there were, the selected ones connected, and
one that is made of the data where none is selected any longer. -/
theorem rows_of_connectOrCreate {create : Row} {statements : List Statement}
    (h : x.compile (.connectOrCreate f create) = .ok statements) (db : Database)
    {updated : List TableRow} (hupdated : (db x.target.table).map (x.connected E f) = updated) :
    ∃ new, x.MadeOf create new ∧ Statement.runAll E statements db x.target.table
      = updated ++ if ∃ r ∈ updated, x.Selects E f r then [] else [new] := by
  obtain ⟨⟨⟩, hcreate, h⟩ := bind_eq_ok.mp h
  obtain ⟨present, hpresent, h⟩ := bind_eq_ok.mp h
  obtain ⟨insertion, hinsertion, h⟩ := bind_eq_ok.mp h
  cases h
  obtain ⟨columns, hcolumns, hnot, hrows⟩ := rows_of_insertUnless (E := E) hcreate hinsertion
  simp only [picks_of_requiredWhere hpresent] at hrows
  refine ⟨_, madeOf_proposal (E := E) hcolumns hnot updated, ?_⟩
  show insertion.run E (Statement.run E db _) x.target.table = _
  rw [hrows, rows_of_attach hpresent, hupdated]

/-- Where no row is selected, connecting or creating creates. -/
theorem creates_of_connectOrCreate {create : Row} {statements : List Statement}
    (h : x.compile (.connectOrCreate f create) = .ok statements) {db : Database}
    (hnone : ∀ r ∈ db x.target.table, ¬x.Selects E f r) :
    ∃ new, x.MadeOf create new ∧
      Statement.runAll E statements db x.target.table = db x.target.table ++ [new] := by
  obtain ⟨new, hnew, hafter⟩ := rows_of_connectOrCreate h db (map_ite_of_none hnone)
  rw [if_neg fun ⟨r, hr, hselects⟩ => hnone r hr hselects] at hafter
  exact ⟨new, hnew, hafter⟩

/-- Rows are connected or one is created exactly where, of the selected rows, one is selected still
with the parent's key in it. -/
theorem connectsOrCreates_iff {create : Row} {statements : List Statement}
    (h : x.compile (.connectOrCreate f create) = .ok statements) (db : Database) :
    x.ConnectsOrCreates E f create (db x.target.table)
        (Statement.runAll E statements db x.target.table) ↔
      x.StaysSelected E f (db x.target.table) := by
  obtain ⟨new, -, hafter⟩ := rows_of_connectOrCreate (E := E) h db rfl
  constructor
  · intro heither hsome
    refine exists_mem_map_ite.mp ?_
    by_contra hnone
    -- the insertion has found no row, so the table has one more than rows that are connected
    have hafter := hafter.trans (congrArg _ (if_neg hnone))
    have hlength := (heither.connects hsome).length_eq
    rw [hafter, List.length_append, List.length_map, List.length_singleton] at hlength
    omega
  · intro hstays
    refine ⟨fun hsome => ?_, creates_of_connectOrCreate h⟩
    have hstill : ∃ r ∈ (db x.target.table).map (x.connected E f), x.Selects E f r :=
      exists_mem_map_ite.mpr (hstays hsome)
    rw [hafter, if_pos hstill, List.append_nil]
    exact forall₂_connected _

end NestedScope

/-! ## Nested writes -/

/-- Setting a relation to what a filter selects replaces it, where the filter does not read the
foreign key: the rows of its table stay, in their order, and of each no more than the foreign key
is changed. -/
theorem NestedWrite.set_replaces (E : Engine) {env : Env} {parent relation : String}
    {key : Value} {f : Filter} {statements : List Statement} (hkey : key.isNull = false)
    (h : NestedWrite.compile { relation, change := .set f } env parent key = .ok statements) :
    ∃ target : RelationTarget,
      NestedWrite.target { relation, change := .set f } env.schema parent = .ok target ∧
      ∀ x : NestedScope, x = { env, target, relation, kind := .set, key } → x.IgnoresKey f →
        ∀ before after : Database, Statement.runAll E statements before = after →
          List.Forall₂ (x.ReplacedBy E f) (before target.table) (after target.table) := by
  unfold NestedWrite.compile at h
  obtain ⟨target, htarget, h⟩ := bind_eq_ok.mp h
  refine ⟨target, htarget, ?_⟩
  rintro x rfl hclear before _ rfl
  rw [NestedScope.rows_of_replace hclear h, List.forall₂_map_right_iff, List.forall₂_same]
  exact fun row _ => NestedScope.replacedBy_replaced hkey row

/-- The late books. -/
def isLate : Filter :=
  .and [.equals "late" (.bool true)]

/-- Whether a book is late does not hang on its reader. -/
theorem isLate_ignoresKey (kind : RelationChange.Kind) :
    NestedScope.IgnoresKey { booksOfSeven with kind } isLate := by
  intro c hc ref href
  obtain rfl : c = .equals "late" (.bool true) := List.mem_singleton.mp hc
  cases href
  show "late" ≠ "reader_id"
  decide

/-- The late books become those of the seventh reader, who had others. -/
theorem NestedWrite.set_replaces_late :
    ∃ statements,
      NestedWrite.compile { relation := "books", change := .set isLate }
          { schema := librarySchema, dialect := .postgres } "Reader" (.int 7) = .ok statements ∧
        ∀ before : Database, List.Forall₂
          (NestedScope.ReplacedBy .exact { booksOfSeven with kind := .set } isLate)
          (before "books") (Statement.runAll .exact statements before "books") := by
  obtain ⟨statements, hs⟩ : ∃ statements,
      NestedWrite.compile { relation := "books", change := .set isLate }
        { schema := librarySchema, dialect := .postgres } "Reader" (.int 7) = .ok statements :=
    ⟨_, rfl⟩
  refine ⟨statements, hs, fun before => ?_⟩
  obtain ⟨target, htarget, hreplaced⟩ := NestedWrite.set_replaces .exact (by decide) hs
  obtain rfl : booksOfSeven.target = target := Except.ok.inj (htarget.symm.trans (by decide)).symm
  exact hreplaced _ rfl (isLate_ignoresKey .set) before _ rfl

/-- Connecting or creating below a parent adds one row that is made of the data, and does nothing
else, where no row is selected. It connects or creates exactly where one of the selected rows stays
selected, which any does if the filter does not read the foreign key. -/
theorem NestedWrite.connects_or_creates (E : Engine) {env : Env} {parent relation : String}
    {key : Value} {f : Filter} {create : Row} {statements : List Statement}
    (h : NestedWrite.compile { relation, change := .connectOrCreate f create } env parent key
      = .ok statements) :
    ∃ target : RelationTarget,
      NestedWrite.target { relation, change := .connectOrCreate f create } env.schema parent
        = .ok target ∧
      ∀ x : NestedScope, x = { env, target, relation, kind := .connectOrCreate, key } →
        (x.IgnoresKey f → ∀ rows, x.StaysSelected E f rows) ∧
        ∀ before after : Database, Statement.runAll E statements before = after →
          ((∀ r ∈ before target.table, ¬x.Selects E f r) →
            ∃ new, x.MadeOf create new ∧ after target.table = before target.table ++ [new]) ∧
          (x.ConnectsOrCreates E f create (before target.table) (after target.table) ↔
            x.StaysSelected E f (before target.table)) := by
  unfold NestedWrite.compile at h
  obtain ⟨target, htarget, h⟩ := bind_eq_ok.mp h
  refine ⟨target, htarget, ?_⟩
  rintro x rfl
  refine ⟨fun hclear => hclear.staysSelected, ?_⟩
  rintro before _ rfl
  exact ⟨NestedScope.creates_of_connectOrCreate h, NestedScope.connectsOrCreates_iff h before⟩

/-- The late books become those of the seventh reader, or a late one is inserted. -/
theorem NestedWrite.connects_or_creates_late :
    ∃ statements,
      NestedWrite.compile
          { relation := "books", change := .connectOrCreate isLate [("late", .bool true)] }
          { schema := librarySchema, dialect := .postgres } "Reader" (.int 7) = .ok statements ∧
        ∀ before : Database,
          NestedScope.ConnectsOrCreates .exact { booksOfSeven with kind := .connectOrCreate }
            isLate [("late", .bool true)] (before "books")
            (Statement.runAll .exact statements before "books") := by
  obtain ⟨statements, hs⟩ : ∃ statements,
      NestedWrite.compile
        { relation := "books", change := .connectOrCreate isLate [("late", .bool true)] }
        { schema := librarySchema, dialect := .postgres } "Reader" (.int 7) = .ok statements :=
    ⟨_, rfl⟩
  refine ⟨statements, hs, fun before => ?_⟩
  obtain ⟨target, htarget, heither⟩ := NestedWrite.connects_or_creates .exact hs
  obtain rfl : booksOfSeven.target = target := Except.ok.inj (htarget.symm.trans (by decide)).symm
  obtain ⟨hstays, hstatements⟩ := heither _ rfl
  exact (hstatements before _ rfl).2.mpr (hstays (isLate_ignoresKey .connectOrCreate) _)

/-- A late book of the ninth reader. -/
def bookOfNine : TableRow :=
  fun column => if column = "reader_id" then .int 9 else .bool true

/-- Connecting the books of another reader does both: the book comes to this one, where nothing
selects it any longer, and a second one is inserted. -/
theorem NestedWrite.connect_or_create_does_both :
    ∃ statements,
      NestedWrite.compile
          { relation := "books"
            change := .connectOrCreate (.and [.equals "reader" (.int 9)])
              [("late", .bool true)] }
          { schema := librarySchema, dialect := .postgres } "Reader" (.int 7) = .ok statements ∧
        statements.map (·.prepare .postgres)
          = [{ sql := "UPDATE books SET reader_id = $1 WHERE reader_id = $2"
               args := [.int 7, .int 9] },
             { sql := "INSERT INTO books (reader_id, late) SELECT $1, $2 WHERE NOT EXISTS"
                 ++ " (SELECT 1 FROM books WHERE reader_id = $3)"
               args := [.int 7, .bool true, .int 9] }] ∧
        (Statement.runAll .exact statements (fun _ => [bookOfNine]) "books").map (· "reader_id")
          = [.int 7, .int 7] ∧
        ¬NestedScope.ConnectsOrCreates .exact { booksOfSeven with kind := .connectOrCreate }
          (.and [.equals "reader" (.int 9)]) [("late", .bool true)] [bookOfNine]
          (Statement.runAll .exact statements (fun _ => [bookOfNine]) "books") := by
  have hselects : NestedScope.Selects .exact { booksOfSeven with kind := .connectOrCreate }
      (.and [.equals "reader" (.int 9)]) bookOfNine := by
    decide
  -- the table has a row too many, so the book cannot have been connected alone
  have hboth : ∀ after : List TableRow, after.map (· "reader_id") = [.int 7, .int 7] →
      ¬NestedScope.ConnectsOrCreates .exact { booksOfSeven with kind := .connectOrCreate }
        (.and [.equals "reader" (.int 9)]) [("late", .bool true)] [bookOfNine] after := by
    intro after hafter heither
    have hlength := (heither.connects ⟨bookOfNine, List.mem_singleton_self _, hselects⟩).length_eq
    have htwo := congrArg List.length hafter
    rw [List.length_map, ← hlength] at htwo
    cases htwo
  exact ⟨_, rfl, by decide +kernel, by decide, hboth _ (by decide)⟩

end SqlQuery
