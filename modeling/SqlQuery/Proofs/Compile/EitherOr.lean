import SqlQuery.Compile.Nested
import SqlQuery.Proofs.Compile.BoundValues
import SqlQuery.Proofs.Compile.FilterTruth

/-!
# An upsert below a parent updates or inserts

A nested upsert is an update of those rows of the parent that a filter picks, and after it
an insertion that is held back where such a row is there. The second statement sees the
table as the first one left it. Data that sets the foreign key, or a column that the filter
reads, can therefore take the updated rows out of what is picked, and the insertion follows
although there was a row to update.

> `NestedScope.rows_of_upsert`: the rows that the statements of an upsert leave.

> `NestedScope.eitherOr_iff`: an upsert updates or inserts exactly where its data leaves one
> of the picked rows picked, and all of them with the parent.

> `NestedWrite.upsert_either_or`: the same of nested writes, and that data which keeps off
> the foreign key and the columns of the filter is of this kind.
-/

namespace SqlQuery

open Sql

/-! ## Rows of a parent -/

namespace NestedScope

variable (E : Engine) (x : NestedScope) (f : Filter)

/-- Whether a row belongs to the parent: its foreign key equals the parent's key. -/
def Owns (row : TableRow) : Prop :=
  E.compare .eq (row x.target.foreignKey) x.key = some true

/-- Whether a row belongs to the parent and meets a filter, which any row does where no
condition stands in it. -/
def Picks (row : TableRow) : Prop :=
  x.Owns E row ∧
    (f.isEmpty = true ∨ f.truth E x.env x.filterScope row.look = some true)

instance (row : TableRow) : Decidable (x.Owns E row) :=
  inferInstanceAs (Decidable (_ = some true))

instance (row : TableRow) : Decidable (x.Picks E f row) :=
  inferInstanceAs (Decidable (x.Owns E row ∧ (_ ∨ _ = some true)))

/-- The row with assignments carried out where it is picked. -/
def touched (assignments : List Assignment) (row : TableRow) : TableRow :=
  if x.Picks E f row then row.assign row assignments else row

variable {E x f}

/-- The predicate for the parent's rows picks them. -/
theorem picks_of_scopedWhere {p : Predicate} (h : x.scopedWhere f = .ok p) (row : TableRow) :
    p.Picks E row ↔ x.Picks E f row := by
  unfold scopedWhere at h
  obtain ⟨operand, hoperand, h⟩ := bind_eq_ok.mp h
  cases h
  unfold Filter.compileOperand at hoperand
  obtain ⟨q, hq, hoperand⟩ := bind_eq_ok.mp (Refusal.forget_eq_ok.mp hoperand)
  cases hoperand
  have hnone := (Filter.compileNode_spec x.env x.filterScope f 1 q hq).none_iff
  unfold Predicate.Picks Picks Owns
  rw [Predicate.truth, Truth.all_eq_true, Predicate.truths_eq, List.map_cons, List.forall_mem_cons]
  refine and_congr Iff.rfl ?_
  cases q with
  | none => simp [hnone.mp rfl]
  | some q =>
    have hne : ¬f.isEmpty = true := fun he => by simpa using hnone.mpr he
    simp [hne, Predicate.truth_operand, Filter.truth_of_compile hq]

variable (x f) in
/-- Data that sets neither the foreign key nor a column that the filter reads. -/
def KeepsClear (assignments : List Assignment) : Prop :=
  ∀ a ∈ assignments, a.column ≠ x.target.foreignKey ∧
    ∀ c ∈ f.allConditions, ∀ ref, c.columnRef x.env x.filterScope = .ok ref →
      a.column ≠ ref.column

/-- Data that keeps clear of the foreign key and the filter leaves a picked row picked. -/
theorem KeepsClear.picks {assignments : List Assignment} (h : x.KeepsClear f assignments)
    {row proposed : TableRow} (hpicks : x.Picks E f row) :
    x.Picks E f (row.assign proposed assignments) := by
  have hkept : ∀ column, (∀ a ∈ assignments, a.column ≠ column) →
      row.assign proposed assignments column = row column := by
    intro column hcolumn
    refine TableRow.assign_of_not_mem fun hmem => ?_
    obtain ⟨a, ha, hac⟩ := List.mem_map.mp hmem
    exact hcolumn a ha hac
  have hkey := hkept x.target.foreignKey fun a ha => (h a ha).1
  have htruth : f.truth E x.env x.filterScope (row.assign proposed assignments).look
      = f.truth E x.env x.filterScope row.look :=
    f.truth_congr fun c hc ref href => hkept ref.column fun a ha => (h a ha).2 c hc ref href
  unfold Picks Owns at hpicks ⊢
  rwa [htruth, hkey]

/-! ## The statements of an upsert -/

/-- Where there is nothing to update, no row changes. -/
theorem rows_of_updateIfAny {update : Row} {statements : List Statement}
    (h : x.updateIfAny update f = .ok statements) :
    ∃ assignments, assignmentsOf x.env.schema x.target.model update = .ok assignments ∧
      ∀ db, Statement.runAll E statements db x.target.table
        = (db x.target.table).map (x.touched E f assignments) := by
  unfold updateIfAny at h
  split at h
  next hempty =>
    cases h
    refine ⟨[], ?_, ?_⟩
    · rw [List.isEmpty_iff.mp hempty]
      rfl
    · intro db
      have hsame : x.touched E f [] = id := funext fun row => ite_self row
      rw [hsame, List.map_id]
      rfl
  next =>
    obtain ⟨-, -, h⟩ := bind_eq_ok.mp h
    obtain ⟨s, hs, h⟩ := bind_eq_ok.mp h
    cases h
    unfold NestedScope.update at hs
    obtain ⟨assignments, hassignments, hs⟩ := bind_eq_ok.mp hs
    obtain ⟨p, hp, hs⟩ := bind_eq_ok.mp hs
    cases hs
    refine ⟨assignments, hassignments, fun db => ?_⟩
    have htouched : (fun row => if p.Picks E row then row.assign row assignments else row)
        = x.touched E f assignments := by
      funext row
      exact if_congr (picks_of_scopedWhere hp row) rfl rfl
    rw [← htouched]
    exact Statement.run_update E db x.target.table assignments p false

/-- Fields pass as long as each has a column, and none of these is the foreign key. -/
theorem checkForeignKey_eq_ok_iff {fields : List String} :
    x.checkForeignKey fields = .ok () ↔
      ∀ field ∈ fields, ∃ column, x.env.schema.columnOf x.target.model field = .ok column ∧
        column ≠ x.target.foreignKey := by
  induction fields with
  | nil => exact iff_of_true rfl fun _ hfield => absurd hfield List.not_mem_nil
  | cons field rest ih =>
    rw [List.forall_mem_cons, ← ih, checkForeignKey]
    constructor
    · intro h
      obtain ⟨column, hcolumn, h⟩ := bind_eq_ok.mp h
      refine ⟨⟨column, hcolumn, fun hsame => ?_⟩, check_eq_ok h⟩
      have hpassed := passed_of_check h hsame
      cases hpassed
    · rintro ⟨⟨column, hcolumn, hne⟩, hrest⟩
      refine bind_eq_ok.mpr ⟨column, hcolumn, ?_⟩
      rw [if_neg hne]
      exact hrest

/-- A row to be created is checked for the foreign key too. -/
theorem checkForeignKey_of_checkCreate {row : Row} (h : x.checkCreate row = .ok ()) :
    x.checkForeignKey row.fields = .ok () := by
  obtain ⟨-, -, h⟩ := bind_eq_ok.mp h
  exact h

/-- A row that passes has none of its values stored in the foreign key. -/
theorem foreignKey_not_mem_of_checkCreate {row : Row} {columns : List String}
    (h : x.checkCreate row = .ok ())
    (hcolumns : columnsOf x.env.schema x.target.model row.fields = .ok columns) :
    x.target.foreignKey ∉ columns := by
  intro hmem
  obtain ⟨field, hfield, hkey⟩ := exists_mem_of_forall₂ (forall₂_of_mapM hcolumns) _ hmem
  obtain ⟨column, hcolumn, hne⟩ :=
    checkForeignKey_eq_ok_iff.mp (checkForeignKey_of_checkCreate h) field hfield
  rw [hkey] at hcolumn
  exact hne (Except.ok.inj hcolumn).symm

/-- An inserted row belongs to the parent. -/
theorem owns_proposal {columns : List String} (hkey : x.key.isNull = false)
    (hcolumns : x.target.foreignKey ∉ columns) (rows : List TableRow) (values : List Value) :
    x.Owns E
      (E.proposal x.target.table (x.target.foreignKey :: columns) rows (x.key :: values)) := by
  unfold Owns
  rw [E.proposal_first hcolumns]
  exact E.compare_self hkey

/-- An insertion adds the row that it proposes where no row meets its predicate. -/
theorem rows_of_insertUnless {create : Row} {present : Predicate} {s : Statement}
    (hcreate : x.checkCreate create = .ok ()) (h : x.insertUnless create present = .ok s) :
    ∃ columns, columnsOf x.env.schema x.target.model create.fields = .ok columns ∧
      x.target.foreignKey ∉ columns ∧ ∀ db : Database, s.run E db x.target.table
        = db x.target.table ++ if ∃ r ∈ db x.target.table, present.Picks E r then []
          else [E.proposal x.target.table (x.target.foreignKey :: columns) (db x.target.table)
            (x.key :: create.values)] := by
  unfold insertUnless at h
  obtain ⟨columns, hcolumns, h⟩ := bind_eq_ok.mp h
  cases h
  refine ⟨columns, hcolumns, foreignKey_not_mem_of_checkCreate hcreate hcolumns, fun db => ?_⟩
  exact Statement.run_insertUnless ..

/-- The rows that the statements of an upsert leave: those there were, with the picked ones
updated, and one more of the parent where none of them is picked any longer. -/
theorem rows_of_upsert {create update : Row} {statements : List Statement}
    (hkey : x.key.isNull = false) (h : x.upsert f create update = .ok statements) :
    ∃ assignments, assignmentsOf x.env.schema x.target.model update = .ok assignments ∧
      ∀ (db : Database) (updated : List TableRow),
        (db x.target.table).map (x.touched E f assignments) = updated →
          ∃ new, x.Owns E new ∧ Statement.runAll E statements db x.target.table
            = updated ++ if ∃ r ∈ updated, x.Picks E f r then [] else [new] := by
  unfold upsert at h
  obtain ⟨⟨⟩, hcreate, h⟩ := bind_eq_ok.mp h
  obtain ⟨updates, hupdates, h⟩ := bind_eq_ok.mp h
  obtain ⟨present, hpresent, h⟩ := bind_eq_ok.mp h
  obtain ⟨insertion, hinsertion, h⟩ := bind_eq_ok.mp h
  cases h
  obtain ⟨assignments, hassignments, hrows⟩ := rows_of_updateIfAny (E := E) hupdates
  refine ⟨assignments, hassignments, fun db updated hupdated => ?_⟩
  rw [← hrows] at hupdated
  subst hupdated
  obtain ⟨columns, -, hnot, hafter⟩ := rows_of_insertUnless (E := E) hcreate hinsertion
  simp only [picks_of_scopedWhere hpresent] at hafter
  exact ⟨_, owns_proposal hkey hnot _ create.values, by rw [Statement.runAll_concat, hafter]⟩

/-! ## Either, or -/

variable (E x f)

/-- What an upsert is to make of the rows of its table: where one is picked, none is added
and the picked ones stay with the parent; where none is, no row changes and one of the
parent is added. -/
structure EitherOr (before after : List TableRow) : Prop where
  updates : (∃ r ∈ before, x.Picks E f r) →
    List.Forall₂ (fun r r' => x.Picks E f r → x.Owns E r') before after
  inserts : (∀ r ∈ before, ¬x.Picks E f r) →
    ∃ new, x.Owns E new ∧ after = before ++ [new]

/-- Of the picked rows of a table, data leaves one picked and all with the parent. -/
structure Retains (rows : List TableRow) (assignments : List Assignment) : Prop where
  picked : (∃ r ∈ rows, x.Picks E f r) →
    ∃ r ∈ rows, x.Picks E f r ∧ x.Picks E f (r.assign r assignments)
  owned : ∀ r ∈ rows, x.Picks E f r → x.Owns E (r.assign r assignments)

variable {E x f}

/-- Data that keeps clear of the foreign key and the filter moves no picked row out of reach. -/
theorem KeepsClear.retains {assignments : List Assignment} (h : x.KeepsClear f assignments)
    (rows : List TableRow) : x.Retains E f rows assignments where
  picked := fun ⟨r, hr, hpicks⟩ => ⟨r, hr, hpicks, h.picks hpicks⟩
  owned _ _ hpicks := (h.picks hpicks).1

/-- Where no row is picked, an upsert inserts. -/
theorem inserts_of_upsert {create update : Row} {statements : List Statement}
    (hkey : x.key.isNull = false) (h : x.upsert f create update = .ok statements)
    {db : Database} (hnone : ∀ r ∈ db x.target.table, ¬x.Picks E f r) :
    ∃ new, x.Owns E new ∧
      Statement.runAll E statements db x.target.table = db x.target.table ++ [new] := by
  obtain ⟨assignments, -, hrows⟩ := rows_of_upsert (E := E) hkey h
  obtain ⟨new, hnew, hafter⟩ := hrows db _ (map_ite_of_none hnone)
  rw [if_neg fun ⟨r, hr, hpicks⟩ => hnone r hr hpicks] at hafter
  exact ⟨new, hnew, hafter⟩

/-- An upsert updates or inserts exactly where its data leaves one of the picked rows picked,
and all of them with the parent. -/
theorem eitherOr_iff {create update : Row} {statements : List Statement}
    (hkey : x.key.isNull = false) (h : x.upsert f create update = .ok statements) :
    ∃ assignments, assignmentsOf x.env.schema x.target.model update = .ok assignments ∧
      ∀ db : Database,
        x.EitherOr E f (db x.target.table) (Statement.runAll E statements db x.target.table) ↔
          x.Retains E f (db x.target.table) assignments := by
  obtain ⟨assignments, hassignments, hrows⟩ := rows_of_upsert (E := E) hkey h
  refine ⟨assignments, hassignments, fun db => ?_⟩
  have htouched : ∀ {r}, x.Picks E f r → x.touched E f assignments r = r.assign r assignments :=
    fun hpicks => if_pos hpicks
  obtain ⟨new, -, hafter⟩ := hrows db _ rfl
  constructor
  · intro heither
    -- where some row is picked no row is added, so one of the updated rows is still picked
    have hsome : (∃ r ∈ db x.target.table, x.Picks E f r) →
        (∃ r ∈ (db x.target.table).map (x.touched E f assignments), x.Picks E f r) ∧
          ∀ r ∈ db x.target.table, x.Picks E f r → x.Owns E (x.touched E f assignments r) := by
      intro hsome
      have hupdated := heither.updates hsome
      rw [hafter] at hupdated
      by_cases hpicked : ∃ r ∈ (db x.target.table).map (x.touched E f assignments), x.Picks E f r
      · rw [if_pos hpicked, List.append_nil, List.forall₂_map_right_iff, List.forall₂_same]
          at hupdated
        exact ⟨hpicked, hupdated⟩
      · rw [if_neg hpicked] at hupdated
        have hlength := hupdated.length_eq
        simp at hlength
    refine ⟨fun hpicked => exists_mem_map_ite.mp (hsome hpicked).1, fun r hr hpicks => ?_⟩
    exact htouched hpicks ▸ (hsome ⟨r, hr, hpicks⟩).2 r hr hpicks
  · intro hretains
    refine ⟨fun hsome => ?_, inserts_of_upsert hkey h⟩
    have hstill : ∃ r ∈ (db x.target.table).map (x.touched E f assignments), x.Picks E f r :=
      exists_mem_map_ite.mpr (hretains.picked hsome)
    rw [hafter, if_pos hstill, List.append_nil, List.forall₂_map_right_iff, List.forall₂_same]
    intro r' hr' hpicks'
    rw [htouched hpicks']
    exact hretains.owned r' hr' hpicks'

end NestedScope

/-! ## Nested writes -/

/-- An upsert below a parent adds one row of the parent, and does nothing else, where no row
is picked. It updates or inserts exactly where its data retains the picked rows, which data
does that keeps clear of the foreign key and of the columns of the filter. -/
theorem NestedWrite.upsert_either_or (E : Engine) {env : Env} {parent relation : String}
    {key : Value} {f : Filter} {create update : Row} {statements : List Statement}
    (hkey : key.isNull = false)
    (h : NestedWrite.compile { relation, change := .upsert f create update } env parent key
      = .ok statements) :
    ∃ (target : RelationTarget) (assignments : List Assignment),
      NestedWrite.target { relation, change := .upsert f create update } env.schema parent
        = .ok target ∧
      assignmentsOf env.schema target.model update = .ok assignments ∧
      ∀ x : NestedScope, x = { env, target, relation, kind := .upsert, key } →
        (x.KeepsClear f assignments → ∀ rows, x.Retains E f rows assignments) ∧
        ∀ before after : Database, Statement.runAll E statements before = after →
          ((∀ r ∈ before target.table, ¬x.Picks E f r) →
            ∃ new, x.Owns E new ∧ after target.table = before target.table ++ [new]) ∧
          (x.EitherOr E f (before target.table) (after target.table) ↔
            x.Retains E f (before target.table) assignments) := by
  unfold NestedWrite.compile at h
  obtain ⟨target, htarget, h⟩ := bind_eq_ok.mp h
  obtain ⟨assignments, hassignments, hiff⟩ := NestedScope.eitherOr_iff (E := E) hkey h
  refine ⟨target, assignments, htarget, hassignments, ?_⟩
  rintro x rfl
  refine ⟨fun hclear rows => hclear.retains rows, ?_⟩
  rintro before _ rfl
  exact ⟨NestedScope.inserts_of_upsert hkey h, hiff before⟩

/-- The books of the seventh reader, as the target of an upsert. -/
def booksOfSeven : NestedScope :=
  { env := { schema := librarySchema, dialect := .postgres }
    target := { model := some "Book", table := "books", foreignKey := "reader_id" }
    relation := "books", kind := .upsert, key := .int 7 }

/-- All books of the seventh reader are put in time, or a late one is inserted. -/
theorem NestedWrite.upsert_either_or_in_time :
    ∃ statements,
      NestedWrite.compile
          { relation := "books"
            change := .upsert {} [("late", .bool true)] [("late", .bool false)] }
          { schema := librarySchema, dialect := .postgres } "Reader" (.int 7) = .ok statements ∧
        ∀ before : Database, booksOfSeven.EitherOr .exact {} (before "books")
          (Statement.runAll .exact statements before "books") := by
  obtain ⟨statements, hs⟩ : ∃ statements, NestedWrite.compile
      { relation := "books", change := .upsert {} [("late", .bool true)] [("late", .bool false)] }
      { schema := librarySchema, dialect := .postgres } "Reader" (.int 7) = .ok statements :=
    ⟨_, rfl⟩
  refine ⟨statements, hs, fun before => ?_⟩
  obtain ⟨target, assignments, htarget, hassignments, heither⟩ :=
    NestedWrite.upsert_either_or .exact (by decide) hs
  obtain rfl : booksOfSeven.target = target := Except.ok.inj (htarget.symm.trans (by decide)).symm
  obtain rfl : [{ column := "late", source := .value (.bool false) }] = assignments :=
    Except.ok.inj (hassignments.symm.trans (by decide)).symm
  obtain ⟨hclear, hstatements⟩ := heither booksOfSeven rfl
  refine ((hstatements before _ rfl).2).mpr (hclear ?_ _)
  intro a ha
  rw [List.mem_singleton.mp ha]
  -- the filter has no condition, and the foreign key is another column
  exact ⟨by decide, by simp [Filter.allConditions, Filter.conditionsOf]⟩

/-- A late book of the seventh reader. -/
def lateBook : TableRow :=
  fun column => if column = "reader_id" then .int 7 else .bool true

/-- An upsert whose update gives a late book to another reader does both: the book leaves
the reader, and a second one is inserted. -/
theorem NestedWrite.upsert_does_both :
    ∃ statements,
      NestedWrite.compile
          { relation := "books"
            change := .upsert (.and [.equals "late" (.bool true)]) [("late", .bool true)]
              [("reader", .int 9)] }
          { schema := librarySchema, dialect := .postgres } "Reader" (.int 7) = .ok statements ∧
        statements.map (·.prepare .postgres)
          = [{ sql := "UPDATE books SET reader_id = $1 WHERE reader_id = $2 AND late = $3"
               args := [.int 9, .int 7, .bool true] },
             { sql := "INSERT INTO books (reader_id, late) SELECT $1, $2 WHERE NOT EXISTS"
                 ++ " (SELECT 1 FROM books WHERE reader_id = $3 AND late = $4)"
               args := [.int 7, .bool true, .int 7, .bool true] }] ∧
        booksOfSeven.Picks .exact (.and [.equals "late" (.bool true)]) lateBook ∧
        (Statement.runAll .exact statements (fun _ => [lateBook]) "books").map (· "reader_id")
          = [.int 9, .int 7] ∧
        ¬booksOfSeven.EitherOr .exact (.and [.equals "late" (.bool true)]) [lateBook]
          (Statement.runAll .exact statements (fun _ => [lateBook]) "books") := by
  have hpicks : booksOfSeven.Picks .exact (.and [.equals "late" (.bool true)]) lateBook := by
    decide
  -- the table has a row too many, so the update alone cannot have been made
  have hboth : ∀ after : List TableRow, after.map (· "reader_id") = [.int 9, .int 7] →
      ¬booksOfSeven.EitherOr .exact (.and [.equals "late" (.bool true)]) [lateBook] after := by
    intro after hafter heither
    have hlength := (heither.updates ⟨lateBook, List.mem_singleton_self _, hpicks⟩).length_eq
    have htwo := congrArg List.length hafter
    rw [List.length_map, ← hlength] at htwo
    cases htwo
  exact ⟨_, rfl, by decide +kernel, hpicks, by decide, hboth _ (by decide)⟩

end SqlQuery
