import Mathlib.Logic.Function.Basic
import SqlQuery.Sql.Statement
import SqlQuery.Proofs.Sql.References

/-!
# What statements do to tables

A table is a list of rows, and a statement is run on the tables one row at a time: a
condition is true, false or unknown of a row, and only the rows of which it is true are
updated, deleted or taken to be there by NOT EXISTS.

What values are to a database is not settled by SQL: how it compares them, what it makes of
letter case, patterns, arrays and searches, and what it puts into the columns that an
insertion leaves out. An `Engine` stands for these, so what is proved here holds whatever
they are. Null is nothing of the kind: a comparison with it is unknown in every engine.

> `Atom.truth_congr`: an atom says the same of rows that agree on the columns it reads.

> `TableRow.assign_of_not_mem`: assignments leave every other column alone.
-/

namespace SqlQuery.Sql

/-! ## Truth values -/

/-- A truth value; `none` is unknown. -/
abbrev Truth := Option Bool

namespace Truth

/-- The conjunction of truth values: a false one decides it, then an unknown one. -/
def all (ts : List Truth) : Truth :=
  if some false ∈ ts then some false else if none ∈ ts then none else some true

/-- The disjunction of truth values: a true one decides it, then an unknown one. -/
def any (ts : List Truth) : Truth :=
  if some true ∈ ts then some true else if none ∈ ts then none else some false

/-- The denial of a truth value; of the unknown nothing is known. -/
def not (t : Truth) : Truth :=
  t.map (!·)

/-- A conjunction is true where every part is true. -/
theorem all_eq_true {ts : List Truth} : all ts = some true ↔ ∀ t ∈ ts, t = some true := by
  unfold all
  constructor
  · intro h t ht
    split at h
    next => cases h
    next hfalse =>
      split at h
      next => cases h
      next hnone =>
        match t with
        | none => exact absurd ht hnone
        | some false => exact absurd ht hfalse
        | some true => rfl
  · intro h
    have hfalse : some false ∉ ts := fun hmem => by simpa using h _ hmem
    have hnone : none ∉ ts := fun hmem => by simpa using h _ hmem
    rw [if_neg hfalse, if_neg hnone]

theorem all_singleton (t : Truth) : all [t] = t := by
  match t with
  | none => rfl
  | some false => rfl
  | some true => rfl

/-- A disjunction is true where some part is true. -/
theorem any_eq_true {ts : List Truth} : any ts = some true ↔ some true ∈ ts := by
  unfold any
  split
  next h => exact iff_of_true rfl h
  next h =>
    split
    next => exact iff_of_false (by simp) h
    next => exact iff_of_false (by simp) h

/-- A disjunction is unknown where no part is true and one is unknown. -/
theorem any_eq_none {ts : List Truth} : any ts = none ↔ some true ∉ ts ∧ none ∈ ts := by
  unfold any
  split
  next h => exact iff_of_false (by simp) fun hnone => hnone.1 h
  next h =>
    split
    next hnone => exact iff_of_true rfl ⟨h, hnone⟩
    next hnone => exact iff_of_false (by simp) fun hboth => hnone hboth.2

/-- Denying a disjunction is to deny all of its parts. -/
theorem not_any (ts : List Truth) : (any ts).not = all (ts.map not) := by
  have htrue : some false ∈ ts.map not ↔ some true ∈ ts := by simp [not]
  have hnone : none ∈ ts.map not ↔ none ∈ ts := by simp [not]
  unfold any all
  rw [if_congr htrue rfl rfl, if_congr hnone rfl rfl]
  split
  next => rfl
  next => split <;> rfl

/-- Negation keeps the three truth values apart. -/
theorem not_inj {t u : Truth} : t.not = u.not ↔ t = u :=
  (Option.map_injective fun _ _ h => Bool.not_inj h).eq_iff

/-- Where every part is known, so is the conjunction. -/
theorem all_map_some (bs : List Bool) : all (bs.map some) = some (bs.all id) := by
  unfold all
  rw [if_neg (c := none ∈ bs.map some) (by simp)]
  by_cases h : false ∈ bs
  · have hall : bs.all id = false := by simpa using h
    rw [if_pos (List.mem_map_of_mem h), hall]
  · have hall : bs.all id = true := by
      rw [List.all_eq_true]
      intro b hb
      cases b with
      | true => rfl
      | false => exact absurd hb h
    rw [if_neg (by simpa using h), hall]

/-- Where every part is known, so is the disjunction. -/
theorem any_map_some (bs : List Bool) : any (bs.map some) = some (bs.any id) := by
  have hdenied : (bs.map some).map not = (bs.map Bool.not).map some := by
    rw [List.map_map, List.map_map]
    rfl
  rw [← not_inj, not_any, hdenied, all_map_some, List.all_map]
  exact congrArg some (List.not_any_eq_all_not ..).symm

end Truth

/-! ## Rows -/

/-- A row of a table: what stands in each column. -/
abbrev TableRow := String → Value

namespace TableRow

/-- The row with entries written into it, one after the other. -/
def write (row : TableRow) (entries : List (String × Value)) : TableRow :=
  entries.foldl (fun r e => Function.update r e.1 e.2) row

/-- What an operand finds in a row; no single row has an aggregate. -/
def look (row : TableRow) : Operand → Value
  | .column c => row c.column
  | .aggregate .. => .null

theorem look_congr {row row' : TableRow} {o : Operand}
    (h : row o.ref.column = row' o.ref.column) : row.look o = row'.look o := by
  cases o with
  | column c => exact h
  | aggregate f c => rfl

theorem write_of_not_mem {column : String} {entries : List (String × Value)} :
    ∀ {row : TableRow}, column ∉ entries.map (·.1) → row.write entries column = row column := by
  induction entries with
  | nil => intro row _; rfl
  | cons e rest ih =>
    intro row h
    rw [List.map_cons, List.mem_cons, not_or] at h
    show write (Function.update row e.1 e.2) rest column = row column
    rw [ih h.2, Function.update_of_ne h.1]

/-- The first entry stays where no later one is for its column. -/
theorem write_cons_self {row : TableRow} {column : String} {v : Value}
    {entries : List (String × Value)} (h : column ∉ entries.map (·.1)) :
    row.write ((column, v) :: entries) column = v := by
  show write (Function.update row column v) entries column = v
  rw [write_of_not_mem h, Function.update_self]

/-- An entry stays where no other one is for its column. -/
theorem write_of_unique {e : String × Value} {entries : List (String × Value)} :
    ∀ {row : TableRow}, e ∈ entries → (∀ e' ∈ entries, e'.1 = e.1 → e' = e) →
      row.write entries e.1 = e.2 := by
  induction entries with
  | nil => intro row he _; cases he
  | cons first rest ih =>
    intro row he hunique
    by_cases hrest : e ∈ rest
    · exact ih hrest fun e' he' => hunique e' (List.mem_cons_of_mem _ he')
    · obtain rfl : e = first := (List.mem_cons.mp he).resolve_right hrest
      refine write_cons_self fun hmem => hrest ?_
      obtain ⟨e', he', hcolumn⟩ := List.mem_map.mp hmem
      rwa [← hunique e' (List.mem_cons_of_mem _ he') hcolumn]

end TableRow

/-! ## Tables in which some rows change -/

section

variable {P : TableRow → Prop} [DecidablePred P] {change : TableRow → TableRow}
  {rows : List TableRow}

/-- Where no row is picked, none changes. -/
theorem map_ite_of_none (h : ∀ r ∈ rows, ¬P r) :
    (rows.map fun r => if P r then change r else r) = rows := by
  refine (List.map_congr_left fun r hr => ?_).trans (List.map_id rows)
  exact if_neg (h r hr)

/-- After the picked rows have changed, some row is picked exactly if one of them stays picked. -/
theorem exists_mem_map_ite :
    (∃ r ∈ rows.map fun r => if P r then change r else r, P r) ↔
      ∃ r ∈ rows, P r ∧ P (change r) := by
  simp only [List.mem_map, exists_exists_and_eq_and]
  refine exists_congr fun r => and_congr_right fun _ => ?_
  by_cases h : P r
  · rw [if_pos h]
    exact (and_iff_right h).symm
  · rw [if_neg h]
    exact iff_of_false h fun hboth => h hboth.1

end

/-! ## Conditions -/

/-- What is left to a database: how it compares values that are not null, what it makes of
letter case, patterns, arrays and searches, and what stands in a new row of a table where
the insertion says nothing. -/
structure Engine where
  equal : Value → Value → Bool
  less : Value → Value → Bool
  lower : Value → Value
  like : Value → Value → Bool
  array : ArrayStyle → ArrayTest → Value → Truth
  search : Value → String → Truth
  defaults : String → List TableRow → TableRow
  equal_self : ∀ v : Value, v.isNull = false → equal v v = true

namespace Engine

/-- What a comparison of two values says; of null nothing is known. -/
def known (test : Value → Value → Bool) (a b : Value) : Truth :=
  if a.isNull || b.isNull then none else some (test a b)

/-- The test of two values that are not null. -/
def test (E : Engine) : Comparison → Value → Value → Bool
  | .eq, a, b => E.equal a b
  | .ne, a, b => !E.equal a b
  | .lt, a, b => E.less a b
  | .le, a, b => E.less a b || E.equal a b
  | .gt, a, b => E.less b a
  | .ge, a, b => E.less b a || E.equal a b

/-- What a comparison says. -/
def compare (E : Engine) (op : Comparison) : Value → Value → Truth :=
  known (E.test op)

/-- A value with its letters put in lower case, where that is wanted. -/
def fold (E : Engine) (folded : Bool) (v : Value) : Value :=
  if folded && !v.isNull then E.lower v else v

theorem compare_self (E : Engine) {v : Value} (h : v.isNull = false) :
    E.compare .eq v v = some true := by
  have hself := E.equal_self v h
  simp [compare, known, test, h, hself]

end Engine

/-- A database of integers and texts without collations: values are equal where they are the
same, patterns and searches have no signs of their own, and there are no arrays and no
defaults. -/
def Engine.exact : Engine where
  equal a b := decide (a = b)
  less
    | .int m, .int n => decide (m < n)
    | .string s, .string t => decide (s < t)
    | _, _ => false
  lower
    | .string s => .string s.toLower
    | v => v
  like a b := decide (a = b)
  array _ _ _ := none
  search v query := some (decide (v = .string query))
  defaults _ _ _ := .null
  equal_self _ _ := decide_eq_true rfl

/-- What an atom says where it is known what its operands find. -/
def Atom.truth (E : Engine) (look : Operand → Value) : Atom → Truth
  | .compare lhs folded op value => E.compare op (E.fold folded (look lhs)) (E.fold folded value)
  | .sameColumn a b => E.compare .eq (look (.column a)) (look (.column b))
  | .null lhs expected => some ((look lhs).isNull == expected)
  | .oneOf lhs folded expected items =>
    let found := Truth.any <| items.map fun v =>
      E.compare .eq (E.fold folded (look lhs)) (E.fold folded v)
    if expected then found else found.not
  | .like lhs folded pattern =>
    Engine.known E.like (E.fold folded (look lhs)) (E.fold folded (.string pattern))
  | .array style lhs test => E.array style test (look lhs)
  | .search lhs query => E.search (look lhs) query
  | .constant truth => some truth

/-- An atom says the same of rows that agree on the columns it reads. -/
theorem Atom.truth_congr {E : Engine} {row row' : TableRow} {a : Atom}
    (h : ∀ ref ∈ a.refs, row ref.column = row' ref.column) :
    a.truth E row.look = a.truth E row'.look := by
  have hlhs : ∀ lhs : Operand, a.refs = [lhs.ref] → row.look lhs = row'.look lhs := by
    intro lhs hrefs
    exact TableRow.look_congr (h lhs.ref (by simp [hrefs]))
  cases a with
  | compare lhs | null lhs | oneOf lhs | like lhs | search lhs =>
    simp only [truth, hlhs lhs rfl]
  | array style lhs => simp only [truth, hlhs lhs rfl]
  | sameColumn b c =>
    have hb : row b.column = row' b.column := h b (by simp [refs])
    have hc : row c.column = row' c.column := h c (by simp [refs])
    simp only [truth, TableRow.look, hb, hc]
  | constant t => rfl

namespace Predicate

mutual

/-- What a predicate says where it is known what its operands find. -/
def truth (E : Engine) (look : Operand → Value) : Predicate → Truth
  | .atom a => a.truth E look
  | .group p => truth E look p
  | .not p => (truth E look p).not
  | .all parts => .all (truths E look parts)
  | .any parts => .any (truths E look parts)

/-- What each of some predicates says. -/
def truths (E : Engine) (look : Operand → Value) : List Predicate → List Truth
  | [] => []
  | p :: rest => truth E look p :: truths E look rest

end

/-- Whether a predicate is true of a row. -/
def Picks (E : Engine) (p : Predicate) (row : TableRow) : Prop :=
  p.truth E row.look = some true

instance (E : Engine) (p : Predicate) (row : TableRow) : Decidable (p.Picks E row) :=
  inferInstanceAs (Decidable (p.truth E row.look = some true))

theorem truths_eq (E : Engine) (look : Operand → Value) (ps : List Predicate) :
    truths E look ps = ps.map (truth E look) := by
  induction ps with
  | nil => rfl
  | cons p ps ih => rw [truths, ih, List.map_cons]

/-- Parentheses that keep an operand together say nothing. -/
theorem truth_operand (E : Engine) (look : Operand → Value) (p : Predicate) :
    p.operand.truth E look = p.truth E look := by
  unfold operand
  split <;> rfl

end Predicate

/-! ## Statements -/

/-- The rows of each table. -/
abbrev Database := String → List TableRow

/-- The entry that an assignment writes, given the row that an insertion proposed. -/
def Assignment.entry (proposed : TableRow) (a : Assignment) : String × Value :=
  (a.column, match a.source with
    | .value v => v
    | .null => .null
    | .proposed => proposed a.column)

/-- The row with assignments carried out, given the row that an insertion proposed. -/
def TableRow.assign (row proposed : TableRow) (assignments : List Assignment) : TableRow :=
  row.write (assignments.map (·.entry proposed))

theorem TableRow.assign_of_not_mem {row proposed : TableRow} {column : String}
    {assignments : List Assignment} (h : column ∉ assignments.map (·.column)) :
    row.assign proposed assignments column = row column := by
  refine write_of_not_mem ?_
  rwa [List.map_map]

namespace Engine

variable (E : Engine)

/-- The row that an insertion proposes for a table. -/
def proposal (table : String) (columns : List String) (rows : List TableRow)
    (values : List Value) : TableRow :=
  (E.defaults table rows).write (columns.zip values)

/-- The first of the columns has its value in a proposed row, where it is named once. -/
theorem proposal_first {column : String} {columns : List String} (h : column ∉ columns)
    (table : String) (rows : List TableRow) (v : Value) (values : List Value) :
    E.proposal table (column :: columns) rows (v :: values) column = v := by
  unfold proposal
  rw [List.zip_cons_cons]
  refine TableRow.write_cons_self fun hmem => ?_
  obtain ⟨e, he, hcolumn⟩ := List.mem_map.mp hmem
  exact h (hcolumn ▸ (List.of_mem_zip he).1)

/-- Whether two rows have the same keys. -/
def SameKeys (keys : List String) (row row' : TableRow) : Prop :=
  ∀ k ∈ keys, E.compare .eq (row k) (row' k) = some true

instance (keys : List String) (row row' : TableRow) : Decidable (E.SameKeys keys row row') :=
  inferInstanceAs (Decidable (∀ k ∈ keys, _ = _))

/-- The rows with one more, or with those updated whose keys it has. -/
def insert (conflict : Option Conflict) (rows : List TableRow) (row : TableRow) :
    List TableRow :=
  match conflict with
  | some c =>
    if ∃ r ∈ rows, E.SameKeys c.keys r row then
      rows.map fun r => if E.SameKeys c.keys r row then r.assign row c.assignments else r
    else rows ++ [row]
  | none => rows ++ [row]

end Engine

namespace Statement

/-- The tables after a statement. -/
def run (E : Engine) (db : Database) : Statement → Database
  | .select _ => db
  | .insert table columns values conflict _ =>
    Function.update db table <| values.foldl
      (fun rows v => E.insert conflict rows (E.proposal table columns rows v)) (db table)
  | .insertUnless table columns values present =>
    if ∃ r ∈ db table, present.Picks E r then db
    else Function.update db table (db table ++ [E.proposal table columns (db table) values])
  | .update table assignments where_ _ =>
    Function.update db table <| (db table).map fun r =>
      if where_.Picks E r then r.assign r assignments else r
  | .delete table where_ _ =>
    Function.update db table <| (db table).filter fun r => ¬where_.Picks E r

/-- The tables after statements, run in order. -/
def runAll (E : Engine) (statements : List Statement) (db : Database) : Database :=
  statements.foldl (run E) db

/-- The rows of an updated table. -/
theorem run_update (E : Engine) (db : Database) (table : String) (assignments : List Assignment)
    (p : Predicate) (returning : Bool) :
    (Statement.update table assignments p returning).run E db table
      = (db table).map fun r => if p.Picks E r then r.assign r assignments else r :=
  Function.update_self ..

/-- The rows of a table after an insertion: those there were, and one that is proposed for each row
of values. -/
theorem run_insert (E : Engine) (db : Database) (table : String) (columns : List String)
    (values : List (List Value)) (returning : Bool) :
    ∃ added, (Statement.insert table columns values none returning).run E db table
        = db table ++ added ∧
      List.Forall₂ (fun v row => ∃ rows, row = E.proposal table columns rows v) values added := by
  have hfold (rows : List TableRow) : ∃ added,
      values.foldl (fun rows v => E.insert none rows (E.proposal table columns rows v)) rows
          = rows ++ added ∧
        List.Forall₂ (fun v row => ∃ rows, row = E.proposal table columns rows v) values added := by
    induction values generalizing rows with
    | nil => exact ⟨[], (List.append_nil rows).symm, .nil⟩
    | cons v values ih =>
      obtain ⟨added, hrows, hadded⟩ := ih (rows ++ [E.proposal table columns rows v])
      refine ⟨E.proposal table columns rows v :: added, ?_, .cons ⟨rows, rfl⟩ hadded⟩
      rw [List.append_cons]
      exact hrows
  obtain ⟨added, hrows, hadded⟩ := hfold (db table)
  exact ⟨added, (Function.update_self ..).trans hrows, hadded⟩

/-- The rows of a table after an insertion on a condition. -/
theorem run_insertUnless (E : Engine) (db : Database) (table : String) (columns : List String)
    (values : List Value) (p : Predicate) :
    (Statement.insertUnless table columns values p).run E db table
      = db table ++ if ∃ r ∈ db table, p.Picks E r then []
        else [E.proposal table columns (db table) values] := by
  rw [Statement.run]
  split
  next => rw [List.append_nil]
  next => exact Function.update_self ..

/-- The last of some statements runs on what the others leave. -/
theorem runAll_concat (E : Engine) (statements : List Statement) (s : Statement)
    (db : Database) : runAll E (statements ++ [s]) db = s.run E (runAll E statements db) :=
  List.foldl_concat ..

end Statement

end SqlQuery.Sql
