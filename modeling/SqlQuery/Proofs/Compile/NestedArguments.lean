import SqlQuery.Proofs.Compile.Placeholder
import SqlQuery.Proofs.Compile.RelationScope
import SqlQuery.Proofs.Compile.Rows

/-!
# The statements of nested writes stand alone

Nested writes become statements that are run one after the other, so each of them is
numbered and gets arguments as if it were the only one. `RelationChange.arguments` says
what the statements of a change bind, told from the change and the parent's key alone.

> `NestedScope.arguments_of_compile`: the statements of a change have these arguments.

> `nested_statements`: a list of writes is compiled write by write up to the first one
> that is refused, and the placeholders of every statement are those of its arguments.
-/

namespace SqlQuery

open Sql

/-! ## Reference arguments -/

/-- The values of rows that are inserted below a parent: in front of each row the key,
then the row in the order of the first row's fields. -/
def insertedValues (key : Value) : List Row → List Value
  | [] => []
  | first :: rest => (first :: rest).flatMap fun row => key :: row.inOrder first.fields

/-- The rows of values that are inserted below a parent: in front of each row the key, then the row
in the order of the first row's fields. -/
def insertedRows (key : Value) : List Row → List (List Value)
  | [] => []
  | first :: rest => (first :: rest).map fun row => key :: row.inOrder first.fields

/-- The values of an insertion below a parent are those of its rows, each behind the key. -/
theorem insertedValues_eq (key : Value) (rows : List Row) :
    insertedValues key rows = (insertedRows key rows).flatten := by
  cases rows with
  | nil => rfl
  | cons first rest => exact List.flatMap_def ..

/-- The arguments of a change, one list for each of its statements. -/
def RelationChange.arguments (key : Value) : RelationChange → List (List Value)
  | .create row => [key :: row.values]
  | .createMany rows => [insertedValues key rows]
  | .connect f => [key :: f.boundValues]
  | .connectOrCreate f created =>
    [key :: f.boundValues, key :: created.values ++ f.boundValues]
  | .disconnect f => [f.boundValues]
  | .set f => [key] :: if f.isEmpty then [] else [key :: f.boundValues]
  | .update f row | .updateMany f row => [row.values ++ key :: f.boundValues]
  | .delete f | .deleteMany f => [key :: f.boundValues]
  | .upsert f created updated =>
    (if updated.isEmpty then [] else [updated.values ++ key :: f.boundValues])
      ++ [key :: created.values ++ key :: f.boundValues]

/-! ## One statement -/

/-- A compiled filter binds the values of the filter. -/
theorem Filter.CompiledTo.slots_tokens {env : Env} {scope : FilterScope} {f : Filter}
    {p : Predicate} (h : f.CompiledTo env scope (some p)) (d : Dialect) :
    slots (p.tokens d) = f.boundValues := by
  have hatoms := h.atoms
  simp only [Option.toList_some, Predicate.atomsOf, List.append_nil] at hatoms
  rw [Predicate.slots_tokens_eq, List.flatMap_map, Filter.boundValues_eq,
    ← Condition.values_of_compiledTo hatoms]
  exact List.flatMap_congr fun a _ => Atom.slots_tokens d a

/-- The assignments of a row bind its values. -/
theorem slots_assignmentsOf {schema : Schema} {model : Option String} {row : Row}
    {assignments : List Assignment} (h : assignmentsOf schema model row = .ok assignments)
    (d : Dialect) : slots (assignmentList d assignments) = row.values := by
  unfold assignmentsOf at h
  obtain ⟨columns, hcolumns, h⟩ := bind_eq_ok.mp h
  cases h
  have hlength : row.values.length ≤ columns.length := by
    have hfields := (forall₂_of_mapM hcolumns).length_eq
    rw [Row.values, List.length_map, ← hfields, Row.fields, List.length_map]
  have hslots : ∀ cs : List (String × Value),
      slots (assignmentList d (cs.map fun c => { column := c.1, source := .value c.2 }))
        = cs.map (·.2) := by
    intro cs
    rw [assignmentList, slots_commas, List.map_map, List.flatMap_map, List.map_eq_flatMap]
    rfl
  rw [hslots]
  exact List.map_snd_zip hlength

namespace NestedScope

variable {x : NestedScope}

/-- The arguments of a statement that is compiled in the scope. -/
def argumentsOf (x : NestedScope) (s : Statement) : List Value :=
  (s.prepare x.env.dialect).args

/-- An update binds what it sets, and then its condition. -/
theorem argumentsOf_update (table : String) (assignments : List Assignment) (p : Predicate)
    (returning : Bool) :
    x.argumentsOf (.update table assignments p returning)
      = slots (assignmentList x.env.dialect assignments) ++ slots (p.tokens x.env.dialect) := by
  unfold argumentsOf Statement.prepare
  simp [Statement.tokens]

theorem argumentsOf_delete (table : String) (p : Predicate) (returning : Bool) :
    x.argumentsOf (.delete table p returning) = slots (p.tokens x.env.dialect) := by
  unfold argumentsOf Statement.prepare
  simp [Statement.tokens]

/-- A guarded insertion binds its row, and then its guard. -/
theorem argumentsOf_insertUnless (table : String) (columns : List String) (row : List Value)
    (p : Predicate) :
    x.argumentsOf (.insertUnless table columns row p) = row ++ slots (p.tokens x.env.dialect) := by
  unfold argumentsOf Statement.prepare
  simp [Statement.tokens, insertInto, notExists]

/-- A filter that is required is compiled to a condition. -/
theorem compile_of_requiredWhere {f : Filter} {p : Predicate} (h : x.requiredWhere f = .ok p) :
    f.compile x.env x.filterScope = .ok (some p) := by
  unfold requiredWhere at h
  obtain ⟨q, hq, h⟩ := bind_eq_ok.mp h
  cases q with
  | none => cases h
  | some q =>
    cases h
    exact Refusal.forget_eq_ok.mp hq

/-- A filter that is required means what it is compiled to. -/
theorem requiredWhere_spec {f : Filter} {p : Predicate} (h : x.requiredWhere f = .ok p) :
    f.CompiledTo x.env x.filterScope (some p) :=
  Filter.compileNode_spec _ _ f 1 _ (compile_of_requiredWhere h)

/-- A connection binds the key and the values of its filter. -/
theorem arguments_connect {f : Filter} {s : Statement} (h : x.connect f = .ok s) :
    x.argumentsOf s = x.key :: f.boundValues := by
  unfold connect at h
  obtain ⟨p, hp, h⟩ := bind_eq_ok.mp h
  cases h
  rw [argumentsOf_update, (requiredWhere_spec hp).slots_tokens]
  rfl

/-- The insertion of rows: under the foreign key and the columns of the first row's fields. -/
theorem insert_spec {rows : List Row} {s : Statement} (h : x.insert rows = .ok s) :
    ∃ first rest columns, rows = first :: rest ∧
      columnsOf x.env.schema x.target.model first.fields = .ok columns ∧
      s = .insert x.target.table (x.target.foreignKey :: columns) (insertedRows x.key rows) none
        true := by
  unfold insert at h
  obtain ⟨⟨columns', values⟩, hvalues, h⟩ := bind_eq_ok.mp h
  cases h
  unfold insertion at hvalues
  obtain ⟨fields, hfields, hvalues⟩ := bind_eq_ok.mp hvalues
  obtain ⟨columns, hcolumns, hvalues⟩ := bind_eq_ok.mp hvalues
  cases hvalues
  obtain ⟨first, rest, rfl, rfl⟩ := Query.commonFields_spec hfields
  exact ⟨first, rest, columns, rfl, hcolumns, rfl⟩

/-- An insertion below a parent binds the key before the values of every row. -/
theorem arguments_insert {rows : List Row} {s : Statement} (h : x.insert rows = .ok s) :
    x.argumentsOf s = insertedValues x.key rows := by
  obtain ⟨first, rest, columns, -, -, rfl⟩ := insert_spec h
  rw [insertedValues_eq, List.flatten_eq_flatMap]
  unfold argumentsOf Statement.prepare
  simp [Statement.tokens, insertInto, List.flatMap_map]

/-- A guarded insertion binds the key and its row before its guard. -/
theorem arguments_insertUnless {row : Row} {p : Predicate} {s : Statement}
    (h : x.insertUnless row p = .ok s) :
    x.argumentsOf s = x.key :: row.values ++ slots (p.tokens x.env.dialect) := by
  unfold insertUnless at h
  obtain ⟨columns, -, h⟩ := bind_eq_ok.mp h
  cases h
  exact argumentsOf_insertUnless ..

/-- An update below a parent binds what it sets, the key and the values of its filter. -/
theorem arguments_update {row : Row} {f : Filter} {s : Statement} (h : x.update row f = .ok s) :
    x.argumentsOf s = row.values ++ x.key :: f.boundValues := by
  unfold update at h
  obtain ⟨assignments, hassignments, h⟩ := bind_eq_ok.mp h
  obtain ⟨p, hp, h⟩ := bind_eq_ok.mp h
  cases h
  rw [argumentsOf_update, slots_assignmentsOf hassignments, (scopedWhere_spec hp).1]

/-- A deletion below a parent binds the key and the values of its filter. -/
theorem arguments_delete {f : Filter} {s : Statement} (h : x.delete f = .ok s) :
    x.argumentsOf s = x.key :: f.boundValues := by
  unfold delete at h
  obtain ⟨p, hp, h⟩ := bind_eq_ok.mp h
  cases h
  rw [argumentsOf_delete, (scopedWhere_spec hp).1]

/-- A replacement unties by the key alone, and ties again if its filter holds a condition. -/
theorem arguments_replace {f : Filter} {statements : List Statement}
    (h : x.replace f = .ok statements) :
    statements.map x.argumentsOf
      = [x.key] :: if f.isEmpty then [] else [x.key :: f.boundValues] := by
  have hdetach : x.argumentsOf (.update x.target.table [x.detach] (.all [x.scopeAtom]) false)
      = [x.key] := by
    rw [argumentsOf_update]
    rfl
  unfold replace at h
  by_cases hempty : f.isEmpty = true
  · rw [if_pos hempty] at h ⊢
    cases h
    rw [List.map_singleton, hdetach]
  · rw [if_neg hempty] at h ⊢
    obtain ⟨s, hs, h⟩ := bind_eq_ok.mp h
    cases h
    rw [List.map_cons, List.map_singleton, hdetach, arguments_connect hs]

theorem arguments_updateIfAny {row : Row} {f : Filter} {statements : List Statement}
    (h : x.updateIfAny row f = .ok statements) :
    statements.map x.argumentsOf
      = if row.isEmpty then [] else [row.values ++ x.key :: f.boundValues] := by
  unfold updateIfAny at h
  by_cases hempty : row.isEmpty = true
  · rw [if_pos hempty] at h ⊢
    cases h
    rfl
  · rw [if_neg hempty] at h ⊢
    obtain ⟨-, -, h⟩ := bind_eq_ok.mp h
    obtain ⟨s, hs, h⟩ := bind_eq_ok.mp h
    cases h
    rw [List.map_singleton, arguments_update hs]

/-- Both statements of an upsert bind the key and the values of the filter. -/
theorem arguments_upsert {f : Filter} {create update : Row} {statements : List Statement}
    (h : x.upsert f create update = .ok statements) :
    statements.map x.argumentsOf = (RelationChange.upsert f create update).arguments x.key := by
  unfold upsert at h
  obtain ⟨-, -, h⟩ := bind_eq_ok.mp h
  obtain ⟨updates, hupdates, h⟩ := bind_eq_ok.mp h
  obtain ⟨present, hpresent, h⟩ := bind_eq_ok.mp h
  obtain ⟨insertion, hinsertion, h⟩ := bind_eq_ok.mp h
  cases h
  rw [List.map_append, arguments_updateIfAny hupdates, List.map_singleton,
    arguments_insertUnless hinsertion, (scopedWhere_spec hpresent).1]
  rfl

/-- A row that is to be inserted names no field twice. -/
theorem nodup_of_checkCreate {row : Row} {u : Unit} (h : x.checkCreate row = .ok u) :
    row.fields.Nodup := by
  unfold checkCreate at h
  obtain ⟨u', hrow, -⟩ := bind_eq_ok.mp h
  exact (Row.checkRow_eq_ok_iff.mp hrow).2

/-- The statements of a change have the arguments of the change. -/
theorem arguments_of_compile {change : RelationChange} {statements : List Statement}
    (h : x.compile change = .ok statements) :
    statements.map x.argumentsOf = change.arguments x.key := by
  cases change with
  | create row =>
    obtain ⟨u, hrow, h⟩ := bind_eq_ok.mp h
    obtain ⟨s, hs, h⟩ := bind_eq_ok.mp h
    cases h
    rw [List.map_singleton, arguments_insert hs]
    simp [insertedValues, RelationChange.arguments, Row.inOrder_fields (nodup_of_checkCreate hrow)]
  | createMany rows =>
    rw [compile] at h
    obtain ⟨-, -, h⟩ := bind_eq_ok.mp (check_eq_ok h)
    obtain ⟨s, hs, h⟩ := bind_eq_ok.mp h
    cases h
    rw [List.map_singleton, arguments_insert hs]
    rfl
  | connect f =>
    obtain ⟨s, hs, h⟩ := bind_eq_ok.mp h
    cases h
    rw [List.map_singleton, arguments_connect hs]
    rfl
  | connectOrCreate f create =>
    obtain ⟨-, -, h⟩ := bind_eq_ok.mp h
    obtain ⟨present, hpresent, h⟩ := bind_eq_ok.mp h
    obtain ⟨s, hs, h⟩ := bind_eq_ok.mp h
    cases h
    rw [List.map_cons, List.map_singleton, argumentsOf_update, arguments_insertUnless hs,
      (requiredWhere_spec hpresent).slots_tokens]
    rfl
  | disconnect f =>
    obtain ⟨p, hp, h⟩ := bind_eq_ok.mp h
    cases h
    rw [List.map_singleton, argumentsOf_update, (requiredWhere_spec hp).slots_tokens]
    rfl
  | set f => exact arguments_replace h
  | update f row | updateMany f row =>
    obtain ⟨-, -, h⟩ := bind_eq_ok.mp h
    obtain ⟨s, hs, h⟩ := bind_eq_ok.mp h
    cases h
    rw [List.map_singleton, arguments_update hs]
    rfl
  | delete f | deleteMany f =>
    obtain ⟨s, hs, h⟩ := bind_eq_ok.mp h
    cases h
    rw [List.map_singleton, arguments_delete hs]
    rfl
  | upsert f create update => exact arguments_upsert h

end NestedScope

/-! ## Lists of writes -/

namespace NestedWrite

variable {env : Env} {parent : String} {key : Value}

/-- Lists of writes are compiled one after the other, up to the first that is refused. -/
theorem compileAll_append :
    ∀ ws ws' : List NestedWrite,
      compileAll env parent key (ws ++ ws') = (do
        let statements ← compileAll env parent key ws
        let more ← compileAll env parent key ws'
        return statements ++ more) := by
  intro ws ws'
  induction ws with
  | nil =>
    rw [List.nil_append, compileAll]
    cases compileAll env parent key ws' <;> rfl
  | cons w ws ih =>
    rw [List.cons_append, compileAll, ih, compileAll]
    simp only [bind_assoc, pure_bind, List.append_assoc]

/-- A list of writes is refused for the first write that is refused. -/
theorem compileAll_eq_error_iff {e : Error} :
    ∀ {ws : List NestedWrite}, compileAll env parent key ws = .error e ↔
      ∃ (before : List NestedWrite) (w : NestedWrite) (after : List NestedWrite),
        ws = before ++ w :: after ∧
        (∀ u ∈ before, ∃ statements, u.compile env parent key = .ok statements) ∧
        w.compile env parent key = .error e := by
  intro ws
  induction ws with
  | nil =>
    refine ⟨fun h => ?_, ?_⟩
    · cases h
    · rintro ⟨before, w, after, h, -⟩
      exact absurd h (by simp)
  | cons w ws ih =>
    rw [compileAll, bind_eq_error]
    refine ⟨?_, ?_⟩
    · rintro (hw | ⟨statements, hw, hrest⟩)
      · exact ⟨[], w, ws, rfl, by simp, hw⟩
      · have hrest : compileAll env parent key ws = .error e := by
          rcases bind_eq_error.mp hrest with hrest | ⟨more, -, hrest⟩
          · exact hrest
          · cases hrest
        obtain ⟨before, u, after, rfl, hbefore, hu⟩ := ih.mp hrest
        refine ⟨w :: before, u, after, rfl, ?_, hu⟩
        intro v hv
        rcases List.mem_cons.mp hv with rfl | hv
        · exact ⟨statements, hw⟩
        · exact hbefore v hv
    · rintro ⟨before, u, after, hws, hbefore, hu⟩
      cases before with
      | nil =>
        obtain ⟨rfl, rfl⟩ := List.cons.inj hws
        exact Or.inl hu
      | cons v before =>
        obtain ⟨rfl, rfl⟩ := List.cons.inj hws
        obtain ⟨statements, hw⟩ := hbefore w (List.mem_cons_self ..)
        have hrest := ih.mpr
          ⟨before, u, after, rfl, fun v hv => hbefore v (List.mem_cons_of_mem _ hv), hu⟩
        exact Or.inr ⟨statements, hw, bind_eq_error.mpr (Or.inl hrest)⟩

/-- The statements of some writes bind what each write lists. -/
theorem arguments_of_compileAll :
    ∀ {ws : List NestedWrite} {statements : List Statement},
      compileAll env parent key ws = .ok statements →
        statements.map (fun s => (s.prepare env.dialect).args)
          = ws.flatMap fun w => w.change.arguments key := by
  intro ws
  induction ws with
  | nil =>
    intro statements h
    cases h
    rfl
  | cons w ws ih =>
    intro statements h
    rw [compileAll] at h
    obtain ⟨first, hfirst, h⟩ := bind_eq_ok.mp h
    obtain ⟨more, hmore, h⟩ := bind_eq_ok.mp h
    cases h
    unfold compile at hfirst
    obtain ⟨target, -, hfirst⟩ := bind_eq_ok.mp hfirst
    have harguments := NestedScope.arguments_of_compile hfirst
    rw [List.map_append, ih hmore, List.flatMap_cons]
    exact congrArg (· ++ _) harguments

end NestedWrite

/-- Writes are compiled one after the other: two lists in a row give the statements of
both, and the first write that is refused decides about the error. Each statement has its
own arguments, and outside quoted names its text holds the placeholders of these in order,
counted from the first, and no other dollar sign or question mark. -/
theorem nested_statements (env : Env) (parent : String) (key : Value) :
    (∀ ws ws' : List NestedWrite,
      NestedWrite.compileAll env parent key (ws ++ ws') = (do
        let statements ← NestedWrite.compileAll env parent key ws
        let more ← NestedWrite.compileAll env parent key ws'
        return statements ++ more)) ∧
      (∀ (ws : List NestedWrite) (e : Error),
        NestedWrite.compileAll env parent key ws = .error e ↔
          ∃ before w after, ws = before ++ w :: after ∧
            (∀ u ∈ before, ∃ statements, u.compile env parent key = .ok statements) ∧
            w.compile env parent key = .error e) ∧
      ∀ (ws : List NestedWrite) (statements : List Statement),
        NestedWrite.compileAll env parent key ws = .ok statements →
          statements.map (fun s => (s.prepare env.dialect).args)
              = (ws.flatMap fun w => w.change.arguments key) ∧
            ∀ s ∈ statements,
              placeholders env.dialect.quote (s.prepare env.dialect).sql
                  = some (densePlaceholders env.dialect (s.prepare env.dialect).args.length) ∧
                placeholderMarks env.dialect.quote (s.prepare env.dialect).sql
                  = List.replicate (s.prepare env.dialect).args.length
                      (placeholderMark env.dialect) := by
  refine ⟨NestedWrite.compileAll_append, fun ws e => NestedWrite.compileAll_eq_error_iff, ?_⟩
  intro ws statements h
  refine ⟨NestedWrite.arguments_of_compileAll h, fun s _ => ?_⟩
  exact ⟨s.placeholders_prepare env.dialect, s.placeholderMarks_prepare env.dialect⟩

/-- Writes to the books of a reader: one is made or updated, and all are replaced. -/
def lendingWrites : List NestedWrite :=
  [{ relation := "books"
     change := .upsert (.and [.equals "late" (.bool true)]) [("late", .bool false)]
      [("late", .null)] },
   { relation := "books", change := .set (.or [.isIn "late" (.array [.null, .bool true])]) }]

/-- Each statement of several writes starts to count its placeholders anew. -/
theorem nested_statements_lending :
    ∃ statements, NestedWrite.compileAll { schema := librarySchema, dialect := .postgres }
        "Reader" (.int 7) lendingWrites = .ok statements ∧
      statements.map (fun s => (s.prepare .postgres).args)
        = [[.null, .int 7, .bool true], [.int 7, .bool false, .int 7, .bool true], [.int 7],
          [.int 7, .null, .bool true]] ∧
      ∀ s ∈ statements, placeholders '"' (s.prepare .postgres).sql
        = some (densePlaceholders .postgres (s.prepare .postgres).args.length) := by
  have hok : (match NestedWrite.compileAll { schema := librarySchema, dialect := .postgres }
        "Reader" (.int 7) lendingWrites with
      | .ok _ => true
      | .error _ => false) = true := by decide
  cases hs : NestedWrite.compileAll { schema := librarySchema, dialect := .postgres } "Reader"
      (.int 7) lendingWrites with
  | error e =>
    rw [hs] at hok
    exact absurd hok (by simp)
  | ok statements =>
    obtain ⟨harguments, hplaceholders⟩ := (nested_statements _ "Reader" (.int 7)).2.2 _ _ hs
    refine ⟨statements, rfl, harguments, fun s hmem => (hplaceholders s hmem).1⟩

end SqlQuery
