import SqlQuery.Proofs.Compile.InclusionText
import SqlQuery.Proofs.Compile.NestedArguments
import SqlQuery.Proofs.Compile.ResultColumn

/-!
# The text of a statement, written in one pass

`Query.compile` makes a statement first, and its text and its arguments come from one list of
tokens. `Query.write` is the other way to the same text: one pass over the query that hands a list
of bound values on from builder to builder, and puts texts together behind it. A selection binds
the values of its joins before it knows its items, and those of WHERE and HAVING in between; an
update binds what it sets before its condition; an upsert binds the row before what it changes. In
the text each placeholder has to stand where its value was bound, and no step of the pass sees
that it does.

> `Writer.Follows`: a pass does what an outcome says.

> `Query.write_follows`: the pass over a query writes the text of the statement that the query
> compiles to and binds its arguments, and is refused where the query is.

> `placeholders_of_compile`: so the placeholders that the pass hands out stand in the text in the
> order in which it bound their values, and nothing else there looks like one.
-/

namespace SqlQuery

open Sql

/-! ## Passes and outcomes -/

namespace Writer

variable {α β γ δ : Type} {p : Parameters} {x : Except Error α} {v : α → Writer δ}
  {y : α → Except Error β} {post : α → γ → Parameters → Prop} {post' : β → δ → Parameters → Prop}

/-- A pass follows an outcome: it is refused for the same cause, or it gives something and leaves
values bound, of which `post` says how they belong to what the outcome gives. -/
inductive Follows (w : Writer γ) (p : Parameters) (post : α → γ → Parameters → Prop) :
    Except Error α → Prop where
  | ok {a : α} {c : γ} {p' : Parameters} (h : w p = (.ok c, p')) (hpost : post a c p') :
      Follows w p post (.ok a)
  | error {e : Error} (h : (w p).1 = .error e) : Follows w p post (.error e)

/-- What is done before a pass changes nothing about what it follows. -/
theorem Follows.after {w : Writer γ} {v : γ → Writer δ} {x : Except Error β} {c : γ}
    {p' : Parameters} (hw : w p = (.ok c, p')) (hv : (v c).Follows p' post' x) :
    (w >>= v).Follows p post' x := by
  have hrun := bind_of_ok hw v
  cases hv with
  | ok h hpost => exact .ok (hrun.trans h) hpost
  | error h => exact .error ((congrArg Prod.fst hrun).trans h)

/-- A pass that follows an outcome and goes on as the outcome goes on follows it further. -/
theorem Follows.bind {w : Writer γ} {v : γ → Writer δ} (hw : w.Follows p post x)
    (hv : ∀ a c p', x = .ok a → post a c p' → (v c).Follows p' post' (y a)) :
    (w >>= v).Follows p post' (x >>= y) := by
  cases hw with
  | error h => exact .error (congrArg Prod.fst (bind_of_error (Prod.ext h rfl) v))
  | ok h hpost => exact .after h (hv _ _ _ rfl hpost)

/-- What is looked up binds nothing. -/
theorem Follows.lift (hv : ∀ a, x = .ok a → (v a).Follows p post' (y a)) :
    (Writer.lift x >>= v).Follows p post' (x >>= y) := by
  have hlift : (Writer.lift x).Follows p (fun a c p' => c = a ∧ p' = p) x := by
    cases x with
    | ok a => exact .ok rfl ⟨rfl, rfl⟩
    | error e => exact .error rfl
  refine hlift.bind fun a c p' hx h => ?_
  obtain ⟨rfl, rfl⟩ := h
  exact hv c hx

/-- A part that is written with its bound values is followed without them. -/
theorem Follows.settled {w : Writer γ} {v : γ → Writer δ} {x : Except Refusal α} {text : α → γ}
    {values : α → List Value} (hw : w p = p.settle text values x)
    (hv : ∀ a, x = .ok a → (v (text a)).Follows (p.bindAll (values a)) post' (y a)) :
    (w >>= v).Follows p post' (Refusal.forget x >>= y) := by
  have hforget : w.Follows p (fun a c p' => x = .ok a ∧ c = text a ∧ p' = p.bindAll (values a))
      (Refusal.forget x) := by
    cases x with
    | ok a => exact .ok hw ⟨rfl, rfl, rfl⟩
    | error r => exact .error (congrArg Prod.fst hw)
  refine hforget.bind fun a c p' _ h => ?_
  obtain ⟨hx, rfl, rfl⟩ := h
  exact hv a hx

/-- Both give something. -/
theorem Follows.pure {b : β} {c : δ} (h : post' b c p) :
    (Pure.pure c : Writer δ).Follows p post' (Pure.pure b) :=
  .ok rfl h

/-- Both ways of a choice go on alike. -/
theorem choice_bind {c : Prop} [Decidable c] (x x' : Except Error α) (y : α → Except Error β) :
    (if c then x >>= y else x' >>= y) = (if c then x else x') >>= y := by
  split <;> rfl

/-- A check is passed where there is nothing to check. -/
theorem Follows.check {c : Prop} [Decidable c] {x : Except Error Unit} {v : Unit → Writer δ}
    {y : Unit → Except Error β}
    (hv : (if c then x else .ok ()) = .ok () → (v ()).Follows p post' (y ())) :
    (Writer.lift (if c then x else .ok ()) >>= v).Follows p post'
      (if c then x >>= y else y ()) := by
  have hcheck := choice_bind (c := c) x (.ok ()) y
  show Follows _ _ _ (if c then x >>= y else Except.ok () >>= y)
  rw [hcheck]
  exact .lift fun _ => hv

/-- A choice is looked up, and the pass goes on with what it makes of it. -/
theorem Follows.choice {c : Prop} [Decidable c] {x x' : Except Error α} {g : α → γ}
    {v : γ → Writer δ} (hv : ∀ a, (v (g a)).Follows p post' (y a)) :
    (Writer.lift ((if c then x else x').map g) >>= v).Follows p post'
      (if c then x >>= y else x' >>= y) := by
  rw [choice_bind]
  generalize (if c then x else x') = chosen
  cases chosen with
  | error e => exact .error rfl
  | ok a => exact .after rfl (hv a)

/-- What is known of an outcome may be used in the end. -/
theorem Follows.imp {w : Writer γ} {post' : α → γ → Parameters → Prop} (hw : w.Follows p post x)
    (h : ∀ a c p', x = .ok a → post a c p' → post' a c p') : w.Follows p post' x := by
  cases hw with
  | ok hrun hpost => exact .ok hrun (h _ _ _ rfl hpost)
  | error hrun => exact .error hrun

end Writer

/-- Fragments bind what they bind one after the other. -/
theorem Sql.slots_flatMap {α β : Type} (write : β → Fragment α) (xs : List β) :
    slots (xs.flatMap write) = xs.flatMap fun x => slots (write x) := by
  induction xs with
  | nil => rfl
  | cons x xs ih => rw [List.flatMap_cons, slots_append, ih, List.flatMap_cons]

/-- Whether a plan joins anything is seen from its texts too. -/
theorem WrittenPlan.isEmpty_joins (d : Dialect) (bound : Nat) (plan : JoinPlan) :
    (WrittenPlan.of d bound plan).joins.isEmpty = plan.joins.isEmpty := by
  obtain ⟨_ | ⟨j, joins⟩, _, _, _⟩ := plan <;> rfl

/-- A filter is written as its predicate, or as nothing. -/
theorem Filter.write_settled {p : Parameters} {env : Env} (hp : p.dialect = env.dialect)
    (f : Filter) (scope : FilterScope) :
    f.write env scope p
      = p.settle (fun q => p.dialect.render p.bound.length (optional p.dialect q))
          (fun q => slots (optional p.dialect q)) (f.compile env scope) := by
  rw [f.write_eq env scope hp]
  cases f.compile env scope <;> rfl

/-- A join's condition needs no parentheses around its parts. -/
theorem JoinSite.CompiledTo.fits {env : Env} {site : JoinSite} {j : Join}
    (h : site.CompiledTo env j) : j.on.FitsAt .operand := by
  obtain ⟨relation, parent, equalities, filter, hj⟩ := h
  rw [hj.on_eq]
  exact (Inclusion.compileFilter_spec hj.filter_eq).fits_all
    (relationEqualities_spec hj.equalities_eq).1

namespace Query

/-! ## Builders -/

/-- The texts of the items of a query, and their fields. -/
def itemTexts (q : Query) (env : Env) (qualifier : Option String) (joined : WrittenPlan) :
    Except Error (List String × List FieldMapping) :=
  if q.operation.isAggregate then do
    let (items, fields) ← q.aggregateItems env.schema qualifier
    return (items.map (·.written env.dialect), fields)
  else do
    let selected := q.selectedFields env.dialect
    let items ← selected.mapM (q.rootItem env.schema qualifier)
    let items := if selected.isEmpty then [.star qualifier] else items
    return (items.map (·.written env.dialect) ++ joined.items,
      selected.map .root ++ joined.fields)

/-- The pass over a query for rows or aggregates. -/
def writeSelect (q : Query) (env : Env) : Writer (String × ResultMapping) := do
  Writer.lift (if q.operation.isAggregate then q.checkAggregates else .ok ())
  let table ← Writer.lift (env.schema.table q.model)
  let joined ← writeJoins env q.model table q.inclusions
  let qualifier := if joined.joins.isEmpty then none else some table
  let (items, fields) ← Writer.lift (q.itemTexts env qualifier joined)
  let distinct ← Writer.lift (q.distinctRows env qualifier)
  let scope : FilterScope := { model := some q.model, qualifier }
  let where_ ← q.seekFilter.write env scope
  let groupBy ← Writer.lift (q.groupBy.mapM (q.rootColumn env.schema qualifier))
  let having ← q.having.write env { scope with clause := .having }
  let orderBy ← Writer.lift (q.orderBy.mapM fun o => do
    return (← q.rootColumn env.schema qualifier o.field, o.order))
  let texts : SelectTexts :=
    { distinct := distinct.written env.dialect
      items, table := env.dialect.quoteName table, joins := joined.joins, where_
      groupBy := groupBy.map (·.written env.dialect), having
      orderBy := orderBy.map (orderText env.dialect)
      page := env.dialect.pageText q.limit q.offset }
  return (texts.text, { model := q.model, fields, relations := joined.relations })

/-- The texts of the items are those of the compiled items, whatever the joins have bound. -/
theorem itemTexts_eq (q : Query) (env : Env) (qualifier : Option String) (bound : Nat)
    (plan : JoinPlan) :
    q.itemTexts env qualifier (.of env.dialect bound plan)
      = (if q.operation.isAggregate then q.aggregateItems env.schema qualifier
          else q.rowItems env qualifier plan).map
        fun items => (items.1.map (·.written env.dialect), items.2) := by
  unfold itemTexts rowItems
  split
  · cases q.aggregateItems env.schema qualifier <;> rfl
  · dsimp only
    cases (q.selectedFields env.dialect).mapM (q.rootItem env.schema qualifier) with
    | error e => rfl
    | ok items =>
      exact congrArg (fun texts => Except.ok (texts, _)) List.map_append.symm

/-- The pass over a query for rows or aggregates puts together the texts of its selection, and binds
what its joins, its filter and its groups bind. -/
theorem writeSelect_follows (q : Query) (env : Env) :
    (q.writeSelect env).Follows { dialect := env.dialect }
      (fun s c p' => c = ((s.1.texts env.dialect).text, s.2) ∧
        p' = { dialect := env.dialect, bound := slots (s.1.tokens env.dialect) })
      (q.compileSelect env) := by
  unfold writeSelect compileSelect
  refine .check fun _ => .lift fun table _ => .settled (writeJoins_eq rfl ..) fun plan _ => ?_
  rw [WrittenPlan.isEmpty_joins]
  dsimp only
  generalize (if plan.joins.isEmpty then none else some table) = qualifier
  rw [itemTexts_eq]
  refine .choice fun items => .lift fun distinct _ =>
    .settled (Filter.write_settled rfl ..) fun where_ _ => .lift fun groupBy _ =>
    .settled (Filter.write_settled rfl ..) fun having _ => .lift fun orderBy _ => .pure ?_
  have hvalues : slots (plan.joins.flatMap (·.tokens env.dialect)) = plan.values := by
    rw [slots_flatMap]
    exact congrArg (plan.joins.flatMap ·) (funext fun j => j.slots_tokens env.dialect)
  rw [Select.slots_tokens]
  simp [Select.texts, WrittenPlan.of, Parameters.bindAll, hvalues]

/-- The pass over the values of a row: their placeholders, in parentheses. -/
def writeGroup (values : List Value) : Writer String := do
  let placeholders ← values.mapM Writer.slot
  return parenthesized (", ".intercalate placeholders)

/-- The pass over what a row sets: for every field its column, and the placeholder of its value. -/
def writeAssignments (q : Query) (env : Env) (row : Row) : Writer (List String) :=
  row.mapM fun entry => do
    let column ← Writer.lift (env.schema.columnOf (some q.model) entry.1)
    let placeholder ← Writer.slot entry.2
    return env.dialect.quoteName column ++ " = " ++ placeholder

/-- The pass over the filter of an update or a deletion, which needs a condition. -/
def writeSafe (q : Query) (env : Env) : Writer String := do
  let text ← q.filter.write env { model := some q.model }
  if text = "" then throw (.missingSafetyPredicate q.operation q.model) else return text

/-- The pass over the insertion of one row. -/
def writeCreate (q : Query) (env : Env) (row : Row) : Writer String := do
  Writer.lift (checkRow (.query q.operation) row)
  let table ← Writer.lift (env.schema.table q.model)
  let columns ← Writer.lift (columnsOf env.schema (some q.model) row.fields)
  let group ← writeGroup row.values
  return insertIntoText env.dialect table columns ++ " VALUES " ++ group
    ++ returningText env.dialect true

/-- The pass over the insertion of several rows, one after the other. -/
def writeCreateMany (q : Query) (env : Env) (rows : List Row) : Writer String := do
  let table ← Writer.lift (env.schema.table q.model)
  let fields ← Writer.lift (commonFields (.query .createMany) rows)
  let columns ← Writer.lift (columnsOf env.schema (some q.model) fields)
  let groups ← (rows.map fun r => r.inOrder fields).mapM writeGroup
  return insertIntoText env.dialect table columns ++ " VALUES " ++ ", ".intercalate groups
    ++ returningText env.dialect true

/-- The pass over an update: what is set is bound before the condition. -/
def writeUpdate (q : Query) (env : Env) (row : Row) : Writer String := do
  Writer.lift (checkRow (.query q.operation) row)
  let table ← Writer.lift (env.schema.table q.model)
  let assignments ← q.writeAssignments env row
  let where_ ← q.writeSafe env
  return "UPDATE " ++ env.dialect.quoteName table ++ " SET " ++ ", ".intercalate assignments
    ++ " WHERE " ++ where_ ++ returningText env.dialect (q.operation = .update)

/-- The pass over a deletion. -/
def writeDelete (q : Query) (env : Env) : Writer String := do
  let table ← Writer.lift (env.schema.table q.model)
  let where_ ← q.writeSafe env
  return "DELETE FROM " ++ env.dialect.quoteName table ++ " WHERE " ++ where_
    ++ returningText env.dialect (q.operation = .delete)

/-- The pass over what an upsert changes: without anything to update, its keys to what they are. -/
def writeChanges (q : Query) (env : Env) (keyColumns : List String) (update : Row) :
    Writer (List String) :=
  if update.isEmpty then
    return keyColumns.map fun k =>
      env.dialect.quoteName k ++ " = " ++ env.dialect.proposedText (env.dialect.quoteName k)
  else q.writeAssignments env update

/-- The pass over an upsert: the new row is bound before what is changed. -/
def writeUpsert (q : Query) (env : Env) (keys : List String) (create update : Row) :
    Writer String := do
  Writer.lift (if keys.isEmpty then .error (.missingUpsertKeys q.model) else .ok ())
  Writer.lift (if create.isEmpty then .error (.emptyPayload (.query q.operation)) else .ok ())
  Writer.lift (checkUnique .upsertCreate create)
  Writer.lift (checkUnique .upsertUpdate update)
  let table ← Writer.lift (env.schema.table q.model)
  let columns ← Writer.lift (columnsOf env.schema (some q.model) create.fields)
  let group ← writeGroup create.values
  let keyColumns ← Writer.lift (columnsOf env.schema (some q.model) keys)
  let changes ← q.writeChanges env keyColumns update
  return insertIntoText env.dialect table columns ++ " VALUES " ++ group
    ++ env.dialect.conflictText (namesText env.dialect keyColumns) (", ".intercalate changes)
    ++ returningText env.dialect true

/-- The pass over a query that writes, if it is one. -/
def writeWrite? (q : Query) (env : Env) : Option (Writer String) :=
  match q.payload with
  | .create row => some (q.writeCreate env row)
  | .createMany rows => some (q.writeCreateMany env rows)
  | .update row => some (q.writeUpdate env row)
  | .upsert keys create update => some (q.writeUpsert env keys create update)
  | .none =>
    if q.operation = .delete ∨ q.operation = .deleteMany then some (q.writeDelete env) else none

/-- The pass over a query: its text, and how its result is shaped. -/
def write (q : Query) (env : Env) : Writer (String × ResultMapping) := do
  Writer.lift q.checkPayload
  match q.writeWrite? env with
  | some write => return (← write, { model := q.model })
  | none => q.writeSelect env

/-! ## The passes and the compilation -/

/-- The placeholders of a row stand in parentheses. -/
theorem writeGroup_apply (values : List Value) (p : Parameters) :
    writeGroup values p
      = (.ok ("(" ++ placeholdersText p.dialect p.bound.length values.length ++ ")"),
          p.bindAll values) := by
  rw [writeGroup, Writer.bind_of_ok (Writer.mapM_slot values p), Writer.pure_apply]
  rfl

/-- Rows are written one after the other. -/
theorem mapM_writeGroup (rows : List (List Value)) (p : Parameters) :
    rows.mapM writeGroup p
      = (.ok (groupTexts p.dialect p.bound.length rows), p.bindAll rows.flatten) := by
  induction rows generalizing p with
  | nil => simp [Writer.pure_apply, groupTexts]
  | cons row rows ih =>
    rw [List.mapM_cons, Writer.bind_of_ok (writeGroup_apply row p), Writer.bind_of_ok (ih _),
      Writer.pure_apply, ← Parameters.bindAll_append, Parameters.length_bound_bindAll]
    rfl

/-- What the first field sets is looked up before what the others set. -/
theorem assignmentsOf_cons (schema : Schema) (model : Option String) (entry : String × Value)
    (rest : Row) :
    assignmentsOf schema model (entry :: rest) = (do
      let column ← schema.columnOf model entry.1
      let more ← assignmentsOf schema model rest
      return ⟨column, .value entry.2⟩ :: more) := by
  unfold assignmentsOf columnsOf
  show ((entry.1 :: Row.fields rest).mapM (schema.columnOf model) >>= _) = _
  rw [List.mapM_cons]
  cases schema.columnOf model entry.1 with
  | error e => rfl
  | ok column => cases (Row.fields rest).mapM (schema.columnOf model) <;> rfl

variable {q : Query} {env : Env} {p : Parameters}

/-- What is set is written field by field, each behind the values of those before it. -/
theorem writeAssignments_follows (hp : p.dialect = env.dialect) (row : Row) :
    (q.writeAssignments env row).Follows p
      (fun as texts p' => texts = renderEach p.dialect p.bound.length (as.map (·.tokens p.dialect))
        ∧ p' = p.bindAll row.values)
      (assignmentsOf env.schema (some q.model) row) := by
  unfold writeAssignments
  induction row generalizing p with
  | nil => exact .pure ⟨rfl, p.bindAll_nil.symm⟩
  | cons entry rest ih =>
    rw [List.mapM_cons, assignmentsOf_cons]
    simp only [bind_assoc, pure_bind]
    refine .lift fun column _ => .after (Writer.slot_apply ..) ?_
    refine (ih (p := p.bindAll [entry.2]) hp).bind fun more texts p' _ h => ?_
    obtain ⟨rfl, rfl⟩ := h
    refine .pure ⟨?_, (p.bindAll_append [entry.2] (Row.values rest)).symm⟩
    rw [List.map_cons, renderEach, Assignment.render_value, Parameters.length_bound_bindAll, ← hp]
    rfl

/-- An update and a deletion are written with a condition, or refused for the want of one. -/
theorem writeSafe_follows (hp : p.dialect = env.dialect) :
    (q.writeSafe env).Follows p
      (fun w text p' => text = p.dialect.render p.bound.length (w.tokens p.dialect)
        ∧ p' = p.bindAll (slots (w.tokens p.dialect)))
      (q.safeWhere env) := by
  unfold writeSafe safeWhere
  refine .settled (Filter.write_settled hp ..) fun where_ hwhere => ?_
  cases where_ with
  | none => exact .error rfl
  | some w =>
    have hfilled := (Filter.compileNode_spec env _ q.filter 1 _ hwhere).filled p.dialect
    have hsome : p.dialect.render p.bound.length (optional p.dialect (some w)) ≠ "" :=
      hfilled.render_ne_empty p.dialect p.bound.length
    rw [if_neg hsome]
    exact .pure ⟨rfl, rfl⟩

/-- The pass ended in the text of a statement, and in its arguments. -/
structure Ends (d : Dialect) (s : Statement) (text : String) (p : Parameters) : Prop where
  text_eq : text = (s.prepare d).sql
  bound_eq : p = { dialect := d, bound := (s.prepare d).args }

/-- Rows that are written one after the other, and bound so, end in their insertion. -/
theorem Ends.insert (d : Dialect) (table : String) (columns : List String)
    {rows : List (List Value)} (returning : Bool) (hrows : rows ≠ []) :
    Ends d (.insert table columns rows none returning)
      (insertIntoText d table columns ++ " VALUES " ++ ", ".intercalate (groupTexts d 0 rows)
        ++ returningText d returning)
      { dialect := d, bound := rows.flatten } := by
  have hargs : ((Statement.insert table columns rows none returning).prepare d).args
      = rows.flatten := by
    simp [Statement.prepare, Statement.tokens, insertInto, List.flatMap_map, slots,
      List.flatMap_id']
  refine ⟨?_, by rw [hargs]⟩
  rw [Statement.sql_insert _ _ _ hrows]

/-- The pass over the insertion of one row ends in its statement. -/
theorem writeCreate_follows (row : Row) :
    (q.writeCreate env row).Follows { dialect := env.dialect } (Ends env.dialect)
      (q.compileCreate env row) := by
  unfold writeCreate compileCreate
  refine .lift fun _ _ => .lift fun table _ => .lift fun columns _ =>
    .after (writeGroup_apply ..) (.pure ?_)
  have hends := Ends.insert env.dialect table columns true (List.cons_ne_nil row.values [])
  rw [List.flatten_singleton] at hends
  exact hends

/-- The pass over the insertion of several rows ends in its statement. -/
theorem writeCreateMany_follows (rows : List Row) :
    (q.writeCreateMany env rows).Follows { dialect := env.dialect } (Ends env.dialect)
      (q.compileCreateMany env rows) := by
  unfold writeCreateMany compileCreateMany insertion
  simp only [bind_assoc, pure_bind]
  refine .lift fun table _ => .lift fun fields hfields => .lift fun columns _ =>
    .after (mapM_writeGroup ..) (.pure ?_)
  obtain ⟨first, rest, rfl, -⟩ := commonFields_spec hfields
  exact Ends.insert env.dialect table columns true (by simp)

/-- Assignments are written with commas between them. -/
theorem render_assignmentList (d : Dialect) (bound : Nat) (as : List Assignment) :
    d.render bound (assignmentList d as)
      = ", ".intercalate (renderEach d bound (as.map (·.tokens d))) := by
  refine render_commas d fun f hf => ?_
  obtain ⟨a, -, rfl⟩ := List.mem_map.mp hf
  exact a.opens d

/-- A row that has a field sets something. -/
theorem assignments_ne_nil {schema : Schema} {model : Option String} {row : Row}
    {assignments : List Assignment} (hrow : row ≠ [])
    (h : assignmentsOf schema model row = .ok assignments) : assignments ≠ [] := by
  rintro rfl
  have hvalues := slots_assignmentsOf h .postgres
  exact hrow (List.map_eq_nil_iff.mp hvalues.symm)

/-- The pass over an update binds what is set before the condition, as the text has them. -/
theorem writeUpdate_follows (row : Row) :
    (q.writeUpdate env row).Follows { dialect := env.dialect } (Ends env.dialect)
      (q.compileUpdate env row) := by
  unfold writeUpdate compileUpdate
  refine .lift fun _ hrow => .lift fun table _ =>
    (writeAssignments_follows rfl row).bind fun assignments texts p' hassignments h => ?_
  obtain ⟨rfl, rfl⟩ := h
  refine (writeSafe_follows rfl).bind fun w text p' hw h => ?_
  obtain ⟨rfl, rfl⟩ := h
  have hsome := assignments_ne_nil (Row.checkRow_eq_ok_iff.mp hrow).1 hassignments
  have hslots := slots_assignmentsOf hassignments env.dialect
  refine .pure ⟨?_, ?_⟩
  · rw [Statement.sql_update _ _ hsome ((safeWhere_spec hw).fits w rfl), render_assignmentList,
      hslots, Parameters.length_bound_bindAll]
    simp
  · simp [Statement.prepare, Statement.tokens, slots, hslots, Parameters.bindAll]

/-- The pass over a deletion ends in its statement. -/
theorem writeDelete_follows :
    (q.writeDelete env).Follows { dialect := env.dialect } (Ends env.dialect)
      (q.compileDelete env) := by
  unfold writeDelete compileDelete
  refine .lift fun table _ => (writeSafe_follows rfl).bind fun w text p' hw h => ?_
  obtain ⟨rfl, rfl⟩ := h
  refine .pure ⟨?_, ?_⟩
  · rw [Statement.sql_delete _ _ ((safeWhere_spec hw).fits w rfl)]
    rfl
  · simp [Statement.prepare, Statement.tokens, slots, Parameters.bindAll]

/-- Columns that are set to what was proposed for them bind nothing. -/
theorem renderEach_proposed (d : Dialect) (bound : Nat) (columns : List String) :
    renderEach d bound ((columns.map fun k =>
        ({ column := k, source := .proposed } : Assignment)).map (·.tokens d))
      = columns.map fun k => d.quoteName k ++ " = " ++ d.proposedText (d.quoteName k) := by
  rw [List.map_map]
  exact renderEach_map columns (fun k _ => Assignment.render_proposed k)
    fun k => by cases d <;> rfl

/-- What an upsert changes is written as it is compiled, and there is something in any case. -/
theorem writeChanges_follows (hp : p.dialect = env.dialect) {keyColumns : List String}
    (hkeys : keyColumns ≠ []) (update : Row) :
    (q.writeChanges env keyColumns update).Follows p
      (fun as texts p' => as ≠ []
        ∧ texts = renderEach p.dialect p.bound.length (as.map (·.tokens p.dialect))
        ∧ p' = p.bindAll (slots (assignmentList p.dialect as)))
      (if update.isEmpty then
          .ok (keyColumns.map fun k => { column := k, source := .proposed })
        else assignmentsOf env.schema (some q.model) update) := by
  unfold writeChanges
  split
  next hempty =>
    refine .pure ⟨by simpa using hkeys, ?_, ?_⟩
    · rw [← hp]
      exact (renderEach_proposed ..).symm
    · rw [slots_proposed, Parameters.bindAll_nil]
  next hsome =>
    refine (writeAssignments_follows hp update).imp fun as texts p' hassignments h => ?_
    obtain ⟨rfl, rfl⟩ := h
    have hne : update ≠ [] := fun hnil => hsome (List.isEmpty_iff.mpr hnil)
    exact ⟨assignments_ne_nil hne hassignments, rfl,
      by rw [slots_assignmentsOf hassignments]⟩

/-- The pass over an upsert binds the new row before the changes, as the text has them. -/
theorem writeUpsert_follows (keys : List String) (create update : Row) :
    (q.writeUpsert env keys create update).Follows { dialect := env.dialect } (Ends env.dialect)
      (q.compileUpsert env keys create update) := by
  unfold writeUpsert compileUpsert
  refine .check fun hkeys => .check fun _ => .lift fun _ _ => .lift fun _ _ => .lift fun table _ =>
    .lift fun columns _ => .after (writeGroup_apply ..) (.lift fun keyColumns hkeyColumns => ?_)
  have hsome : keyColumns ≠ [] := by
    rintro rfl
    have hnone := (forall₂_of_mapM hkeyColumns).length_eq
    rw [List.length_nil, List.length_eq_zero_iff] at hnone
    rw [hnone] at hkeys
    cases hkeys
  rw [Writer.choice_bind]
  refine (writeChanges_follows rfl hsome update).bind fun assignments texts p' _ h => ?_
  obtain ⟨hne, rfl, rfl⟩ := h
  refine .pure ⟨?_, ?_⟩
  · rw [Statement.sql_upsert _ _ _ (by simp) hne, render_assignmentList]
    simp [groupTexts]
  · have hconflict : slots (Conflict.tokens env.dialect { keys := keyColumns, assignments })
        = slots (assignmentList env.dialect assignments) := by
      unfold Conflict.tokens
      cases env.dialect <;> simp [Dialect.onConflict, slots, nameList]
    simp [Statement.prepare, Statement.tokens, insertInto, slots, Parameters.bindAll, hconflict]

/-- The pass over a query for rows or aggregates ends in its selection. -/
theorem writeSelect_ends (q : Query) (env : Env) :
    (q.writeSelect env).Follows { dialect := env.dialect }
      (fun s c p' => Ends env.dialect (.select s.1) c.1 p' ∧ c.2 = s.2) (q.compileSelect env) := by
  refine (q.writeSelect_follows env).imp fun s c p' hs h => ?_
  obtain ⟨rfl, rfl⟩ := h
  obtain ⟨plan, h⟩ := selectedAs_of_compileSelect hs
  have hjoins : ∀ j ∈ s.1.joins, Closes (j.on.tokens env.dialect) := by
    intro j hj
    rw [h.joins_eq] at hj
    obtain ⟨site, -, hsite⟩ := exists_mem_of_forall₂ (Inclusion.compileJoins_spec h.plan_eq).2 j hj
    exact hsite.fits.closes env.dialect
  have htext := s.1.render_tokens env.dialect h.items_ne_nil hjoins
    (Filter.compileNode_spec env _ _ 1 _ h.where_eq).fits
    (Filter.compileNode_spec env _ _ 1 _ h.having_eq).fits
  exact ⟨⟨htext.symm, rfl⟩, rfl⟩

/-- The pass over a query that writes ends in its statement, and there is one exactly where the
query is compiled to one. -/
theorem writeWrite?_follows (q : Query) (env : Env) :
    Option.Rel (fun w x => w.Follows { dialect := env.dialect } (Ends env.dialect) x)
      (q.writeWrite? env) (q.compileWrite? env) := by
  unfold writeWrite? compileWrite?
  cases q.payload with
  | create row => exact .some (writeCreate_follows row)
  | createMany rows => exact .some (writeCreateMany_follows rows)
  | update row => exact .some (writeUpdate_follows row)
  | upsert keys create update => exact .some (writeUpsert_follows keys create update)
  | none =>
    dsimp only
    split
    · exact .some writeDelete_follows
    · exact .none

/-- The pass over a query writes the text of the statement that the query compiles to, binds its
arguments and shapes the result alike; it is refused where the query is, for the same cause. -/
theorem write_follows (q : Query) (env : Env) :
    (q.write env).Follows { dialect := env.dialect }
      (fun c out p' => Ends env.dialect c.statement out.1 p' ∧ out.2 = c.mapping)
      (q.compile env) := by
  unfold write compile
  refine .lift fun _ _ => ?_
  have hwrites := q.writeWrite?_follows env
  generalize q.writeWrite? env = w at hwrites
  generalize q.compileWrite? env = x at hwrites
  cases hwrites with
  | some hends => exact hends.bind fun s text p' _ h => .pure ⟨h, rfl⟩
  | none =>
    rw [← bind_pure (q.writeSelect env)]
    exact (q.writeSelect_ends env).bind fun s out p' _ h => .pure h

end Query

/-- A query that compiles is written in one pass, which hands a list of bound values on from
builder to builder: what it writes is the text of the compiled query, and what it has bound in the
end are the arguments. Outside quoted names that text holds the placeholders of the bound values
in the order in which they were bound, each once, and no other dollar sign or question mark. -/
theorem placeholders_of_compile {q : Query} {env : Env} {c : Compiled}
    (h : q.compile env = .ok c) :
    ∃ text bound,
      q.write env { dialect := env.dialect }
        = (.ok (text, c.mapping), { dialect := env.dialect, bound }) ∧
      c.statement.prepare env.dialect = { sql := text, args := bound } ∧
      placeholders env.dialect.quote text = some (densePlaceholders env.dialect bound.length) ∧
      placeholderMarks env.dialect.quote text
        = List.replicate bound.length (placeholderMark env.dialect) := by
  have hfollows := q.write_follows env
  rw [h] at hfollows
  cases hfollows with
  | @ok _ out p' hrun hpost =>
    obtain ⟨text, mapping⟩ := out
    obtain ⟨⟨rfl, rfl⟩, rfl⟩ := hpost
    exact ⟨_, _, hrun, rfl, c.statement.placeholders_prepare env.dialect,
      c.statement.placeholderMarks_prepare env.dialect⟩

/-- The names hold dollar signs, question marks and quote characters, and the pass binds the value
of the inclusion before those of the root. -/
theorem placeholders_of_compile_awkward :
    ∃ c text, awkwardQuery.compile { schema := awkwardSchema, dialect := .postgres } = .ok c ∧
      awkwardQuery.write { schema := awkwardSchema, dialect := .postgres } { dialect := .postgres }
        = (.ok (text, c.mapping),
            { dialect := .postgres, bound := [.bool true, .int 1, .int 2, .null] }) ∧
      c.statement.prepare .postgres
        = { sql := text, args := [.bool true, .int 1, .int 2, .null] } ∧
      placeholders '"' text = some ["$1", "$2", "$3", "$4"] ∧
      placeholderMarks '"' text = ['$', '$', '$', '$'] := by
  have hargs : (awkwardQuery.compile { schema := awkwardSchema, dialect := .postgres }).map
      (fun c => (c.statement.prepare .postgres).args)
      = .ok [.bool true, .int 1, .int 2, .null] := by decide
  cases hc : awkwardQuery.compile { schema := awkwardSchema, dialect := .postgres } with
  | error e =>
    rw [hc] at hargs
    cases hargs
  | ok c =>
    obtain ⟨text, bound, hwrite, hprepare, hread⟩ := placeholders_of_compile hc
    rw [hc] at hargs
    have hbound : (c.statement.prepare .postgres).args = [.bool true, .int 1, .int 2, .null] :=
      Except.ok.inj hargs
    obtain rfl : bound = _ := (congrArg (·.args) hprepare).symm.trans hbound
    exact ⟨c, text, rfl, hwrite, hprepare, hread⟩

end SqlQuery
