import SqlQuery.Proofs.Compile.NestedArguments
import SqlQuery.Proofs.Compile.Refusals
import SqlQuery.Proofs.Sql.Spacing

/-!
# Nothing is changed without a condition

An update or a deletion without WHERE would reach every row of its table, and an update
below a parent without one would take every row of a relation for the parent. Both are
refused, and whether a filter says anything is found out by compiling it: a tree of empty
groups compiles to nothing just as an empty filter does.

> `Query.missingSafetyPredicate_of_empty`: a query that lacks nothing but a condition is
> refused for that.

> `Query.empty_of_missingSafetyPredicate`: a query with a condition is not.

> `Query.writtenWhere_of_compile`: what is compiled has its filter behind WHERE.

> `NestedScope.missingWhere_of_empty`: the same of changes to a relation that need a filter.
-/

namespace SqlQuery

open Sql

/-- Whether an operation changes or removes the rows that a filter picks. -/
def Operation.needsFilter : Operation → Bool
  | .update | .updateMany | .delete | .deleteMany => true
  | _ => false

namespace Query

/-- A query whose data and model are in order, whatever its filter is: the payload is the
one of its operation, fields and model are known, and no writes to relations stand where
none can. -/
inductive ReadyToWrite (q : Query) (env : Env) : Prop where
  | update {row : Row} {table : String} :
      (q.operation = .update ∨ q.operation = .updateMany) → q.payload = .update row →
      (q.writes = [] ∨ q.operation = .update) → row ≠ [] → row.fields.Nodup →
      (∀ field ∈ row.fields, ∃ column, env.schema.column q.model field = .ok column) →
      env.schema.table q.model = .ok table → ReadyToWrite q env
  | delete {table : String} :
      (q.operation = .delete ∨ q.operation = .deleteMany) → q.payload = .none → q.writes = [] →
      env.schema.table q.model = .ok table → ReadyToWrite q env

/-- The end of the text of a query's update or deletion: on PostgreSQL the written row is
asked for where the operation writes one. -/
def tail (q : Query) (d : Dialect) : String :=
  if d = .postgres ∧ (q.operation = .update ∨ q.operation = .delete) then " RETURNING *" else ""

/-- The text of a query's update or deletion has behind WHERE what the filter is compiled to
after the values of the row, and that is not empty. -/
inductive WrittenWhere (q : Query) (env : Env) (sql : String) : Prop where
  | update {row : Row} {table text : String} {assignments : List Assignment} :
      (q.operation = .update ∨ q.operation = .updateMany) → q.payload = .update row →
      env.schema.table q.model = .ok table →
      assignmentsOf env.schema (some q.model) row = .ok assignments →
      (({ dialect := env.dialect, bound := row.values } : Parameters).writePredicate
        (q.filter.compile env { model := some q.model })).1 = .ok text →
      text ≠ "" →
      sql = "UPDATE " ++ env.dialect.quoteName table ++ " SET "
        ++ env.dialect.render 0 (assignmentList env.dialect assignments) ++ " WHERE " ++ text
        ++ q.tail env.dialect → WrittenWhere q env sql
  | delete {table text : String} :
      (q.operation = .delete ∨ q.operation = .deleteMany) →
      env.schema.table q.model = .ok table →
      (({ dialect := env.dialect } : Parameters).writePredicate
        (q.filter.compile env { model := some q.model })).1 = .ok text →
      text ≠ "" →
      sql = "DELETE FROM " ++ env.dialect.quoteName table ++ " WHERE " ++ text
        ++ q.tail env.dialect → WrittenWhere q env sql

variable {q : Query} {env : Env}

/-! ## Queries without a condition -/

/-- A filter without conditions is refused, if it is not too deep to be looked at. -/
theorem safeWhere_of_empty (hempty : q.filter.allConditions = [])
    (hdepth : q.filter.height ≤ env.maxDepth) :
    q.safeWhere env = .error (.missingSafetyPredicate q.operation q.model) := by
  unfold safeWhere
  rw [Filter.compile_of_empty hempty hdepth]
  rfl

/-- The fields of a row are assigned where all of them are known. -/
theorem exists_assignmentsOf {schema : Schema} {model : Option String} {row : Row}
    (h : ∀ field ∈ row.fields, ∃ column, schema.columnOf model field = .ok column) :
    ∃ assignments, assignmentsOf schema model row = .ok assignments := by
  unfold assignmentsOf columnsOf
  cases hcolumns : row.fields.mapM (schema.columnOf model) with
  | ok columns => exact ⟨_, rfl⟩
  | error e =>
    obtain ⟨field, hfield, he⟩ := exists_mem_of_mapM_eq_error hcolumns
    obtain ⟨column, hcolumn⟩ := h field hfield
    rw [hcolumn] at he
    cases he

/-- A row with fields, none of them twice, is accepted. -/
theorem checkRow_of_nodup {site : WriteSite} {row : Row} (hne : row ≠ [])
    (hnodup : row.fields.Nodup) : checkRow site row = .ok () := by
  unfold checkRow
  rw [if_neg (by simpa using hne)]
  exact Row.checkUnique_eq_ok_iff.mpr hnodup

/-- An update is what its payload is compiled to. -/
theorem compile_of_update {row : Row} (hcheck : q.checkPayload = .ok ())
    (hpayload : q.payload = .update row) :
    q.compile env
      = (do
          return { statement := ← q.compileUpdate env row, mapping := { model := q.model } }) := by
  unfold compile compileWrite?
  rw [hcheck, hpayload]
  rfl

/-- A query without payload that deletes is what the deletion is compiled to. -/
theorem compile_of_delete (hcheck : q.checkPayload = .ok ()) (hpayload : q.payload = .none)
    (hop : q.operation = .delete ∨ q.operation = .deleteMany) :
    q.compile env
      = (do return { statement := ← q.compileDelete env, mapping := { model := q.model } }) := by
  unfold compile compileWrite?
  rw [hcheck, hpayload]
  dsimp only
  rw [if_pos hop]
  rfl

/-- A query that is ready to write has the payload that its operation takes. -/
theorem ReadyToWrite.checkPayload (h : q.ReadyToWrite env) : q.checkPayload = .ok () := by
  unfold Query.checkPayload
  cases h with
  | update hop hpayload hwrites =>
    rw [hpayload]
    rcases hop with hop | hop
    · rw [hop]
      simp [expectedPayload, Payload.kind, Operation.acceptsNestedWrites]
    · have hnone : q.writes = [] := by simpa [hop] using hwrites
      rw [hop, hnone]
      simp [expectedPayload, Payload.kind]
  | delete hop hpayload hwrites =>
    rw [hpayload, hwrites]
    rcases hop with hop | hop <;> rw [hop] <;> rfl

/-- A query that lacks nothing but a condition is refused for that. -/
theorem missingSafetyPredicate_of_empty (hready : q.ReadyToWrite env)
    (hdepth : q.filter.height ≤ env.maxDepth) (hempty : q.filter.allConditions = []) :
    q.compile env = .error (.missingSafetyPredicate q.operation q.model) := by
  have hcheck := hready.checkPayload
  have hwhere := safeWhere_of_empty hempty hdepth
  cases hready with
  | update hop hpayload hwrites hne hnodup hfields htable =>
    obtain ⟨assignments, hassignments⟩ :
        ∃ assignments, assignmentsOf env.schema (some q.model) _ = .ok assignments :=
      exists_assignmentsOf hfields
    rw [compile_of_update hcheck hpayload]
    unfold compileUpdate
    rw [checkRow_of_nodup hne hnodup, htable, hassignments, hwhere]
    rfl
  | delete hop hpayload hwrites htable =>
    rw [compile_of_delete hcheck hpayload hop]
    unfold compileDelete
    rw [htable, hwhere]
    rfl

/-! ## Queries with a condition -/

/-- For the want of a condition only filters without any are refused. -/
theorem empty_of_safeWhere {operation : Operation} {model : String}
    (h : q.safeWhere env = .error (.missingSafetyPredicate operation model)) :
    q.filter.allConditions = [] := by
  unfold safeWhere at h
  rcases bind_eq_error.mp h with h | ⟨p, hp, h⟩
  · obtain ⟨r, hr, hcause⟩ := Refusal.forget_eq_error.mp h
    rcases Filter.refused_of_compile hr with ⟨-, hdeep⟩ | ⟨c, -, ⟨reason, hop⟩ | hname⟩
    · rw [hcause] at hdeep
      cases hdeep
    · rw [hcause] at hop
      cases hop
    · rw [hcause] at hname
      cases hname
  · cases p with
    | none => exact Filter.empty_of_compile (Refusal.forget_eq_ok.mp hp)
    | some p => cases h

/-- An operation that needs a filter takes a row to update, or deletes. -/
theorem payload_of_needsFilter (hop : q.operation.needsFilter = true)
    (hkind : expectedPayload q.operation = q.payload.kind) :
    (∃ row, q.payload = .update row) ∨
      q.payload = .none ∧ (q.operation = .delete ∨ q.operation = .deleteMany) := by
  cases hoperation : q.operation <;> rw [hoperation] at hop hkind <;> try cases hop
  case update | updateMany =>
    cases hpayload : q.payload <;> rw [hpayload] at hkind <;> cases hkind
    exact Or.inl ⟨_, rfl⟩
  case delete =>
    cases hpayload : q.payload <;> rw [hpayload] at hkind <;> cases hkind
    exact Or.inr ⟨rfl, Or.inl rfl⟩
  case deleteMany =>
    cases hpayload : q.payload <;> rw [hpayload] at hkind <;> cases hkind
    exact Or.inr ⟨rfl, Or.inr rfl⟩

/-- An update that is refused for the want of a condition has none. -/
theorem compileUpdate_eq_error {row : Row} {operation : Operation} {model : String}
    (h : q.compileUpdate env row = .error (.missingSafetyPredicate operation model)) :
    q.safeWhere env = .error (.missingSafetyPredicate operation model) := by
  unfold compileUpdate at h
  rcases bind_eq_error.mp h with h | ⟨-, -, h⟩
  · unfold checkRow checkUnique at h
    split at h
    · cases h
    · split at h <;> cases h
  · rcases bind_eq_error.mp h with h | ⟨table, -, h⟩
    · cases Schema.unknownName_of_table h
    · rcases bind_eq_error.mp h with h | ⟨assignments, -, h⟩
      · cases unknownName_of_assignmentsOf h
      · rcases bind_eq_error.mp h with h | ⟨p, -, h⟩
        · exact h
        · cases h

/-- A deletion that is refused for the want of a condition has none. -/
theorem compileDelete_eq_error {operation : Operation} {model : String}
    (h : q.compileDelete env = .error (.missingSafetyPredicate operation model)) :
    q.safeWhere env = .error (.missingSafetyPredicate operation model) := by
  unfold compileDelete at h
  rcases bind_eq_error.mp h with h | ⟨table, -, h⟩
  · cases Schema.unknownName_of_table h
  · rcases bind_eq_error.mp h with h | ⟨p, -, h⟩
    · exact h
    · cases h

/-- A query that is refused for the lack of a condition holds none. -/
theorem empty_of_missingSafetyPredicate (hop : q.operation.needsFilter = true)
    {operation : Operation} {model : String}
    (h : q.compile env = .error (.missingSafetyPredicate operation model)) :
    q.filter.allConditions = [] := by
  cases hcheck : q.checkPayload with
  | error e =>
    have he : q.compile env = .error e := by
      unfold compile
      rw [hcheck]
      rfl
    rw [h] at he
    cases he
    -- the check of the payload has errors of its own only
    unfold checkPayload at hcheck
    dsimp only at hcheck
    split at hcheck
    · cases hcheck
    · split at hcheck <;> cases hcheck
  | ok u =>
    rcases payload_of_needsFilter hop (kind_of_checkPayload hcheck) with
      ⟨row, hpayload⟩ | ⟨hpayload, hdelete⟩
    · rw [compile_of_update hcheck hpayload] at h
      rcases bind_eq_error.mp h with h | ⟨s, -, h⟩
      · exact empty_of_safeWhere (compileUpdate_eq_error h)
      · cases h
    · rw [compile_of_delete hcheck hpayload hdelete] at h
      rcases bind_eq_error.mp h with h | ⟨s, -, h⟩
      · exact empty_of_safeWhere (compileDelete_eq_error h)
      · cases h

/-! ## The text of what is compiled -/

/-- A filter that is compiled is written to its text, which is not empty. -/
theorem writePredicate_of_safeWhere {p : Predicate} (h : q.safeWhere env = .ok p)
    (bound : List Value) :
    (({ dialect := env.dialect, bound } : Parameters).writePredicate
        (q.filter.compile env { model := some q.model })).1
          = .ok (env.dialect.render bound.length (p.tokens env.dialect)) ∧
      env.dialect.render bound.length (p.tokens env.dialect) ≠ "" ∧ p.FitsAt .alone := by
  have hspec := safeWhere_spec h
  refine ⟨?_, (hspec.filled env.dialect).render_ne_empty _ _, hspec.fits p rfl⟩
  rw [compile_of_safeWhere h]
  rfl

/-- Only the update of one row asks for what it writes. -/
theorem returningText_update (hop : q.operation = .update ∨ q.operation = .updateMany) :
    returningText env.dialect (q.operation = .update) = q.tail env.dialect := by
  unfold returningText tail Dialect.returnsRows
  rcases hop with hop | hop <;> cases env.dialect <;> simp [hop]

/-- Only the deletion of one row asks for what it deletes. -/
theorem returningText_delete (hop : q.operation = .delete ∨ q.operation = .deleteMany) :
    returningText env.dialect (q.operation = .delete) = q.tail env.dialect := by
  unfold returningText tail Dialect.returnsRows
  rcases hop with hop | hop <;> cases env.dialect <;> simp [hop]

/-- The text of an update ends in its condition, and in what it asks for. -/
theorem writtenWhere_of_update {row : Row} {s : Statement}
    (hop : q.operation = .update ∨ q.operation = .updateMany) (hpayload : q.payload = .update row)
    (h : q.compileUpdate env row = .ok s) :
    q.WrittenWhere env (s.prepare env.dialect).sql := by
  unfold compileUpdate at h
  obtain ⟨u, hrow, h⟩ := bind_eq_ok.mp h
  obtain ⟨table, htable, h⟩ := bind_eq_ok.mp h
  obtain ⟨assignments, hassignments, h⟩ := bind_eq_ok.mp h
  obtain ⟨p, hp, h⟩ := bind_eq_ok.mp h
  cases h
  have hslots := slots_assignmentsOf hassignments env.dialect
  obtain ⟨htext, hne, hfits⟩ := writePredicate_of_safeWhere hp row.values
  have hsome : assignments ≠ [] := by
    intro hnil
    rw [hnil] at hslots
    have hvalues : row.values = [] := hslots.symm
    unfold checkRow at hrow
    rw [if_pos (by simpa [Row.values] using hvalues)] at hrow
    cases hrow
  refine .update hop hpayload htable hassignments htext hne ?_
  rw [Statement.sql_update _ _ hsome hfits, hslots, returningText_update hop]

/-- The text of a deletion ends in its condition, and in what it asks for. -/
theorem writtenWhere_of_delete {s : Statement}
    (hop : q.operation = .delete ∨ q.operation = .deleteMany)
    (h : q.compileDelete env = .ok s) : q.WrittenWhere env (s.prepare env.dialect).sql := by
  unfold compileDelete at h
  obtain ⟨table, htable, h⟩ := bind_eq_ok.mp h
  obtain ⟨p, hp, h⟩ := bind_eq_ok.mp h
  cases h
  obtain ⟨htext, hne, hfits⟩ := writePredicate_of_safeWhere hp []
  refine .delete hop htable htext hne ?_
  rw [Statement.sql_delete _ _ hfits, returningText_delete hop]
  rfl

/-- A query that needs a filter and is compiled has it behind WHERE. -/
theorem writtenWhere_of_compile (hop : q.operation.needsFilter = true) {c : Compiled}
    (h : q.compile env = .ok c) : q.WrittenWhere env (c.statement.prepare env.dialect).sql := by
  have hroute := route_of_compile h
  generalize c.statement = s at hroute ⊢
  cases hroute with
  | update hupdate hpayload hs => exact writtenWhere_of_update hupdate hpayload hs
  | delete hdelete hpayload hs => exact writtenWhere_of_delete hdelete hs
  | create hcreate | createMany hcreate | upsert hcreate =>
    rw [hcreate] at hop
    cases hop
  | select hdelete hkind hpayload hs =>
    revert hop hkind hdelete
    cases q.operation <;> simp [Operation.needsFilter, expectedPayload]

end Query

/-! ## Changes to a relation -/

/-- The filter that a change cannot do without. -/
def RelationChange.neededFilter? : RelationChange → Option Filter
  | .connect f | .connectOrCreate f _ | .disconnect f => some f
  | _ => none

namespace NestedScope

variable {x : NestedScope} {f : Filter}

/-- Where a change needs a filter, one without conditions is refused. -/
theorem requiredWhere_of_empty (hempty : f.allConditions = [])
    (hdepth : f.height ≤ x.env.maxDepth) :
    x.requiredWhere f = .error (.missingWhere x.kind x.relation) := by
  unfold requiredWhere
  rw [Filter.compile_of_empty hempty hdepth]
  rfl

/-- Where a change needs a filter, one that is accepted has a condition. -/
theorem conditions_of_requiredWhere {p : Predicate} (h : x.requiredWhere f = .ok p) :
    f.allConditions ≠ [] := by
  intro hempty
  have hnone := (requiredWhere_spec h).none_iff.mpr ((Filter.isEmpty_iff f).mpr hempty)
  cases hnone

/-- A change that needs a filter is not compiled without a condition. -/
theorem conditions_of_compile {change : RelationChange} {statements : List Statement}
    (hf : change.neededFilter? = some f) (h : x.compile change = .ok statements) :
    f.allConditions ≠ [] := by
  cases change with
  | connect g =>
    cases hf
    obtain ⟨s, hs, -⟩ := bind_eq_ok.mp h
    obtain ⟨p, hp, -⟩ := bind_eq_ok.mp hs
    exact conditions_of_requiredWhere hp
  | connectOrCreate g row =>
    cases hf
    obtain ⟨-, -, h⟩ := bind_eq_ok.mp h
    obtain ⟨p, hp, -⟩ := bind_eq_ok.mp h
    exact conditions_of_requiredWhere hp
  | disconnect g =>
    cases hf
    obtain ⟨p, hp, -⟩ := bind_eq_ok.mp h
    exact conditions_of_requiredWhere hp
  | _ => cases hf

/-- A change that lacks nothing but a condition is refused for that. -/
theorem missingWhere_of_empty {change : RelationChange} (hf : change.neededFilter? = some f)
    (hempty : f.allConditions = []) (hdepth : f.height ≤ x.env.maxDepth)
    (hrow : ∀ row, change = .connectOrCreate f row → x.checkCreate row = .ok ()) :
    x.compile change = .error (.missingWhere x.kind x.relation) := by
  have hwhere := requiredWhere_of_empty hempty hdepth
  cases change with
  | connect g =>
    cases hf
    rw [compile]
    unfold connect
    rw [hwhere]
    rfl
  | connectOrCreate g row =>
    cases hf
    rw [compile, hrow row rfl, hwhere]
    rfl
  | disconnect g =>
    cases hf
    rw [compile, hwhere]
    rfl
  | _ => cases hf

/-- The text of the statement that ties the parent's rows to no parent. -/
theorem prepare_detach (x : NestedScope) (d : Dialect) :
    (Statement.update x.target.table [x.detach] (.all [x.scopeAtom]) false).prepare d
      = { sql := "UPDATE " ++ d.quoteName x.target.table ++ " SET "
            ++ d.quoteName x.target.foreignKey ++ " = NULL WHERE "
            ++ d.quoteName x.target.foreignKey ++ " = " ++ d.placeholder 1
          args := [x.key] } := by
  have hfits : (Predicate.all [x.scopeAtom]).FitsAt .alone := by
    refine .alone (.all ?_)
    intro r hr
    rw [List.mem_singleton.mp hr]
    exact .atom _
  have hset : d.render 0 (assignmentList d [x.detach])
      = d.quoteName x.target.foreignKey ++ " = NULL" := by
    have hnull : d.render 0 [Token.symbol (α := Value) .eq, .word .null] = "= NULL" := by
      simp [Dialect.render, number, layout, Token.chars, Token.touches, Keyword.text, Symbol.text,
        Symbol.holdsNext]
    show d.render 0 [.name x.target.foreignKey, .symbol .eq, .word .null] = _
    rw [render_name_cons d 0 _ (opens_cons rfl _), hnull, String.append_assoc]
    rfl
  have hwhere : d.render 0 ((Predicate.all [x.scopeAtom]).tokens d)
      = d.quoteName x.target.foreignKey ++ " = " ++ d.placeholder 1 := by
    have hkey : d.render 0 [Token.symbol .eq, .slot x.key] = "= " ++ d.placeholder 1 := by
      simp [Dialect.render, number, layout, Token.chars, Token.touches, Symbol.text,
        Symbol.holdsNext]
      rw [← String.append_assoc]
      rfl
    show d.render 0 [.name x.target.foreignKey, .symbol .eq, .slot x.key] = _
    have hblank : " " ++ ("= " ++ d.placeholder 1) = " = " ++ d.placeholder 1 := by
      rw [← String.append_assoc]
      rfl
    rw [render_name_cons d 0 _ (opens_cons rfl _), hkey, String.append_assoc, hblank,
      String.append_assoc]
  have hone : [x.detach] ≠ [] := by simp
  have hsql := Statement.sql_update d x.target.table hone hfits false
  have hnone : (slots (assignmentList d [x.detach])).length = 0 := rfl
  have htail : returningText d false = "" := rfl
  rw [hset, hnone, hwhere, htail, String.append_empty] at hsql
  have hglue : ∀ rest : String, " = NULL" ++ (" WHERE " ++ rest) = " = NULL WHERE " ++ rest := by
    intro rest
    rw [← String.append_assoc]
    rfl
  simp only [String.append_assoc, hglue] at hsql ⊢
  exact congrArg (fun sql => ({ sql, args := [x.key] } : Prepared)) hsql

end NestedScope

namespace NestedWrite

variable {env : Env} {parent : String} {key : Value}

/-- One of the writes of a list that is compiled is compiled between the others. -/
theorem compileAll_around {before after : List NestedWrite} {w : NestedWrite}
    {statements : List Statement}
    (h : compileAll env parent key (before ++ w :: after) = .ok statements) :
    ∃ first own last, compileAll env parent key before = .ok first ∧
      w.compile env parent key = .ok own ∧ compileAll env parent key after = .ok last ∧
      statements = first ++ (own ++ last) := by
  rw [compileAll_append, compileAll] at h
  obtain ⟨first, hfirst, h⟩ := bind_eq_ok.mp h
  obtain ⟨rest, hrest, h⟩ := bind_eq_ok.mp h
  obtain ⟨own, hown, hrest⟩ := bind_eq_ok.mp hrest
  obtain ⟨last, hlast, hrest⟩ := bind_eq_ok.mp hrest
  cases hrest
  cases h
  exact ⟨first, own, last, hfirst, hown, hlast, rfl⟩

/-- Among other writes too, a filter that is accepted has a condition. -/
theorem conditions_of_compileAll {before after : List NestedWrite} {w : NestedWrite} {f : Filter}
    {statements : List Statement} (hf : w.change.neededFilter? = some f)
    (h : compileAll env parent key (before ++ w :: after) = .ok statements) :
    f.allConditions ≠ [] := by
  obtain ⟨first, own, last, -, hown, -⟩ := compileAll_around h
  unfold compile at hown
  obtain ⟨target, -, hown⟩ := bind_eq_ok.mp hown
  exact NestedScope.conditions_of_compile hf hown

/-- A replacement whose filter holds no condition becomes one statement, which ties the
parent's rows to no parent. -/
theorem compile_set_of_empty {w : NestedWrite} {f : Filter} {statements : List Statement}
    (hset : w.change = .set f) (hempty : f.allConditions = [])
    (h : w.compile env parent key = .ok statements) :
    ∃ target s, w.target env.schema parent = .ok target ∧ statements = [s] ∧
      s.prepare env.dialect
        = { sql := "UPDATE " ++ env.dialect.quoteName target.table ++ " SET "
              ++ env.dialect.quoteName target.foreignKey ++ " = NULL WHERE "
              ++ env.dialect.quoteName target.foreignKey ++ " = " ++ env.dialect.placeholder 1
            args := [key] } := by
  unfold compile at h
  obtain ⟨target, htarget, h⟩ := bind_eq_ok.mp h
  rw [hset, NestedScope.compile] at h
  unfold NestedScope.replace at h
  rw [if_pos ((Filter.isEmpty_iff f).mpr hempty)] at h
  cases h
  exact ⟨target, _, htarget, rfl, NestedScope.prepare_detach _ _⟩

end NestedWrite

/-- Nothing is changed without a condition. A query that updates or deletes and lacks nothing
but a condition is refused for that; one with a condition anywhere in its filter never is; and
what is compiled has behind WHERE what the filter is compiled to, which is not empty. Changes to
a relation that need a filter become no statement without a condition, and a replacement without
one only ties the parent's own rows to no parent. -/
theorem no_unconditional_write (env : Env) :
    (∀ q : Query, q.operation.needsFilter = true →
      (q.ReadyToWrite env → q.filter.height ≤ env.maxDepth → q.filter.allConditions = [] →
          q.compile env = .error (.missingSafetyPredicate q.operation q.model)) ∧
        (q.filter.allConditions ≠ [] → ∀ operation model,
          q.compile env ≠ .error (.missingSafetyPredicate operation model)) ∧
        ∀ c, q.compile env = .ok c → q.WrittenWhere env (c.statement.prepare env.dialect).sql) ∧
      ∀ (parent : String) (key : Value) (before : List NestedWrite) (w : NestedWrite)
          (after : List NestedWrite) (f : Filter), f.allConditions = [] →
        (w.change.neededFilter? = some f →
          (∀ statements,
            NestedWrite.compileAll env parent key (before ++ w :: after) ≠ .ok statements) ∧
          ∀ target, w.target env.schema parent = .ok target →
            (∀ row, w.change = .connectOrCreate f row →
              ({ env, target, relation := w.relation, kind := w.change.kind, key } :
                NestedScope).checkCreate row = .ok ()) →
            f.height ≤ env.maxDepth →
            (∀ u ∈ before, ∃ statements, u.compile env parent key = .ok statements) →
              NestedWrite.compileAll env parent key (before ++ w :: after)
                = .error (.missingWhere w.change.kind w.relation)) ∧
        (w.change = .set f → ∀ statements,
          NestedWrite.compileAll env parent key (before ++ w :: after) = .ok statements →
            ∃ first last target s, NestedWrite.compileAll env parent key before = .ok first ∧
              NestedWrite.compileAll env parent key after = .ok last ∧
              statements = first ++ s :: last ∧ w.target env.schema parent = .ok target ∧
              s.prepare env.dialect
                = { sql := "UPDATE " ++ env.dialect.quoteName target.table ++ " SET "
                      ++ env.dialect.quoteName target.foreignKey ++ " = NULL WHERE "
                      ++ env.dialect.quoteName target.foreignKey ++ " = "
                      ++ env.dialect.placeholder 1
                    args := [key] }) := by
  refine ⟨?_, ?_⟩
  · intro q hop
    refine ⟨Query.missingSafetyPredicate_of_empty, ?_, fun c => Query.writtenWhere_of_compile hop⟩
    intro hsome operation model h
    exact hsome (Query.empty_of_missingSafetyPredicate hop h)
  · intro parent key before w after f hempty
    refine ⟨?_, ?_⟩
    · intro hf
      refine ⟨fun statements h => NestedWrite.conditions_of_compileAll hf h hempty, ?_⟩
      intro target htarget hrow hdepth hbefore
      refine NestedWrite.compileAll_eq_error_iff.mpr ⟨before, w, after, rfl, hbefore, ?_⟩
      unfold NestedWrite.compile
      rw [htarget]
      exact NestedScope.missingWhere_of_empty hf hempty hdepth hrow
    · intro hset statements h
      obtain ⟨first, own, last, hfirst, hown, hlast, rfl⟩ := NestedWrite.compileAll_around h
      obtain ⟨target, s, htarget, rfl, hs⟩ := NestedWrite.compile_set_of_empty hset hempty hown
      exact ⟨first, last, target, s, hfirst, hlast, rfl, htarget, hs⟩

/-- A deletion of all readers, whose filter is a tree of empty groups. -/
def purge : Query :=
  { model := "Reader", operation := .deleteMany, filter := .not [.and [], .or []] }

/-- A change of a reader's name. -/
def nameChange : Query :=
  { model := "Reader", operation := .update, filter := .not [.and [.equals "id" (.int 7)]]
    payload := .update [("name", .string "a")] }

/-- All books of a reader are given up: the filter of those to keep says nothing. -/
def giveUp : NestedWrite :=
  { relation := "books", change := .set (.not [.and []]) }

/-- A book is lent, whichever it is. -/
def lendAny : NestedWrite :=
  { relation := "books", change := .connectOrCreate (.not [.and []]) [("late", .null)] }

/-- Filters that say nothing are refused, in a list of writes too, and those that say something
stand behind WHERE. -/
theorem no_unconditional_write_purge :
    purge.compile { schema := librarySchema, dialect := .mysql }
        = .error (.missingSafetyPredicate .deleteMany "Reader") ∧
      (∀ operation model, nameChange.compile { schema := librarySchema, dialect := .postgres }
        ≠ .error (.missingSafetyPredicate operation model)) ∧
      (∃ c, nameChange.compile { schema := librarySchema, dialect := .postgres } = .ok c ∧
        nameChange.WrittenWhere { schema := librarySchema, dialect := .postgres }
          (c.statement.prepare .postgres).sql) ∧
      NestedWrite.compileAll { schema := librarySchema, dialect := .sqlite } "Reader" (.int 7)
          [giveUp, lendAny] = .error (.missingWhere .connectOrCreate "books") ∧
      ∃ s, NestedWrite.compileAll { schema := librarySchema, dialect := .sqlite } "Reader"
          (.int 7) [giveUp] = .ok [s] ∧
        s.prepare .sqlite
          = { sql := "UPDATE books SET reader_id = NULL WHERE reader_id = ?", args := [.int 7] } := by
  refine ⟨?_, ?_, ?_, ?_, ?_⟩
  · have hready : purge.ReadyToWrite { schema := librarySchema, dialect := .mysql } :=
      .delete (Or.inr rfl) rfl rfl (by decide : _ = Except.ok "readers")
    exact ((no_unconditional_write _).1 purge rfl).1 hready (by decide) (by decide)
  · exact ((no_unconditional_write _).1 nameChange rfl).2.1 (by decide)
  · have hok : (match nameChange.compile { schema := librarySchema, dialect := .postgres } with
        | .ok _ => true
        | .error _ => false) = true := by decide
    cases hc : nameChange.compile { schema := librarySchema, dialect := .postgres } with
    | error e =>
      rw [hc] at hok
      exact absurd hok (by simp)
    | ok c => exact ⟨c, rfl, ((no_unconditional_write _).1 nameChange rfl).2.2 c hc⟩
  · have htarget : lendAny.target librarySchema "Reader"
        = .ok { model := some "Book", table := "books", foreignKey := "reader_id" } := by decide
    refine (((no_unconditional_write { schema := librarySchema, dialect := .sqlite }).2 "Reader"
      (.int 7) [giveUp] lendAny [] (.not [.and []]) (by decide)).1 rfl).2 _ htarget ?_ (by decide) ?_
    · rintro row ⟨⟩
      decide
    · intro u hu
      rw [List.mem_singleton.mp hu]
      exact ⟨_, rfl⟩
  · have htarget : giveUp.target librarySchema "Reader"
        = .ok { model := some "Book", table := "books", foreignKey := "reader_id" } := by decide
    obtain ⟨first, last, target, s, hfirst, hlast, hs, hown, hprepared⟩ :=
      ((no_unconditional_write { schema := librarySchema, dialect := .sqlite }).2 "Reader"
        (.int 7) [] giveUp [] (.not [.and []]) (by decide)).2 rfl _ rfl
    cases hfirst
    cases hlast
    cases htarget.symm.trans hown
    exact ⟨s, congrArg Except.ok hs, hprepared.trans (by decide)⟩

/-- A deletion of all readers that carries a write to their books. -/
def carryingPurge : Query :=
  { model := "Reader", operation := .deleteMany, writes := [giveUp] }

/-- The payload and the nested writes of a query are checked before its filter is looked at, so
a deletion can be refused for these and not for its filter. On PostgreSQL more than the filter
stands behind WHERE. -/
theorem carryingPurge_nestedWritesNotAllowed :
    (¬∀ (env : Env) (q : Query), (q.operation = .delete ∨ q.operation = .deleteMany) →
      (∃ table, env.schema.table q.model = .ok table) → q.filter.height ≤ env.maxDepth →
      q.filter.allConditions = [] →
        q.compile env = .error (.missingSafetyPredicate q.operation q.model)) ∧
      ¬∀ (env : Env) (q : Query) (c : Compiled), q.operation = .update → q.compile env = .ok c →
        ∃ row table sets text, q.payload = .update row ∧
          (({ dialect := env.dialect, bound := row.values } : Parameters).writePredicate
            (q.filter.compile env { model := some q.model })).1 = .ok text ∧
          (c.statement.prepare env.dialect).sql
            = "UPDATE " ++ table ++ " SET " ++ sets ++ " WHERE " ++ text := by
  refine ⟨?_, ?_⟩
  · intro h
    have hrefused : carryingPurge.compile { schema := librarySchema, dialect := .postgres }
        = .error (.nestedWritesNotAllowed .deleteMany) := rfl
    have hclaimed := h { schema := librarySchema, dialect := .postgres } carryingPurge (Or.inr rfl)
      ⟨"readers", by decide⟩ (by decide) (by decide)
    rw [hrefused] at hclaimed
    cases hclaimed
  · intro h
    obtain ⟨row, table, sets, text, hpayload, htext, hsql⟩ :=
      h { schema := librarySchema, dialect := .postgres } nameChange _ rfl rfl
    cases hpayload
    have hfilter : (({ dialect := .postgres, bound := [.string "a"] } : Parameters).writePredicate
        (nameChange.filter.compile { schema := librarySchema, dialect := .postgres }
          { model := some nameChange.model })).1 = .ok "NOT (id = $2)" := by decide
    cases hfilter.symm.trans htext
    -- the text ends with the request for the written row and not with the filter
    have hstar : "UPDATE readers SET name = $1 WHERE NOT (id = $2) RETURNING *".toList.getLast?
        = some '*' := by decide
    have hclose : ∀ s : String, (s ++ "NOT (id = $2)").toList.getLast? = some ')' := by
      intro s
      rw [String.toList_append, List.getLast?_append]
      rfl
    have hlast := congrArg (fun sql : String => sql.toList.getLast?) hsql
    cases hstar.symm.trans (hlast.trans (hclose _))

end SqlQuery
