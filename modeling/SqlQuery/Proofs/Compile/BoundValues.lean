import SqlQuery.Proofs.Compile.Parts
import SqlQuery.Proofs.Compile.Route

/-!
# Every value is bound in its own place

`Query.boundValues` is what a query binds, in order, told from the query alone and
without any dialect; `Query.parts` are the conditions, rows and assignments that these
values belong to. Each way through the compilation writes the parts of its query.

> `Query.bound_of_compile`: the arguments of a compiled query are its bound values, and
> every placeholder of the text stands in the part that its argument belongs to.
-/

namespace SqlQuery

open Sql

/-! ## Reference values and their parts -/

namespace Query

/-- The values that a query for rows or aggregates binds. -/
def readValues (q : Query) : List Value :=
  (Inclusion.preorderOf q.inclusions).flatMap (·.ownFilter.boundValues)
    ++ q.seekFilter.boundValues ++ q.having.boundValues

/-- The values that a query binds, in order, whatever the dialect. The rows of one
insertion all have the fields of the first one, in its order. -/
def boundValues (q : Query) : List Value :=
  match q.operation, q.payload with
  | .create, .create row => row.values
  | .createMany, .createMany (first :: rest) =>
    (first :: rest).flatMap fun row => row.inOrder first.fields
  | .update, .update row | .updateMany, .update row => row.values ++ q.filter.boundValues
  | .delete, _ | .deleteMany, _ => q.filter.boundValues
  | .upsert, .upsert _ create update => create.values ++ update.values
  | _, _ => q.readValues

/-- The parts of a query for rows or aggregates. -/
def readParts (q : Query) (schema : Schema) : List Part :=
  (Inclusion.sitesOf schema q.model q.inclusions).flatMap (·.parts schema)
    ++ q.seekFilter.parts q.model .where_ ++ q.having.parts q.model .having

/-- The parts of a query that bind its values, in the order of the text. -/
def parts (q : Query) (schema : Schema) : List Part :=
  match q.operation, q.payload with
  | .create, .create row => [.columns q.model row.fields, .row row.values]
  | .createMany, .createMany (first :: rest) =>
    .columns q.model first.fields
      :: (first :: rest).map fun row => .row (row.inOrder first.fields)
  | .update, .update row | .updateMany, .update row =>
    row.parts q.model ++ q.filter.parts q.model .where_
  | .delete, _ | .deleteMany, _ => q.filter.parts q.model .where_
  | .upsert, .upsert _ create update =>
    [.columns q.model create.fields, .row create.values] ++ update.parts q.model
  | _, _ => q.readParts schema

/-! ## The ways to write -/

/-- The first of some rows decides about their fields. -/
theorem commonFields_spec {site : WriteSite} {rows : List Row} {fields : List String}
    (h : commonFields site rows = .ok fields) :
    ∃ first rest, rows = first :: rest ∧ fields = first.fields := by
  cases rows with
  | nil => cases h
  | cons first rest =>
    refine ⟨first, rest, rfl, ?_⟩
    unfold commonFields at h
    have h := check_eq_ok h
    obtain ⟨-, -, h⟩ := bind_eq_ok.mp h
    obtain ⟨-, -, h⟩ := bind_eq_ok.mp h
    cases h
    rfl

/-- The condition of an update or a deletion is what the filter compiles to. -/
theorem compile_of_safeWhere {q : Query} {env : Env} {p : Predicate}
    (h : q.safeWhere env = .ok p) :
    q.filter.compile env { model := some q.model } = .ok (some p) := by
  unfold safeWhere at h
  obtain ⟨p', hp, h⟩ := bind_eq_ok.mp h
  cases p' with
  | none => cases h
  | some p' =>
    cases h
    exact Refusal.forget_eq_ok.mp hp

/-- The condition of an update or a deletion means what the filter means. -/
theorem safeWhere_spec {q : Query} {env : Env} {p : Predicate} (h : q.safeWhere env = .ok p) :
    q.filter.CompiledTo env { model := some q.model } (some p) :=
  Filter.compileNode_spec env _ q.filter 1 _ (compile_of_safeWhere h)

/-- An insertion holds the columns of its row, and then the row. -/
theorem carries_create {q : Query} {env : Env} {row : Row} {s : Statement}
    (h : q.compileCreate env row = .ok s) :
    Carries env [.columns q.model row.fields, .row row.values] (s.tokens env.dialect) := by
  unfold compileCreate at h
  obtain ⟨-, -, h⟩ := bind_eq_ok.mp h
  obtain ⟨table, -, h⟩ := bind_eq_ok.mp h
  obtain ⟨columns, hcolumns, h⟩ := bind_eq_ok.mp h
  cases h
  have hinsert := carries_insert table [row.values] hcolumns
  exact (hinsert.append_glue rfl).append_glue (slots_returning env.dialect true)

/-- Rows are held in the order of the first row's fields. -/
theorem carries_createMany {q : Query} {env : Env} {rows : List Row} {s : Statement}
    (h : q.compileCreateMany env rows = .ok s) :
    ∃ first rest, rows = first :: rest ∧
      Carries env (.columns q.model first.fields
          :: rows.map fun row => .row (row.inOrder first.fields)) (s.tokens env.dialect) := by
  unfold compileCreateMany at h
  obtain ⟨table, -, h⟩ := bind_eq_ok.mp h
  obtain ⟨⟨columns, values⟩, hvalues, h⟩ := bind_eq_ok.mp h
  cases h
  unfold insertion at hvalues
  obtain ⟨fields, hfields, hvalues⟩ := bind_eq_ok.mp hvalues
  obtain ⟨columns', hcolumns, hvalues⟩ := bind_eq_ok.mp hvalues
  cases hvalues
  obtain ⟨first, rest, rfl, rfl⟩ := commonFields_spec hfields
  have hinsert := carries_insert table
    ((first :: rest).map fun row => row.inOrder first.fields) hcolumns
  rw [List.map_map] at hinsert
  refine ⟨first, rest, rfl, ?_⟩
  exact (hinsert.append_glue rfl).append_glue (slots_returning env.dialect true)

/-- An update holds what it sets before its conditions. -/
theorem carries_update {q : Query} {env : Env} {row : Row} {s : Statement}
    (h : q.compileUpdate env row = .ok s) :
    Carries env (row.parts q.model ++ q.filter.parts q.model .where_) (s.tokens env.dialect) := by
  unfold compileUpdate at h
  obtain ⟨-, -, h⟩ := bind_eq_ok.mp h
  obtain ⟨table, -, h⟩ := bind_eq_ok.mp h
  obtain ⟨assignments, hassignments, h⟩ := bind_eq_ok.mp h
  obtain ⟨p, hp, h⟩ := bind_eq_ok.mp h
  cases h
  have hset := (carries_assignments hassignments).glue_append
    [.word .update, .name table, .word .set] rfl
  have hwhere := (safeWhere_spec hp).carries.glue_append
    [.word .where_] rfl
  exact (hset.append hwhere).append_glue (slots_returning env.dialect _)

theorem carries_delete {q : Query} {env : Env} {s : Statement} (h : q.compileDelete env = .ok s) :
    Carries env (q.filter.parts q.model .where_) (s.tokens env.dialect) := by
  unfold compileDelete at h
  obtain ⟨table, -, h⟩ := bind_eq_ok.mp h
  obtain ⟨p, hp, h⟩ := bind_eq_ok.mp h
  cases h
  have hwhere := (safeWhere_spec hp).carries.glue_append
    [.word .delete, .word .from_, .name table, .word .where_] rfl
  exact hwhere.append_glue (slots_returning env.dialect _)

/-- An upsert holds the new row before what it sets. -/
theorem carries_upsert {q : Query} {env : Env} {keys : List String} {create update : Row}
    {s : Statement} (h : q.compileUpsert env keys create update = .ok s) :
    Carries env ([Part.columns q.model create.fields, .row create.values] ++ update.parts q.model)
      (s.tokens env.dialect) := by
  unfold compileUpsert at h
  have h := check_eq_ok (check_eq_ok h)
  obtain ⟨-, -, h⟩ := bind_eq_ok.mp h
  obtain ⟨-, -, h⟩ := bind_eq_ok.mp h
  obtain ⟨table, -, h⟩ := bind_eq_ok.mp h
  obtain ⟨columns, hcolumns, h⟩ := bind_eq_ok.mp h
  obtain ⟨keyColumns, -, h⟩ := bind_eq_ok.mp h
  obtain ⟨assignments, hassignments, h⟩ := choice_eq_ok h
  cases h
  have hupdate : Carries env (update.parts q.model)
      (assignmentList env.dialect assignments) := by
    split at hassignments
    next hempty =>
      -- nothing is to be updated, so the keys are assigned what they are already
      cases hassignments
      rw [List.isEmpty_iff.mp hempty]
      exact .glue (slots_proposed env.dialect keyColumns)
    next => exact carries_assignments hassignments
  have hinsert := carries_insert table [create.values] hcolumns
  have hconflict := carries_conflict (c := { keys := keyColumns, assignments }) hupdate
  exact (hinsert.append hconflict).append_glue (slots_returning env.dialect true)

/-- A selection holds the conditions of its joins, of its filter and of its groups, in this order.
-/
theorem carries_select {q : Query} {env : Env} {s : Select} {m : ResultMapping}
    (h : q.compileSelect env = .ok (s, m)) :
    Carries env (q.readParts env.schema) (s.tokens env.dialect) := by
  unfold compileSelect at h
  have h := check_eq_ok h
  obtain ⟨table, -, h⟩ := bind_eq_ok.mp h
  obtain ⟨plan, hplan, h⟩ := bind_eq_ok.mp h
  obtain ⟨⟨items, fields⟩, -, h⟩ := choice_eq_ok h
  obtain ⟨distinct, -, h⟩ := bind_eq_ok.mp h
  obtain ⟨where_, hwhere, h⟩ := bind_eq_ok.mp h
  obtain ⟨groupBy, -, h⟩ := bind_eq_ok.mp h
  obtain ⟨having, hhaving, h⟩ := bind_eq_ok.mp h
  obtain ⟨orderBy, -, h⟩ := bind_eq_ok.mp h
  cases h
  have hjoins := carries_joins (Inclusion.compileJoins_spec (Refusal.forget_eq_ok.mp hplan)).2
  have hwhere := Filter.compileNode_spec env _ _ _ _ (Refusal.forget_eq_ok.mp hwhere)
  have hhaving := Filter.compileNode_spec env _ _ _ _ (Refusal.forget_eq_ok.mp hhaving)
  exact carries_selection hjoins hwhere.carries hhaving.carries

/-! ## Whole queries -/

/-- What the parts of a selection bind is what the query lists. -/
theorem values_parts_of_select {q : Query} {env : Env} {s : Select} {m : ResultMapping}
    (h : q.compileSelect env = .ok (s, m)) :
    (q.readParts env.schema).flatMap Part.values = q.readValues := by
  unfold compileSelect at h
  have h := check_eq_ok h
  obtain ⟨table, -, h⟩ := bind_eq_ok.mp h
  obtain ⟨plan, hplan, -⟩ := bind_eq_ok.mp h
  obtain ⟨hpreorder, hjoins⟩ := Inclusion.compileJoins_spec (Refusal.forget_eq_ok.mp hplan)
  unfold readParts readValues
  rw [List.flatMap_append, List.flatMap_append, Filter.values_parts, Filter.values_parts,
    ← hpreorder, values_sites hjoins, List.flatMap_map]

/-- The values of the parts of a compiled query are its bound values, and its text
holds the parts. -/
theorem Route.carries {q : Query} {env : Env} {s : Statement} (h : q.Route env s) :
    (q.parts env.schema).flatMap Part.values = q.boundValues ∧
      Carries env (q.parts env.schema) (s.tokens env.dialect) := by
  cases h with
  | create hop hpayload hs =>
    simp only [parts, boundValues, hop, hpayload]
    exact ⟨by simp [Part.values], carries_create hs⟩
  | createMany hop hpayload hs =>
    obtain ⟨first, rest, rfl, hcarries⟩ := carries_createMany hs
    simp only [parts, boundValues, hop, hpayload]
    refine ⟨?_, hcarries⟩
    rw [List.flatMap_cons, List.flatMap_map]
    rfl
  | update hop hpayload hs =>
    rcases hop with hop | hop <;> simp only [parts, boundValues, hop, hpayload] <;>
      refine ⟨?_, carries_update hs⟩ <;>
      rw [List.flatMap_append, Row.values_parts, Filter.values_parts]
  | upsert hop hpayload hs =>
    simp only [parts, boundValues, hop, hpayload]
    refine ⟨?_, carries_upsert hs⟩
    rw [List.flatMap_append, Row.values_parts]
    simp [Part.values]
  | delete hop hpayload hs =>
    rcases hop with hop | hop <;> simp only [parts, boundValues, hop] <;>
      exact ⟨Filter.values_parts .., carries_delete hs⟩
  | select hdelete hkind hpayload hs =>
    -- without a payload all operations but deletions read
    have hread : q.parts env.schema = q.readParts env.schema ∧ q.boundValues = q.readValues := by
      unfold parts boundValues
      rw [hpayload]
      revert hkind hdelete
      cases q.operation <;> simp [expectedPayload]
    rw [hread.1, hread.2]
    exact ⟨values_parts_of_select hs, carries_select hs⟩

end Query

/-- The arguments of a compiled query are its bound values, whatever the dialect. The
text holds what the parts of the query are written as, one after the other; each part
binds its own values, and no placeholder stands outside the parts. -/
theorem Query.bound_of_compile {q : Query} {env : Env} {c : Compiled}
    (h : q.compile env = .ok c) :
    (c.statement.prepare env.dialect).args = q.boundValues ∧
      (q.parts env.schema).flatMap Part.values = q.boundValues ∧
      ∃ fragments pieces ls,
        List.Forall₂ (fun part f => part.Written env f ∧ slots f = part.values)
            (q.parts env.schema) fragments ∧
          (({ dialect := env.dialect } : Parameters).writeAll fragments).1.mapM
              (fun text => lexemes env.dialect.quote text.toList) = some pieces ∧
          lexemes env.dialect.quote (c.statement.prepare env.dialect).sql.toList = some ls ∧
          Woven Lexeme.isPlaceholder pieces ls := by
  obtain ⟨hvalues, hcarries⟩ := (route_of_compile h).carries
  have hslots := hcarries.slots_eq
  obtain ⟨fragments, hwritten, hwoven⟩ := hcarries
  have hpieces := mapM_lexemes_writeAll fragments { dialect := env.dialect }
  have hread := lexemes_render env.dialect 0 (c.statement.tokens env.dialect)
  refine ⟨?_, hvalues, fragments, _, _, ?_, hpieces, hread, hwoven.lexemes env.dialect 0⟩
  · show slots (c.statement.tokens env.dialect) = q.boundValues
    rw [hslots, hvalues]
  · exact hwritten.imp fun part f hpart => ⟨hpart, Part.slots_eq hpart⟩

/-- A schema of readers and the books that they have borrowed. -/
def librarySchema : Schema :=
  .ofModels
    [{ name := "Reader", table := "readers", relations :=
        [{ name := "books", toModel := "Book", fromFields := ["id"], toFields := ["reader"]
           kind := .oneToMany }] },
     { name := "Book", table := "books", fields :=
        [{ name := "reader", column := some "reader_id" }, { name := "late" }] }]

/-- A page of readers with their late books, whose filter is a disjunction. -/
def pagedQuery : Query :=
  let books : Query :=
    { model := "Book", operation := .findMany, filter := .and [.equals "late" (.bool true)] }
  { model := "Reader", operation := .findMany
    filter := .or [.equals "name" (.string "a"), .isIn "age" (.array [.int 2, .null])]
    inclusions := [{ relation := "books", query := some books }]
    cursor := some { field := "id", value := .int 5 }
    having := .and [(Condition.equals "*" (.int 3)).onAggregate .count] }

/-- A page of an inclusion, a list with a null in it and a cursor, whose values are bound in this
order. -/
theorem Query.bound_of_compile_paged :
    ∃ c, pagedQuery.compile { schema := librarySchema, dialect := .sqlite } = .ok c ∧
      (c.statement.prepare .sqlite).args
        = [.bool true, .int 5, .string "a", .int 2, .null, .int 3] ∧
      ∃ fragments pieces ls,
        (({ dialect := .sqlite } : Parameters).writeAll fragments).1.mapM
            (fun text => lexemes '"' text.toList) = some pieces ∧
          lexemes '"' (c.statement.prepare .sqlite).sql.toList = some ls ∧
          Woven Lexeme.isPlaceholder pieces ls := by
  have hok : (match pagedQuery.compile { schema := librarySchema, dialect := .sqlite } with
      | .ok _ => true
      | .error _ => false) = true := by decide
  have hvalues : pagedQuery.boundValues
      = [.bool true, .int 5, .string "a", .int 2, .null, .int 3] := by decide
  cases hc : pagedQuery.compile { schema := librarySchema, dialect := .sqlite } with
  | error e =>
    rw [hc] at hok
    exact absurd hok (by simp)
  | ok c =>
    obtain ⟨hargs, -, fragments, pieces, ls, -, hpieces, hls, hwoven⟩ := bound_of_compile hc
    exact ⟨c, rfl, hargs.trans hvalues, fragments, pieces, ls, hpieces, hls, hwoven⟩

end SqlQuery
