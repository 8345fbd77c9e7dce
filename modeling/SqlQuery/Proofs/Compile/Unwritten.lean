import SqlQuery.Proofs.Compile.BoundValues
import SqlQuery.Proofs.Compile.LikeQueries

/-!
# Values have no part in the text

The values of a query are bound and never written, but what is written still hangs on a few
things about them: whether they are null, how many an array holds, what a test for null is
compared with. `Query.Like` names these, and nothing else about a value is seen in the text,
in the mapping or in an error.

> `NestedWrite.agree_compileAll`: writes that are alike fail with one error, or become
> statements that are alike but for the values they bind.

> `values_unwritten`: queries and writes that are alike have one text.
-/

namespace SqlQuery

open Sql

/-! ## Writes to relations -/

namespace NestedScope

/-- The scope of another row of the parent. -/
def withKey (x : NestedScope) (key : Value) : NestedScope :=
  { x with key }

variable {x : NestedScope} {key : Value}

/-- Whether the foreign key is set does not hang on the parent's key. -/
theorem checkForeignKey_withKey (fields : List String) :
    (x.withKey key).checkForeignKey fields = x.checkForeignKey fields := by
  induction fields with
  | nil => rfl
  | cons field fields ih =>
    rw [checkForeignKey, checkForeignKey, ih]
    rfl

/-- The checks of a created row look at neither key nor values. -/
theorem checkCreate_withKey {row row' : Row} (h : row.Like row') :
    x.checkCreate row = (x.withKey key).checkCreate row' := by
  unfold checkCreate
  rw [h.checkRow_eq, h.fields_eq, checkForeignKey_withKey]
  rfl

/-- A filter is empty or not, whatever its values are. -/
theorem agree_requiredWhere {f f' : Filter} (h : f.Like f') :
    Agree (Predicate.Alike unvalued) (x.requiredWhere f) ((x.withKey key).requiredWhere f') := by
  unfold requiredWhere
  refine SameOutcome.bind h.compile.forget fun p p' hp => ?_
  cases hp with
  | none => exact .error rfl
  | some hp => exact .ok hp

/-- Conditions of the parent's key with a predicate beside them, if there is one. -/
theorem alike_scoped {p p' : Option Predicate} (hp : Option.Rel (Predicate.Alike unvalued) p p') :
    (Predicate.all (x.scopeAtom :: p.toList)).Alike unvalued
      (.all ((x.withKey key).scopeAtom :: p'.toList)) :=
  Predicate.Alike.beside
    (.cons (.compare false .eq (.column (ColumnRef.alike_self _)) trivial) .nil) hp

/-- The condition on the parent's rows binds the key, whatever it is. -/
theorem agree_scopedWhere {f f' : Filter} (h : f.Like f') :
    Agree (Predicate.Alike unvalued) (x.scopedWhere f) ((x.withKey key).scopedWhere f') := by
  unfold scopedWhere
  exact SameOutcome.bind h.compileOperand.forget fun p p' hp => .ok (alike_scoped hp)

/-- The key that a row is tied to is bound. -/
theorem alike_attach :
    List.Forall₂ (Assignment.Alike unvalued) [x.attach] [(x.withKey key).attach] :=
  .cons ⟨rfl, .value trivial⟩ .nil

theorem alike_detach :
    List.Forall₂ (Assignment.Alike unvalued) [x.detach] [(x.withKey key).detach] :=
  .cons ⟨rfl, .null⟩ .nil

theorem agree_connect {f f' : Filter} (h : f.Like f') :
    Agree (Statement.Alike unvalued) (x.connect f) ((x.withKey key).connect f') := by
  unfold connect
  exact SameOutcome.bind (agree_requiredWhere h) fun p p' hp => .ok (.update _ rfl alike_attach hp)

/-- Insertions of rows that are alike in pairs, below any key. -/
theorem agree_insert {rows rows' : List Row} (h : List.Forall₂ Row.Like rows rows') :
    Agree (Statement.Alike unvalued) (x.insert rows) ((x.withKey key).insert rows') := by
  have hfixed : [(x.target.foreignKey, x.key)].map (·.1)
      = [((x.withKey key).target.foreignKey, (x.withKey key).key)].map (·.1) := rfl
  unfold insert
  refine SameOutcome.bind (agree_insertion _ _ _ hfixed h) ?_
  rintro ⟨columns, values⟩ ⟨_, values'⟩ ⟨rfl, hvalues⟩
  exact .ok (.insert true rfl (names_self columns) hvalues .none)

theorem agree_insertUnless {row row' : Row} (h : row.Like row') {p p' : Predicate}
    (hp : p.Alike unvalued p') :
    Agree (Statement.Alike unvalued) (x.insertUnless row p)
      ((x.withKey key).insertUnless row' p') := by
  unfold insertUnless
  rw [h.fields_eq]
  refine Agree.bind_self fun columns _ => .ok ?_
  exact .insertUnless rfl (names_self (_ :: columns)) (.cons trivial h.values_related) hp

theorem agree_update {row row' : Row} (h : row.Like row') {f f' : Filter} (hf : f.Like f') :
    Agree (Statement.Alike unvalued) (x.update row f) ((x.withKey key).update row' f') := by
  unfold update
  refine SameOutcome.bind (h.agree_assignmentsOf _ _) fun as as' has => ?_
  exact SameOutcome.bind (agree_scopedWhere hf) fun p p' hp => .ok (.update _ rfl has hp)

theorem agree_delete {f f' : Filter} (h : f.Like f') :
    Agree (Statement.Alike unvalued) (x.delete f) ((x.withKey key).delete f') := by
  unfold delete
  exact SameOutcome.bind (agree_scopedWhere h) fun p p' hp => .ok (.delete _ rfl hp)

/-- A change that becomes one statement agrees where the statement does. -/
theorem agree_one {s s' : Except Error Statement} (h : Agree (Statement.Alike unvalued) s s') :
    Agree (List.Forall₂ (Statement.Alike unvalued)) (s >>= fun s => .ok [s])
      (s' >>= fun s => .ok [s]) :=
  SameOutcome.bind h fun _ _ hs => .ok (.cons hs .nil)

theorem agree_replace {f f' : Filter} (h : f.Like f') :
    Agree (List.Forall₂ (Statement.Alike unvalued)) (x.replace f) ((x.withKey key).replace f') := by
  have hdetach : (Statement.update x.target.table [x.detach] (.all [x.scopeAtom]) false).Alike
      unvalued (.update (x.withKey key).target.table [(x.withKey key).detach]
        (.all [(x.withKey key).scopeAtom]) false) :=
    .update _ rfl alike_detach (alike_scoped .none)
  unfold replace
  dsimp only
  rw [h.isEmpty_eq]
  refine SameOutcome.ite Iff.rfl (fun _ => .ok (.cons hdetach .nil)) fun _ => ?_
  exact SameOutcome.bind (agree_connect h) fun s s' hs => .ok (.cons hdetach (.cons hs .nil))

/-- Updates that set nothing are left out on both sides. -/
theorem agree_updateIfAny {row row' : Row} (h : row.Like row') {f f' : Filter} (hf : f.Like f') :
    Agree (List.Forall₂ (Statement.Alike unvalued)) (x.updateIfAny row f)
      ((x.withKey key).updateIfAny row' f') := by
  unfold updateIfAny
  rw [h.isEmpty_eq, h.checkUnique_eq]
  refine SameOutcome.ite Iff.rfl (fun _ => .ok .nil) fun _ => ?_
  exact Agree.bind_self fun _ _ => agree_one (agree_update h hf)

theorem agree_upsert {f f' : Filter} (hf : f.Like f') {created created' updated updated' : Row}
    (hcreated : created.Like created') (hupdated : updated.Like updated') :
    Agree (List.Forall₂ (Statement.Alike unvalued)) (x.upsert f created updated)
      ((x.withKey key).upsert f' created' updated') := by
  unfold upsert
  have hcheck : _ = (x.withKey key).checkCreate created' := checkCreate_withKey hcreated
  rw [hcheck]
  refine Agree.bind_self fun _ _ => ?_
  refine SameOutcome.bind (agree_updateIfAny hupdated hf) fun updates updates' hupdates => ?_
  refine SameOutcome.bind (agree_scopedWhere hf) fun present present' hpresent => ?_
  refine SameOutcome.bind (agree_insertUnless hcreated hpresent) fun s s' hs => .ok ?_
  exact List.rel_append hupdates (.cons hs .nil)

/-- Changes that are alike fail with one error, or become statements that are alike but for
the values they bind, whatever the parent's key is. -/
theorem agree_compile {change change' : RelationChange} (h : change.Like change') :
    Agree (List.Forall₂ (Statement.Alike unvalued)) (x.compile change)
      ((x.withKey key).compile change') := by
  cases h with
  | @create row row' hrow =>
    have hcheck : _ = (x.withKey key).checkCreate row' := checkCreate_withKey hrow
    rw [compile, compile, hcheck]
    exact Agree.bind_self fun _ _ => agree_one (agree_insert (.cons hrow .nil))
  | @createMany rows rows' hrows =>
    have hchecks : _ = rows'.forM (x.withKey key).checkCreate :=
      forM_eq hrows fun _ _ hrow => checkCreate_withKey hrow
    rw [compile, compile, isEmpty_eq_of_forall₂ hrows, hchecks]
    refine Agree.check fun _ => Agree.bind_self fun _ _ => ?_
    exact agree_one (agree_insert hrows)
  | connect hf => exact agree_one (agree_connect hf)
  | @connectOrCreate f f' row row' hf hrow =>
    have hcheck : _ = (x.withKey key).checkCreate row' := checkCreate_withKey hrow
    rw [compile, compile, hcheck]
    refine Agree.bind_self fun _ _ => ?_
    refine SameOutcome.bind (agree_requiredWhere hf) fun p p' hp => ?_
    refine SameOutcome.bind (agree_insertUnless hrow hp) fun s s' hs => .ok ?_
    exact .cons (.update _ rfl alike_attach hp) (.cons hs .nil)
  | disconnect hf =>
    refine SameOutcome.bind (agree_requiredWhere hf) fun p p' hp => .ok ?_
    exact .cons (.update _ rfl alike_detach hp) .nil
  | set hf => exact agree_replace hf
  | update hf hrow | updateMany hf hrow =>
    rw [compile, compile, hrow.checkRow_eq]
    exact Agree.bind_self fun _ _ => agree_one (agree_update hrow hf)
  | delete hf => exact agree_one (agree_delete hf)
  | deleteMany hf => exact agree_one (agree_delete hf)
  | upsert hf hcreated hupdated => exact agree_upsert hf hcreated hupdated

end NestedScope

namespace NestedWrite

variable {env : Env} {parent : String} {key key' : Value}

theorem Like.target_eq {w w' : NestedWrite} (h : w.Like w') (schema : Schema) :
    w.target schema parent = w'.target schema parent := by
  cases h with
  | change relation hchange => cases hchange <;> rfl

/-- Writes that are alike are compiled alike, whatever they change. -/
theorem Like.compile {w w' : NestedWrite} (h : w.Like w') :
    Agree (List.Forall₂ (Statement.Alike unvalued)) (w.compile env parent key)
      (w'.compile env parent key') := by
  have htarget : w.target env.schema parent = w'.target env.schema parent := h.target_eq _
  unfold NestedWrite.compile
  rw [htarget]
  refine Agree.bind_self fun target _ => ?_
  cases h with
  | @change relation change change' hchange =>
    have hkind : change.kind = change'.kind := by
      cases hchange <;> rfl
    dsimp only
    rw [hkind]
    exact NestedScope.agree_compile hchange

/-- Lists of writes that are alike one by one fail with one error, or become statements that
are alike but for the values they bind. -/
theorem agree_compileAll {ws ws' : List NestedWrite} (h : List.Forall₂ Like ws ws') :
    Agree (List.Forall₂ (Statement.Alike unvalued)) (compileAll env parent key ws)
      (compileAll env parent key' ws') := by
  induction h with
  | nil => exact .ok .nil
  | cons hw _ ih =>
    rw [compileAll, compileAll]
    refine SameOutcome.bind hw.compile fun own own' hown => ?_
    exact SameOutcome.bind ih fun more more' hmore => .ok (List.rel_append hown hmore)

end NestedWrite

/-- Statements that are alike but for their values are prepared to one text. -/
theorem Sql.Statement.Alike.same_text {s s' : Statement} (h : s.Alike unvalued s') (d : Dialect) :
    (s.prepare d).sql = (s'.prepare d).sql ∧
      (s.prepare d).args.length = (s'.prepare d).args.length :=
  h.prepare_eq (fun _ _ _ hname => hname) d

/-- Values have no part in the text. Two queries that are the same but for values, where these
are of one kind and arrays of one length, fail with one error, or are compiled to one text with
one mapping and as many arguments; and so are two lists of writes to the relations of a row,
whatever the row's key is in either. -/
theorem values_unwritten (env : Env) :
    (∀ q q' : Query, q.Like q' →
      Agree
        (fun c c' =>
          (c.statement.prepare env.dialect).sql = (c'.statement.prepare env.dialect).sql ∧
            c.mapping = c'.mapping ∧
            (c.statement.prepare env.dialect).args.length
              = (c'.statement.prepare env.dialect).args.length)
        (q.compile env) (q'.compile env)) ∧
      ∀ (parent : String) (key key' : Value) (ws ws' : List NestedWrite),
        List.Forall₂ NestedWrite.Like ws ws' →
          Agree
            (List.Forall₂ fun s s' =>
              (s.prepare env.dialect).sql = (s'.prepare env.dialect).sql ∧
                (s.prepare env.dialect).args.length = (s'.prepare env.dialect).args.length)
            (NestedWrite.compileAll env parent key ws)
            (NestedWrite.compileAll env parent key' ws') := by
  refine ⟨?_, ?_⟩
  · intro q q' h
    refine SameOutcome.imp h.compile ?_
    rintro c c' ⟨hstatement, hmapping⟩
    obtain ⟨hsql, hlength⟩ := hstatement.same_text env.dialect
    exact ⟨hsql, hmapping, hlength⟩
  · intro parent key key' ws ws' h
    refine SameOutcome.imp (NestedWrite.agree_compileAll h) fun statements statements' hall => ?_
    exact hall.imp fun s s' hs => hs.same_text env.dialect

theorem Condition.like_equals (field : String) {v v' : Value} (h : v.Like v') :
    (Condition.equals field v).Like (Condition.equals field v') :=
  .value (.equals field .null) h fun hop => by rcases hop with hop | hop <;> cases hop

theorem Condition.like_isIn (field : String) {items items' : List Value}
    (h : items.length = items'.length) :
    (Condition.isIn field (.array items)).Like (Condition.isIn field (.array items')) :=
  .value (.isIn field .null) (.array h) fun hop => by rcases hop with hop | hop <;> cases hop

/-- The readers of a name or of one of some ages, with their books that are late or not. -/
def readersPage (name : String) (ages : List Value) (start : Int64) (late : Bool) : Query :=
  let books : Query :=
    { model := "Book", operation := .findMany, filter := .and [.equals "late" (.bool late)] }
  { model := "Reader", operation := .findMany
    filter := .or [.equals "name" (.string name), .isIn "age" (.array ages), .isNull "id"]
    inclusions := [{ relation := "books", query := some books }]
    cursor := some { field := "id", value := .int start } }

theorem like_readersPage (name name' : String) (ages ages' : List Value) (start start' : Int64)
    (late late' : Bool) (h : ages.length = ages'.length) :
    (readersPage name ages start late).Like (readersPage name' ages' start' late') := by
  have hbooks : Query.Like
      { model := "Book", operation := .findMany, filter := .and [.equals "late" (.bool late)] }
      { model := "Book", operation := .findMany, filter := .and [.equals "late" (.bool late')] } := by
    refine .values { model := "Book", operation := .findMany } ?_ .nil .none ?_ .none .nil
    · exact .node .and (.cons (Condition.like_equals "late" (.bool late late')) .nil) .nil
    · exact .node .and .nil .nil
  refine .values (readersPage name ages start late) ?_ ?_ ?_ ?_ .none .nil
  · refine .node .or (.cons ?_ (.cons ?_ (.cons ?_ .nil))) .nil
    · exact Condition.like_equals "name" (.string name name')
    · exact Condition.like_isIn "age" h
    · exact .value (.isNull "id") (.bool true true) fun _ => rfl
  · exact .cons (.query "books" true hbooks .nil) .nil
  · exact .some (.value "id" (.int start start'))
  · exact .node .and .nil .nil

/-- Books of one of some states become late or not. -/
def stateChange (states : List Value) (late : Bool) : NestedWrite :=
  { relation := "books"
    change := .update (.and [.isIn "late" (.array states)]) [("late", .bool late)] }

/-- Changes of the state of books with as many states. -/
theorem like_stateChange (states states' : List Value) (late late' : Bool)
    (h : states.length = states'.length) :
    (stateChange states late).Like (stateChange states' late') := by
  refine .change "books" (.update ?_ ?_)
  · exact .node .and (.cons (Condition.like_isIn "late" h) .nil) .nil
  · exact .cons ⟨rfl, .bool late late'⟩ .nil

/-- Texts that look like SQL or like placeholders leave no trace in the statements. -/
theorem values_unwritten_readers :
    (∃ c c', (readersPage "a" [.int 2, .null] 5 true).compile
          { schema := librarySchema, dialect := .postgres } = .ok c ∧
        (readersPage "'; --" [.string "$1", .bool true] 0 false).compile
          { schema := librarySchema, dialect := .postgres } = .ok c' ∧
        (c.statement.prepare .postgres).sql = (c'.statement.prepare .postgres).sql ∧
        c.mapping = c'.mapping) ∧
      ∃ s s', NestedWrite.compileAll { schema := librarySchema, dialect := .mysql } "Reader" (.int 7)
          [stateChange [.null] true] = .ok s ∧
        NestedWrite.compileAll { schema := librarySchema, dialect := .mysql } "Reader"
          (.string "?") [stateChange [.bool false] false] = .ok s' ∧
        List.Forall₂ (fun s s' => (s.prepare .mysql).sql = (s'.prepare .mysql).sql) s s' := by
  refine ⟨?_, ?_⟩
  · have hok : ∃ c, (readersPage "a" [.int 2, .null] 5 true).compile
        { schema := librarySchema, dialect := .postgres } = .ok c := ⟨_, rfl⟩
    have h := (values_unwritten { schema := librarySchema, dialect := .postgres }).1 _ _
      (like_readersPage "a" "'; --" [.int 2, .null] [.string "$1", .bool true] 5 0 true false rfl)
    generalize (readersPage "a" [.int 2, .null] 5 true).compile
      { schema := librarySchema, dialect := .postgres } = x at h hok ⊢
    generalize (readersPage "'; --" [.string "$1", .bool true] 0 false).compile
      { schema := librarySchema, dialect := .postgres } = y at h ⊢
    cases h with
    | error _ => exact absurd hok (by simp)
    | ok h => exact ⟨_, _, rfl, rfl, h.1, h.2.1⟩
  · have hok : ∃ s, NestedWrite.compileAll { schema := librarySchema, dialect := .mysql } "Reader"
        (.int 7) [stateChange [.null] true] = .ok s := ⟨_, rfl⟩
    have h := (values_unwritten { schema := librarySchema, dialect := .mysql }).2 "Reader" (.int 7)
      (.string "?") _ _ (.cons (like_stateChange [.null] [.bool false] true false rfl) .nil)
    generalize NestedWrite.compileAll { schema := librarySchema, dialect := .mysql } "Reader"
      (.int 7) [stateChange [.null] true] = x at h hok ⊢
    generalize NestedWrite.compileAll { schema := librarySchema, dialect := .mysql } "Reader"
      (.string "?") [stateChange [.bool false] false] = y at h ⊢
    cases h with
    | error _ => exact absurd hok (by simp)
    | ok h => exact ⟨_, _, rfl, rfl, h.imp fun _ _ hs => hs.1⟩

end SqlQuery
