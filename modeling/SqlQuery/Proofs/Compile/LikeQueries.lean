import SqlQuery.Compile.Query
import SqlQuery.Proofs.Compile.Inclusion
import SqlQuery.Proofs.Compile.Likeness

/-!
# Queries that are alike are compiled alike

Rows, joins and selections take values along without looking at them: a row is checked by
its fields, and a join and a selection by their names. So what holds of filters holds of
queries.

> `Inclusion.AllLike.compileJoins`: inclusions that are alike are joined alike.

> `Query.Like.compile`: queries that are alike fail with one error, or are compiled to
> statements that are alike but for the values they bind, with one mapping.
-/

namespace SqlQuery

open Sql

/-! ## Rows -/

/-- Lists that are related in pairs are empty together. -/
theorem isEmpty_eq_of_forall₂ {α β : Type} {R : α → β → Prop} {as : List α} {bs : List β}
    (h : List.Forall₂ R as bs) : as.isEmpty = bs.isEmpty := by
  cases h <;> rfl

namespace Row.Like

variable {row row' : Row}

/-- Rows that are alike have the same fields in the same order. -/
theorem fields_eq (h : row.Like row') : row.fields = row'.fields := by
  unfold fields
  induction h with
  | nil => rfl
  | cons hentry _ ih => rw [List.map_cons, List.map_cons, hentry.1, ih]

/-- Nothing is said of the values of rows that are alike, only that there are as many. -/
theorem values_related (h : row.Like row') :
    List.Forall₂ unvalued.values row.values row'.values := by
  unfold values
  induction h with
  | nil => exact .nil
  | cons _ _ ih => exact .cons trivial ih

theorem isEmpty_eq (h : row.Like row') : row.isEmpty = row'.isEmpty :=
  isEmpty_eq_of_forall₂ h

/-- Rows that are alike have no field that the other does not have. -/
theorem isNone_get? (h : row.Like row') (field : String) :
    (row.get? field).isNone = (row'.get? field).isNone := by
  unfold get?
  induction h with
  | nil => rfl
  | cons hentry _ ih =>
    rw [List.find?_cons, List.find?_cons, hentry.1]
    split
    · rfl
    · exact ih

/-- Whether a field is named twice does not hang on values. -/
theorem checkUnique_eq (h : row.Like row') (site : WriteSite) :
    checkUnique site row = checkUnique site row' := by
  unfold checkUnique repeatedField?
  rw [h.fields_eq]

/-- The checks of a row do not look at its values. -/
theorem checkRow_eq (h : row.Like row') (site : WriteSite) :
    checkRow site row = checkRow site row' := by
  unfold checkRow
  rw [h.isEmpty_eq, h.checkUnique_eq]

/-- How a row differs from the first one is seen from its fields. -/
theorem shapeProblem?_eq (h : row.Like row') (reference : List String) :
    shapeProblem? reference row = shapeProblem? reference row' := by
  unfold shapeProblem?
  simp only [h.isNone_get?, h.fields_eq]

/-- Rows that are alike give as many values in any order of fields. -/
theorem inOrder_related (fields : List String) :
    List.Forall₂ unvalued.values (row.inOrder fields) (row'.inOrder fields) := by
  refine values_of_length ?_
  unfold inOrder
  rw [List.length_map, List.length_map]

end Row.Like

/-- Rows that are alike one by one differ from the first row in the same places. -/
theorem checkShapes_eq (reference : List String) {rows rows' : List Row}
    (h : List.Forall₂ Row.Like rows rows') :
    ∀ index, checkShapes reference index rows = checkShapes reference index rows' := by
  induction h with
  | nil => intro index; rfl
  | cons hrow _ ih =>
    intro index
    rw [checkShapes, checkShapes, hrow.shapeProblem?_eq, ih]

/-- A check that sees no difference between rows that are alike sees none between lists of them. -/
theorem forM_eq {check check' : Row → Except Error Unit} {rows rows' : List Row}
    (h : List.Forall₂ Row.Like rows rows')
    (hcheck : ∀ row row' : Row, row.Like row' → check row = check' row') :
    rows.forM check = rows'.forM check' := by
  induction h with
  | nil => rfl
  | cons hrow _ ih =>
    show (check _ >>= fun _ => _) = (check' _ >>= fun _ => _)
    rw [hcheck _ _ hrow, ih]

/-- The fields that rows have in common do not hang on their values. -/
theorem commonFields_eq (site : WriteSite) {rows rows' : List Row}
    (h : List.Forall₂ Row.Like rows rows') : commonFields site rows = commonFields site rows' := by
  cases h with
  | nil => rfl
  | @cons first first' rest rest' hfirst hrest =>
    have hchecks := forM_eq (.cons hfirst hrest) fun _ _ hrow => hrow.checkUnique_eq site
    unfold commonFields
    dsimp only
    rw [hfirst.isEmpty_eq, hfirst.fields_eq, hchecks, checkShapes_eq _ hrest]

/-- The rows of an insertion are accepted or refused alike, with the same columns. -/
theorem agree_insertion (site : WriteSite) (schema : Schema) (model : Option String)
    {fixed fixed' : List (String × Value)} (hfixed : fixed.map (·.1) = fixed'.map (·.1))
    {rows rows' : List Row} (h : List.Forall₂ Row.Like rows rows') :
    Agree (fun a b => a.1 = b.1 ∧ List.Forall₂ (List.Forall₂ unvalued.values) a.2 b.2)
      (insertion site schema model fixed rows) (insertion site schema model fixed' rows') := by
  unfold insertion
  rw [commonFields_eq site h, hfixed]
  refine Agree.bind_self fun fields _ => Agree.bind_self fun columns _ =>
    .ok ⟨rfl, ?_⟩
  have hlength : (fixed.map (·.2)).length = (fixed'.map (·.2)).length := by
    simpa using congrArg List.length hfixed
  exact List.rel_map
    (fun _ _ _ => List.rel_append (values_of_length hlength) (Row.Like.inOrder_related fields)) h

/-- Columns with values behind them are alike wherever the values are as many. -/
theorem alike_assignments (columns : List String) :
    ∀ {vs vs' : List Value}, List.Forall₂ unvalued.values vs vs' →
      List.Forall₂ (Assignment.Alike unvalued)
        ((columns.zip vs).map fun c => { column := c.1, source := .value c.2 })
        ((columns.zip vs').map fun c => { column := c.1, source := .value c.2 }) := by
  induction columns with
  | nil => intro vs vs' _; exact .nil
  | cons column columns ih =>
    intro vs vs' h
    cases h with
    | nil => exact .nil
    | cons hv hrest => exact .cons ⟨rfl, .value hv⟩ (ih hrest)

/-- What rows that are alike set are the same columns. -/
theorem Row.Like.agree_assignmentsOf {row row' : Row} (h : row.Like row') (schema : Schema)
    (model : Option String) :
    Agree (List.Forall₂ (Assignment.Alike unvalued)) (assignmentsOf schema model row)
      (assignmentsOf schema model row') := by
  unfold assignmentsOf
  rw [h.fields_eq]
  exact Agree.bind_self fun columns _ => .ok (alike_assignments columns h.values_related)

/-- Items hold no values, so each of them is alike to itself. -/
theorem Sql.SelectItem.alike_self (i : SelectItem) : i.Alike unvalued i := by
  have hname : ∀ {r : Role} (n : Option String), Option.Rel (unvalued.names r) n n := by
    intro r n
    cases n with
    | none => exact .none
    | some n => exact .some rfl
  cases i with
  | star q => exact .star (hname q)
  | column c a => exact .column c.alike_self (hname a)
  | aggregate f c a => exact .aggregate f c.alike_self rfl

/-- How rows are made distinct is said without values. -/
theorem Sql.Distinct.alike_self (k : Distinct) : k.Alike unvalued k := by
  cases k with
  | keep => exact .keep
  | rows => exact .rows
  | on cs => exact .on (List.forall₂_same.mpr fun c _ => c.alike_self)

theorem names_self (ns : List String) : List.Forall₂ (unvalued.names .column) ns ns :=
  List.forall₂_same.mpr fun _ _ => rfl

/-! ## Joins -/

/-- Plans that are the same but for the values that the joins bind. -/
structure JoinPlan.Alike (a b : JoinPlan) : Prop where
  joins : List.Forall₂ (Join.Alike unvalued) a.joins b.joins
  items : a.items = b.items
  fields : a.fields = b.fields
  relations : a.relations = b.relations

/-- A plan that joins nothing binds nothing. -/
theorem JoinPlan.alike_self_of_joins {p : JoinPlan} (h : p.joins = []) : p.Alike p :=
  ⟨h ▸ .nil, rfl, rfl, rfl⟩

theorem JoinPlan.Alike.append {a a' b b' : JoinPlan} (h : a.Alike a') (h' : b.Alike b') :
    (a ++ b).Alike (a' ++ b') := by
  refine ⟨List.rel_append h.joins h'.joins, ?_, ?_, ?_⟩
  · show a.items ++ b.items = a'.items ++ b'.items
    rw [h.items, h'.items]
  · show a.fields ++ b.fields = a'.fields ++ b'.fields
    rw [h.fields, h'.fields]
  · show a.relations ++ b.relations = a'.relations ++ b'.relations
    rw [h.relations, h'.relations]

/-- The equalities of a relation bind nothing, so they are alike to themselves. -/
theorem alike_relationEqualities {schema : Schema} {parent : JoinParent} {relation : Relation}
    {aliasName : String} {equalities : List Atom}
    (h : relationEqualities schema parent relation aliasName = .ok equalities) :
    List.Forall₂ (Atom.Alike unvalued) equalities equalities := by
  have hpairs := (relationEqualities_spec h).2
  generalize relation.fromFields.zip relation.toFields = pairs at hpairs
  clear h
  induction hpairs with
  | nil => exact .nil
  | cons hpair _ ih =>
    obtain ⟨a, b, -, -, rfl⟩ := hpair
    exact .cons (.sameColumn (ColumnRef.alike_self _) (ColumnRef.alike_self _)) ih

namespace Inclusion

variable {i i' : Inclusion} {env : Env}

/-- Inclusions that are alike are of one relation. -/
theorem Like.relation_eq (h : i.Like i') : i.relation = i'.relation := by
  cases h <;> rfl

/-- The filters of inclusions that are alike are compiled alike. -/
theorem Like.compileFilter (h : i.Like i') (model aliasName : String) :
    AgreeOnCause (Option.Rel (Predicate.Alike unvalued)) (i.compileFilter env model aliasName)
      (i'.compileFilter env model aliasName) := by
  cases h with
  | plain relation projects _ => exact .ok .none
  | query relation projects hq _ =>
    cases hq with
    | values q hf => exact hf.compileOperand

/-- What an inclusion returns does not hang on values. -/
theorem Like.project_eq (h : i.Like i') (schema : Schema) (model aliasName : String)
    (path : List String) :
    i.project schema model aliasName path = i'.project schema model aliasName path := by
  cases h with
  | plain relation projects _ => rfl
  | query relation projects hq _ =>
    cases hq with
    | values q _ => rfl

/-- Inclusions that are alike get the same alias and the same join, but for values. -/
theorem Like.compileOwn (h : i.Like i') (parent : JoinParent) (used : List String) :
    AgreeOnCause (fun a b => a.1.Alike b.1 ∧ a.2 = b.2) (i.compileOwn env parent used)
      (i'.compileOwn env parent used) := by
  unfold Inclusion.compileOwn
  rw [h.relation_eq]
  refine AgreeOnCause.bind_self fun relation _ => ?_
  refine AgreeOnCause.bind_self fun table _ => ?_
  refine AgreeOnCause.bind_self fun equalities hequalities => ?_
  refine SameOutcome.bind (h.compileFilter _ _) fun filter filter' hfilter => ?_
  have hon := Predicate.Alike.beside
    (alike_relationEqualities (Refusal.of_eq_ok.mp hequalities)) hfilter
  dsimp only
  rw [h.project_eq]
  refine SameOutcome.bind (SameOutcome.after (AgreeOnCause.of_self _)) ?_
  rintro items _ ⟨rfl, hitems⟩
  refine .ok ⟨JoinPlan.Alike.append ?_ (JoinPlan.alike_self_of_joins (joins_project hitems)), rfl⟩
  exact ⟨.cons ⟨rfl, rfl, hon⟩ .nil, rfl, rfl, rfl⟩

mutual

theorem Like.compile :
    ∀ {i i' : Inclusion}, i.Like i' → ∀ (parent : JoinParent) (depth : Nat) (used : List String),
      AgreeOnCause (fun a b => a.1.Alike b.1 ∧ a.2 = b.2)
        (Inclusion.compile env parent depth used i) (Inclusion.compile env parent depth used i')
  | _, _, .plain relation projects hnested, parent, depth, used => by
    rw [Inclusion.compile, Inclusion.compile]
    refine SameOutcome.ite Iff.rfl (fun _ => .error rfl) fun _ => ?_
    refine SameOutcome.bind (Like.compileOwn (.plain relation projects hnested) parent used) ?_
    rintro ⟨own, here⟩ ⟨own', _⟩ ⟨hown, rfl⟩
    refine SameOutcome.bind (SameOutcome.after (AllLike.compileAll hnested _ _ _)) ?_
    rintro ⟨below, used⟩ ⟨below', _⟩ ⟨hbelow, rfl⟩
    exact .ok ⟨hown.append hbelow, rfl⟩
  | _, _, .query relation projects hq hnested, parent, depth, used => by
    rw [Inclusion.compile, Inclusion.compile]
    refine SameOutcome.ite Iff.rfl (fun _ => .error rfl) fun _ => ?_
    refine SameOutcome.bind (Like.compileOwn (.query relation projects hq hnested) parent used) ?_
    rintro ⟨own, here⟩ ⟨own', _⟩ ⟨hown, rfl⟩
    refine SameOutcome.bind (SameOutcome.after (AllLike.compileAll hnested _ _ _)) ?_
    rintro ⟨below, used⟩ ⟨below', _⟩ ⟨hbelow, rfl⟩
    exact .ok ⟨hown.append hbelow, rfl⟩

theorem AllLike.compileAll :
    ∀ {is is' : List Inclusion}, AllLike is is' →
      ∀ (parent : JoinParent) (depth : Nat) (used : List String),
        AgreeOnCause (fun a b => a.1.Alike b.1 ∧ a.2 = b.2)
          (compileAll env parent depth used is) (compileAll env parent depth used is')
  | _, _, .nil, parent, depth, used => .ok ⟨⟨.nil, rfl, rfl, rfl⟩, rfl⟩
  | _, _, .cons hi hrest, parent, depth, used => by
    rw [Inclusion.compileAll, Inclusion.compileAll]
    refine SameOutcome.bind (Like.compile hi parent depth used) ?_
    rintro ⟨plan, used⟩ ⟨plan', _⟩ ⟨hplan, rfl⟩
    refine SameOutcome.bind (SameOutcome.after (AllLike.compileAll hrest _ _ _)) ?_
    rintro ⟨more, used⟩ ⟨more', _⟩ ⟨hmore, rfl⟩
    exact .ok ⟨hplan.append hmore, rfl⟩

end

/-- Inclusions that are alike one by one are joined alike. -/
theorem AllLike.compileJoins {is is' : List Inclusion} (h : AllLike is is')
    (model aliasName : String) :
    AgreeOnCause JoinPlan.Alike (compileJoins env model aliasName is)
      (compileJoins env model aliasName is') := by
  unfold SqlQuery.compileJoins
  exact SameOutcome.bind (h.compileAll _ _ _) fun a b hab => .ok hab.1

end Inclusion

/-! ## Queries -/

/-- Filters that are alike stay so with one more condition. -/
theorem Filter.Like.andCondition {f f' : Filter} (hf : f.Like f') {c c' : Condition}
    (hc : c.Like c') : (f.andCondition c).Like (f'.andCondition c') := by
  unfold Filter.andCondition
  rw [← hf.isEmpty_eq]
  cases hf with
  | @node op cs cs' fs fs' hcs hfs =>
    by_cases hempty : (⟨op, cs, fs⟩ : Filter).isEmpty = true
    · rw [if_pos hempty, if_pos hempty]
      exact .node .and (.cons hc .nil) .nil
    · rw [if_neg hempty, if_neg hempty]
      by_cases hop : op = .and
      · rw [if_pos hop, if_pos hop]
        exact .node op (List.rel_append hcs (.cons hc .nil)) hfs
      · rw [if_neg hop, if_neg hop]
        exact .node .and (.cons hc .nil) (.cons (.node op hcs hfs) .nil)

/-- A cursor compares, and is no test for null. -/
theorem Query.seekOperator_eq (q : Query) (field : String) :
    q.seekOperator field = .lt ∨ q.seekOperator field = .gt := by
  unfold seekOperator
  split
  · split
    · exact Or.inl rfl
    · exact Or.inr rfl
  · exact Or.inr rfl

namespace Query.Like

variable {q q' : Query} {env : Env}

theorem model_eq (h : q.Like q') : q.model = q'.model := by
  cases h; rfl

theorem operation_eq (h : q.Like q') : q.operation = q'.operation := by
  cases h; rfl

/-- Queries that are alike have filters that are. -/
theorem filter (h : q.Like q') : q.filter.Like q'.filter := by
  cases h with
  | values q hf => exact hf

/-- Queries that are alike have payloads that are. -/
theorem payload (h : q.Like q') : q.payload.Like q'.payload := by
  cases h with
  | values q _ _ _ _ hpayload => exact hpayload

/-- Cursors that are alike make conditions that are. -/
theorem seekFilter (h : q.Like q') : q.seekFilter.Like q'.seekFilter := by
  cases h with
  | values q hf _ hcursor =>
    cases hcursor with
    | none => exact hf
    | some hc =>
      cases hc with
      | value field hv =>
        refine hf.andCondition
          (.value ⟨field, q.seekOperator field, .null, .default, none⟩ hv fun hop => ?_)
        rcases q.seekOperator_eq field with hseek | hseek <;> rw [hseek] at hop <;>
          rcases hop with hop | hop <;> cases hop

/-- A filter is empty or not, whatever its values are. -/
theorem agree_safeWhere (h : q.Like q') :
    Agree (Predicate.Alike unvalued) (q.safeWhere env) (q'.safeWhere env) := by
  unfold safeWhere
  rw [h.model_eq, h.operation_eq]
  refine SameOutcome.bind h.filter.compile.forget fun p p' hp => ?_
  cases hp with
  | none => exact .error rfl
  | some hp => exact .ok hp

theorem compileCreate (h : q.Like q') {row row' : Row} (hrow : row.Like row') :
    Agree (Statement.Alike unvalued) (q.compileCreate env row) (q'.compileCreate env row') := by
  unfold Query.compileCreate
  rw [h.model_eq, h.operation_eq, hrow.checkRow_eq, hrow.fields_eq]
  refine Agree.bind_self fun _ _ => Agree.bind_self fun table _ => ?_
  refine Agree.bind_self fun columns _ => .ok ?_
  exact .insert true rfl (names_self columns) (.cons hrow.values_related .nil) .none

theorem compileCreateMany (h : q.Like q') {rows rows' : List Row}
    (hrows : List.Forall₂ Row.Like rows rows') :
    Agree (Statement.Alike unvalued) (q.compileCreateMany env rows)
      (q'.compileCreateMany env rows') := by
  unfold Query.compileCreateMany
  rw [h.model_eq]
  refine Agree.bind_self fun table _ => ?_
  refine SameOutcome.bind (agree_insertion _ _ _ rfl hrows) ?_
  rintro ⟨columns, values⟩ ⟨_, values'⟩ ⟨rfl, hvalues⟩
  exact .ok (.insert true rfl (names_self columns) hvalues .none)

theorem compileUpdate (h : q.Like q') {row row' : Row} (hrow : row.Like row') :
    Agree (Statement.Alike unvalued) (q.compileUpdate env row) (q'.compileUpdate env row') := by
  unfold Query.compileUpdate
  rw [h.model_eq, h.operation_eq, hrow.checkRow_eq]
  refine Agree.bind_self fun _ _ => Agree.bind_self fun table _ => ?_
  refine SameOutcome.bind (hrow.agree_assignmentsOf _ _) fun as as' has => ?_
  exact SameOutcome.bind h.agree_safeWhere fun p p' hp => .ok (.update _ rfl has hp)

theorem compileDelete (h : q.Like q') :
    Agree (Statement.Alike unvalued) (q.compileDelete env) (q'.compileDelete env) := by
  unfold Query.compileDelete
  rw [h.model_eq, h.operation_eq]
  refine Agree.bind_self fun table _ => ?_
  exact SameOutcome.bind h.agree_safeWhere fun p p' hp => .ok (.delete _ rfl hp)

theorem compileUpsert (h : q.Like q') (keys : List String) {created created' updated updated' : Row}
    (hcreated : created.Like created') (hupdated : updated.Like updated') :
    Agree (Statement.Alike unvalued) (q.compileUpsert env keys created updated)
      (q'.compileUpsert env keys created' updated') := by
  unfold Query.compileUpsert
  dsimp only
  rw [h.model_eq, h.operation_eq, hcreated.isEmpty_eq, hcreated.checkUnique_eq,
    hcreated.fields_eq, hupdated.checkUnique_eq, hupdated.isEmpty_eq]
  refine Agree.check fun _ => Agree.check fun _ => ?_
  refine Agree.bind_self fun _ _ => Agree.bind_self fun _ _ => ?_
  refine Agree.bind_self fun table _ => Agree.bind_self fun columns _ => ?_
  refine Agree.bind_self fun keyColumns _ => ?_
  have hinsert : ∀ {as as' : List Assignment}, List.Forall₂ (Assignment.Alike unvalued) as as' →
      Agree (Statement.Alike unvalued)
        (.ok (.insert table columns [created.values] (some ⟨keyColumns, as⟩) true))
        (.ok (.insert table columns [created'.values] (some ⟨keyColumns, as'⟩) true)) :=
    fun has => .ok (.insert true rfl (names_self columns) (.cons hcreated.values_related .nil)
      (.some ⟨names_self keyColumns, has⟩))
  refine SameOutcome.ite Iff.rfl (fun _ => hinsert ?_) fun _ => ?_
  · -- the keys are set to what the insertion proposed
    refine List.forall₂_same.mpr fun a ha => ?_
    obtain ⟨k, -, rfl⟩ := List.mem_map.mp ha
    exact ⟨rfl, .proposed⟩
  · exact SameOutcome.bind (hupdated.agree_assignmentsOf _ _) fun as as' has => hinsert has

/-- Queries that are alike select alike, with one mapping. -/
theorem compileSelect (h : q.Like q') :
    Agree (fun a b => a.1.Alike unvalued b.1 ∧ a.2 = b.2) (q.compileSelect env)
      (q'.compileSelect env) := by
  have hseek := h.seekFilter
  cases h with
  | @values q f f' having having' inclusions inclusions' cursor cursor' payload payload' writes
      writes' hf hinclusions hcursor hhaving hpayload hwrites =>
    have hoffset : cursor.isSome = cursor'.isSome := by
      cases hcursor <;> rfl
    unfold Query.compileSelect
    dsimp only
    refine Agree.check fun _ => Agree.bind_self fun table _ => ?_
    refine SameOutcome.bind (hinclusions.compileJoins _ _).forget fun plan plan' hplan => ?_
    obtain ⟨joins, items, fields, relations⟩ := plan
    obtain ⟨joins', items', fields', relations'⟩ := plan'
    obtain ⟨hjoins, hitems, hfields, hrelations⟩ := hplan
    dsimp only at hjoins hitems hfields hrelations ⊢
    subst hitems hfields hrelations
    rw [isEmpty_eq_of_forall₂ hjoins]
    refine Agree.choice fun chosen => Agree.bind_self fun distinct _ => ?_
    refine SameOutcome.bind hseek.compile.forget fun where_ where_' hwhere => ?_
    refine Agree.bind_self fun groupBy _ => ?_
    refine SameOutcome.bind hhaving.compile.forget fun having_ having_' hhaving => ?_
    refine Agree.bind_self fun orderBy _ => .ok ⟨?_, rfl⟩
    exact
      { distinct := distinct.alike_self
        items := List.forall₂_same.mpr fun i _ => i.alike_self
        table := rfl
        joins := hjoins
        where_ := hwhere
        groupBy := List.forall₂_same.mpr fun c _ => c.alike_self
        having := hhaving
        orderBy := List.forall₂_same.mpr fun o _ => ⟨o.1.alike_self, rfl⟩
        limit := rfl
        offset := by simp only [offset, hoffset] }

/-- Queries that are alike have payloads and writes that are checked alike. -/
theorem checkPayload_eq (h : q.Like q') : q.checkPayload = q'.checkPayload := by
  cases h with
  | values q _ _ _ _ hpayload hwrites =>
    unfold checkPayload
    dsimp only
    rw [isEmpty_eq_of_forall₂ hwrites]
    cases hpayload <;> rfl

/-- Queries that are alike fail with one error, or are compiled to statements that are alike
but for the values they bind, with one mapping. -/
theorem compile (h : q.Like q') :
    Agree (fun a b => a.statement.Alike unvalued b.statement ∧ a.mapping = b.mapping)
      (q.compile env) (q'.compile env) := by
  have hpayload := h.payload
  have hwritten : ∀ {x y : Except Error Statement}, Agree (Statement.Alike unvalued) x y →
      Agree (fun a b : Compiled => a.statement.Alike unvalued b.statement ∧ a.mapping = b.mapping)
        (x >>= fun s => .ok { statement := s, mapping := { model := q.model } })
        (y >>= fun s => .ok { statement := s, mapping := { model := q'.model } }) := by
    intro x y hxy
    rw [h.model_eq]
    exact hxy.bind fun s s' hs => .ok ⟨hs, rfl⟩
  unfold Query.compile
  rw [h.checkPayload_eq]
  refine Agree.bind_self fun _ _ => ?_
  unfold compileWrite?
  generalize q.payload = payload at hpayload ⊢
  generalize q'.payload = payload' at hpayload ⊢
  cases hpayload with
  | none =>
    dsimp only
    rw [h.operation_eq]
    by_cases hdelete : q'.operation = .delete ∨ q'.operation = .deleteMany
    · rw [if_pos hdelete, if_pos hdelete]
      exact hwritten h.compileDelete
    · rw [if_neg hdelete, if_neg hdelete]
      exact SameOutcome.bind h.compileSelect fun a b hab => .ok ⟨.select hab.1, hab.2⟩
  | create hrow => exact hwritten (h.compileCreate hrow)
  | createMany hrows => exact hwritten (h.compileCreateMany hrows)
  | update hrow => exact hwritten (h.compileUpdate hrow)
  | upsert keys hcreated hupdated => exact hwritten (h.compileUpsert keys hcreated hupdated)

end Query.Like

end SqlQuery
