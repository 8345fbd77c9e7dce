import SqlQuery.Proofs.Compile.Emitted
import SqlQuery.Proofs.Compile.RelatedRows
import SqlQuery.Proofs.Compile.Safety
import SqlQuery.Proofs.Schema.Suggestion

/-!
# Where the rows below a parent are

The rows that a nested write is about stand in one table, and one of its columns points to the
parent. Both are told by the relation if the parent declares it: the table is that of the other
model, and the column that of the first field there. Names are made up from the relation and the
parent only where the parent is not known or declares no relation at all. Any other write has no
place to go, and then nothing is compiled of the list in which it stands.

`ChildTable` says what the place is and `Unreachable` why there is none, both told from the models;
`ChildText` are the texts of statements that name no other table, and no other column for the
foreign key.

> `NestedWrite.target_eq_ok_iff`, `NestedWrite.target_eq_error_iff`: every write has its place, or
> a reason to have none.

> `NestedScope.childText_of_emits`: what a change comes to is written for its target.

> `NestedWrite.children_written`: the same of lists of writes, read from the texts.
-/

namespace SqlQuery

open Sql

/-! ## Places -/

/-- A field of a model and its column: that of the first field declared under the name. Where no
field is declared, and for `*`, it is the name itself. -/
inductive Model.Stores (m : Model) (field : String) : String → Prop
  | named (hown : m.fields = [] ∨ field = "*") : Stores m field field
  | declared {f : FieldDef} (hsome : m.fields ≠ []) (hstar : field ≠ "*")
      (hf : m.fields.find? (·.name == field) = some f) : Stores m field f.columnName

/-- The table and the foreign key of the rows of a relation below a parent. -/
inductive ChildTable (s : Schema) (parent relation : String) : String → String → Prop
  | declared {m child : Model} {r : Relation} {field : String} {rest : List String}
      {foreignKey : String} (hparent : s.model? parent = some m)
      (hr : m.relations.find? (·.name == relation) = some r) (hkind : r.kind ≠ .manyToOne)
      (hfields : r.toFields = field :: rest) (hchild : s.model? r.toModel = some child)
      (hstores : child.Stores field foreignKey) :
      ChildTable s parent relation child.table foreignKey
  | unregistered (hparent : s.model? parent = none) :
      ChildTable s parent relation relation (parent ++ "_id")
  | unrelated {m : Model} (hparent : s.model? parent = some m) (hnone : m.relations = []) :
      ChildTable s parent relation relation (m.table ++ "_id")

/-- Why a write below a parent has no place to go to. -/
inductive Unreachable (s : Schema) (parent : String) (w : NestedWrite) : Error → Prop
  | misspelt {m : Model} (hparent : s.model? parent = some m) (hsome : m.relations ≠ [])
      (hnot : w.relation ∉ m.relationNames) :
      Unreachable s parent w (.unknownRelation m.name w.relation
        (Text.closest? w.relation m.relationNames))
  | elsewhere {m : Model} {r : Relation} (hparent : s.model? parent = some m)
      (hr : m.relations.find? (·.name == w.relation) = some r) (hkind : r.kind = .manyToOne) :
      Unreachable s parent w (.foreignKeyElsewhere r.name w.change.kind)
  | fieldless {m : Model} {r : Relation} (hparent : s.model? parent = some m)
      (hr : m.relations.find? (·.name == w.relation) = some r) (hkind : r.kind ≠ .manyToOne)
      (hfields : r.toFields = []) :
      Unreachable s parent w (.config (.noTargetFields r.name parent))
  | unknownChild {m : Model} {r : Relation} (hparent : s.model? parent = some m)
      (hr : m.relations.find? (·.name == w.relation) = some r) (hkind : r.kind ≠ .manyToOne)
      (hfields : r.toFields ≠ []) (hchild : s.model? r.toModel = none) :
      Unreachable s parent w (.unknownModel r.toModel (Text.closest? r.toModel s.names))
  | unknownField {m child : Model} {r : Relation} {field : String} {rest : List String}
      (hparent : s.model? parent = some m)
      (hr : m.relations.find? (·.name == w.relation) = some r) (hkind : r.kind ≠ .manyToOne)
      (hfields : r.toFields = field :: rest) (hchild : s.model? r.toModel = some child)
      (hsome : child.fields ≠ []) (hstar : field ≠ "*") (hnot : field ∉ child.fieldNames) :
      Unreachable s parent w (.unknownField child.name field
        (Text.closest? field child.fieldNames))

/-! ## Lookups -/

theorem Schema.model_eq_ok_iff_model? {s : Schema} {name : String} {m : Model} :
    s.model name = .ok m ↔ s.model? name = some m := by
  unfold Schema.model
  cases s.model? name <;> simp

namespace Model

variable {m : Model} {field : String}

/-- The column of a field is the one that the model stores it in. -/
theorem column_eq_ok_iff {column : String} :
    m.column field = .ok column ↔ m.Stores field column := by
  unfold Model.column
  constructor
  · intro h
    split at h
    next hown =>
      cases h
      exact .named (by simpa using hown)
    next hown =>
      split at h <;> cases h
      next f hf =>
        simp only [Bool.or_eq_true, List.isEmpty_iff, beq_iff_eq, not_or] at hown
        exact .declared hown.1 hown.2 hf
  · rintro (hown | ⟨hsome, hstar, hf⟩)
    · rw [if_pos (by simpa using hown)]
    · rw [if_neg (by simp [hsome, hstar]), hf]

end Model

/-! ## Targets -/

section

variable {s : Schema} {parent : String} {r : Relation} {child : Model} {field : String}
  {rest : List String}

/-- A relation to a known model goes to its table, if the first field is found there. -/
theorem RelationTarget.declared_of_child (kind : RelationChange.Kind) (hkind : r.kind ≠ .manyToOne)
    (hfields : r.toFields = field :: rest) (hchild : s.model? r.toModel = some child) :
    declared s parent r kind = (child.column field).map fun foreignKey =>
      { model := some r.toModel, table := child.table, foreignKey } := by
  unfold declared Schema.table Schema.column
  rw [if_neg hkind, hfields, Schema.model_eq_ok_iff_model?.mpr hchild]
  show (do
    let foreignKey ← child.column field
    return ({ model := some r.toModel, table := child.table, foreignKey } : RelationTarget)) = _
  cases child.column field <;> rfl

/-- A relation to a model that is not registered has no target. -/
theorem RelationTarget.declared_of_no_child (kind : RelationChange.Kind)
    (hkind : r.kind ≠ .manyToOne) (hfields : r.toFields ≠ []) (hchild : s.model? r.toModel = none) :
    declared s parent r kind
      = .error (.unknownModel r.toModel (Text.closest? r.toModel s.names)) := by
  obtain ⟨field, rest, hfields⟩ := List.exists_cons_of_ne_nil hfields
  unfold declared Schema.table Schema.model
  rw [if_neg hkind, hfields, hchild]
  rfl

end

namespace NestedWrite

variable {s : Schema} {parent : String} {w : NestedWrite}

/-- Below a parent that is not registered a write goes by convention. -/
theorem target_of_unregistered (h : s.model? parent = none) :
    w.target s parent = .ok (.conventional parent w.relation) := by
  unfold target Schema.model
  rw [h]

/-- A write goes by the relation of its name, if the parent declares one. -/
theorem target_of_find {m : Model} {r : Relation} (hparent : s.model? parent = some m)
    (hr : m.relations.find? (·.name == w.relation) = some r) :
    w.target s parent = RelationTarget.declared s parent r w.change.kind := by
  unfold target Schema.model Model.relation
  rw [hparent]
  dsimp only
  rw [hr]

/-- A parent without relations leaves writes to the convention, one with others refuses them. -/
theorem target_of_undeclared {m : Model} (hparent : s.model? parent = some m)
    (hnot : w.relation ∉ m.relationNames) :
    w.target s parent =
      if m.relations.isEmpty then .ok (.conventional m.table w.relation)
      else .error (.unknownRelation m.name w.relation
        (Text.closest? w.relation m.relationNames)) := by
  unfold target Schema.model Model.relation
  rw [hparent]
  dsimp only
  rw [find?_named_eq_none_iff.mpr hnot]

/-- A write is compiled for the place that it has. -/
theorem target_of_childTable {table foreignKey : String}
    (h : ChildTable s parent w.relation table foreignKey) :
    ∃ target, w.target s parent = .ok target ∧ target.table = table ∧
      target.foreignKey = foreignKey := by
  cases h with
  | declared hparent hr hkind hfields hchild hstores =>
    rw [target_of_find hparent hr, RelationTarget.declared_of_child _ hkind hfields hchild,
      Model.column_eq_ok_iff.mpr hstores]
    exact ⟨_, rfl, rfl, rfl⟩
  | unregistered hparent => exact ⟨_, target_of_unregistered hparent, rfl, rfl⟩
  | unrelated hparent hnone =>
    rw [target_of_undeclared hparent (by simp [Model.relationNames, hnone]), hnone]
    exact ⟨_, rfl, rfl, rfl⟩

/-- A write without a place is refused for the reason why it has none. -/
theorem target_of_unreachable {e : Error} (h : Unreachable s parent w e) :
    w.target s parent = .error e := by
  cases h with
  | misspelt hparent hsome hnot =>
    rw [target_of_undeclared hparent hnot, if_neg (by simpa using hsome)]
  | elsewhere hparent hr hkind =>
    rw [target_of_find hparent hr, RelationTarget.declared, if_pos hkind]
  | fieldless hparent hr hkind hfields =>
    rw [target_of_find hparent hr, RelationTarget.declared, if_neg hkind, hfields]
  | unknownChild hparent hr hkind hfields hchild =>
    rw [target_of_find hparent hr, RelationTarget.declared_of_no_child _ hkind hfields hchild]
  | unknownField hparent hr hkind hfields hchild hsome hstar hnot =>
    rw [target_of_find hparent hr, RelationTarget.declared_of_child _ hkind hfields hchild,
      Model.column_eq_error_iff.mpr ⟨⟨hsome, hstar, hnot⟩, rfl⟩]
    rfl

/-- A write has a place, or there is a reason why it has none. -/
theorem placed_or_unreachable (s : Schema) (parent : String) (w : NestedWrite) :
    (∃ table foreignKey, ChildTable s parent w.relation table foreignKey) ∨
      ∃ e, Unreachable s parent w e := by
  cases hparent : s.model? parent with
  | none => exact Or.inl ⟨_, _, .unregistered hparent⟩
  | some m =>
    cases hr : m.relations.find? (·.name == w.relation) with
    | none =>
      by_cases hnone : m.relations = []
      · exact Or.inl ⟨_, _, .unrelated hparent hnone⟩
      · exact Or.inr ⟨_, .misspelt hparent hnone (find?_named_eq_none_iff.mp hr)⟩
    | some r =>
      by_cases hkind : r.kind = .manyToOne
      · exact Or.inr ⟨_, .elsewhere hparent hr hkind⟩
      cases hfields : r.toFields with
      | nil => exact Or.inr ⟨_, .fieldless hparent hr hkind hfields⟩
      | cons field rest =>
        cases hchild : s.model? r.toModel with
        | none =>
          exact Or.inr ⟨_, .unknownChild hparent hr hkind (by simp [hfields]) hchild⟩
        | some child =>
          cases hcolumn : child.column field with
          | ok foreignKey =>
            have hstores := Model.column_eq_ok_iff.mp hcolumn
            exact Or.inl ⟨_, _, .declared hparent hr hkind hfields hchild hstores⟩
          | error e =>
            obtain ⟨⟨hsome, hstar, hnot⟩, -⟩ := Model.column_eq_error_iff.mp hcolumn
            exact Or.inr ⟨_, .unknownField hparent hr hkind hfields hchild hsome hstar hnot⟩

/-- The place of a write is that of its target. -/
theorem childTable_of_target {target : RelationTarget} (h : w.target s parent = .ok target) :
    ChildTable s parent w.relation target.table target.foreignKey := by
  rcases placed_or_unreachable s parent w with ⟨table, foreignKey, hplace⟩ | ⟨e, he⟩
  · obtain ⟨target', htarget, rfl, rfl⟩ := target_of_childTable hplace
    cases h.symm.trans htarget
    exact hplace
  · cases h.symm.trans (target_of_unreachable he)

/-- A write has one place or one reason to have none, and not both. -/
theorem place_unique (s : Schema) (parent : String) (w : NestedWrite) :
    (∃! place : String × String, ChildTable s parent w.relation place.1 place.2) ∧
        (∀ e, ¬Unreachable s parent w e) ∨
      (∃! e, Unreachable s parent w e) ∧
        ∀ table foreignKey, ¬ChildTable s parent w.relation table foreignKey := by
  cases htarget : w.target s parent with
  | ok target =>
    refine Or.inl ⟨⟨(target.table, target.foreignKey), childTable_of_target htarget, ?_⟩, ?_⟩
    · rintro ⟨table, foreignKey⟩ hplace
      obtain ⟨target', htarget', rfl, rfl⟩ := target_of_childTable hplace
      cases htarget.symm.trans htarget'
      rfl
    · intro e he
      cases htarget.symm.trans (target_of_unreachable he)
  | error e =>
    rcases placed_or_unreachable s parent w with ⟨table, foreignKey, hplace⟩ | ⟨e', he⟩
    · obtain ⟨target, htarget', -⟩ := target_of_childTable hplace
      cases htarget.symm.trans htarget'
    · refine Or.inr ⟨⟨e', he, fun e'' he'' => ?_⟩, fun table foreignKey hplace => ?_⟩
      · exact Except.error.inj
          ((target_of_unreachable he'').symm.trans (target_of_unreachable he))
      · obtain ⟨target, htarget', -⟩ := target_of_childTable hplace
        cases htarget.symm.trans htarget'

end NestedWrite

/-! ## Texts -/

/-- The text of a condition on the rows of a table, behind some values. Where it is about the rows
of a parent alone, it begins with the foreign key. -/
def conditionText (d : Dialect) (foreignKey : String) (own : Bool) (bound : Nat)
    (q : Option Predicate) : String :=
  if own then
    d.quoteName foreignKey ++ " = " ++ d.placeholder (bound + 1)
      ++ NestedScope.besideText d (bound + 1) q
  else d.render bound (optional d q)

/-- The texts of statements on the rows of a table that points to a parent by a foreign key. -/
inductive ChildText (d : Dialect) (table foreignKey : String) : String → Prop
  | inserted (columns : List String) (rows : List (List Value)) :
      ChildText d table foreignKey
        (insertIntoText d table (foreignKey :: columns) ++ " VALUES "
          ++ ", ".intercalate (groupTexts d 0 rows) ++ returningText d true)
  | insertedUnless (columns : List String) (values : Nat) (own : Bool) (q : Option Predicate) :
      ChildText d table foreignKey
        (insertIntoText d table (foreignKey :: columns) ++ " SELECT "
          ++ placeholdersText d 0 values ++ dualText d ++ " WHERE NOT EXISTS (SELECT 1 FROM "
          ++ d.quoteName table ++ " WHERE " ++ conditionText d foreignKey own values q ++ ")")
  | attached (q : Option Predicate) :
      ChildText d table foreignKey
        ("UPDATE " ++ d.quoteName table ++ " SET " ++ d.quoteName foreignKey ++ " = "
          ++ d.placeholder 1 ++ " WHERE " ++ conditionText d foreignKey false 1 q)
  | detached (own : Bool) (q : Option Predicate) :
      ChildText d table foreignKey
        ("UPDATE " ++ d.quoteName table ++ " SET " ++ d.quoteName foreignKey ++ " = NULL WHERE "
          ++ conditionText d foreignKey own 0 q)
  | updated (assignments : List Assignment) (q : Option Predicate) :
      ChildText d table foreignKey
        ("UPDATE " ++ d.quoteName table ++ " SET " ++ d.render 0 (assignmentList d assignments)
          ++ " WHERE " ++ conditionText d foreignKey true
            (slots (assignmentList d assignments)).length q)
  | deleted (q : Option Predicate) :
      ChildText d table foreignKey
        ("DELETE FROM " ++ d.quoteName table ++ " WHERE " ++ conditionText d foreignKey true 0 q)

namespace NestedScope

variable {x : NestedScope}

/-- What picks rows is written as a condition of the scope. -/
theorem exists_conditionText {own : Bool} {f : Filter} {p : Predicate} (h : x.pick own f = .ok p) :
    p.FitsAt .alone ∧ ∃ q, ∀ bound, x.env.dialect.render bound (p.tokens x.env.dialect)
      = conditionText x.env.dialect x.target.foreignKey own bound q := by
  refine ⟨(pickText_of_pick h []).2.2, ?_⟩
  cases own with
  | false => exact ⟨some p, fun bound => rfl⟩
  | true =>
    have hscoped : x.scopedWhere f = .ok p := h
    obtain ⟨q, hq, -⟩ := bind_eq_ok.mp hscoped
    refine ⟨q, fun bound => ?_⟩
    -- the text of the filter does not hang on which values were bound before, only on how many
    have hown := pickText_own (Refusal.forget_eq_ok.mp hq) (List.replicate bound .null)
    rw [(pickText_of_pick h _).1, List.length_replicate, render_scopeAtom] at hown
    exact Except.ok.inj (congrArg Prod.fst hown)

/-- To tie rows is to set the foreign key to a placeholder. -/
theorem render_attach (d : Dialect) :
    d.render 0 (assignmentList d [x.attach])
      = d.quoteName x.target.foreignKey ++ " = " ++ d.placeholder 1 :=
  x.render_scopeAtom d 0

/-- To untie rows is to set the foreign key to NULL. -/
theorem render_detach (d : Dialect) :
    d.render 0 (assignmentList d [x.detach]) = d.quoteName x.target.foreignKey ++ " = NULL" := by
  have hnull : d.render 0 [Token.word (α := Value) .null] = "NULL" := by
    simp [Dialect.render, number, layout, Token.chars, Keyword.text]
  show d.render 0 [.name x.target.foreignKey, .symbol .eq, .word .null] = _
  rw [render_name_cons d 0 _ (opens_cons rfl _), render_symbol_cons d 0 rfl (opens_cons rfl _),
    hnull, String.append_assoc, String.append_assoc]
  rfl

/-- The text of an update of the rows that are picked. -/
theorem sql_update_pick {own : Bool} {f : Filter} {p : Predicate} (h : x.pick own f = .ok p)
    {assignments : List Assignment} (hsome : assignments ≠ []) :
    ∃ q, ((Statement.update x.target.table assignments p false).prepare x.env.dialect).sql
      = "UPDATE " ++ x.env.dialect.quoteName x.target.table ++ " SET "
        ++ x.env.dialect.render 0 (assignmentList x.env.dialect assignments) ++ " WHERE "
        ++ conditionText x.env.dialect x.target.foreignKey own
          (slots (assignmentList x.env.dialect assignments)).length q := by
  obtain ⟨hfits, q, htext⟩ := exists_conditionText h
  refine ⟨q, ?_⟩
  rw [Statement.sql_update _ _ hsome hfits, htext]
  exact String.append_empty

/-- What a change comes to is written for the table and the foreign key of its target. -/
theorem childText_of_emits {change : RelationChange} {s : Statement} (h : x.Emits change s) :
    ChildText x.env.dialect x.target.table x.target.foreignKey (s.prepare x.env.dialect).sql := by
  cases h with
  | insert hcreated hcolumns =>
    rw [Statement.sql_insert _ _ _ (by simp [hcreated, insertedRows])]
    exact .inserted _ _
  | @insertUnless row columns own f p hcreated hcolumns hp =>
    obtain ⟨hfits, q, htext⟩ := exists_conditionText hp
    have hform := @ChildText.insertedUnless x.env.dialect x.target.table x.target.foreignKey columns
      (x.key :: row.values).length own q
    rw [Statement.sql_insertUnless _ _ _ (by simp), render_notExists _ _ _ (hfits.opens _), htext]
    refine Eq.mp (congrArg _ ?_) hform
    simp only [String.append_assoc]
    rfl
  | attach hp =>
    obtain ⟨q, htext⟩ := sql_update_pick hp (List.cons_ne_nil x.attach [])
    have hform := @ChildText.attached x.env.dialect x.target.table x.target.foreignKey q
    rw [htext, render_attach]
    refine Eq.mp (congrArg _ ?_) hform
    simp only [String.append_assoc]
    rfl
  | detach hp =>
    obtain ⟨q, htext⟩ := sql_update_pick hp (List.cons_ne_nil x.detach [])
    have hform := @ChildText.detached x.env.dialect x.target.table x.target.foreignKey false q
    rw [htext, render_detach]
    refine Eq.mp (congrArg _ ?_) hform
    simp only [String.append_assoc]
    rfl
  | detachAll =>
    have hform := @ChildText.detached x.env.dialect x.target.table x.target.foreignKey true none
    have hnone : besideText x.env.dialect 1 none = "" := if_pos rfl
    rw [prepare_detach]
    refine Eq.mp (congrArg _ ?_) hform
    rw [conditionText, if_pos rfl, hnone, String.append_empty]
    simp only [String.append_assoc]
  | @update row assignments f p hrow hsome hassignments hp =>
    have hvalues := slots_assignmentsOf hassignments x.env.dialect
    have hassigned : assignments ≠ [] := by
      rintro rfl
      exact hsome (List.map_eq_nil_iff.mp hvalues.symm)
    obtain ⟨q, htext⟩ := sql_update_pick hp hassigned
    rw [htext]
    exact .updated assignments q
  | delete hp =>
    obtain ⟨hfits, q, htext⟩ := exists_conditionText hp
    have hform := @ChildText.deleted x.env.dialect x.target.table x.target.foreignKey q
    rw [Statement.sql_delete _ _ hfits, htext]
    refine Eq.mp (congrArg _ ?_) hform
    exact String.append_empty.symm

end NestedScope

namespace NestedWrite

/-- A write is compiled for its place. -/
theorem childText_of_compile {env : Env} {parent : String} {key : Value} {w : NestedWrite}
    {statements : List Statement} (h : w.compile env parent key = .ok statements) :
    ∃ table foreignKey, ChildTable env.schema parent w.relation table foreignKey ∧
      ∀ s ∈ statements, ChildText env.dialect table foreignKey (s.prepare env.dialect).sql := by
  obtain ⟨target, htarget, h⟩ := bind_eq_ok.mp h
  exact ⟨_, _, childTable_of_target htarget,
    fun s hs => NestedScope.childText_of_emits (NestedScope.emits_of_compile h s hs)⟩

/-- The statements of some writes are those of each, one write after the other. -/
theorem groups_of_compileAll {env : Env} {parent : String} {key : Value} :
    ∀ {ws : List NestedWrite} {statements : List Statement},
      compileAll env parent key ws = .ok statements →
        ∃ groups, statements = groups.flatten ∧
          List.Forall₂ (fun w own => w.compile env parent key = .ok own) ws groups := by
  intro ws
  induction ws with
  | nil =>
    intro statements h
    cases h
    exact ⟨[], rfl, .nil⟩
  | cons w ws ih =>
    intro statements h
    obtain ⟨own, hown, h⟩ := bind_eq_ok.mp h
    obtain ⟨more, hmore, h⟩ := bind_eq_ok.mp h
    cases h
    obtain ⟨groups, rfl, hgroups⟩ := ih hmore
    exact ⟨own :: groups, rfl, .cons hown hgroups⟩

/-- Whatever the parent and its key are, every write has either one place or one reason to have
none. The statements of a list of writes are written, one write after the other, each for the place
of its write: they name no other table, and the foreign key of rows below the parent is the one of
the place. If any write of the list has no place, it is refused for the reason, and nothing is
compiled of the list. -/
theorem children_written (env : Env) (parent : String) (key : Value) :
    (∀ w : NestedWrite,
      (∃! place : String × String, ChildTable env.schema parent w.relation place.1 place.2) ∧
          (∀ e, ¬Unreachable env.schema parent w e) ∨
        (∃! e, Unreachable env.schema parent w e) ∧
          ∀ table foreignKey, ¬ChildTable env.schema parent w.relation table foreignKey) ∧
      (∀ (ws : List NestedWrite) (statements : List Statement),
        compileAll env parent key ws = .ok statements →
          ∃ groups, statements = groups.flatten ∧
            List.Forall₂ (fun w own => w.compile env parent key = .ok own ∧
              ∃ table foreignKey, ChildTable env.schema parent w.relation table foreignKey ∧
                ∀ s ∈ own, ChildText env.dialect table foreignKey (s.prepare env.dialect).sql)
              ws groups) ∧
      ∀ (ws : List NestedWrite) (w : NestedWrite) (e : Error), w ∈ ws →
        Unreachable env.schema parent w e →
          w.compile env parent key = .error e ∧
            ∃ e', compileAll env parent key ws = .error e' := by
  refine ⟨place_unique env.schema parent, ?_, ?_⟩
  · intro ws statements h
    obtain ⟨groups, hstatements, hgroups⟩ := groups_of_compileAll h
    exact ⟨groups, hstatements, hgroups.imp fun w own hown => ⟨hown, childText_of_compile hown⟩⟩
  · intro ws w e hw he
    have hrefused : w.compile env parent key = .error e := by
      rw [compile, target_of_unreachable he]
      rfl
    refine ⟨hrefused, ?_⟩
    cases h : compileAll env parent key ws with
    | error e' => exact ⟨e', rfl⟩
    | ok statements =>
      obtain ⟨own, hown⟩ := exists_of_compileAll h w hw
      cases hrefused.symm.trans hown

/-- Below a reader, whose only relation is called `books`, the table of the books is written to.
With the relation misspelt beside it, nothing is. -/
theorem children_written_books :
    let env : Env := { schema := librarySchema, dialect := .postgres }
    let misspelt : NestedWrite := { relation := "bok", change := .deleteMany {} }
    (∃ s, compileAll env "Reader" (.int 7) [throwAway] = .ok [s] ∧
        (s.prepare .postgres).sql = "DELETE FROM books WHERE reader_id = $1" ∧
        ChildTable librarySchema "Reader" "books" "books" "reader_id" ∧
        ChildText .postgres "books" "reader_id" (s.prepare .postgres).sql) ∧
      misspelt.compile env "Reader" (.int 7)
          = .error (.unknownRelation "Reader" "bok" (some "books")) ∧
        ∃ e, compileAll env "Reader" (.int 7) [throwAway, misspelt] = .error e := by
  intro env misspelt
  obtain ⟨-, hwritten, hrefused⟩ := children_written env "Reader" (.int 7)
  constructor
  · obtain ⟨s, hs⟩ : ∃ s, compileAll env "Reader" (.int 7) [throwAway] = .ok [s] := ⟨_, rfl⟩
    have hsql : (s.prepare .postgres).sql = "DELETE FROM books WHERE reader_id = $1" := by
      obtain rfl := List.head_eq_of_cons_eq (Except.ok.inj hs)
      decide
    obtain ⟨groups, hgroups, hplaces⟩ := hwritten _ _ hs
    obtain ⟨own, more, ⟨-, table, foreignKey, hplace, htexts⟩, hmore, rfl⟩ :=
      List.forall₂_cons_left_iff.mp hplaces
    cases hmore
    obtain rfl : [s] = own := by simpa using hgroups
    obtain ⟨target, htarget, rfl, rfl⟩ := target_of_childTable hplace
    have hbooks : throwAway.target librarySchema "Reader" = .ok
        { model := some "Book", table := "books", foreignKey := "reader_id" } := by decide
    cases hbooks.symm.trans htarget
    exact ⟨s, hs, hsql, hplace, htexts s (List.mem_singleton_self s)⟩
  · obtain ⟨m, hparent, hname, hnames⟩ : ∃ m, librarySchema.model? "Reader" = some m ∧
        m.name = "Reader" ∧ m.relationNames = ["books"] := ⟨_, rfl, rfl, rfl⟩
    have hsuggestion : Text.closest? "bok" ["books"] = some "books" := by decide
    have hmisspelt : Unreachable librarySchema "Reader" misspelt
        (.unknownRelation m.name "bok" (Text.closest? "bok" m.relationNames)) := by
      refine .misspelt hparent ?_ ?_
      · rintro hnone
        rw [Model.relationNames, hnone] at hnames
        cases hnames
      · rw [hnames]
        decide
    rw [hname, hnames, hsuggestion] at hmisspelt
    exact hrefused _ _ _ (by simp) hmisspelt

end NestedWrite

end SqlQuery
