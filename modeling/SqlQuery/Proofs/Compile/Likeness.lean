import SqlQuery.Compile.Nested
import SqlQuery.Proofs.Compile.Outcome
import SqlQuery.Proofs.Sql.Alike

/-!
# Queries that differ in their values only

Two values are like each other where they are of one kind, and of one length where they are
arrays; what they are is left open. Two queries are like each other where all they differ in
is such values, and the truth values that decide about an IS NULL stay the same.

A filter looks at a value in few places: whether it is null, how long an array is, and the
truth value of a test. All of these are seen from values that are alike, so

> `Filter.Like.compile`: filters that are alike are refused for one cause, or compiled to
> predicates that are alike but for the values they bind.
-/

namespace SqlQuery

open Sql

/-! ## Likeness -/

/-- Values of one kind; arrays of one length, whatever they hold. -/
inductive Value.Like : Value → Value → Prop where
  | null : Like .null .null
  | bool (b b' : Bool) : Like (.bool b) (.bool b')
  | int (n n' : Int64) : Like (.int n) (.int n')
  | float (x x' : Binary64) : Like (.float x) (.float x')
  | string (s s' : String) : Like (.string s) (.string s')
  | instant (t t' : Instant) : Like (.instant t) (.instant t')
  | uuid (u u' : Uuid) : Like (.uuid u) (.uuid u')
  | array {items items' : List Value} : items.length = items'.length →
      Like (.array items) (.array items')
  | json (j j' : Json) : Like (.json j) (.json j')

/-- Conditions with values that are alike. A test for null or for emptiness is of the same
truth value in both. -/
inductive Condition.Like : Condition → Condition → Prop where
  | value (c : Condition) {v v' : Value} : v.Like v' →
      (c.op = .isNull ∨ c.op = .isEmpty → v.bool? = v'.bool?) →
      Like { c with value := v } { c with value := v' }

namespace Filter

mutual

/-- Trees with conditions that are alike. -/
inductive Like : Filter → Filter → Prop where
  | node (op : LogicalOp) {cs cs' : List Condition} {fs fs' : List Filter} :
      List.Forall₂ Condition.Like cs cs' → AllLike fs fs' →
      Like ⟨op, cs, fs⟩ ⟨op, cs', fs'⟩

/-- Lists of trees that are alike one by one. -/
inductive AllLike : List Filter → List Filter → Prop where
  | nil : AllLike [] []
  | cons {f f' : Filter} {fs fs' : List Filter} : Like f f' → AllLike fs fs' →
      AllLike (f :: fs) (f' :: fs')

end

end Filter

/-- Rows of the same fields, with values that are alike. -/
def Row.Like : Row → Row → Prop :=
  List.Forall₂ fun entry entry' => entry.1 = entry'.1 ∧ entry.2.Like entry'.2

/-- Payloads with rows that are alike. -/
inductive Payload.Like : Payload → Payload → Prop where
  | none : Like .none .none
  | create {row row' : Row} : row.Like row' → Like (.create row) (.create row')
  | createMany {rows rows' : List Row} : List.Forall₂ Row.Like rows rows' →
      Like (.createMany rows) (.createMany rows')
  | update {row row' : Row} : row.Like row' → Like (.update row) (.update row')
  | upsert (keys : List String) {created created' updated updated' : Row} :
      created.Like created' → updated.Like updated' →
      Like (.upsert keys created updated) (.upsert keys created' updated')

/-- Changes with filters and rows that are alike. -/
inductive RelationChange.Like : RelationChange → RelationChange → Prop where
  | create {row row' : Row} : row.Like row' → Like (.create row) (.create row')
  | createMany {rows rows' : List Row} : List.Forall₂ Row.Like rows rows' →
      Like (.createMany rows) (.createMany rows')
  | connect {f f' : Filter} : f.Like f' → Like (.connect f) (.connect f')
  | connectOrCreate {f f' : Filter} {row row' : Row} : f.Like f' → row.Like row' →
      Like (.connectOrCreate f row) (.connectOrCreate f' row')
  | disconnect {f f' : Filter} : f.Like f' → Like (.disconnect f) (.disconnect f')
  | set {f f' : Filter} : f.Like f' → Like (.set f) (.set f')
  | update {f f' : Filter} {row row' : Row} : f.Like f' → row.Like row' →
      Like (.update f row) (.update f' row')
  | updateMany {f f' : Filter} {row row' : Row} : f.Like f' → row.Like row' →
      Like (.updateMany f row) (.updateMany f' row')
  | delete {f f' : Filter} : f.Like f' → Like (.delete f) (.delete f')
  | deleteMany {f f' : Filter} : f.Like f' → Like (.deleteMany f) (.deleteMany f')
  | upsert {f f' : Filter} {created created' updated updated' : Row} : f.Like f' →
      created.Like created' → updated.Like updated' →
      Like (.upsert f created updated) (.upsert f' created' updated')

/-- Writes to one relation that are alike. -/
inductive NestedWrite.Like : NestedWrite → NestedWrite → Prop where
  | change (relation : String) {change change' : RelationChange} : change.Like change' →
      Like ⟨relation, change⟩ ⟨relation, change'⟩

/-- Cursors on one field, with values that are alike. -/
inductive Cursor.Like : Cursor → Cursor → Prop where
  | value (field : String) {v v' : Value} : v.Like v' → Like ⟨field, v⟩ ⟨field, v'⟩

mutual

/-- Queries that are the same but for values, which are alike. -/
inductive Query.Like : Query → Query → Prop where
  | values (q : Query) {f f' having having' : Filter} {inclusions inclusions' : List Inclusion}
      {cursor cursor' : Option Cursor} {payload payload' : Payload}
      {writes writes' : List NestedWrite} :
      f.Like f' → Inclusion.AllLike inclusions inclusions' → Option.Rel Cursor.Like cursor cursor' →
      having.Like having' → payload.Like payload' → List.Forall₂ NestedWrite.Like writes writes' →
      Query.Like { q with filter := f, inclusions, cursor, having, payload, writes }
        { q with filter := f', inclusions := inclusions', cursor := cursor', having := having'
                 payload := payload', writes := writes' }

/-- Inclusions that are the same but for values, which are alike. -/
inductive Inclusion.Like : Inclusion → Inclusion → Prop where
  | plain (relation : String) (projects : Bool) {nested nested' : List Inclusion} :
      Inclusion.AllLike nested nested' →
      Inclusion.Like ⟨relation, none, projects, nested⟩ ⟨relation, none, projects, nested'⟩
  | query (relation : String) {q q' : Query} (projects : Bool) {nested nested' : List Inclusion} :
      Query.Like q q' → Inclusion.AllLike nested nested' →
      Inclusion.Like ⟨relation, some q, projects, nested⟩ ⟨relation, some q', projects, nested'⟩

/-- Lists of inclusions that are alike one by one. -/
inductive Inclusion.AllLike : List Inclusion → List Inclusion → Prop where
  | nil : Inclusion.AllLike [] []
  | cons {i i' : Inclusion} {is is' : List Inclusion} : Inclusion.Like i i' →
      Inclusion.AllLike is is' → Inclusion.AllLike (i :: is) (i' :: is')

end

/-- Statements are the same but for the values they bind. -/
def unvalued : Likeness where
  names := fun _ n n' => n = n'
  values := fun _ _ => True

/-! ## Conditions -/

/-- Values are related to any others, as long as there are as many. -/
theorem values_of_length : ∀ {vs vs' : List Value}, vs.length = vs'.length →
    List.Forall₂ unvalued.values vs vs' := by
  intro vs
  induction vs with
  | nil =>
    intro vs' h
    rw [List.length_eq_zero_iff.mp h.symm]
    exact .nil
  | cons v vs ih =>
    intro vs' h
    cases vs' with
    | nil => cases h
    | cons v' vs' => exact .cons trivial (ih (Nat.succ.inj h))

theorem Sql.ColumnRef.alike_self (c : ColumnRef) : c.Alike unvalued c := by
  refine ⟨?_, rfl⟩
  cases c.qualifier with
  | none => exact .none
  | some q => exact .some rfl

theorem Sql.Operand.alike_self (lhs : Operand) : lhs.Alike unvalued lhs := by
  cases lhs with
  | column c => exact .column c.alike_self
  | aggregate f c => exact .aggregate f c.alike_self

namespace Value.Like

variable {v v' : Value}

theorem kind_eq (h : v.Like v') : v.kind = v'.kind := by
  cases h <;> rfl

theorem isNull_eq (h : v.Like v') : v.isNull = v'.isNull := by
  unfold isNull
  rw [h.kind_eq]

/-- The items of values that are alike are as many. -/
theorem array? (h : v.Like v') :
    Option.Rel (fun items items' => items.length = items'.length) v.array? v'.array? := by
  cases h with
  | array hlength => exact .some hlength
  | _ => exact .none

/-- Values that are alike are strings together. -/
theorem string? (h : v.Like v') : Option.Rel (fun _ _ => True) v.string? v'.string? := by
  cases h with
  | string s s' => exact .some trivial
  | _ => exact .none

end Value.Like

namespace Condition

variable {field : String} {op : Operator} {mode : CaseMode} {aggregate : Option AggregateFunction}
  {v v' : Value} {lhs : Operand} {env : Env} {scope : FilterScope}

/-- A value of the wrong kind is refused with its kind, not with itself. -/
theorem agree_wrongValue {α β : Type} {R : α → β → Prop} (h : v.Like v') (expected : Expected) :
    Agree R (wrongValue ⟨field, op, v, mode, aggregate⟩ expected)
      (wrongValue ⟨field, op, v', mode, aggregate⟩ expected) := by
  unfold wrongValue
  dsimp only
  rw [h.kind_eq]
  exact .error rfl

/-- Equality is written with a placeholder or as a test for NULL, alike for values that are alike.
-/
theorem alike_matching (h : v.Like v') (comparison : Comparison) (nullExpected : Bool) :
    (matching ⟨field, op, v, mode, aggregate⟩ lhs comparison nullExpected).Alike unvalued
      (matching ⟨field, op, v', mode, aggregate⟩ lhs comparison nullExpected) := by
  unfold matching
  dsimp only
  rw [h.isNull_eq]
  split
  · exact .null _ lhs.alike_self
  · exact .compare _ _ lhs.alike_self trivial

/-- A value has an order or has none by its kind. -/
theorem agree_ordered (h : v.Like v') (comparison : Comparison) :
    Agree (Atom.Alike unvalued) (ordered ⟨field, op, v, mode, aggregate⟩ lhs comparison)
      (ordered ⟨field, op, v', mode, aggregate⟩ lhs comparison) := by
  cases h with
  | null => exact agree_wrongValue .null _
  | array hlength => exact agree_wrongValue (.array hlength) _
  | _ => exact .ok (.compare _ _ lhs.alike_self trivial)

/-- Lists that are alike have as many items, so that both are empty or neither is. -/
theorem agree_membership (h : v.Like v') (expected : Bool) :
    Agree (Atom.Alike unvalued) (membership ⟨field, op, v, mode, aggregate⟩ lhs expected)
      (membership ⟨field, op, v', mode, aggregate⟩ lhs expected) := by
  have hitems := h.array?
  unfold membership
  dsimp only
  generalize v.array? = items at hitems ⊢
  generalize v'.array? = items' at hitems ⊢
  cases hitems with
  | none => exact agree_wrongValue h _
  | @some items items' hlength =>
    -- there is something to look for on both sides or on none
    cases items with
    | nil =>
      rw [List.length_eq_zero_iff.mp hlength.symm]
      exact .ok (.constant _)
    | cons item rest =>
      cases items' with
      | nil => cases hlength
      | cons item' rest' => exact .ok (.oneOf _ _ lhs.alike_self (values_of_length hlength))

/-- A pattern is bound, so its text makes no difference. -/
theorem agree_patterned (h : v.Like v') (before after : String) :
    Agree (Atom.Alike unvalued) (patterned ⟨field, op, v, mode, aggregate⟩ lhs before after)
      (patterned ⟨field, op, v', mode, aggregate⟩ lhs before after) := by
  have htext := h.string?
  unfold patterned
  dsimp only
  generalize v.string? = text at htext ⊢
  generalize v'.string? = text' at htext ⊢
  cases htext with
  | none => exact agree_wrongValue h _
  | some _ => exact .ok (.like _ lhs.alike_self trivial)

/-- Lists of elements that are alike are tested with as many placeholders. -/
theorem agree_elements (h : v.Like v') (vacuous : Bool) {test : List Value → ArrayTest}
    (htest : ∀ {items items' : List Value}, List.Forall₂ unvalued.values items items' →
      (test items).Alike unvalued (test items')) :
    Agree (Atom.Alike unvalued) (elements ⟨field, op, v, mode, aggregate⟩ env lhs vacuous test)
      (elements ⟨field, op, v', mode, aggregate⟩ env lhs vacuous test) := by
  have hitems := h.array?
  unfold elements
  dsimp only
  generalize v.array? = items at hitems ⊢
  generalize v'.array? = items' at hitems ⊢
  cases hitems with
  | none => exact agree_wrongValue h _
  | @some items items' hlength =>
    refine Agree.bind_self fun style _ => ?_
    cases items with
    | nil =>
      rw [List.length_eq_zero_iff.mp hlength.symm]
      exact .ok (.constant _)
    | cons item rest =>
      cases items' with
      | nil => cases hlength
      | cons item' rest' =>
        exact .ok (.array style lhs.alike_self (htest (values_of_length hlength)))

/-- Conditions that are alike are refused for one cause, or compiled to atoms that are alike. -/
theorem Like.atom {c c' : Condition} (h : c.Like c') :
    Agree (Atom.Alike unvalued) (c.atom env scope) (c'.atom env scope) := by
  cases h with
  | @value c v v' hv hflag =>
    obtain ⟨field, op, value, mode, aggregate⟩ := c
    unfold Condition.atom
    refine Agree.bind_self fun lhs _ => ?_
    refine SameOutcome.ite Iff.rfl (fun _ => .error rfl) fun _ => ?_
    have harray : ∀ {test test' : ArrayTest}, test.Alike unvalued test' →
        Agree (Atom.Alike unvalued)
          (arrays ⟨field, op, v, mode, aggregate⟩ env >>= fun style =>
            .ok (.array style lhs test))
          (arrays ⟨field, op, v', mode, aggregate⟩ env >>= fun style =>
            .ok (.array style lhs test')) :=
      fun htest => Agree.bind_self fun style _ => .ok (.array style lhs.alike_self htest)
    cases op <;> dsimp only
    case equals => exact .ok (alike_matching hv _ _)
    case not => exact .ok (alike_matching hv _ _)
    case isIn | notIn => exact agree_membership hv _
    case lt | lte | gt | gte => exact agree_ordered hv _
    case contains | startsWith | endsWith => exact agree_patterned hv _ _
    case hasEvery => exact agree_elements hv _ .hasEvery
    case hasSome => exact agree_elements hv _ .hasSome
    case isNull =>
      rw [← hflag (Or.inl rfl)]
      cases v.bool? with
      | none => exact agree_wrongValue hv _
      | some b => exact .ok (.null _ lhs.alike_self)
    case isEmpty =>
      rw [← hflag (Or.inr rfl)]
      cases v.bool? with
      | none => exact agree_wrongValue hv _
      | some b => exact harray (.empty b)
    case has =>
      have hitems := hv.array?
      generalize v.array? = items at hitems ⊢
      generalize v'.array? = items' at hitems ⊢
      cases hitems with
      | none => exact harray (.has trivial)
      | some _ => exact agree_wrongValue hv _
    case search =>
      have htext := hv.string?
      generalize v.string? = text at htext ⊢
      generalize v'.string? = text' at htext ⊢
      cases htext with
      | none => exact agree_wrongValue hv _
      | some _ => exact .ok (.search lhs.alike_self trivial)

/-- Conditions that are alike one by one are refused for one cause, or compiled to atoms
that are alike one by one. -/
theorem agree_atoms {cs cs' : List Condition} (h : List.Forall₂ Like cs cs') :
    AgreeOnCause (List.Forall₂ (Atom.Alike unvalued)) (atoms env scope cs)
      (atoms env scope cs') := by
  induction h with
  | nil => exact .ok .nil
  | cons hc _ ih =>
    rw [atoms, atoms]
    refine SameOutcome.bind (SameOutcome.of hc.atom) fun a a' ha => ?_
    exact SameOutcome.bind (SameOutcome.after ih) fun more more' hmore => .ok (.cons ha hmore)

end Condition

/-! ## Filters -/

namespace Filter

/-- Nodes whose parts are alike are assembled alike. -/
theorem alike_assemble (op : LogicalOp) {as as' : List Atom} {ps ps' : List Predicate}
    (has : List.Forall₂ (Atom.Alike unvalued) as as')
    (hps : List.Forall₂ (Predicate.Alike unvalued) ps ps') :
    Option.Rel (Predicate.Alike unvalued) (assemble op as ps) (assemble op as' ps') := by
  have hparts : Predicate.AllAlike unvalued (as.map .atom ++ ps.map .group)
      (as'.map .atom ++ ps'.map .group) := by
    refine Predicate.allAlike_iff.mpr (List.rel_append ?_ ?_)
    · exact List.rel_map (fun _ _ h => .atom h) has
    · exact List.rel_map (fun _ _ h => .group h) hps
  have hall := Predicate.Alike.all hparts
  cases has with
  | nil =>
    cases hps with
    | nil => cases op <;> exact .none
    | cons hp hrest =>
      cases hrest with
      | nil =>
        cases op with
        | and => exact .some hall
        | or => exact .some (.any hparts)
        | not => exact .some (.not hp)
      | cons _ _ =>
        cases op with
        | and => exact .some hall
        | or => exact .some (.any hparts)
        | not => exact .some (.not hall)
  | cons _ _ =>
    cases op with
    | and => exact .some hall
    | or => exact .some (.any hparts)
    | not => exact .some (.not hall)

variable {env : Env} {scope : FilterScope}

mutual

theorem Like.compileNode :
    ∀ {f f' : Filter}, f.Like f' → ∀ depth : Nat,
      AgreeOnCause (Option.Rel (Predicate.Alike unvalued)) (compileNode env scope depth f)
        (compileNode env scope depth f')
  | _, _, .node op hcs hfs, depth => by
    rw [Filter.compileNode, Filter.compileNode]
    refine SameOutcome.ite Iff.rfl (fun _ => .error rfl) fun _ => ?_
    refine SameOutcome.bind (Condition.agree_atoms hcs) fun as as' has => ?_
    refine SameOutcome.bind (SameOutcome.after (AllLike.compileNodes hfs (depth + 1))) ?_
    intro ps ps' hps
    exact .ok (alike_assemble op has hps)

theorem AllLike.compileNodes :
    ∀ {fs fs' : List Filter}, AllLike fs fs' → ∀ depth : Nat,
      AgreeOnCause (List.Forall₂ (Predicate.Alike unvalued)) (compileNodes env scope depth fs)
        (compileNodes env scope depth fs')
  | _, _, .nil, depth => .ok .nil
  | _, _, .cons hf hrest, depth => by
    rw [Filter.compileNodes, Filter.compileNodes]
    refine SameOutcome.bind (Like.compileNode hf depth) fun p p' hp => ?_
    refine SameOutcome.bind (SameOutcome.after (AllLike.compileNodes hrest depth)) ?_
    intro more more' hmore
    exact .ok (List.rel_append (Predicate.forall₂_toList hp) hmore)

end

/-- Filters that are alike are refused for one cause, or compiled to predicates that are
alike but for the values they bind. -/
theorem Like.compile {f f' : Filter} (h : f.Like f') :
    AgreeOnCause (Option.Rel (Predicate.Alike unvalued)) (f.compile env scope)
      (f'.compile env scope) :=
  h.compileNode 1

/-- Filters that are alike need parentheses alike. -/
theorem Like.compileOperand {f f' : Filter} (h : f.Like f') :
    AgreeOnCause (Option.Rel (Predicate.Alike unvalued)) (f.compileOperand env scope)
      (f'.compileOperand env scope) := by
  unfold Filter.compileOperand
  refine SameOutcome.bind h.compile fun p p' hp => ?_
  cases hp with
  | none => exact .ok .none
  | some hp => exact .ok (.some hp.operand)

mutual

/-- Whether a filter holds a condition does not hang on values. -/
theorem Like.isEmpty_eq : ∀ {f f' : Filter}, f.Like f' → f.isEmpty = f'.isEmpty
  | _, _, .node op hcs hfs => by
    rw [isEmpty, isEmpty, AllLike.allEmpty_eq hfs]
    cases hcs <;> rfl

/-- Whether some filters hold a condition does not hang on values. -/
theorem AllLike.allEmpty_eq : ∀ {fs fs' : List Filter}, AllLike fs fs' → allEmpty fs = allEmpty fs'
  | _, _, .nil => rfl
  | _, _, .cons hf hrest => by
    rw [allEmpty, allEmpty, Like.isEmpty_eq hf, AllLike.allEmpty_eq hrest]

end

end Filter

end SqlQuery
