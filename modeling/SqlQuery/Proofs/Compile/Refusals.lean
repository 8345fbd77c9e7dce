import SqlQuery.Compile.Write
import SqlQuery.Proofs.Compile.Meaning

/-!
# What a filter is refused for

Nothing about a filter as a whole can be wrong but its depth; everything else that is
refused is refused for one of its conditions, and a condition is refused for its operator
or for a name that is not known.

> `Condition.refused_of_atom`: what a condition is refused for.

> `Filter.refused_of_compile`: what a filter is refused for.

So a filter that holds no condition and is not too deep is compiled, and to nothing.
-/

namespace SqlQuery

open Sql

/-! ## Names -/

/-- An error about a model or a field that is not known. -/
inductive Error.UnknownName : Error → Prop where
  | model (model : String) (suggestion : Option String) :
      UnknownName (.unknownModel model suggestion)
  | field (model field : String) (suggestion : Option String) :
      UnknownName (.unknownField model field suggestion)

namespace Schema

variable {s : Schema} {e : Error}

/-- A model is not found because its name is unknown. -/
theorem unknownName_of_model {name : String} (h : s.model name = .error e) : e.UnknownName := by
  unfold model at h
  split at h <;> cases h
  exact .model ..

/-- A table is not found because the model is unknown. -/
theorem unknownName_of_table {name : String} (h : s.table name = .error e) : e.UnknownName := by
  unfold table at h
  rcases bind_eq_error.mp h with h | ⟨m, -, h⟩
  · exact unknownName_of_model h
  · cases h

/-- A column is not found because the model or the field is unknown. -/
theorem unknownName_of_columnOf {name : Option String} {field : String}
    (h : s.columnOf name field = .error e) : e.UnknownName := by
  unfold columnOf at h
  split at h
  next m =>
    unfold column at h
    rcases bind_eq_error.mp h with h | ⟨found, -, h⟩
    · exact unknownName_of_model h
    · unfold Model.column at h
      split at h
      · cases h
      · split at h <;> cases h
        exact .field ..
  next => cases h

end Schema

/-- The assignments of a row fail only where a field is not known. -/
theorem unknownName_of_assignmentsOf {schema : Schema} {model : Option String} {row : Row}
    {e : Error} (h : assignmentsOf schema model row = .error e) : e.UnknownName := by
  unfold assignmentsOf columnsOf at h
  rcases bind_eq_error.mp h with h | ⟨columns, -, h⟩
  · obtain ⟨field, -, h⟩ := exists_mem_of_mapM_eq_error h
    exact Schema.unknownName_of_columnOf h
  · cases h

/-! ## Conditions -/

namespace Condition

/-- An error about the operator of a condition, or about a name that is not known. -/
def RefusedFor (c : Condition) (e : Error) : Prop :=
  (∃ reason, e = .unsupportedOperator c.field c.op reason) ∨ e.UnknownName

variable {c : Condition} {env : Env} {scope : FilterScope} {e : Error}

/-- A condition that the dialect cannot express is refused for that. -/
theorem refused_of_unsupported {α : Type} {reason : Unsupported}
    (h : c.unsupported (α := α) reason = .error e) : c.RefusedFor e := by
  cases h
  exact Or.inl ⟨reason, rfl⟩

/-- A condition with a value of the wrong kind is refused for that. -/
theorem refused_of_wrongValue {α : Type} {expected : Expected}
    (h : c.wrongValue (α := α) expected = .error e) : c.RefusedFor e :=
  refused_of_unsupported h

/-- The operand of a condition is refused for an unknown name or a missing field. -/
theorem refused_of_operand (h : c.operand env scope = .error e) : c.RefusedFor e := by
  unfold operand at h
  rcases bind_eq_error.mp h with h | ⟨column, -, h⟩
  · unfold columnRef at h
    rcases bind_eq_error.mp h with h | ⟨name, -, h⟩
    · exact Or.inr (Schema.unknownName_of_columnOf h)
    · cases h
  · split at h
    · cases h
    · split at h
      · cases h
      · exact refused_of_unsupported h

/-- A condition on arrays is refused where the dialect has none. -/
theorem refused_of_arrays (h : c.arrays env = .error e) : c.RefusedFor e := by
  unfold arrays at h
  split at h
  · cases h
  · exact refused_of_unsupported h

/-- A comparison of order is refused for a value without an order. -/
theorem refused_of_ordered {lhs : Operand} {op : Comparison} (h : c.ordered lhs op = .error e) :
    c.RefusedFor e := by
  unfold ordered at h
  split at h
  · exact refused_of_wrongValue h
  · exact refused_of_wrongValue h
  · cases h

/-- A condition on a list is refused for a value that is none. -/
theorem refused_of_membership {lhs : Operand} {expected : Bool}
    (h : c.membership lhs expected = .error e) : c.RefusedFor e := by
  unfold membership at h
  split at h
  · exact refused_of_wrongValue h
  · cases h
  · cases h

/-- A condition on text is refused for a value that is none. -/
theorem refused_of_patterned {lhs : Operand} {before after : String}
    (h : c.patterned lhs before after = .error e) : c.RefusedFor e := by
  unfold patterned at h
  split at h
  · exact refused_of_wrongValue h
  · cases h

/-- A condition on elements is refused for its value or its dialect. -/
theorem refused_of_elements {lhs : Operand} {vacuous : Bool} {test : List Value → ArrayTest}
    (h : c.elements env lhs vacuous test = .error e) : c.RefusedFor e := by
  unfold elements at h
  split at h
  · exact refused_of_wrongValue h
  · rcases bind_eq_error.mp h with h | ⟨style, -, h⟩
    · exact refused_of_arrays h
    · cases h

/-- A test of an array column fails only where there are no arrays. -/
theorem refused_of_array {test : ArrayStyle → Atom}
    (h : (c.arrays env >>= fun style => .ok (test style)) = .error e) : c.RefusedFor e := by
  rcases bind_eq_error.mp h with h | ⟨style, -, h⟩
  · exact refused_of_arrays h
  · cases h

/-- A condition is refused for its operator, or for a name that is not known. -/
theorem refused_of_atom (h : c.atom env scope = .error e) : c.RefusedFor e := by
  unfold atom at h
  rcases bind_eq_error.mp h with h | ⟨lhs, -, h⟩
  · exact refused_of_operand h
  · split at h
    next => exact refused_of_unsupported h
    next =>
      cases hop : c.op <;> rw [hop] at h <;> dsimp only at h
      case equals | not => cases h
      case isIn | notIn => exact refused_of_membership h
      case lt | lte | gt | gte => exact refused_of_ordered h
      case contains | startsWith | endsWith => exact refused_of_patterned h
      case hasEvery | hasSome => exact refused_of_elements h
      case isNull =>
        split at h
        · cases h
        · exact refused_of_wrongValue h
      case isEmpty =>
        split at h
        · exact refused_of_array h
        · exact refused_of_wrongValue h
      case has =>
        split at h
        · exact refused_of_wrongValue h
        · exact refused_of_array h
      case search =>
        split at h
        · cases h
        · exact refused_of_wrongValue h

/-- Conditions are refused for one of them. -/
theorem refused_of_atoms :
    ∀ {cs : List Condition} {r : Refusal}, atoms env scope cs = .error r →
      ∃ c ∈ cs, c.RefusedFor r.cause := by
  intro cs
  induction cs with
  | nil => intro r h; cases h
  | cons c cs ih =>
    intro r h
    rw [atoms] at h
    rcases bind_eq_error.mp h with h | ⟨a, -, h⟩
    · obtain ⟨e, he, rfl⟩ := Refusal.of_eq_error.mp h
      exact ⟨c, List.mem_cons_self .., refused_of_atom he⟩
    · rcases bind_eq_error.mp h with h | ⟨more, -, h⟩
      · obtain ⟨r', hr', rfl⟩ := Refusal.after_eq_error.mp h
        obtain ⟨c', hc', hrefused⟩ := ih hr'
        exact ⟨c', List.mem_cons_of_mem _ hc', hrefused⟩
      · cases h

end Condition

/-! ## Filters -/

namespace Filter

/-- An error about a tree that goes deeper than it may, or about one of the conditions. -/
def RefusedFor (env : Env) (tooDeep : Prop) (conditions : List Condition) (e : Error) : Prop :=
  (tooDeep ∧ e = .depthExceeded .filter env.maxDepth) ∨ ∃ c ∈ conditions, c.RefusedFor e

/-- A refusal for fewer conditions is one for more. -/
theorem RefusedFor.imp {env : Env} {P Q : Prop} {cs cs' : List Condition} {e : Error}
    (h : RefusedFor env P cs e) (hdeep : P → Q) (hmem : ∀ c ∈ cs, c ∈ cs') :
    RefusedFor env Q cs' e := by
  rcases h with ⟨hp, he⟩ | ⟨c, hc, hrefused⟩
  · exact Or.inl ⟨hdeep hp, he⟩
  · exact Or.inr ⟨c, hmem c hc, hrefused⟩

variable {env : Env} {scope : FilterScope}

mutual

theorem refused_of_compileNode :
    ∀ (f : Filter) (depth : Nat) {r : Refusal}, compileNode env scope depth f = .error r →
      RefusedFor env (env.maxDepth + 1 < depth + f.height) f.allConditions r.cause
  | ⟨op, conditions, nested⟩, depth, r, h => by
    rw [compileNode] at h
    rw [height, allConditions]
    split at h
    next hdeep =>
      cases h
      exact Or.inl ⟨by omega, rfl⟩
    next hdepth =>
      rcases bind_eq_error.mp h with h | ⟨as, -, h⟩
      · obtain ⟨c, hc, hrefused⟩ := Condition.refused_of_atoms h
        exact Or.inr ⟨c, List.mem_append_left _ hc, hrefused⟩
      · rcases bind_eq_error.mp h with h | ⟨groups, -, h⟩
        · obtain ⟨r', hr', rfl⟩ := Refusal.after_eq_error.mp h
          refine (refused_of_compileNodes nested (depth + 1) hr').imp ?_ ?_
          · intro hdeep; omega
          · intro c hc; exact List.mem_append_right _ hc
        · cases h

/-- Some nodes are refused for the first of them that is. -/
theorem refused_of_compileNodes :
    ∀ (fs : List Filter) (depth : Nat) {r : Refusal}, compileNodes env scope depth fs = .error r →
      RefusedFor env (env.maxDepth + 1 < depth + heights fs) (conditionsOf fs) r.cause
  | [], depth, r, h => by
    rw [compileNodes] at h
    cases h
  | f :: rest, depth, r, h => by
    rw [compileNodes] at h
    rw [heights, conditionsOf]
    rcases bind_eq_error.mp h with h | ⟨p, -, h⟩
    · refine (refused_of_compileNode f depth h).imp ?_ ?_
      · intro hdeep; omega
      · intro c hc; exact List.mem_append_left _ hc
    · rcases bind_eq_error.mp h with h | ⟨more, -, h⟩
      · obtain ⟨r', hr', rfl⟩ := Refusal.after_eq_error.mp h
        refine (refused_of_compileNodes rest depth hr').imp ?_ ?_
        · intro hdeep; omega
        · intro c hc; exact List.mem_append_right _ hc
      · cases h

end

/-- A filter is refused where it is too deep, or for one of its conditions. -/
theorem refused_of_compile {f : Filter} {r : Refusal} (h : f.compile env scope = .error r) :
    RefusedFor env (env.maxDepth < f.height) f.allConditions r.cause := by
  refine (refused_of_compileNode f 1 h).imp ?_ fun c hc => hc
  intro hdeep
  omega

/-- A filter without any condition is compiled to nothing, unless it is too deep. -/
theorem compile_of_empty {f : Filter} (hempty : f.allConditions = [])
    (hdepth : f.height ≤ env.maxDepth) : f.compile env scope = .ok none := by
  cases h : f.compile env scope with
  | error r =>
    rcases refused_of_compile h with ⟨hdeep, -⟩ | ⟨c, hc, -⟩
    · omega
    · rw [hempty] at hc
      exact absurd hc (by simp)
  | ok p =>
    have hnone := (compileNode_spec env scope f 1 p h).none_iff.mpr ((isEmpty_iff f).mpr hempty)
    rw [hnone]

/-- A filter that is compiled to nothing holds no condition. -/
theorem empty_of_compile {f : Filter} (h : f.compile env scope = .ok none) :
    f.allConditions = [] :=
  (isEmpty_iff f).mp ((compileNode_spec env scope f 1 none h).none_iff.mp rfl)

end Filter

end SqlQuery
