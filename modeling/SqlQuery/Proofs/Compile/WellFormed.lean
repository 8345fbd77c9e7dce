import SqlQuery.Compile.Parameters
import SqlQuery.Proofs.Compile.Meaning

/-!
# Which filters are accepted

Whether a filter is accepted can be read off its conditions, without compiling it.
`Condition.WellFormed` says of one condition what it has to satisfy: its field is known, its
aggregate stands in HAVING, its operator can ignore letter case where that is asked for, takes
values of this kind, and exists in the dialect. `Filter.WellFormed` asks the same of every
condition in the tree, at every level, and bounds the levels. Both can be decided.

> `Condition.atom_ok_iff`: a condition has an atom exactly where it is well-formed.

> `Filter.accepted_iff`: a filter has a text exactly where it is well-formed.

Nothing else is asked for. A group in which no condition stands counts as a level, though it
is left out of the text, and a condition is looked at wherever it stands.
-/

namespace SqlQuery

open Sql

/-! ## Well-formed filters -/

/-- A field that stands for a column: one that the model declares, any one where the model
declares none, and any one where no model is given. -/
def Schema.Resolves (s : Schema) (model : Option String) (field : String) : Prop :=
  ∀ name ∈ model, ∃ m ∈ s.model? name, m.fields = [] ∨ field = "*" ∨ field ∈ m.fieldNames

instance (s : Schema) (model : Option String) (field : String) :
    Decidable (s.Resolves model field) :=
  inferInstanceAs (Decidable (∀ name ∈ model, ∃ m ∈ s.model? name,
    m.fields = [] ∨ field = "*" ∨ field ∈ m.fieldNames))

/-- Whether an operator takes values of a kind. -/
def Operator.takes : Operator → Kind → Bool
  | .equals, _ | .not, _ => true
  | .lt, k | .lte, k | .gt, k | .gte, k => k != .null && k != .array
  | .isIn, k | .notIn, k | .hasEvery, k | .hasSome, k => k == .array
  | .contains, k | .startsWith, k | .endsWith, k | .search, k => k == .string
  | .isNull, k | .isEmpty, k => k == .bool
  | .has, k => k != .array

/-- A condition about which nothing is wrong. -/
structure Condition.WellFormed (c : Condition) (env : Env) (scope : FilterScope) : Prop where
  field : env.schema.Resolves scope.model c.field
  aggregate : c.aggregate ≠ none → scope.clause = .having
  mode : c.mode = .insensitive → c.op ∉ [.isEmpty, .has, .hasEvery, .hasSome, .search]
  value : c.op.takes c.value.kind = true
  arrays : c.op ∈ [.isEmpty, .has, .hasEvery, .hasSome] → env.dialect ≠ .sqlite

instance (c : Condition) (env : Env) (scope : FilterScope) : Decidable (c.WellFormed env scope) :=
  decidable_of_iff
    (env.schema.Resolves scope.model c.field ∧ (c.aggregate ≠ none → scope.clause = .having) ∧
      (c.mode = .insensitive → c.op ∉ [.isEmpty, .has, .hasEvery, .hasSome, .search]) ∧
      c.op.takes c.value.kind = true ∧
      (c.op ∈ [.isEmpty, .has, .hasEvery, .hasSome] → env.dialect ≠ .sqlite))
    ⟨fun ⟨h₁, h₂, h₃, h₄, h₅⟩ => ⟨h₁, h₂, h₃, h₄, h₅⟩,
      fun ⟨h₁, h₂, h₃, h₄, h₅⟩ => ⟨h₁, h₂, h₃, h₄, h₅⟩⟩

/-- A filter that is not too deep and about whose conditions nothing is wrong. -/
def Filter.WellFormed (f : Filter) (env : Env) (scope : FilterScope) : Prop :=
  f.height ≤ env.maxDepth ∧ ∀ c ∈ f.allConditions, c.WellFormed env scope

instance (f : Filter) (env : Env) (scope : FilterScope) : Decidable (f.WellFormed env scope) :=
  inferInstanceAs (Decidable (f.height ≤ env.maxDepth ∧ ∀ c ∈ f.allConditions, _))

/-! ## One step after another -/

/-- Where it does not matter for what follows a step which result the step has, both succeed
exactly where each of them does. -/
theorem exists_bind_ok_iff {ε α β : Type} {x : Except ε α} {f : α → Except ε β} {P : Prop}
    (hf : ∀ a, x = .ok a → ((∃ b, f a = .ok b) ↔ P)) :
    (∃ b, (x >>= f) = .ok b) ↔ (∃ a, x = .ok a) ∧ P := by
  constructor
  · rintro ⟨b, h⟩
    obtain ⟨a, ha, hb⟩ := bind_eq_ok.mp h
    exact ⟨⟨a, ha⟩, (hf a ha).mp ⟨b, hb⟩⟩
  · rintro ⟨⟨a, ha⟩, hP⟩
    obtain ⟨b, hb⟩ := (hf a ha).mpr hP
    exact ⟨b, bind_eq_ok.mpr ⟨a, ha, hb⟩⟩

@[simp]
theorem exists_pure_ok {ε α : Type} {a : α} : ∃ b, (pure a : Except ε α) = .ok b :=
  ⟨a, rfl⟩

/-- What makes something of the result of a step succeeds exactly where the step does. -/
theorem exists_bind_pure_iff {ε α β : Type} {x : Except ε α} {g : α → β} :
    (∃ b, (x >>= fun a => pure (g a)) = .ok b) ↔ ∃ a, x = .ok a := by
  rw [exists_bind_ok_iff fun _ _ => iff_true_intro exists_pure_ok, and_true]

/-- Every model lets `*` through as a column. -/
theorem Model.column_star (m : Model) : m.column "*" = .ok "*" :=
  if_pos (by simp)

theorem Schema.model_ok_iff {s : Schema} {name : String} {m : Model} :
    s.model name = .ok m ↔ s.model? name = some m := by
  unfold model
  cases s.model? name with
  | none => exact iff_of_false (by simp) (by simp)
  | some m' => rw [Except.ok.injEq, Option.some.injEq]

/-- A column is found for exactly the fields that stand for one. -/
theorem Schema.columnOf_ok_iff {s : Schema} {model : Option String} {field : String} :
    (∃ column, s.columnOf model field = .ok column) ↔ s.Resolves model field := by
  cases model with
  | none => simp [columnOf, Resolves]
  | some name =>
    unfold columnOf column Schema.model Resolves
    cases hm : s.model? name with
    | none => simp [hm, bind, Except.bind]
    | some m =>
      have hfind : (∃ column, m.column field = .ok column) ↔
          m.fields = [] ∨ field = "*" ∨ field ∈ m.fieldNames := by
        unfold Model.column
        by_cases hany : (m.fields.isEmpty || field == "*") = true
        · rw [if_pos hany]
          simp only [Bool.or_eq_true, List.isEmpty_iff, beq_iff_eq] at hany
          rcases hany with h | h <;> simp [h]
        · rw [if_neg hany]
          simp only [Bool.or_eq_true, List.isEmpty_iff, beq_iff_eq, not_or] at hany
          cases hf : m.fields.find? (·.name == field) with
          | some found =>
            have hname := List.find?_some hf
            have hmem : field ∈ m.fieldNames :=
              List.mem_map.mpr ⟨found, List.mem_of_find?_eq_some hf, by simpa using hname⟩
            simp [hmem]
          | none =>
            have hnot : field ∉ m.fieldNames := by
              intro hmem
              obtain ⟨found, hfound, hname⟩ := List.mem_map.mp hmem
              have := List.find?_eq_none.mp hf found hfound
              exact this (by simpa using hname)
            simp [hany.1, hany.2, hnot]
      simpa [hm, bind, Except.bind] using hfind

/-! ## Conditions -/

namespace Condition

variable {c : Condition} {env : Env} {scope : FilterScope}

/-- What the dialect cannot express is never compiled. -/
theorem not_unsupported {α : Type} {reason : Unsupported} :
    ¬∃ a : α, c.unsupported reason = .ok a := by
  rintro ⟨a, h⟩
  cases h

/-- A condition has an operand where its field is known and an aggregate may stand there. -/
theorem operand_ok_iff :
    (∃ lhs, c.operand env scope = .ok lhs) ↔
      env.schema.Resolves scope.model c.field ∧ (c.aggregate ≠ none → scope.clause = .having) := by
  rw [← Schema.columnOf_ok_iff, operand]
  refine (exists_bind_ok_iff fun column _ => ?_).trans (and_congr_left' ?_)
  · cases ha : c.aggregate with
    | none => exact ⟨fun _ h => absurd rfl h, fun _ => ⟨_, rfl⟩⟩
    | some f =>
      dsimp only
      split
      next hclause => exact ⟨fun _ _ => hclause, fun _ => ⟨_, rfl⟩⟩
      next hclause =>
        exact ⟨fun h => absurd h not_unsupported, fun h => absurd (h (by simp)) hclause⟩
  · rw [columnRef, exists_bind_pure_iff]

theorem arrays_ok_iff : (∃ style, c.arrays env = .ok style) ↔ env.dialect ≠ .sqlite := by
  unfold arrays
  cases hd : env.dialect <;> simp [Dialect.arrays?, unsupported]

/-- Values that are neither null nor arrays have an order. -/
theorem ordered_ok_iff {lhs : Operand} {op : Comparison} :
    (∃ a, c.ordered lhs op = .ok a) ↔ c.value.kind ≠ .null ∧ c.value.kind ≠ .array := by
  unfold ordered
  cases hv : c.value <;> simp [Value.kind, wrongValue, unsupported]

theorem membership_ok_iff {lhs : Operand} {expected : Bool} :
    (∃ a, c.membership lhs expected = .ok a) ↔ c.value.kind = .array := by
  unfold membership
  cases hv : c.value with
  | array items => cases items <;> simp [Value.array?, Value.kind]
  | _ => simp [Value.array?, Value.kind, wrongValue, unsupported]

theorem patterned_ok_iff {lhs : Operand} {before after : String} :
    (∃ a, c.patterned lhs before after = .ok a) ↔ c.value.kind = .string := by
  unfold patterned
  cases hv : c.value <;> simp [Value.string?, Value.kind, wrongValue, unsupported]

/-- A condition on elements needs an array, and a dialect that has them. -/
theorem elements_ok_iff {lhs : Operand} {vacuous : Bool} {test : List Value → ArrayTest} :
    (∃ a, c.elements env lhs vacuous test = .ok a) ↔
      c.value.kind = .array ∧ env.dialect ≠ .sqlite := by
  unfold elements
  cases hv : c.value with
  | array items =>
    dsimp only [Value.array?]
    rw [exists_bind_pure_iff, arrays_ok_iff]
    simp [Value.kind]
  | _ => simp [Value.array?, Value.kind, wrongValue, unsupported]

/-- A test of an array column is made where there are arrays. -/
theorem array_ok_iff {test : ArrayStyle → Atom} :
    (∃ a, (c.arrays env >>= fun style => pure (test style)) = .ok a) ↔ env.dialect ≠ .sqlite := by
  rw [exists_bind_pure_iff, arrays_ok_iff]

/-- Letter case can be ignored in all conditions but those on arrays and searches. -/
theorem caseBound_iff :
    (c.folds && isCaseBound c.op) = true ↔
      c.mode = .insensitive ∧ c.op ∈ [.isEmpty, .has, .hasEvery, .hasSome, .search] := by
  unfold folds isCaseBound
  cases c.op <;> simp

/-- A condition has an atom exactly where it is well-formed. -/
theorem atom_ok_iff : (∃ a, c.atom env scope = .ok a) ↔ c.WellFormed env scope := by
  unfold atom
  -- the operand decides about the field and the aggregate, the rest does not depend on it
  refine (exists_bind_ok_iff (P :=
    (c.mode = .insensitive → c.op ∉ [.isEmpty, .has, .hasEvery, .hasSome, .search]) ∧
      c.op.takes c.value.kind = true ∧
      (c.op ∈ [.isEmpty, .has, .hasEvery, .hasSome] → env.dialect ≠ .sqlite))
    fun lhs _ => ?_).trans ?_
  · by_cases hcase : (c.folds && isCaseBound c.op) = true
    · rw [if_pos hcase]
      obtain ⟨hmode, hop⟩ := caseBound_iff.mp hcase
      exact ⟨fun h => absurd h not_unsupported, fun h => absurd hop (h.1 hmode)⟩
    · have hmode : c.mode = .insensitive →
          c.op ∉ [.isEmpty, .has, .hasEvery, .hasSome, .search] :=
        fun hm hop => hcase (caseBound_iff.mpr ⟨hm, hop⟩)
      rw [if_neg hcase, and_iff_right hmode]
      cases hop : c.op <;> simp only [Operator.takes]
      case equals | not => simp
      case lt | lte | gt | gte => simp [ordered_ok_iff]
      case isIn | notIn => simp [membership_ok_iff]
      case contains | startsWith | endsWith => simp [patterned_ok_iff]
      case hasEvery | hasSome => simp [elements_ok_iff]
      case isNull =>
        cases hv : c.value <;> simp [Value.bool?, Value.kind, wrongValue, unsupported]
      case search =>
        cases hv : c.value <;> simp [Value.string?, Value.kind, wrongValue, unsupported]
      case isEmpty =>
        cases hv : c.value with
        | bool b => exact array_ok_iff.trans (by simp [Value.kind])
        | _ => simp [Value.bool?, Value.kind, wrongValue, unsupported]
      case has =>
        cases hv : c.value with
        | array items => simp [Value.array?, Value.kind, wrongValue, unsupported]
        | _ => exact array_ok_iff.trans (by simp [Value.kind])
  · rw [operand_ok_iff]
    exact ⟨fun ⟨⟨h₁, h₂⟩, h₃, h₄, h₅⟩ => ⟨h₁, h₂, h₃, h₄, h₅⟩,
      fun ⟨h₁, h₂, h₃, h₄, h₅⟩ => ⟨⟨h₁, h₂⟩, h₃, h₄, h₅⟩⟩

/-- Conditions are compiled where each of them is well formed. -/
theorem atoms_ok_iff (cs : List Condition) :
    (∃ as, atoms env scope cs = .ok as) ↔ ∀ c ∈ cs, c.WellFormed env scope := by
  induction cs with
  | nil => simp [atoms]
  | cons c cs ih =>
    rw [atoms, List.forall_mem_cons, ← atom_ok_iff, ← ih]
    refine (exists_bind_ok_iff fun a _ => ?_).trans (and_congr_left' ?_)
    · rw [exists_bind_pure_iff]
      exact exists_congr fun _ => Refusal.after_eq_ok
    · exact exists_congr fun _ => Refusal.of_eq_ok

end Condition

/-! ## Trees -/

namespace Filter

variable {env : Env} {scope : FilterScope}

mutual

/-- The node `depth` levels down is compiled where none of its levels is too deep and every
condition below it is well-formed. -/
theorem compileNode_ok_iff :
    ∀ (f : Filter) (depth : Nat),
      (∃ p, compileNode env scope depth f = .ok p) ↔
        depth + f.height ≤ env.maxDepth + 1 ∧ ∀ c ∈ f.allConditions, c.WellFormed env scope
  | ⟨op, conditions, nested⟩, depth => by
    rw [compileNode, height, allConditions, List.forall_mem_append]
    by_cases hdeep : env.maxDepth < depth
    · rw [if_pos hdeep]
      constructor
      · rintro ⟨p, h⟩
        cases h
      · rintro ⟨h, -⟩
        omega
    · rw [if_neg hdeep, ← Condition.atoms_ok_iff conditions]
      refine (exists_bind_ok_iff (P := depth + (heights nested + 1) ≤ env.maxDepth + 1 ∧
        ∀ c ∈ conditionsOf nested, c.WellFormed env scope) fun as _ => ?_).trans and_left_comm
      rw [exists_bind_pure_iff, ← Nat.add_assoc, Nat.add_right_comm,
        ← compileNodes_ok_iff nested (depth + 1) (by omega)]
      exact exists_congr fun _ => Refusal.after_eq_ok

/-- Some nodes are compiled where none is too deep and all their conditions are well formed. -/
theorem compileNodes_ok_iff :
    ∀ (fs : List Filter) (depth : Nat), depth ≤ env.maxDepth + 1 →
      ((∃ ps, compileNodes env scope depth fs = .ok ps) ↔
        depth + heights fs ≤ env.maxDepth + 1 ∧ ∀ c ∈ conditionsOf fs, c.WellFormed env scope)
  | [], depth, hdepth => by
    simp [compileNodes, heights, conditionsOf, hdepth]
  | f :: rest, depth, hdepth => by
    rw [compileNodes, heights, conditionsOf, List.forall_mem_append]
    have hmax : depth + max f.height (heights rest) ≤ env.maxDepth + 1 ↔
        depth + f.height ≤ env.maxDepth + 1 ∧ depth + heights rest ≤ env.maxDepth + 1 := by
      omega
    rw [hmax, and_and_and_comm, ← compileNode_ok_iff f depth,
      ← compileNodes_ok_iff rest depth hdepth]
    refine exists_bind_ok_iff fun p _ => ?_
    rw [exists_bind_pure_iff]
    exact exists_congr fun _ => Refusal.after_eq_ok

end

/-- A filter is compiled exactly where it is well-formed. -/
theorem compile_ok_iff {f : Filter} :
    (∃ p, f.compile env scope = .ok p) ↔ f.WellFormed env scope := by
  rw [compile, compileNode_ok_iff, WellFormed, Nat.add_comm 1, Nat.add_le_add_iff_right]

/-- Whatever has been bound before it, a filter has a text exactly where it is well-formed. -/
theorem accepted_iff (p : Parameters) (schema : Schema) (maxDepth : Nat) (scope : FilterScope)
    (f : Filter) :
    (∃ sql, (p.writePredicate (f.compile { schema, dialect := p.dialect, maxDepth } scope)).1
        = .ok sql) ↔
      f.WellFormed { schema, dialect := p.dialect, maxDepth } scope := by
  rw [← compile_ok_iff]
  cases hf : f.compile { schema, dialect := p.dialect, maxDepth } scope with
  | ok q => simp [Parameters.writePredicate]
  | error r => simp [Parameters.writePredicate]

-- an operator that needs arrays is refused by SQLite, also below a group that is empty but for it
example : ¬({ nested := [{}, .not [.or [{ field := "tags", op := .has }]]] } : Filter).WellFormed
    { schema := {}, dialect := .sqlite } { model := none } := by
  decide

end Filter

end SqlQuery
