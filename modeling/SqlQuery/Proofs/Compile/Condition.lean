import SqlQuery.Proofs.Compile.Outcome
import SqlQuery.Proofs.Sql.Parentheses

/-!
# What a condition binds

`Condition.boundValues` reads off a condition, without schema or dialect, which
values it asks to be bound. The compiler decides about the same for each operator
where it makes the atom, and the two agree:

> `Condition.atom_spec`: the atom of a condition binds the condition's values, and
> where it lists items there is one.
-/

namespace SqlQuery

open Sql

/-! ## Bound values -/

/-- The text of a string with something before and behind it. -/
def Value.wrapped (before after : String) : Value → List Value
  | .string s => [.string (before ++ s ++ after)]
  | _ => []

namespace Condition

/-- The values that a condition asks to be bound, in order. -/
def boundValues (c : Condition) : List Value :=
  match c.op with
  | .equals | .not => if c.value.isNull then [] else [c.value]
  | .isNull | .isEmpty => []
  | .isIn | .notIn | .hasEvery | .hasSome => c.value.array?.getD []
  | .contains => c.value.wrapped "%" "%"
  | .startsWith => c.value.wrapped "" "%"
  | .endsWith => c.value.wrapped "%" ""
  | _ => [c.value]

/-- Equality binds the value unless that is null, which is written as a test without one. -/
theorem matching_spec (c : Condition) (lhs : Operand) (op : Comparison) (nullExpected : Bool) :
    (c.matching lhs op nullExpected).values = (if c.value.isNull then [] else [c.value]) ∧
      (c.matching lhs op nullExpected).HasItems := by
  unfold matching
  split <;> exact ⟨rfl, trivial⟩

theorem ordered_spec {c : Condition} {lhs : Operand} {op : Comparison} {a : Atom}
    (h : c.ordered lhs op = .ok a) : a.values = [c.value] ∧ a.HasItems := by
  unfold ordered at h
  split at h
  · cases h
  · cases h
  · cases h
    exact ⟨rfl, trivial⟩

/-- A condition on a list binds all its items, and an empty list has no list written for it. -/
theorem membership_spec {c : Condition} {lhs : Operand} {expected : Bool} {a : Atom}
    (h : c.membership lhs expected = .ok a) :
    a.values = c.value.array?.getD [] ∧ a.HasItems := by
  unfold membership at h
  split at h
  next => cases h
  next hitems =>
    cases h
    exact ⟨by rw [hitems]; rfl, trivial⟩
  next items hne hitems =>
    cases h
    exact ⟨by rw [hitems]; rfl, hne⟩

/-- A condition on text binds its text with the wildcards around it. -/
theorem patterned_spec {c : Condition} {lhs : Operand} {before after : String} {a : Atom}
    (h : c.patterned lhs before after = .ok a) :
    a.values = c.value.wrapped before after ∧ a.HasItems := by
  unfold patterned at h
  cases hv : c.value with
  | string s =>
    rw [hv] at h
    cases h
    exact ⟨rfl, trivial⟩
  | _ =>
    rw [hv] at h
    cases h

/-- A condition on the elements of an array binds all of them, and is a constant where there are
none. -/
theorem elements_spec {c : Condition} {env : Env} {lhs : Operand} {vacuous : Bool}
    {test : List Value → ArrayTest} {a : Atom}
    (htest : ∀ (style : ArrayStyle) (items : List Value), items ≠ [] →
      (Atom.array style lhs (test items)).values = items ∧
        (Atom.array style lhs (test items)).HasItems)
    (h : c.elements env lhs vacuous test = .ok a) :
    a.values = c.value.array?.getD [] ∧ a.HasItems := by
  unfold elements at h
  split at h
  next => cases h
  next items hitems =>
    obtain ⟨style, -, h⟩ := bind_eq_ok.mp h
    rw [hitems, Option.getD_some]
    cases items with
    | nil =>
      -- no element to look for: the atom is a constant
      cases h
      exact ⟨rfl, trivial⟩
    | cons v rest =>
      cases h
      exact htest style (v :: rest) (by simp)

/-- A condition on an array is written in some style of the dialect. -/
theorem arrays_spec {c : Condition} {env : Env} {lhs : Operand} {test : ArrayTest} {a : Atom}
    (h : (c.arrays env >>= fun style => .ok (.array style lhs test)) = .ok a) :
    ∃ style, a = .array style lhs test := by
  obtain ⟨style, -, h⟩ := bind_eq_ok.mp h
  cases h
  exact ⟨style, rfl⟩

/-- The atom of a condition binds the condition's values, and where it lists items
there is one. -/
theorem atom_spec {c : Condition} {env : Env} {scope : FilterScope} {a : Atom}
    (h : c.atom env scope = .ok a) : a.values = c.boundValues ∧ a.HasItems := by
  unfold atom at h
  obtain ⟨lhs, -, h⟩ := bind_eq_ok.mp h
  unfold boundValues
  split at h
  next => cases h
  next =>
    cases hop : c.op <;> rw [hop] at h <;> dsimp only at h ⊢
    case equals => cases h; exact c.matching_spec lhs .eq true
    case not => cases h; exact c.matching_spec lhs .ne false
    case isIn | notIn => exact membership_spec h
    case lt | lte | gt | gte => exact ordered_spec h
    case contains | startsWith | endsWith => exact patterned_spec h
    case isNull =>
      split at h <;> cases h
      exact ⟨rfl, trivial⟩
    case isEmpty =>
      split at h
      · obtain ⟨style, rfl⟩ := arrays_spec h
        exact ⟨rfl, trivial⟩
      · cases h
    case has =>
      split at h
      · cases h
      · obtain ⟨style, rfl⟩ := arrays_spec h
        exact ⟨rfl, trivial⟩
    case hasEvery | hasSome =>
      refine elements_spec ?_ h
      intro style items hne
      exact ⟨rfl, hne⟩
    case search =>
      cases hv : c.value <;> rw [hv] at h <;> cases h
      exact ⟨rfl, trivial⟩

/-! ## Lists of conditions -/

/-- The atoms that conditions are compiled to, one by one. -/
def CompiledTo (env : Env) (scope : FilterScope) : List Condition → List Atom → Prop :=
  List.Forall₂ fun c a => c.atom env scope = .ok a

/-- Conditions that are compiled one after the other give one atom each. -/
theorem compiledTo_of_atoms {env : Env} {scope : FilterScope} :
    ∀ {cs : List Condition} {as : List Atom}, atoms env scope cs = .ok as →
      CompiledTo env scope cs as := by
  intro cs
  induction cs with
  | nil =>
    intro as h
    cases h
    exact .nil
  | cons c cs ih =>
    intro as h
    rw [atoms] at h
    obtain ⟨a, ha, h⟩ := bind_eq_ok.mp h
    obtain ⟨more, hmore, h⟩ := bind_eq_ok.mp h
    cases h
    exact .cons (Refusal.of_eq_ok.mp ha) (ih (Refusal.after_eq_ok.mp hmore))

/-- No list in the atoms of compiled conditions is empty. -/
theorem hasItems_of_compiledTo {env : Env} {scope : FilterScope} {cs : List Condition}
    {as : List Atom} (h : CompiledTo env scope cs as) : ∀ a ∈ as, a.HasItems := by
  induction h with
  | nil => intro a ha; exact absurd ha (by simp)
  | cons hc _ ih =>
    intro a ha
    rcases List.mem_cons.mp ha with rfl | ha
    · exact (atom_spec hc).2
    · exact ih a ha

/-- Compiled conditions bind what the conditions do, in their order. -/
theorem values_of_compiledTo {env : Env} {scope : FilterScope} {cs : List Condition}
    {as : List Atom} (h : CompiledTo env scope cs as) :
    as.flatMap Atom.values = cs.flatMap boundValues := by
  induction h with
  | nil => rfl
  | cons hc _ ih => rw [List.flatMap_cons, List.flatMap_cons, (atom_spec hc).1, ih]

end Condition

end SqlQuery
