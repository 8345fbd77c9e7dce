import SqlQuery.Proofs.Compile.OperatorSteps
import SqlQuery.Proofs.Compile.WellFormed

/-!
# What a refused filter has bound

A filter is gone through once, and in one order: at each node its level is looked at first, then its
conditions, then the nodes below it. These are the checkpoints of the filter. Values are bound on
the way, and where a checkpoint is not passed, what was bound before it stays bound.

A walk through checkpoints ends well or at one of them, and `Walk` says of an outcome which of both
it tells. Two walks, one behind the other, are one walk:

> `Walk.both`: the second one comes after all that the first one has bound.

So the outcome of every part of a filter tells the walk through the checkpoints of the part:

> `Filter.walk_compileNode`: that of a node, through its own level, its conditions and its groups.

> `Filter.bound_before_refusal`: what a refused filter has bound are the values of the conditions
> before the checkpoint that was not passed.
-/

namespace SqlQuery

open Sql

/-! ## Checkpoints -/

/-- What is looked at on the way through a filter: how many levels down a node is, and each
condition. -/
inductive Checkpoint where
  | level (depth : Nat)
  | condition (c : Condition)

namespace Checkpoint

/-- The values that are bound at a checkpoint. -/
def boundValues : Checkpoint → List Value
  | .level _ => []
  | .condition c => c.boundValues

/-- Nothing is wrong at a checkpoint. -/
def Passes (env : Env) (scope : FilterScope) : Checkpoint → Prop
  | .level depth => depth ≤ env.maxDepth
  | .condition c => c.WellFormed env scope

/-- What is wrong at a checkpoint. -/
def Refuses (env : Env) (scope : FilterScope) (e : Error) : Checkpoint → Prop
  | .level depth => env.maxDepth < depth ∧ e = .depthExceeded .filter env.maxDepth
  | .condition c => c.atom env scope = .error e

/-- A checkpoint that refuses does not let pass. -/
theorem Refuses.not_passes {env : Env} {scope : FilterScope} {e : Error} {c : Checkpoint}
    (h : c.Refuses env scope e) : ¬c.Passes env scope := by
  cases c with
  | level depth => exact Nat.not_le.mpr h.1
  | condition c =>
    intro hpasses
    obtain ⟨a, ha⟩ := Condition.atom_ok_iff.mpr hpasses
    rw [Refuses, ha] at h
    cases h

end Checkpoint

namespace Filter

mutual

/-- The checkpoints of a node that is `depth` levels down. -/
def checkpoints (depth : Nat) : Filter → List Checkpoint
  | ⟨_, conditions, nested⟩ =>
    .level depth :: (conditions.map .condition ++ checkpointsOf (depth + 1) nested)

/-- The checkpoints of some nodes, one node after the other. -/
def checkpointsOf (depth : Nat) : List Filter → List Checkpoint
  | [] => []
  | f :: rest => checkpoints depth f ++ checkpointsOf depth rest

end

end Filter

/-! ## Walks -/

/-- A walk through checkpoints ends at the first one that is not passed, with what was bound at
those before it. -/
inductive StopsAt (env : Env) (scope : FilterScope) : List Checkpoint → Refusal → Prop where
  | here {c : Checkpoint} {rest : List Checkpoint} {e : Error} : c.Refuses env scope e →
      StopsAt env scope (c :: rest) ⟨[], e⟩
  | later {c : Checkpoint} {rest : List Checkpoint} {r : Refusal} : c.Passes env scope →
      StopsAt env scope rest r → StopsAt env scope (c :: rest) ⟨c.boundValues ++ r.bound, r.cause⟩

/-- A walk ends well behind the last checkpoint, with what was bound at all of them. -/
structure EndsWith (env : Env) (scope : FilterScope) (cs : List Checkpoint)
    (values : List Value) : Prop where
  passes : ∀ c ∈ cs, c.Passes env scope
  bound : values = cs.flatMap Checkpoint.boundValues

/-- The outcome tells how the walk through some checkpoints ends; of a result it is known which
values it binds. -/
def Walk {α : Type} (env : Env) (scope : FilterScope) (cs : List Checkpoint)
    (values : α → List Value) : Except Refusal α → Prop
  | .ok a => EndsWith env scope cs (values a)
  | .error r => StopsAt env scope cs r

variable {env : Env} {scope : FilterScope} {cs more : List Checkpoint}

/-- Where a walk stops, nothing behind it is looked at. -/
theorem StopsAt.append {r : Refusal} (h : StopsAt env scope cs r) (more : List Checkpoint) :
    StopsAt env scope (cs ++ more) r := by
  induction h with
  | here hc => exact .here hc
  | later hc _ ih => exact .later hc ih

/-- A walk that stops further on has bound what it passed. -/
theorem EndsWith.stopsAt {values : List Value} {r : Refusal} (h : EndsWith env scope cs values)
    (hr : StopsAt env scope more r) :
    StopsAt env scope (cs ++ more) ⟨values ++ r.bound, r.cause⟩ := by
  obtain ⟨hpasses, rfl⟩ := h
  induction cs with
  | nil => exact hr
  | cons c cs ih =>
    have hrest := ih fun d hd => hpasses d (List.mem_cons_of_mem _ hd)
    rw [List.flatMap_cons, List.append_assoc]
    exact .later (hpasses c (List.mem_cons_self ..)) hrest

/-- A walk that goes on binds what is bound further on. -/
theorem EndsWith.append {us vs : List Value} (h : EndsWith env scope cs us)
    (h' : EndsWith env scope more vs) : EndsWith env scope (cs ++ more) (us ++ vs) where
  passes := List.forall_mem_append.mpr ⟨h.passes, h'.passes⟩
  bound := by rw [List.flatMap_append, ← h.bound, ← h'.bound]

/-- Where a walk stops, by the checkpoints before and behind. -/
theorem StopsAt.exists_split {r : Refusal} (h : StopsAt env scope cs r) :
    ∃ (before : List Checkpoint) (stop : Checkpoint) (after : List Checkpoint),
      cs = before ++ stop :: after ∧ (∀ c ∈ before, c.Passes env scope) ∧
      stop.Refuses env scope r.cause ∧ r.bound = before.flatMap Checkpoint.boundValues := by
  induction h with
  | @here c rest e hc => exact ⟨[], c, rest, rfl, by simp, hc, rfl⟩
  | @later c rest r hc _ ih =>
    obtain ⟨before, stop, after, rfl, hbefore, hstop, hbound⟩ := ih
    refine ⟨c :: before, stop, after, rfl, List.forall_mem_cons.mpr ⟨hc, hbefore⟩, hstop, ?_⟩
    rw [List.flatMap_cons, hbound]

namespace Walk

/-- Two walks, one behind the other; what their results are merged into binds the values of both. -/
theorem both {α β γ : Type} {x : Except Refusal α} {y : Except Refusal β} {merge : α → β → γ}
    {us : α → List Value} {vs : β → List Value} {values : γ → List Value}
    (hx : Walk env scope cs us x) (hy : Walk env scope more vs y)
    (hvalues : ∀ a b, values (merge a b) = us a ++ vs b) :
    Walk env scope (cs ++ more) values (do
      let a ← x
      let b ← Refusal.after (us a) y
      return merge a b) := by
  cases x with
  | error r => exact hx.append more
  | ok a =>
    cases y with
    | error r => exact hx.stopsAt hy
    | ok b =>
      have hends := hx.append hy
      rwa [← hvalues] at hends

/-- A checkpoint at which nothing is bound is passed first. -/
theorem cons {α : Type} {x : Except Refusal α} {values : α → List Value} {c : Checkpoint}
    (hc : c.Passes env scope) (hbound : c.boundValues = []) (h : Walk env scope cs values x) :
    Walk env scope (c :: cs) values x := by
  have hfirst : EndsWith env scope [c] [] := ⟨by simpa using hc, by simp [hbound]⟩
  cases x with
  | ok a => exact hfirst.append h
  | error r => exact hfirst.stopsAt h

end Walk

/-! ## The walk through a filter -/

namespace Condition

/-- A condition is one checkpoint, and binds nothing where it is refused. -/
theorem walk_atom (c : Condition) :
    Walk env scope [.condition c] Atom.values (Refusal.of (c.atom env scope)) := by
  cases hatom : c.atom env scope with
  | error e => exact .here hatom
  | ok a =>
    have hpasses : (Checkpoint.condition c).Passes env scope := atom_ok_iff.mp ⟨a, hatom⟩
    exact ⟨List.forall_mem_singleton.mpr hpasses,
      by simp [(atom_spec hatom).1, Checkpoint.boundValues]⟩

/-- The conditions of a node are gone through one after the other. -/
theorem walk_atoms (conditions : List Condition) :
    Walk env scope (conditions.map .condition) (·.flatMap Atom.values)
      (atoms env scope conditions) := by
  induction conditions with
  | nil => exact ⟨by simp, rfl⟩
  | cons c rest ih =>
    rw [List.map_cons, atoms]
    exact c.walk_atom.both ih fun a as => rfl

end Condition

namespace Filter

mutual

/-- A node is gone through by its level, its conditions and its groups. -/
theorem walk_compileNode : ∀ (f : Filter) (depth : Nat),
    Walk env scope (f.checkpoints depth) (fun p => Predicate.valuesOf p.toList)
      (compileNode env scope depth f)
  | ⟨op, conditions, nested⟩, depth => by
    rw [checkpoints, compileNode]
    by_cases hdeep : env.maxDepth < depth
    · rw [if_pos hdeep]
      exact .here ⟨hdeep, rfl⟩
    · rw [if_neg hdeep]
      have hlevel : (Checkpoint.level depth).Passes env scope := Nat.not_lt.mp hdeep
      refine Walk.cons hlevel rfl ((Condition.walk_atoms conditions).both
        (walk_compileNodes nested (depth + 1)) fun as groups => ?_)
      exact valuesOf_assemble op as groups

theorem walk_compileNodes : ∀ (fs : List Filter) (depth : Nat),
    Walk env scope (checkpointsOf depth fs) Predicate.valuesOf (compileNodes env scope depth fs)
  | [], depth => ⟨by simp [checkpointsOf], by simp [checkpointsOf, Predicate.valuesOf]⟩
  | f :: rest, depth => by
    rw [checkpointsOf, compileNodes]
    refine (walk_compileNode f depth).both (walk_compileNodes rest depth) fun p ps => ?_
    simp [Predicate.valuesOf_eq]

end

/-- Where a filter is refused, what is bound afterwards is what was bound before it, and behind that
the values of the conditions that come before the checkpoint that was not passed: before a condition
that was refused, or before a node that is too far down. Of a node the conditions come before the
groups. All checkpoints before were passed. The pass that binds value by value leaves the same
behind, and a condition that was refused, gone through step by step, has bound nothing itself. -/
theorem bound_before_refusal {f : Filter} {env : Env} {scope : FilterScope} {bound : List Value}
    {e : Error} {p' : Parameters}
    (h : ({ dialect := env.dialect, bound } : Parameters).writePredicate (f.compile env scope)
      = (.error e, p')) :
    f.write env scope { dialect := env.dialect, bound } = (.error e, p') ∧
    ∃ (before : List Checkpoint) (stop : Checkpoint) (after : List Checkpoint),
      f.checkpoints 1 = before ++ stop :: after ∧
      p' = { dialect := env.dialect, bound := bound ++ before.flatMap Checkpoint.boundValues } ∧
      (∀ c ∈ before, c.Passes env scope) ∧ ¬stop.Passes env scope ∧
      match stop with
      | .level _ => e = .depthExceeded .filter env.maxDepth
      | .condition c => c.writeSteps env scope p' = (.error e, p') := by
  refine ⟨(f.write_eq env scope rfl).trans h, ?_⟩
  have hwalk : Walk env scope (f.checkpoints 1) _ (f.compileNode env scope 1) :=
    walk_compileNode f 1
  unfold compile at h
  cases hnode : f.compileNode env scope 1 with
  | ok q =>
    rw [hnode] at h
    cases h
  | error r =>
    rw [hnode] at h hwalk
    cases h
    obtain ⟨before, stop, after, hsplit, hbefore, hstop, hbound⟩ := StopsAt.exists_split hwalk
    refine ⟨before, stop, after, hsplit, ?_, hbefore, hstop.not_passes, ?_⟩
    · rw [← hbound]
      rfl
    · cases stop with
      | level depth => exact hstop.2
      | condition c => exact (Condition.writeSteps_eq_error_iff rfl).mpr ⟨hstop, rfl⟩

/-- A filter whose third condition asks for array elements; a condition of its own and a group come
before, the rest of a group and another group behind. -/
def taggedFilter : Filter :=
  { op := .or
    conditions := [.equals "status" (.int 1)]
    nested := [
      .not [.and [.isIn "role" (.array [.int 2, .int 3])]],
      .and [{ field := "tags", op := .hasSome, value := .array [.int 4, .int 5] },
        .equals "age" (.int 6)],
      .and [.equals "name" (.int 7)]] }

/-- Where there are no arrays, neither the elements nor what comes behind them are bound. -/
theorem bound_before_refusal_tags :
    let env : Env := { schema := {}, dialect := .sqlite }
    let scope : FilterScope := { model := none }
    let e : Error := .unsupportedOperator "tags" .hasSome (.noArrays .sqlite)
    let p : Parameters := { dialect := .sqlite, bound := [.string "eu"] }
    let p' : Parameters :=
      { dialect := .sqlite, bound := [.string "eu", .int 1, .int 2, .int 3] }
    p.writePredicate (taggedFilter.compile env scope) = (.error e, p') ∧
    taggedFilter.write env scope p = (.error e, p') ∧
    ∃ (before : List Checkpoint) (stop : Checkpoint) (after : List Checkpoint),
      taggedFilter.checkpoints 1 = before ++ stop :: after ∧
      p' = { p with bound := p.bound ++ before.flatMap Checkpoint.boundValues } ∧
      (∀ c ∈ before, c.Passes env scope) ∧ ¬stop.Passes env scope ∧
      match stop with
      | .level _ => e = .depthExceeded .filter env.maxDepth
      | .condition c => c.writeSteps env scope p' = (.error e, p') := by
  intro env scope e p p'
  have hrefused : p.writePredicate (taggedFilter.compile env scope) = (.error e, p') := rfl
  exact ⟨hrefused, bound_before_refusal hrefused⟩

end Filter

end SqlQuery
