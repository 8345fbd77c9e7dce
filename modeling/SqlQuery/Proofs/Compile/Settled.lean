import SqlQuery.Compile.Query
import SqlQuery.Proofs.Compile.Inclusion
import SqlQuery.Proofs.Compile.Refusals

/-!
# How many levels an outcome needs

A tree may have as many levels as the surroundings allow. Whatever goes through trees has a
number of levels from which on that limit makes no difference, and below which it refuses.
`SettledAt` says this of an outcome that hangs on the limit, and it is kept by every way of
putting outcomes together: what is done first and what is done then need the larger of the two
numbers, and a look at the limit needs the level that it asks for.

What never looks at the limit needs no level at all, as long as it is not refused for one
(`Within`).

> `SettledAt.bind`: two steps need what the one with more levels needs.

> `SettledAt.guarded`: a step behind a look at the limit.
-/

namespace SqlQuery

open Sql

/-- Whether an error is about a tree that goes deeper than it may. -/
def Error.OverDepth : Error → Prop
  | .depthExceeded .. => True
  | _ => False

/-! ## The largest of some numbers -/

/-- The largest of some numbers; no number is larger than none. -/
def largest (ns : List Nat) : Nat :=
  ns.foldr max 0

/-- The first of some numbers is the largest, or one of the others is. -/
theorem largest_cons (n : Nat) (ns : List Nat) : largest (n :: ns) = max n (largest ns) :=
  rfl

/-- The largest of two lists is the larger one of their largest. -/
theorem largest_append (ns ms : List Nat) :
    largest (ns ++ ms) = max (largest ns) (largest ms) := by
  induction ns with
  | nil => exact (Nat.zero_max _).symm
  | cons n ns ih => rw [List.cons_append, largest_cons, largest_cons, ih, Nat.max_assoc]

/-- Numbers that are counted from a level on, and that level. -/
theorem max_largest_add (level : Nat) (ns : List Nat) :
    max level (largest (ns.map (level + ·))) = level + largest ns := by
  induction ns with
  | nil => exact Nat.max_zero level
  | cons n ns ih =>
    rw [List.map_cons, largest_cons, largest_cons]
    omega

/-- Some filters are as high as the highest of them. -/
theorem Filter.heights_eq (fs : List Filter) : heights fs = largest (fs.map height) := by
  induction fs with
  | nil => rfl
  | cons f fs ih => rw [heights, ih, List.map_cons, largest_cons]

/-- Some inclusions are as high as the highest of them. -/
theorem Inclusion.heights_eq (is : List Inclusion) : heights is = largest (is.map height) := by
  induction is with
  | nil => rfl
  | cons i is ih => rw [heights, ih, List.map_cons, largest_cons]

section

variable {ε α β : Type} {deep : ε → Prop}

/-! ## Outcomes that do not hang on a limit -/

/-- The outcome is no refusal for want of levels. -/
def Within (deep : ε → Prop) (x : Except ε α) : Prop :=
  ∀ e, x = .error e → ¬deep e

namespace Within

/-- What gives something is not refused for its depth. -/
theorem ok (a : α) : Within deep (.ok a) := by
  intro e h
  cases h

/-- What is refused for something else is not refused for its depth. -/
theorem error {e : ε} (h : ¬deep e) : Within deep (.error e : Except ε α) := by
  intro e' he
  cases he
  exact h

/-- Two steps, neither of which is refused for its depth. -/
theorem bind {x : Except ε α} {f : α → Except ε β} (hx : Within deep x)
    (hf : ∀ a, Within deep (f a)) : Within deep (x >>= f) := by
  intro e h
  rcases bind_eq_error.mp h with h | ⟨a, -, h⟩
  · exact hx e h
  · exact hf a e h

/-- What follows a check. -/
theorem check {c : Prop} [Decidable c] {x : Except ε Unit} {f : Unit → Except ε β}
    (hx : Within deep x) (hf : ∀ u, Within deep (f u)) :
    Within deep (if c then x >>= f else f ()) := by
  split
  · exact hx.bind hf
  · exact hf ()

/-- A step that is taken for every member of a list. -/
theorem mapM {f : α → Except ε β} (h : ∀ a, Within deep (f a)) (as : List α) :
    Within deep (as.mapM f) := by
  intro e he
  obtain ⟨a, -, ha⟩ := exists_mem_of_mapM_eq_error he
  exact h a e ha

end Within

/-! ## Outcomes that hang on a limit -/

/-- From `levels` on the limit makes no difference, and below it the outcome is a refusal; with
`levels` it is no refusal for want of levels. -/
structure SettledAt (deep : ε → Prop) (levels : Nat) (run : Nat → Except ε α) : Prop where
  refused : ∀ limit < levels, ∃ e, run limit = .error e
  settled : ∀ limit, levels ≤ limit → run limit = run levels
  within : Within deep (run levels)

namespace SettledAt

variable {x : Except ε α} {run : Nat → Except ε α} {f : α → Nat → Except ε β} {levels more : Nat}

/-- What does not look at the limit needs no level. -/
theorem fixed (h : Within deep x) : SettledAt deep 0 (fun _ => x) where
  refused limit hlimit := absurd hlimit (Nat.not_lt_zero limit)
  settled _ _ := rfl
  within := h

/-- What is refused anyway is refused below any number of levels. -/
theorem error {e : ε} (h : ¬deep e) (levels : Nat) :
    SettledAt deep levels (fun _ => (.error e : Except ε α)) where
  refused _ _ := ⟨e, rfl⟩
  settled _ _ := rfl
  within := .error h

/-- Two steps need what the one with more levels needs. -/
theorem bind (hx : SettledAt deep levels run) (hf : ∀ a, SettledAt deep more (f a)) :
    SettledAt deep (max levels more) (fun limit => run limit >>= fun a => f a limit) where
  refused limit hlimit := by
    rcases Nat.lt_or_ge limit levels with hless | hge
    · obtain ⟨e, he⟩ := hx.refused limit hless
      exact ⟨e, bind_eq_error.mpr (Or.inl he)⟩
    · cases ha : run limit with
      | error e => exact ⟨e, rfl⟩
      | ok a => exact (hf a).refused limit (by omega)
  settled limit hlimit := by
    rw [hx.settled limit (by omega), hx.settled (max levels more) (by omega)]
    cases run levels with
    | error e => rfl
    | ok a =>
      show f a limit = f a (max levels more)
      rw [(hf a).settled limit (by omega), (hf a).settled (max levels more) (by omega)]
  within := by
    rw [hx.settled (max levels more) (by omega)]
    refine hx.within.bind fun a => ?_
    rw [(hf a).settled (max levels more) (by omega)]
    exact (hf a).within

/-- A step before which nothing hangs on the limit. -/
theorem after_fixed (hx : Within deep x) (hf : ∀ a, SettledAt deep levels (f a)) :
    SettledAt deep levels (fun limit => x >>= fun a => f a limit) := by
  have hboth := (fixed hx).bind hf
  rwa [Nat.zero_max] at hboth

/-- A step after which nothing hangs on the limit. -/
theorem then_fixed {g : α → Except ε β} (hx : SettledAt deep levels run)
    (hg : ∀ a, Within deep (g a)) : SettledAt deep levels (fun limit => run limit >>= g) := by
  have hboth := hx.bind fun a => fixed (hg a)
  rwa [Nat.max_zero] at hboth

/-- A step behind a look at the limit. -/
theorem guarded (hx : SettledAt deep more run) (e : Nat → ε) :
    SettledAt deep (max levels more)
      (fun limit => if limit < levels then .error (e limit) else run limit) where
  refused limit hlimit := by
    by_cases hless : limit < levels
    · exact ⟨e limit, if_pos hless⟩
    · obtain ⟨e', he'⟩ := hx.refused limit (by omega)
      exact ⟨e', by rw [if_neg hless, he']⟩
  settled limit hlimit := by
    rw [if_neg (by omega), if_neg (by omega), hx.settled limit (by omega),
      hx.settled (max levels more) (by omega)]
  within := by
    rw [if_neg (by omega), hx.settled (max levels more) (by omega)]
    exact hx.within

/-- What follows a check needs the levels it needs without the check. -/
theorem check {c : Prop} [Decidable c] {x : Except ε Unit} {f : Unit → Nat → Except ε β}
    (hx : Within deep x) (hf : ∀ u, SettledAt deep levels (f u)) :
    SettledAt deep levels
      (fun limit => if c then x >>= fun u => f u limit else f () limit) := by
  split
  · exact after_fixed hx hf
  · exact hf ()

end SettledAt

end

/-! ## Refusals and what is bound before them -/

/-- Whether a refusal is for want of levels. -/
def Refusal.OverDepth (r : Refusal) : Prop :=
  r.cause.OverDepth

section

variable {α : Type} {levels : Nat}

theorem Within.of {x : Except Error α} (h : Within Error.OverDepth x) :
    Within Refusal.OverDepth (Refusal.of x) := by
  intro r hr
  obtain ⟨e, he, rfl⟩ := Refusal.of_eq_error.mp hr
  exact h e he

/-- What was bound before is no matter of depth. -/
theorem Within.after {x : Except Refusal α} (h : Within Refusal.OverDepth x)
    (values : List Value) : Within Refusal.OverDepth (Refusal.after values x) := by
  intro r hr
  obtain ⟨r', hr', rfl⟩ := Refusal.after_eq_error.mp hr
  exact h r' hr'

/-- What is not refused for its depth as a part is not so as a whole. -/
theorem Within.forget {x : Except Refusal α} (h : Within Refusal.OverDepth x) :
    Within Error.OverDepth (Refusal.forget x) := by
  intro e he
  obtain ⟨r, hr, rfl⟩ := Refusal.forget_eq_error.mp he
  exact h r hr

variable {run : Nat → Except Refusal α}

theorem SettledAt.after (h : SettledAt Refusal.OverDepth levels run) (values : List Value) :
    SettledAt Refusal.OverDepth levels (fun limit => Refusal.after values (run limit)) where
  refused limit hlimit := by
    obtain ⟨r, hr⟩ := h.refused limit hlimit
    exact ⟨_, Refusal.after_eq_error.mpr ⟨r, hr, rfl⟩⟩
  settled limit hlimit := by rw [h.settled limit hlimit]
  within := h.within.after values

theorem SettledAt.forget (h : SettledAt Refusal.OverDepth levels run) :
    SettledAt Error.OverDepth levels (fun limit => Refusal.forget (run limit)) where
  refused limit hlimit := by
    obtain ⟨r, hr⟩ := h.refused limit hlimit
    exact ⟨r.cause, Refusal.forget_eq_error.mpr ⟨r, hr, rfl⟩⟩
  settled limit hlimit := by rw [h.settled limit hlimit]
  within := h.within.forget

end

end SqlQuery
