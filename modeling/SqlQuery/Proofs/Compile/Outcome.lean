import Mathlib.Data.List.Forall2
import SqlQuery.Compile.Filter

/-!
# Outcomes, step by step

A compilation that succeeds went through all of its steps, and each of them has
succeeded; one that fails went through some of them, and the next one has failed. The
lemmas here take an outcome apart, one step at a time.
-/

namespace SqlQuery

theorem bind_eq_ok {ε α β : Type} {x : Except ε α} {f : α → Except ε β} {b : β} :
    (x >>= f) = .ok b ↔ ∃ a, x = .ok a ∧ f a = .ok b := by
  cases x with
  | error e =>
    refine ⟨fun h => ?_, fun ⟨_, h, _⟩ => ?_⟩ <;> cases h
  | ok a =>
    refine ⟨fun h => ⟨a, rfl, h⟩, ?_⟩
    rintro ⟨a', ha, h⟩
    cases ha
    exact h

/-- Two steps are refused where the first is, or the second behind it. -/
theorem bind_eq_error {ε α β : Type} {x : Except ε α} {f : α → Except ε β} {e : ε} :
    (x >>= f) = .error e ↔ x = .error e ∨ ∃ a, x = .ok a ∧ f a = .error e := by
  cases x with
  | error e' =>
    refine ⟨fun h => ?_, ?_⟩
    · cases h
      exact Or.inl rfl
    · rintro (h | ⟨a, ha, -⟩)
      · cases h
        rfl
      · cases ha
  | ok a =>
    refine ⟨fun h => Or.inr ⟨a, rfl, h⟩, ?_⟩
    rintro (h | ⟨a', ha, h⟩)
    · cases h
    · cases ha
      exact h

/-- What follows a check succeeds only after it. -/
theorem check_eq_ok {ε β : Type} {c : Prop} [Decidable c] {x : Except ε Unit}
    {f : Unit → Except ε β} {b : β} (h : (if c then x >>= f else f ()) = .ok b) :
    f () = .ok b := by
  split at h
  next =>
    obtain ⟨⟨⟩, -, h⟩ := bind_eq_ok.mp h
    exact h
  next => exact h

/-- What follows a check succeeds only where the check does. -/
theorem passed_of_check {ε β : Type} {c : Prop} [Decidable c] {x : Except ε Unit}
    {f : Unit → Except ε β} {b : β} (h : (if c then x >>= f else f ()) = .ok b) (hc : c) :
    x = .ok () := by
  rw [if_pos hc] at h
  obtain ⟨⟨⟩, hx, -⟩ := bind_eq_ok.mp h
  exact hx

/-- What follows a choice succeeds only after one of its branches. -/
theorem choice_eq_ok {ε α β : Type} {c : Prop} [Decidable c] {x y : Except ε α}
    {f : α → Except ε β} {b : β} (h : (if c then x >>= f else y >>= f) = .ok b) :
    ∃ a, (if c then x else y) = .ok a ∧ f a = .ok b := by
  refine bind_eq_ok.mp ?_
  by_cases hc : c
  · rwa [if_pos hc] at h ⊢
  · rwa [if_neg hc] at h ⊢

/-- To put a refusal in other words changes nothing about what is given. -/
theorem mapError_eq_ok {ε ε' α : Type} {g : ε → ε'} {x : Except ε α} {a : α} :
    x.mapError g = .ok a ↔ x = .ok a := by
  cases x with
  | error e => constructor <;> intro h <;> cases h
  | ok b => constructor <;> intro h <;> cases h <;> rfl

theorem Refusal.of_eq_ok {α : Type} {x : Except Error α} {a : α} :
    Refusal.of x = .ok a ↔ x = .ok a :=
  mapError_eq_ok

/-- What was bound before changes nothing about what is given. -/
theorem Refusal.after_eq_ok {α : Type} {values : List Value} {x : Except Refusal α} {a : α} :
    Refusal.after values x = .ok a ↔ x = .ok a :=
  mapError_eq_ok

/-- What is given is given without the values of a refusal. -/
theorem Refusal.forget_eq_ok {α : Type} {x : Except Refusal α} {a : α} :
    Refusal.forget x = .ok a ↔ x = .ok a :=
  mapError_eq_ok

theorem mapError_eq_error {ε ε' α : Type} {g : ε → ε'} {x : Except ε α} {e' : ε'} :
    x.mapError g = .error e' ↔ ∃ e, x = .error e ∧ g e = e' := by
  cases x with
  | error e =>
    refine ⟨fun h => ?_, ?_⟩
    · cases h
      exact ⟨e, rfl, rfl⟩
    · rintro ⟨_, ⟨⟩, rfl⟩
      rfl
  | ok a =>
    refine ⟨fun h => ?_, ?_⟩
    · cases h
    · rintro ⟨_, ⟨⟩, -⟩

/-- What binds nothing is refused with nothing bound. -/
theorem Refusal.of_eq_error {α : Type} {x : Except Error α} {r : Refusal} :
    Refusal.of x = .error r ↔ ∃ e, x = .error e ∧ ⟨[], e⟩ = r :=
  mapError_eq_error

/-- A refusal behind other values has these bound before its own. -/
theorem Refusal.after_eq_error {α : Type} {values : List Value} {x : Except Refusal α}
    {r : Refusal} :
    Refusal.after values x = .error r ↔
      ∃ r', x = .error r' ∧ ⟨values ++ r'.bound, r'.cause⟩ = r :=
  mapError_eq_error

/-- A refusal that forgets its values keeps its cause. -/
theorem Refusal.forget_eq_error {α : Type} {x : Except Refusal α} {e : Error} :
    Refusal.forget x = .error e ↔ ∃ r, x = .error r ∧ r.cause = e :=
  mapError_eq_error

/-- Where a list is gone through, every element has succeeded. -/
theorem forall₂_of_mapM {ε α β : Type} {f : α → Except ε β} :
    ∀ {xs : List α} {ys : List β}, xs.mapM f = .ok ys →
      List.Forall₂ (fun x y => f x = .ok y) xs ys := by
  intro xs
  induction xs with
  | nil =>
    intro ys h
    cases h
    exact .nil
  | cons x xs ih =>
    intro ys h
    rw [List.mapM_cons] at h
    obtain ⟨y, hy, h⟩ := bind_eq_ok.mp h
    obtain ⟨rest, hrest, h⟩ := bind_eq_ok.mp h
    cases h
    exact .cons hy (ih hrest)

/-- What is related to something of a list is found there. -/
theorem exists_mem_of_forall₂ {α β : Type} {R : α → β → Prop} {as : List α} {bs : List β}
    (h : List.Forall₂ R as bs) : ∀ b ∈ bs, ∃ a ∈ as, R a b := by
  induction h with
  | nil => intro b hb; cases hb
  | @cons a b as bs hab _ ih =>
    intro b' hb'
    rcases List.mem_cons.mp hb' with rfl | hb'
    · exact ⟨a, List.mem_cons_self .., hab⟩
    · obtain ⟨a', ha', hR⟩ := ih b' hb'
      exact ⟨a', List.mem_cons_of_mem _ ha', hR⟩

/-- Where going through a list fails, it fails at one of its elements. -/
theorem exists_mem_of_mapM_eq_error {ε α β : Type} {f : α → Except ε β} {e : ε} :
    ∀ {xs : List α}, xs.mapM f = .error e → ∃ x ∈ xs, f x = .error e := by
  intro xs
  induction xs with
  | nil => intro h; cases h
  | cons x xs ih =>
    intro h
    rw [List.mapM_cons] at h
    rcases bind_eq_error.mp h with h | ⟨y, -, h⟩
    · exact ⟨x, List.mem_cons_self .., h⟩
    · rcases bind_eq_error.mp h with h | ⟨rest, -, h⟩
      · obtain ⟨x', hx', h⟩ := ih h
        exact ⟨x', List.mem_cons_of_mem _ hx', h⟩
      · cases h

/-- Checks that are made one after the other succeed where each of them does. -/
theorem forM_eq_ok_iff {ε α : Type} {check : α → Except ε Unit} {xs : List α} :
    xs.forM check = .ok () ↔ ∀ x ∈ xs, check x = .ok () := by
  induction xs with
  | nil => exact ⟨fun _ _ hx => absurd hx List.not_mem_nil, fun _ => rfl⟩
  | cons x xs ih =>
    rw [List.forall_mem_cons, ← ih]
    refine bind_eq_ok.trans ⟨?_, ?_⟩
    · rintro ⟨⟨⟩, hx, hxs⟩
      exact ⟨hx, hxs⟩
    · rintro ⟨hx, hxs⟩
      exact ⟨(), hx, hxs⟩

/-! ## Two outcomes -/

/-- Outcomes that are both results or both errors, and related as such. -/
inductive SameOutcome {ε ε' α β : Type} (E : ε → ε' → Prop) (R : α → β → Prop) :
    Except ε α → Except ε' β → Prop where
  | ok {a : α} {b : β} : R a b → SameOutcome E R (.ok a) (.ok b)
  | error {e : ε} {e' : ε'} : E e e' → SameOutcome E R (.error e) (.error e')

/-- Outcomes with one error, or with results that are related. -/
abbrev Agree {α β : Type} (R : α → β → Prop) : Except Error α → Except Error β → Prop :=
  SameOutcome Eq R

/-- Outcomes refused for one cause, or with results that are related. -/
abbrev AgreeOnCause {α β : Type} (R : α → β → Prop) :
    Except Refusal α → Except Refusal β → Prop :=
  SameOutcome (fun r r' => r.cause = r'.cause) R

namespace SameOutcome

variable {ε ε' α α' β β' : Type} {E : ε → ε' → Prop}

theorem bind {R : α → α' → Prop} {S : β → β' → Prop} {x : Except ε α} {y : Except ε' α'}
    {f : α → Except ε β} {g : α' → Except ε' β'} (h : SameOutcome E R x y)
    (hf : ∀ a b, R a b → SameOutcome E S (f a) (g b)) : SameOutcome E S (x >>= f) (y >>= g) := by
  cases h with
  | ok hab => exact hf _ _ hab
  | error he => exact .error he

/-- Two choices agree where they are made alike and both branches agree. -/
theorem ite {R : α → α' → Prop} {c c' : Prop} [Decidable c] [Decidable c'] {x y : Except ε α}
    {x' y' : Except ε' α'} (hc : c ↔ c') (hx : c → SameOutcome E R x x')
    (hy : ¬c → SameOutcome E R y y') :
    SameOutcome E R (if c then x else y) (if c' then x' else y') := by
  by_cases h : c
  · rw [if_pos h, if_pos (hc.mp h)]
    exact hx h
  · rw [if_neg h, if_neg (mt hc.mpr h)]
    exact hy h

/-- What is known of results that agree may be used. -/
theorem imp {R S : α → α' → Prop} {x : Except ε α} {y : Except ε' α'} (h : SameOutcome E R x y)
    (hRS : ∀ a b, R a b → S a b) : SameOutcome E S x y := by
  cases h with
  | ok hab => exact .ok (hRS _ _ hab)
  | error he => exact .error he

/-- Outcomes that agree on their cause agree without the values. -/
theorem forget {R : α → α' → Prop} {x : Except Refusal α} {y : Except Refusal α'}
    (h : AgreeOnCause R x y) : Agree R (Refusal.forget x) (Refusal.forget y) := by
  cases h with
  | ok hab => exact .ok hab
  | error he => exact .error he

theorem of {R : α → α' → Prop} {x : Except Error α} {y : Except Error α'} (h : Agree R x y) :
    AgreeOnCause R (Refusal.of x) (Refusal.of y) := by
  cases h with
  | ok hab => exact .ok hab
  | error he => exact .error he

/-- What was bound before makes no difference to whether two outcomes agree. -/
theorem after {R : α → α' → Prop} {values values' : List Value} {x : Except Refusal α}
    {y : Except Refusal α'} (h : AgreeOnCause R x y) :
    AgreeOnCause R (Refusal.after values x) (Refusal.after values' y) := by
  cases h with
  | ok hab => exact .ok hab
  | error he => exact .error he

end SameOutcome

/-- What follows one outcome on both sides agrees where it does for every result of it. -/
theorem Agree.bind_self {α β β' : Type} {S : β → β' → Prop} {x : Except Error α}
    {f : α → Except Error β} {g : α → Except Error β'}
    (hf : ∀ a, x = .ok a → Agree S (f a) (g a)) : Agree S (x >>= f) (x >>= g) := by
  cases x with
  | ok a => exact hf a rfl
  | error e => exact .error rfl

/-- What follows a check agrees where it does after the check. -/
theorem Agree.check {β β' : Type} {S : β → β' → Prop} {c : Prop} [Decidable c]
    {x : Except Error Unit} {f : Unit → Except Error β} {g : Unit → Except Error β'}
    (h : ∀ u, Agree S (f u) (g u)) :
    Agree S (if c then x >>= f else f ()) (if c then x >>= g else g ()) :=
  SameOutcome.ite Iff.rfl (fun _ => Agree.bind_self fun u _ => h u) fun _ => h ()

/-- What follows a choice agrees where it does after either branch. -/
theorem Agree.choice {α β β' : Type} {S : β → β' → Prop} {c : Prop} [Decidable c]
    {x y : Except Error α} {f : α → Except Error β} {g : α → Except Error β'}
    (h : ∀ a, Agree S (f a) (g a)) :
    Agree S (if c then x >>= f else y >>= f) (if c then x >>= g else y >>= g) :=
  SameOutcome.ite Iff.rfl (fun _ => Agree.bind_self fun a _ => h a)
    fun _ => Agree.bind_self fun a _ => h a

theorem AgreeOnCause.bind_self {α β β' : Type} {S : β → β' → Prop} {x : Except Refusal α}
    {f : α → Except Refusal β} {g : α → Except Refusal β'}
    (hf : ∀ a, x = .ok a → AgreeOnCause S (f a) (g a)) : AgreeOnCause S (x >>= f) (x >>= g) := by
  cases x with
  | ok a => exact hf a rfl
  | error r => exact .error rfl

/-- A step agrees with itself on what it gives. -/
theorem AgreeOnCause.of_self {α : Type} (x : Except Error α) :
    AgreeOnCause (fun a b => a = b ∧ x = .ok a) (Refusal.of x) (Refusal.of x) := by
  cases x with
  | ok a => exact .ok ⟨rfl, rfl⟩
  | error e => exact .error rfl

end SqlQuery
