import SqlQuery.Proofs.Compile.Inclusion
import SqlQuery.Proofs.Compile.Outcome

/-!
# One filter in two dialects

A filter asks the dialect for one thing only, how arrays are stored, and it asks last: the
condition's column, its aggregate and its value have been looked at before. So a filter that is
compiled in two dialects goes the same way in both, up to a condition on an array column where
one of them has no arrays, and there it is refused for that.

`AgreeUnless X` says this of two outcomes: they agree, or the second is refused for one of the
errors in `X`. With nothing in `X` it is agreement.

> `Filter.agreeUnless_compile`: a filter in two dialects.

> `Inclusion.agreeUnless_compileJoins`: the joins of a forest in two dialects. They get the same
> aliases, and there are as many of them.
-/

namespace SqlQuery

open Sql

/-! ## Outcomes that agree unless one is excused -/

/-- Outcomes that are the same, unless the second is an error that is excused. -/
def SameUnless {ε ε' α β : Type} (X : ε' → Prop) (E : ε → ε' → Prop) (R : α → β → Prop)
    (x : Except ε α) (y : Except ε' β) : Prop :=
  SameOutcome E R x y ∨ ∃ e, y = .error e ∧ X e

/-- Outcomes that agree, unless the second is an error that is excused. -/
abbrev AgreeUnless {α β : Type} (X : Error → Prop) (R : α → β → Prop) :
    Except Error α → Except Error β → Prop :=
  SameUnless X Eq R

/-- Outcomes that agree on their cause, unless that of the second is excused. -/
abbrev AgreeOnCauseUnless {α β : Type} (X : Error → Prop) (R : α → β → Prop) :
    Except Refusal α → Except Refusal β → Prop :=
  SameUnless (fun r => X r.cause) (fun r r' => r.cause = r'.cause) R

namespace SameUnless

variable {ε ε' α α' β β' : Type} {X : ε' → Prop} {E : ε → ε' → Prop}

theorem ok {R : α → α' → Prop} {a : α} {b : α'} (h : R a b) :
    SameUnless X E R (.ok a) (.ok b) :=
  Or.inl (.ok h)

theorem error {R : α → α' → Prop} {e : ε} {e' : ε'} (h : E e e') :
    SameUnless X E R (.error e) (.error e') :=
  Or.inl (.error h)

/-- Where both go on alike, nothing new is to be excused. -/
theorem bind {R : α → α' → Prop} {S : β → β' → Prop} {x : Except ε α} {y : Except ε' α'}
    {f : α → Except ε β} {g : α' → Except ε' β'} (h : SameUnless X E R x y)
    (hf : ∀ a b, R a b → SameUnless X E S (f a) (g b)) :
    SameUnless X E S (x >>= f) (y >>= g) := by
  rcases h with h | ⟨e, rfl, he⟩
  · cases h with
    | ok hab => exact hf _ _ hab
    | error he => exact .error he
  · exact Or.inr ⟨e, rfl, he⟩

theorem ite {R : α → α' → Prop} {c : Prop} [Decidable c] {x y : Except ε α}
    {x' y' : Except ε' α'} (hx : c → SameUnless X E R x x') (hy : ¬c → SameUnless X E R y y') :
    SameUnless X E R (if c then x else y) (if c then x' else y') := by
  by_cases h : c
  · rw [if_pos h, if_pos h]
    exact hx h
  · rw [if_neg h, if_neg h]
    exact hy h

variable {X : Error → Prop}

/-- What is refused is refused without the values that were bound. -/
theorem forget {R : α → α' → Prop} {x : Except Refusal α} {y : Except Refusal α'}
    (h : AgreeOnCauseUnless X R x y) :
    AgreeUnless X R (Refusal.forget x) (Refusal.forget y) := by
  rcases h with h | ⟨r, rfl, hr⟩
  · exact Or.inl h.forget
  · exact Or.inr ⟨r.cause, rfl, hr⟩

/-- Something that binds nothing may be refused as a part. -/
theorem of {R : α → α' → Prop} {x : Except Error α} {y : Except Error α'}
    (h : AgreeUnless X R x y) :
    AgreeOnCauseUnless X R (Refusal.of x) (Refusal.of y) := by
  rcases h with h | ⟨e, rfl, he⟩
  · exact Or.inl h.of
  · exact Or.inr ⟨⟨[], e⟩, rfl, he⟩

/-- What was bound before a refusal makes no difference to its cause. -/
theorem after {R : α → α' → Prop} {values values' : List Value} {x : Except Refusal α}
    {y : Except Refusal α'} (h : AgreeOnCauseUnless X R x y) :
    AgreeOnCauseUnless X R (Refusal.after values x) (Refusal.after values' y) := by
  rcases h with h | ⟨r, rfl, hr⟩
  · exact Or.inl h.after
  · exact Or.inr ⟨⟨values' ++ r.bound, r.cause⟩, rfl, hr⟩

end SameUnless

variable {X : Error → Prop}

/-- An outcome agrees with itself. -/
theorem AgreeUnless.self {α : Type} {R : α → α → Prop} (hR : ∀ a, R a a) (x : Except Error α) :
    AgreeUnless X R x x := by
  cases x with
  | ok a => exact .ok (hR a)
  | error e => exact .error rfl

theorem AgreeOnCauseUnless.self {α : Type} {R : α → α → Prop} (hR : ∀ a, R a a)
    (x : Except Refusal α) : AgreeOnCauseUnless X R x x := by
  cases x with
  | ok a => exact .ok (hR a)
  | error r => exact .error rfl

/-- What follows one outcome on both sides agrees where it does for every result of it. -/
theorem AgreeUnless.bind_self {α β β' : Type} {S : β → β' → Prop} {x : Except Error α}
    {f : α → Except Error β} {g : α → Except Error β'} (hf : ∀ a, AgreeUnless X S (f a) (g a)) :
    AgreeUnless X S (x >>= f) (x >>= g) :=
  SameUnless.bind (AgreeUnless.self (fun _ => rfl) x) fun a _ hab => hab ▸ hf a

theorem AgreeOnCauseUnless.bind_self {α β β' : Type} {S : β → β' → Prop}
    {x : Except Refusal α} {f : α → Except Refusal β} {g : α → Except Refusal β'}
    (hf : ∀ a, AgreeOnCauseUnless X S (f a) (g a)) :
    AgreeOnCauseUnless X S (x >>= f) (x >>= g) :=
  SameUnless.bind (AgreeOnCauseUnless.self (fun _ => rfl) x) fun a _ hab => hab ▸ hf a

theorem AgreeUnless.check {β β' : Type} {S : β → β' → Prop} {c : Prop} [Decidable c]
    {x : Except Error Unit} {f : Unit → Except Error β} {g : Unit → Except Error β'}
    (h : ∀ u, AgreeUnless X S (f u) (g u)) :
    AgreeUnless X S (if c then x >>= f else f ()) (if c then x >>= g else g ()) :=
  SameUnless.ite (fun _ => AgreeUnless.bind_self h) fun _ => h ()

/-- Two steps on each side agree with what follows them where the two steps together do. -/
theorem AgreeUnless.bind_both {α α' β β' γ γ' : Type} {S : γ → γ' → Prop} {x : Except Error α}
    {x' : Except Error α'} {y : Except Error β} {y' : Except Error β'}
    {f : α → β → Except Error γ} {f' : α' → β' → Except Error γ'}
    (h : AgreeUnless X (fun _ _ => True) (x >>= fun a => y >>= fun b => pure (a, b))
      (x' >>= fun a => y' >>= fun b => pure (a, b)))
    (hf : ∀ a b a' b', AgreeUnless X S (f a b) (f' a' b')) :
    AgreeUnless X S (x >>= fun a => y >>= f a) (x' >>= fun a => y' >>= f' a) := by
  have hboth := SameUnless.bind h fun p p' _ => hf p.1 p.2 p'.1 p'.2
  simpa only [bind_assoc, pure_bind] using hboth

/-- Where nothing is excused, outcomes agree. -/
theorem SameUnless.agree {α β : Type} {R : α → β → Prop} {x : Except Error α} {y : Except Error β}
    (h : AgreeUnless (fun _ => False) R x y) : Agree R x y :=
  h.resolve_right fun ⟨_, _, hfalse⟩ => hfalse

/-! ## Conditions -/

/-- Whether the condition tests an array column. -/
def Condition.onArrays (c : Condition) : Bool :=
  match c.op with
  | .isEmpty | .has | .hasEvery | .hasSome => true
  | _ => false

/-- The refusal of a condition on an array column in a dialect that has none. -/
def Condition.arrayless (c : Condition) (d : Dialect) : Error :=
  .unsupportedOperator c.field c.op (.noArrays d)

/-- Surroundings that differ in the dialect only, the first of which has arrays. -/
structure Env.Beside (env env' : Env) : Prop where
  schema_eq : env'.schema = env.schema
  maxDepth_eq : env'.maxDepth = env.maxDepth
  arrays : env.dialect.arrays?.isSome = true

/-- Where the dialect has no arrays, the refusals of conditions on arrays are excused. -/
def Excused (X : Error → Prop) (d : Dialect) (cs : List Condition) : Prop :=
  d.arrays? = none → ∀ c ∈ cs, c.onArrays = true → X (c.arrayless d)

theorem Excused.mono {d : Dialect} {cs more : List Condition} (h : Excused X d more)
    (hsub : ∀ c ∈ cs, c ∈ more) : Excused X d cs :=
  fun hd c hc => h hd c (hsub c hc)

/-- A dialect that has arrays needs no excuse. -/
theorem Excused.of_arrays {d : Dialect} (h : d.arrays?.isSome = true) (cs : List Condition) :
    Excused X d cs := by
  intro hnone
  rw [hnone] at h
  cases h

/-- A node stands for nothing exactly where it has no parts. -/
theorem Filter.assemble_eq_none_iff (op : LogicalOp) (as : List Atom) (ps : List Predicate) :
    assemble op as ps = none ↔ as.length = 0 ∧ ps.length = 0 := by
  unfold assemble
  cases op <;> cases as <;> rcases ps with _ | ⟨p, _ | ⟨q, ps⟩⟩ <;> simp

section

variable {env env' : Env}

namespace Condition

variable {c : Condition}

/-- An operand is looked up in the schema, which is the same. -/
theorem operand_eq (hbeside : env.Beside env') (c : Condition) (scope : FilterScope) :
    c.operand env' scope = c.operand env scope := by
  unfold operand columnRef
  rw [hbeside.schema_eq]

/-- The style of arrays is what the dialect is asked for. -/
theorem agreeUnless_arrays (hbeside : env.Beside env') (hX : Excused X env'.dialect [c])
    (hc : c.onArrays = true) :
    AgreeUnless X (fun _ _ => True) (c.arrays env) (c.arrays env') := by
  obtain ⟨style, hstyle⟩ := Option.isSome_iff_exists.mp hbeside.arrays
  unfold arrays
  rw [hstyle]
  cases hd : env'.dialect.arrays? with
  | some style' => exact .ok trivial
  | none => exact Or.inr ⟨_, rfl, hX hd c (List.mem_singleton_self c) hc⟩

/-- A condition on elements looks at its value first, and then asks for the style. -/
theorem agreeUnless_elements (hbeside : env.Beside env') (hX : Excused X env'.dialect [c])
    (hc : c.onArrays = true) (lhs : Operand) (vacuous : Bool) (test : List Value → ArrayTest) :
    AgreeUnless X (fun _ _ => True) (c.elements env lhs vacuous test)
      (c.elements env' lhs vacuous test) := by
  unfold elements
  split
  · exact .error rfl
  · exact SameUnless.bind (agreeUnless_arrays hbeside hX hc) fun _ _ _ => .ok trivial

/-- All other conditions are compiled alike in both dialects. -/
theorem agreeUnless_atom (hbeside : env.Beside env') (hX : Excused X env'.dialect [c])
    (scope : FilterScope) :
    AgreeUnless X (fun _ _ => True) (c.atom env scope) (c.atom env' scope) := by
  unfold atom
  rw [operand_eq hbeside]
  refine AgreeUnless.bind_self fun lhs => SameUnless.ite (fun _ => .error rfl) fun _ => ?_
  have harray (hc : c.onArrays = true) (test : ArrayStyle → Atom) :
      AgreeUnless X (fun _ _ => True) (c.arrays env >>= fun style => .ok (test style))
        (c.arrays env' >>= fun style => .ok (test style)) :=
    SameUnless.bind (agreeUnless_arrays hbeside hX hc) fun _ _ _ => .ok trivial
  -- only the operators on arrays ask for the dialect
  cases hop : c.op
  case isEmpty =>
    dsimp only
    split
    · exact harray (by rw [onArrays, hop]) _
    · exact .error rfl
  case has =>
    dsimp only
    split
    · exact .error rfl
    · exact harray (by rw [onArrays, hop]) _
  case hasEvery => exact agreeUnless_elements hbeside hX (by rw [onArrays, hop]) ..
  case hasSome => exact agreeUnless_elements hbeside hX (by rw [onArrays, hop]) ..
  all_goals exact AgreeUnless.self (fun _ => trivial) _

theorem agreeUnless_atoms (hbeside : env.Beside env') (scope : FilterScope) :
    ∀ {cs : List Condition}, Excused X env'.dialect cs →
      AgreeOnCauseUnless X (fun as as' => as.length = as'.length) (atoms env scope cs)
        (atoms env' scope cs) := by
  intro cs
  induction cs with
  | nil => intro _; exact .ok rfl
  | cons c rest ih =>
    intro hX
    rw [atoms, atoms]
    refine SameUnless.bind (agreeUnless_atom hbeside (hX.mono (by simp)) scope).of fun a a' _ => ?_
    refine SameUnless.bind (ih (hX.mono (by simp +contextual))).after fun as as' hlength => ?_
    exact .ok (by rw [List.length_cons, List.length_cons, hlength])

end Condition

/-! ## Filters -/

namespace Filter

mutual

theorem agreeUnless_compileNode (hbeside : env.Beside env') (scope : FilterScope) :
    ∀ (f : Filter) (depth : Nat), Excused X env'.dialect f.allConditions →
      AgreeOnCauseUnless X (fun p p' => p.isSome = p'.isSome) (compileNode env scope depth f)
        (compileNode env' scope depth f)
  | ⟨op, conditions, nested⟩, depth, hX => by
    rw [allConditions] at hX
    rw [compileNode, compileNode, hbeside.maxDepth_eq]
    refine SameUnless.ite (fun _ => .error rfl) fun _ => ?_
    refine SameUnless.bind (Condition.agreeUnless_atoms hbeside scope
      (hX.mono fun c hc => List.mem_append_left _ hc)) fun as as' has => ?_
    refine SameUnless.bind (agreeUnless_compileNodes hbeside scope nested (depth + 1)
      (hX.mono fun c hc => List.mem_append_right _ hc)).after fun ps ps' hps => ?_
    refine .ok ?_
    rw [← Option.not_isNone, ← Option.not_isNone, Bool.not_inj_iff, Bool.eq_iff_iff,
      Option.isNone_iff_eq_none, Option.isNone_iff_eq_none, assemble_eq_none_iff,
      assemble_eq_none_iff, has, hps]

theorem agreeUnless_compileNodes (hbeside : env.Beside env') (scope : FilterScope) :
    ∀ (fs : List Filter) (depth : Nat), Excused X env'.dialect (conditionsOf fs) →
      AgreeOnCauseUnless X (fun ps ps' => ps.length = ps'.length) (compileNodes env scope depth fs)
        (compileNodes env' scope depth fs)
  | [], depth, _ => by
    rw [compileNodes, compileNodes]
    exact .ok rfl
  | f :: rest, depth, hX => by
    rw [conditionsOf] at hX
    rw [compileNodes, compileNodes]
    refine SameUnless.bind (agreeUnless_compileNode hbeside scope f depth
      (hX.mono fun c hc => List.mem_append_left _ hc)) fun p p' hp => ?_
    refine SameUnless.bind (agreeUnless_compileNodes hbeside scope rest depth
      (hX.mono fun c hc => List.mem_append_right _ hc)).after fun ps ps' hps => ?_
    refine .ok ?_
    rw [List.length_append, List.length_append, Option.length_toList, Option.length_toList, hp, hps]

end

/-- A filter is refused in both dialects for one cause, or it stands for something in both or in
neither. -/
theorem agreeUnless_compile (hbeside : env.Beside env') {f : Filter}
    (hX : Excused X env'.dialect f.allConditions) (scope : FilterScope) :
    AgreeOnCauseUnless X (fun p p' => p.isSome = p'.isSome) (f.compile env scope)
      (f.compile env' scope) :=
  agreeUnless_compileNode hbeside scope f 1 hX

/-- A filter is an operand in both dialects or missing in both. -/
theorem agreeUnless_compileOperand (hbeside : env.Beside env') {f : Filter}
    (hX : Excused X env'.dialect f.allConditions) (scope : FilterScope) :
    AgreeOnCauseUnless X (fun p p' => p.isSome = p'.isSome) (f.compileOperand env scope)
      (f.compileOperand env' scope) := by
  unfold compileOperand
  refine SameUnless.bind (agreeUnless_compile hbeside hX scope) fun p p' hp => .ok ?_
  rw [Option.isSome_map, Option.isSome_map, hp]

end Filter

/-! ## Joins -/

namespace Inclusion

theorem agreeUnless_compileFilter (hbeside : env.Beside env') {i : Inclusion}
    (hX : Excused X env'.dialect i.ownFilter.allConditions) (model aliasName : String) :
    AgreeOnCauseUnless X (fun p p' => p.isSome = p'.isSome) (i.compileFilter env model aliasName)
      (i.compileFilter env' model aliasName) := by
  unfold ownFilter at hX
  unfold compileFilter
  cases hquery : i.query with
  | none => exact .ok rfl
  | some q =>
    rw [hquery] at hX
    exact Filter.agreeUnless_compileOperand hbeside hX _

/-- An inclusion gets one alias in both dialects, and as many joins. -/
theorem agreeUnless_compileOwn (hbeside : env.Beside env') {i : Inclusion}
    (hX : Excused X env'.dialect i.ownFilter.allConditions) (parent : JoinParent)
    (used : List String) :
    AgreeOnCauseUnless X (fun a b => a.1.joins.length = b.1.joins.length ∧ a.2 = b.2)
      (i.compileOwn env parent used) (i.compileOwn env' parent used) := by
  unfold compileOwn
  rw [hbeside.schema_eq]
  refine AgreeOnCauseUnless.bind_self fun relation => ?_
  refine AgreeOnCauseUnless.bind_self fun table => ?_
  refine AgreeOnCauseUnless.bind_self fun equalities => ?_
  refine SameUnless.bind (agreeUnless_compileFilter hbeside hX _ _) fun filter filter' _ => ?_
  refine SameUnless.bind (SameUnless.of (AgreeUnless.self (fun _ => rfl) _)).after ?_
  rintro items _ rfl
  exact .ok ⟨rfl, rfl⟩

mutual

/-- An inclusion and those below it get the same aliases in both dialects. -/
theorem agreeUnless_compile (hbeside : env.Beside env') :
    ∀ (i : Inclusion) (parent : JoinParent) (depth : Nat) (used : List String),
      Excused X env'.dialect (i.preorder.flatMap (·.ownFilter.allConditions)) →
        AgreeOnCauseUnless X (fun a b => a.1.joins.length = b.1.joins.length ∧ a.2 = b.2)
          (compile env parent depth used i) (compile env' parent depth used i)
  | ⟨relation, query, projects, nested⟩, parent, depth, used, hX => by
    rw [preorder, List.flatMap_cons] at hX
    rw [compile, compile, hbeside.maxDepth_eq]
    refine SameUnless.ite (fun _ => .error rfl) fun _ => ?_
    refine SameUnless.bind (agreeUnless_compileOwn hbeside
      (hX.mono fun c hc => List.mem_append_left _ hc) parent used) ?_
    rintro ⟨own, here⟩ ⟨own', _⟩ ⟨hown, rfl⟩
    refine SameUnless.bind (agreeUnless_compileAll hbeside nested _ _ _
      (hX.mono fun c hc => List.mem_append_right _ hc)).after ?_
    rintro ⟨below, used⟩ ⟨below', _⟩ ⟨hbelow, rfl⟩
    refine .ok ⟨?_, rfl⟩
    rw [JoinPlan.joins_append, JoinPlan.joins_append, List.length_append, List.length_append, hown,
      hbelow]

theorem agreeUnless_compileAll (hbeside : env.Beside env') :
    ∀ (is : List Inclusion) (parent : JoinParent) (depth : Nat) (used : List String),
      Excused X env'.dialect ((preorderOf is).flatMap (·.ownFilter.allConditions)) →
        AgreeOnCauseUnless X (fun a b => a.1.joins.length = b.1.joins.length ∧ a.2 = b.2)
          (compileAll env parent depth used is) (compileAll env' parent depth used is)
  | [], parent, depth, used, _ => by
    rw [compileAll, compileAll]
    exact .ok ⟨rfl, rfl⟩
  | i :: rest, parent, depth, used, hX => by
    rw [preorderOf, List.flatMap_append] at hX
    rw [compileAll, compileAll]
    refine SameUnless.bind (agreeUnless_compile hbeside i parent depth used
      (hX.mono fun c hc => List.mem_append_left _ hc)) ?_
    rintro ⟨plan, used⟩ ⟨plan', _⟩ ⟨hplan, rfl⟩
    refine SameUnless.bind (agreeUnless_compileAll hbeside rest parent depth used
      (hX.mono fun c hc => List.mem_append_right _ hc)).after ?_
    rintro ⟨more, used⟩ ⟨more', _⟩ ⟨hmore, rfl⟩
    refine .ok ⟨?_, rfl⟩
    rw [JoinPlan.joins_append, JoinPlan.joins_append, List.length_append, List.length_append, hplan,
      hmore]

end

/-- The inclusions of a query are refused in both dialects for one cause, or joined in both. -/
theorem agreeUnless_compileJoins (hbeside : env.Beside env') {is : List Inclusion}
    (hX : Excused X env'.dialect ((preorderOf is).flatMap (·.ownFilter.allConditions)))
    (model aliasName : String) :
    AgreeOnCauseUnless X (fun a b => a.joins.length = b.joins.length)
      (compileJoins env model aliasName is) (compileJoins env' model aliasName is) := by
  unfold compileJoins
  exact SameUnless.bind (agreeUnless_compileAll hbeside is _ _ _ hX) fun a b hab => .ok hab.1

end Inclusion

end

end SqlQuery
