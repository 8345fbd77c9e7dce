import SqlQuery.Proofs.Compile.JoinNode
import SqlQuery.Proofs.Compile.OperatorSteps
import SqlQuery.Proofs.Sql.SelectText

/-!
# The text of inclusions, written in one pass

The inclusions of a query come first: their filters bind values before anything of the selection
is written, though the joins stand behind its items in the text. `Inclusion.write` is the pass over
an inclusion. It goes down the tree as the relations lead, writes a join for each of them, and
keeps the texts of the joins and of what they return apart, so that the selection can put each in
its place.

> `Filter.writeOperand_eq`: the filter of a join is put into parentheses where it is a disjunction
> of several parts, and the parts need not be compiled to be counted.

> `Inclusion.write_eq`: the pass writes the plan that the inclusion compiles to and binds its
> values; where the inclusion is refused, it is refused for the same cause and with the same values
> bound.
-/

namespace SqlQuery

open Sql

variable {p : Parameters} {env : Env} {scope : FilterScope}

/-- What is looked up binds nothing, and the pass goes on with it. -/
theorem Writer.settle_lift {α ζ η : Type} {x : Except Error α} {v : α → Writer η}
    {y : α → Except Refusal ζ} {text : ζ → η} {values : ζ → List Value}
    (hv : ∀ a, x = .ok a → v a p = p.settle text values (y a)) :
    (Writer.lift x >>= v) p = p.settle text values (Refusal.of x >>= y) := by
  cases x with
  | error e =>
    have hlift : Writer.lift (.error e : Except Error α) p = (.error e, p) := rfl
    rw [Writer.bind_of_error hlift]
    exact congrArg (Prod.mk _) p.bindAll_nil.symm
  | ok a =>
    have hlift : Writer.lift (.ok a : Except Error α) p = (.ok a, p) := rfl
    exact (Writer.bind_of_ok hlift v).trans (hv a rfl)

/-- What is looked up behind some values leaves them bound where it is refused. -/
theorem Writer.settle_lift_after {α ζ η : Type} {us : List Value} {x : Except Error α}
    {v : α → Writer η} {y : α → Except Refusal ζ} {text : ζ → η} {values : ζ → List Value}
    (hv : ∀ a, x = .ok a → v a (p.bindAll us) = p.settle text values (y a)) :
    (Writer.lift x >>= v) (p.bindAll us)
      = p.settle text values (Refusal.after us (Refusal.of x) >>= y) := by
  cases x with
  | error e =>
    have hlift : Writer.lift (.error e : Except Error α) (p.bindAll us)
        = (.error e, p.bindAll us) := rfl
    rw [Writer.bind_of_error hlift]
    exact congrArg (fun vs => (Except.error e, p.bindAll vs)) us.append_nil.symm
  | ok a =>
    have hlift : Writer.lift (.ok a : Except Error α) (p.bindAll us)
        = (.ok a, p.bindAll us) := rfl
    exact (Writer.bind_of_ok hlift v).trans (hv a rfl)

/-- Atoms are written one after the other. -/
theorem Writer.mapM_atoms (atoms : List Atom) (p : Parameters) :
    atoms.mapM (Atom.write p.dialect) p
      = (.ok (renderEach p.dialect p.bound.length (atoms.map (·.tokens p.dialect))),
          p.bindAll (atoms.flatMap Atom.values)) := by
  induction atoms generalizing p with
  | nil => simp [Writer.pure_apply, renderEach]
  | cons a atoms ih =>
    have hrest := ih (p.bindAll a.values)
    rw [Parameters.dialect_bindAll] at hrest
    rw [List.mapM_cons, Writer.bind_of_ok (a.write_eq p), Writer.bind_of_ok hrest,
      Writer.pure_apply, ← Parameters.bindAll_append, List.map_cons, renderEach,
      Atom.slots_tokens, Parameters.length_bound_bindAll]
    rfl

/-! ## Filters beside other operands -/

/-- Parentheses bind nothing. -/
theorem Sql.Predicate.values_operand (q : Predicate) : q.operand.values = q.values := by
  unfold operand
  split <;> simp [values]

namespace Filter

/-- The parts of a filter: its own conditions, and those of its groups in which one stands. -/
def partCount (f : Filter) : Nat :=
  f.conditions.length + (f.nested.filter fun g => !g.isEmpty).length

/-- The pass over a filter that stands beside other operands of AND: a disjunction of several parts
is put into parentheses. -/
def writeOperand (f : Filter) (env : Env) (scope : FilterScope) : Writer String := do
  let text ← f.write env scope
  return if text ≠ "" ∧ f.op = .or ∧ 1 < f.partCount then parenthesized text else text

/-- A node has a group for each of the filters in which a condition stands. -/
theorem length_compileNodes {depth : Nat} {fs : List Filter} {groups : List Predicate}
    (h : compileNodes env scope depth fs = .ok groups) :
    groups.length = (fs.filter fun f => !f.isEmpty).length := by
  induction fs generalizing groups with
  | nil =>
    cases h
    rfl
  | cons f rest ih =>
    rw [compileNodes] at h
    obtain ⟨q, hq, h⟩ := bind_eq_ok.mp h
    obtain ⟨more, hmore, h⟩ := bind_eq_ok.mp h
    cases h
    have hnone := (compileNode_spec env scope f depth q hq).none_iff
    rw [List.length_append, ih (Refusal.after_eq_ok.mp hmore)]
    cases q with
    | none => simp [hnone.mp rfl]
    | some q =>
      have hsome : f.isEmpty = false := by simpa using hnone
      simp [hsome, Nat.add_comm]

/-- Only a disjunction of several parts is changed where it becomes an operand. -/
theorem operand_assemble {op : LogicalOp} {atoms : List Atom} {groups : List Predicate}
    {q : Predicate} (h : assemble op atoms groups = some q) :
    q.operand = if op = .or ∧ 1 < atoms.length + groups.length then .group q else q := by
  have hany (parts : List Predicate) : (Predicate.any parts).operand
      = if 1 < parts.length then .group (.any parts) else .any parts := by
    rcases parts with _ | ⟨r, _ | ⟨r', rest⟩⟩ <;> simp [Predicate.operand]
  unfold assemble at h
  split at h <;> cases h
  · simp [Predicate.operand]
  · rw [hany]
    simp
  · simp [Predicate.operand]
  · simp [Predicate.operand]

/-- The operand that a filter compiles to has parentheses where its parts say so. -/
theorem operand_compile {f : Filter} {q : Predicate} (h : f.compile env scope = .ok (some q)) :
    q.operand = if f.op = .or ∧ 1 < f.partCount then .group q else q := by
  obtain ⟨op, conditions, nested⟩ := f
  rw [compile, compileNode] at h
  split at h
  next => cases h
  next =>
    obtain ⟨atoms, hatoms, h⟩ := bind_eq_ok.mp h
    obtain ⟨groups, hgroups, h⟩ := bind_eq_ok.mp h
    have hcount := length_compileNodes (Refusal.after_eq_ok.mp hgroups)
    have hconditions := (Condition.compiledTo_of_atoms hatoms).length_eq
    rw [operand_assemble (Except.ok.inj h), partCount, hcount, hconditions]

/-- The pass over an operand writes the operand that the filter compiles to. -/
theorem writeOperand_eq (hp : p.dialect = env.dialect) (f : Filter) :
    f.writeOperand env scope p
      = p.settle (fun q => p.dialect.render p.bound.length (optional p.dialect q))
          (fun q => Predicate.valuesOf q.toList) (f.compileOperand env scope) := by
  have hwrite := f.write_eq env scope hp
  unfold writeOperand compileOperand
  cases hcompile : f.compile env scope with
  | error r =>
    rw [hcompile] at hwrite
    exact Writer.bind_of_error hwrite _
  | ok q =>
    rw [hcompile] at hwrite
    rw [Writer.bind_of_ok hwrite, Writer.pure_apply]
    cases q with
    | none => rfl
    | some q =>
      have hspec := compileNode_spec env scope f 1 (some q) hcompile
      have htext := (hspec.filled p.dialect).render_ne_empty p.dialect p.bound.length
      have hvalues : slots (q.tokens p.dialect) = Predicate.valuesOf [q.operand] := by
        rw [Predicate.slots_tokens, Predicate.valuesOf_eq, List.flatMap_singleton,
          Predicate.values_operand]
      have hoperand (text : String) (hsome : text ≠ "")
          (htext : text = p.dialect.render p.bound.length (q.tokens p.dialect)) :
          (if text ≠ "" ∧ f.op = .or ∧ 1 < f.partCount then parenthesized text else text)
            = p.dialect.render p.bound.length (q.operand.tokens p.dialect) := by
        rw [operand_compile hcompile]
        by_cases hparts : f.op = .or ∧ 1 < f.partCount
        · rw [if_pos ⟨hsome, hparts⟩, if_pos hparts, Predicate.tokens, render_grouped, htext]
          rfl
        · rw [if_neg fun h => hparts h.2, if_neg hparts, htext]
      have hpair := congrArg₂ Prod.mk
        (congrArg (Except.ok (ε := Error)) (hoperand _ htext rfl)) (congrArg p.bindAll hvalues)
      exact hpair

end Filter

/-! ## One inclusion -/

/-- What a pass over inclusions gives: the texts of their joins and of what these return, and how
the result is shaped. -/
structure WrittenPlan where
  joins : List String := []
  items : List String := []
  fields : List FieldMapping := []
  relations : List RelationMapping := []

/-- Two plans bind the values of the first, and behind them those of the second. -/
theorem JoinPlan.values_append (a b : JoinPlan) : (a ++ b).values = a.values ++ b.values :=
  List.flatMap_append

/-- What a join binds is what its condition binds. -/
theorem Sql.Join.slots_tokens (d : Dialect) (j : Join) : slots (j.tokens d) = j.on.values := by
  rw [Join.tokens, slots_append, Predicate.slots_tokens]
  rfl

namespace WrittenPlan

/-- What two passes give together, one after the other. -/
def append (a b : WrittenPlan) : WrittenPlan :=
  { joins := a.joins ++ b.joins
    items := a.items ++ b.items
    fields := a.fields ++ b.fields
    relations := a.relations ++ b.relations }

instance : Append WrittenPlan := ⟨append⟩

/-- A plan as it is written behind `bound` values. -/
def of (d : Dialect) (bound : Nat) (plan : JoinPlan) : WrittenPlan :=
  { joins := renderEach d bound (plan.joins.map (·.tokens d))
    items := plan.items.map (·.written d)
    fields := plan.fields
    relations := plan.relations }

/-- A plan is written behind the values of the plan before it. -/
theorem of_append (d : Dialect) (bound : Nat) (a b : JoinPlan) :
    of d bound (a ++ b) = of d bound a ++ of d (bound + a.values.length) b := by
  have hslots : (a.joins.map (·.tokens d)).flatMap slots = a.values := by
    simp [List.flatMap_map, JoinPlan.values, Join.slots_tokens]
  show (⟨renderEach d bound ((a.joins ++ b.joins).map (·.tokens d)),
    (a.items ++ b.items).map (·.written d), a.fields ++ b.fields, a.relations ++ b.relations⟩
      : WrittenPlan) = _
  rw [List.map_append, List.map_append, renderEach_append, hslots]
  rfl

/-- What joins nothing is written alike behind any values. -/
theorem of_eq_of_joins_eq_nil {d : Dialect} {plan : JoinPlan} (h : plan.joins = [])
    (bound bound' : Nat) : of d bound plan = of d bound' plan := by
  unfold of
  rw [h]
  rfl

end WrittenPlan

/-- An operand stands behind the conditions before it, and adds none where it has no text. -/
theorem Filter.OperandOf.beside {f : Filter} {filter : Option Predicate}
    (h : f.OperandOf env scope filter) (d : Dialect) (bound : Nat) (conditions : List String) :
    (if d.render bound (optional d filter) = "" then conditions
      else conditions ++ [d.render bound (optional d filter)])
      = conditions ++ filter.toList.map fun q => d.render bound (q.tokens d) := by
  cases filter with
  | none => exact (if_pos rfl).trans (List.append_nil _).symm
  | some q => exact if_neg ((h.filled d).render_ne_empty d bound)

namespace Inclusion

/-- The pass over the filter of an inclusion. -/
def writeFilter (i : Inclusion) (env : Env) (model aliasName : String) : Writer String :=
  match i.query with
  | some q =>
    q.filter.writeOperand env
      { model := some model, qualifier := some aliasName, clause := .joinOn }
  | none => return ""

/-- The text of a join on some conditions. -/
def joinText (d : Dialect) (table aliasName : String) (conditions : List String) : String :=
  "LEFT JOIN " ++ d.quoteName table ++ " AS " ++ d.quoteName aliasName ++ " ON "
    ++ " AND ".intercalate conditions

/-- The pass over an inclusion without those below it. -/
def writeOwn (i : Inclusion) (env : Env) (parent : JoinParent) (used : List String) :
    Writer (WrittenPlan × JoinParent) := do
  let relation ← Writer.lift (env.schema.relation parent.model i.relation)
  let table ← Writer.lift (env.schema.table relation.toModel)
  let aliasName := freshAlias used (parent.aliasName ++ "_" ++ relation.name)
  let equalities ← Writer.lift (relationEqualities env.schema parent relation aliasName)
  let conditions ← equalities.mapM (Atom.write env.dialect)
  let filter ← i.writeFilter env relation.toModel aliasName
  let conditions := if filter = "" then conditions else conditions ++ [filter]
  let path := parent.path ++ [relation.name]
  let returned ← Writer.lift (i.project env.schema relation.toModel aliasName path)
  let own : WrittenPlan :=
    { joins := [joinText env.dialect table aliasName conditions]
      relations := [{ path, aliasName, many := relation.kind.isMany }] }
  return (own ++ .of env.dialect 0 returned, { model := relation.toModel, aliasName, path })

mutual

/-- The pass over an inclusion that is `depth` levels down and over those below it. -/
def write (env : Env) (parent : JoinParent) (depth : Nat) (used : List String) :
    Inclusion → Writer (WrittenPlan × List String)
  | ⟨relation, query, projects, nested⟩ =>
    if env.maxDepth < depth then throw (.depthExceeded .inclusion env.maxDepth)
    else do
      let (own, here) ← writeOwn ⟨relation, query, projects, nested⟩ env parent used
      let (below, used) ← writeAll env here (depth + 1) (here.aliasName :: used) nested
      return (own ++ below, used)

/-- The pass over some inclusions, one after the other. -/
def writeAll (env : Env) (parent : JoinParent) (depth : Nat) (used : List String) :
    List Inclusion → Writer (WrittenPlan × List String)
  | [] => return ({}, used)
  | i :: rest => do
    let (plan, used) ← write env parent depth used i
    let (more, used) ← writeAll env parent depth used rest
    return (plan ++ more, used)

end

/-! ## The pass and the plan -/

variable {i : Inclusion} {parent : JoinParent} {used : List String}

/-- The pass over the filter of an inclusion writes the operand that the filter compiles to. -/
theorem writeFilter_eq (hp : p.dialect = env.dialect) (i : Inclusion) (model aliasName : String) :
    i.writeFilter env model aliasName p
      = p.settle (fun q => p.dialect.render p.bound.length (optional p.dialect q))
          (fun q => Predicate.valuesOf q.toList) (i.compileFilter env model aliasName) := by
  unfold writeFilter compileFilter
  cases i.query with
  | none => exact congrArg (Prod.mk _) p.bindAll_nil.symm
  | some q => exact q.filter.writeOperand_eq hp

/-- The equalities of a relation bind nothing. -/
theorem values_relationEqualities {schema : Schema} {relation : Relation} {aliasName : String}
    {equalities : List Atom}
    (h : relationEqualities schema parent relation aliasName = .ok equalities) :
    equalities.flatMap Atom.values = [] := by
  rw [List.flatMap_eq_nil_iff]
  intro e he
  obtain ⟨pair, -, a, b, -, -, rfl⟩ := exists_mem_of_forall₂ (relationEqualities_spec h).2 e he
  rfl

/-- A join is written with its equalities and behind them its filter, if it has one. -/
theorem render_join (d : Dialect) (bound : Nat) (j : Join) {equalities : List Atom}
    {filter : Option Predicate} (hon : j.on = .all (equalities.map .atom ++ filter.toList))
    (hsome : equalities ≠ []) (hfits : ∀ q ∈ filter, q.FitsAt .operand) :
    d.render bound (j.tokens d)
      = joinText d j.table j.aliasName (renderEach d bound (equalities.map (·.tokens d))
          ++ filter.toList.map fun q =>
            d.render (bound + (equalities.flatMap Atom.values).length) (q.tokens d)) := by
  have hparts (f : Fragment Value)
      (hf : f ∈ equalities.map (·.tokens d) ++ filter.toList.map (·.tokens d)) :
      Opens f ∧ Closes f := by
    rcases List.mem_append.mp hf with hf | hf
    · obtain ⟨e, -, rfl⟩ := List.mem_map.mp hf
      exact ⟨e.opens d, e.closes d⟩
    · obtain ⟨q, hq, rfl⟩ := List.mem_map.mp hf
      have hq := hfits q (Option.mem_toList.mp hq)
      exact ⟨hq.opens d, hq.closes d⟩
  have htokens : j.on.tokens d
      = joined .and (equalities.map (·.tokens d) ++ filter.toList.map (·.tokens d)) := by
    rw [hon, Predicate.tokens, Predicate.tokensOf_eq, List.map_append, List.map_map]
    rfl
  have hslots : (equalities.map (·.tokens d)).flatMap slots = equalities.flatMap Atom.values := by
    simp [List.flatMap_map, Atom.slots_tokens]
  have hon : d.render bound (j.on.tokens d)
      = " AND ".intercalate (renderEach d bound (equalities.map (·.tokens d))
          ++ filter.toList.map fun q =>
            d.render (bound + (equalities.flatMap Atom.values).length) (q.tokens d)) := by
    rw [htokens, render_joined d bound .and hparts, renderEach_append, hslots]
    cases filter <;> rfl
  have hopens : Opens (j.on.tokens d) := by
    obtain ⟨e, rest, rfl⟩ := List.exists_cons_of_ne_nil hsome
    rw [htokens]
    exact (e.opens d).intercalate _ _
  rw [Join.tokens, joinText, ← hon]
  simp only [List.cons_append, List.nil_append]
  rw [render_word_cons _ _ _ (opens_cons rfl _), render_word_cons _ _ _ (opens_cons rfl _),
    render_name_cons _ _ _ (opens_cons rfl _), render_word_cons _ _ _ (opens_cons rfl _),
    render_name_cons _ _ _ (opens_cons rfl _), render_word_cons _ _ _ hopens, ← String.toList_inj]
  simp [Keyword.text]

/-- The pass over an inclusion alone writes its own plan. -/
theorem writeOwn_eq (hp : p.dialect = env.dialect) (i : Inclusion) (parent : JoinParent)
    (used : List String) :
    i.writeOwn env parent used p
      = p.settle (fun own => (WrittenPlan.of p.dialect p.bound.length own.1, own.2))
          (fun own => own.1.values) (i.compileOwn env parent used) := by
  unfold writeOwn compileOwn
  refine Writer.settle_lift fun relation _ => Writer.settle_lift fun table _ => ?_
  dsimp only
  generalize freshAlias used (parent.aliasName ++ "_" ++ relation.name) = aliasName
  generalize parent.path ++ [relation.name] = path
  refine Writer.settle_lift fun equalities hequalities => ?_
  have hunbound := values_relationEqualities hequalities
  have hconditions := Writer.mapM_atoms equalities p
  rw [hunbound, Parameters.bindAll_nil, hp] at hconditions
  rw [Writer.bind_of_ok hconditions]
  refine Writer.settle_bind (writeFilter_eq hp i _ _) fun filter hfilter => ?_
  have hspec := compileFilter_spec hfilter
  let j : Join := { table, aliasName, on := .all (equalities.map .atom ++ filter.toList) }
  have hvalues : j.on.values = Predicate.valuesOf filter.toList := by
    rw [Predicate.values, Predicate.valuesOf_eq, List.flatMap_append, List.flatMap_map,
      Predicate.valuesOf_eq]
    exact congrArg (· ++ _) hunbound
  have hjoin : p.dialect.render p.bound.length (j.tokens p.dialect)
      = joinText p.dialect table aliasName _ :=
    (render_join p.dialect p.bound.length j rfl (relationEqualities_spec hequalities).1 hspec.fits)
  rw [hunbound, List.length_nil, Nat.add_zero, ← hspec.beside] at hjoin
  rw [← hvalues]
  -- what the inclusion returns is looked up last, and binds nothing either
  refine Writer.settle_lift_after fun returned hreturned => ?_
  have hnone := (returns_of_project hreturned).joins_eq.1
  let own : JoinPlan :=
    { joins := [j], relations := [{ path, aliasName, many := relation.kind.isMany }] }
  have hown : own.values = j.on.values := List.flatMap_singleton ..
  have hboth : (own ++ returned).values = j.on.values := by
    rw [JoinPlan.values_append, hown, JoinPlan.values, hnone]
    exact List.append_nil _
  rw [Writer.pure_apply, ← hp, ← hjoin,
    WrittenPlan.of_eq_of_joins_eq_nil hnone 0 (p.bound.length + j.on.values.length)]
  show _ = (Except.ok (WrittenPlan.of p.dialect p.bound.length (own ++ returned), _),
    p.bindAll (own ++ returned).values)
  rw [WrittenPlan.of_append, hboth, hown]
  rfl

mutual

/-- The pass over an inclusion and those below it writes the plan that they compile to. -/
theorem write_eq (env : Env) :
    ∀ (i : Inclusion) (parent : JoinParent) (depth : Nat) (used : List String) (p : Parameters),
      p.dialect = env.dialect →
      write env parent depth used i p
        = p.settle (fun out => (WrittenPlan.of p.dialect p.bound.length out.1, out.2))
            (fun out => out.1.values) (compile env parent depth used i)
  | ⟨relation, query, projects, nested⟩, parent, depth, used, p, hp => by
    rw [write, compile]
    split
    · -- an inclusion too far down is refused before anything of it is bound
      exact congrArg (Prod.mk _) p.bindAll_nil.symm
    · refine Writer.settle_both (writeOwn_eq hp _ parent used)
        (fun own => writeAll_eq env nested own.2 (depth + 1) _ _ hp) ?_ ?_
      · intro own below
        rw [WrittenPlan.of_append, Parameters.length_bound_bindAll]
        rfl
      · intro own below
        exact JoinPlan.values_append own.1 below.1

/-- Inclusions are written one after the other, with the aliases in use before each. -/
theorem writeAll_eq (env : Env) :
    ∀ (is : List Inclusion) (parent : JoinParent) (depth : Nat) (used : List String)
      (p : Parameters), p.dialect = env.dialect →
      writeAll env parent depth used is p
        = p.settle (fun out => (WrittenPlan.of p.dialect p.bound.length out.1, out.2))
            (fun out => out.1.values) (compileAll env parent depth used is)
  | [], parent, depth, used, p, hp => by
    rw [writeAll, compileAll]
    exact congrArg (Prod.mk _) p.bindAll_nil.symm
  | i :: rest, parent, depth, used, p, hp => by
    rw [writeAll, compileAll]
    refine Writer.settle_both (write_eq env i parent depth used p hp)
      (fun plan => writeAll_eq env rest parent depth plan.2 _ hp) ?_ ?_
    · intro plan more
      rw [WrittenPlan.of_append, Parameters.length_bound_bindAll]
      rfl
    · intro plan more
      exact JoinPlan.values_append plan.1 more.1

end

end Inclusion

/-- The pass over the inclusions of a model that is selected under an alias. -/
def writeJoins (env : Env) (model aliasName : String) (inclusions : List Inclusion) :
    Writer WrittenPlan := do
  return (← Inclusion.writeAll env { model, aliasName } 1 [aliasName] inclusions).1

/-- The pass over inclusions writes the joins that they compile to. -/
theorem writeJoins_eq (hp : p.dialect = env.dialect) (model aliasName : String)
    (inclusions : List Inclusion) :
    writeJoins env model aliasName inclusions p
      = p.settle (WrittenPlan.of p.dialect p.bound.length) JoinPlan.values
          (compileJoins env model aliasName inclusions) := by
  refine Writer.settle_bind (Inclusion.writeAll_eq env inclusions _ 1 _ p hp) fun out _ => ?_
  rfl

end SqlQuery
