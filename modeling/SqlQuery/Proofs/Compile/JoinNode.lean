import SqlQuery.Proofs.Compile.FreshAlias
import SqlQuery.Proofs.Compile.Inclusion

/-!
# Joins with all that led to them

The joins of a query are a list, and from a join alone nothing says which inclusion it
stands for, what that inclusion hangs on, or which aliases were in use when its own was
chosen. A `JoinNode` keeps all of it. The nodes of a forest come in pre-order, and
`JoinedAs` says that each of them hangs on the node of the inclusion above it.

> `Inclusion.joinedAs_of_compile`: what a forest is compiled to is what its nodes add.

> `Inclusion.AllJoinedAs.nodup`: no two nodes have one alias, and none has that of the root.

> `Inclusion.AllJoinedAs.parent_declared`: a node hangs on the root or on a node before it.
-/

namespace SqlQuery

open Sql

/-- The join of an inclusion, with what the inclusion hangs on, the aliases that were in use
before it, its relation and what it returns. -/
structure JoinNode where
  inclusion : Inclusion
  parent : JoinParent
  used : List String
  relation : Relation
  join : Join
  returned : JoinPlan

namespace JoinNode

/-- The names of the relations that lead to the node. -/
def path (n : JoinNode) : List String :=
  n.parent.path ++ [n.relation.name]

/-- What the inclusions below the node hang on. -/
def here (n : JoinNode) : JoinParent :=
  { model := n.relation.toModel, aliasName := n.join.aliasName, path := n.path }

/-- The relation of the node, as the mapping announces it. -/
def mapping (n : JoinNode) : RelationMapping :=
  { path := n.path, aliasName := n.join.aliasName, many := n.relation.kind.isMany }

/-- What the node adds to the selection by itself. -/
def plan (n : JoinNode) : JoinPlan :=
  { joins := [n.join], relations := [n.mapping] } ++ n.returned

/-- The node is what its inclusion is compiled to. -/
structure Compiled (env : Env) (n : JoinNode) : Prop where
  relation_eq : env.schema.relation n.parent.model n.inclusion.relation = .ok n.relation
  table_eq : env.schema.table n.relation.toModel = .ok n.join.table
  alias_eq : n.join.aliasName = freshAlias n.used (n.parent.aliasName ++ "_" ++ n.relation.name)
  joined : ∃ equalities filter,
    JoinedBy env ⟨n.parent.model, n.inclusion⟩ n.join n.relation n.parent equalities filter
  returned_eq : n.inclusion.project env.schema n.relation.toModel n.join.aliasName n.path
    = .ok n.returned

end JoinNode

/-- What some nodes add to the selection, one after the other. -/
def planOf (nodes : List JoinNode) : JoinPlan :=
  { joins := nodes.map (·.join)
    items := nodes.flatMap (·.returned.items)
    fields := nodes.flatMap (·.returned.fields)
    relations := nodes.map (·.mapping) }

theorem planOf_append (a b : List JoinNode) : planOf (a ++ b) = planOf a ++ planOf b := by
  simp only [planOf, List.map_append, List.flatMap_append]
  rfl

/-- Every node knows which aliases were chosen before its own. -/
def InUse : List String → List JoinNode → Prop
  | _, [] => True
  | used, n :: rest => n.used = used ∧ InUse (n.join.aliasName :: used) rest

/-- The aliases in use after those of some nodes have been chosen. -/
def usedAfter (used : List String) (nodes : List JoinNode) : List String :=
  (nodes.map (·.join.aliasName)).reverse ++ used

@[simp] theorem usedAfter_nil (used : List String) : usedAfter used [] = used :=
  rfl

@[simp] theorem usedAfter_cons (used : List String) (n : JoinNode) (rest : List JoinNode) :
    usedAfter used (n :: rest) = usedAfter (n.join.aliasName :: used) rest := by
  simp [usedAfter]

theorem usedAfter_singleton (aliasName : String) (nodes : List JoinNode) :
    usedAfter [aliasName] nodes = (aliasName :: nodes.map (·.join.aliasName)).reverse := by
  rw [usedAfter, List.reverse_cons]

theorem usedAfter_append (used : List String) (a b : List JoinNode) :
    usedAfter used (a ++ b) = usedAfter (usedAfter used a) b := by
  simp [usedAfter]

theorem subset_usedAfter (used : List String) (nodes : List JoinNode) :
    used ⊆ usedAfter used nodes :=
  List.subset_append_right ..

theorem inUse_append {used : List String} {a b : List JoinNode} :
    InUse used (a ++ b) ↔ InUse used a ∧ InUse (usedAfter used a) b := by
  induction a generalizing used with
  | nil => simp [InUse]
  | cons n a ih => rw [List.cons_append, InUse, InUse, ih, usedAfter_cons, and_assoc]

/-- Aliases that are chosen one after the other differ from each other and from those in use
before them. -/
theorem nodup_aliases {env : Env} {used : List String} {nodes : List JoinNode}
    (hused : used.Nodup) (hinUse : InUse used nodes) (hnodes : ∀ n ∈ nodes, n.Compiled env) :
    (usedAfter used nodes).Nodup := by
  induction nodes generalizing used with
  | nil => exact hused
  | cons n rest ih =>
    obtain ⟨hn, hrest⟩ := hinUse
    rw [usedAfter_cons]
    refine ih (List.nodup_cons.mpr ⟨?_, hused⟩) hrest
      fun m hm => hnodes m (List.mem_cons_of_mem _ hm)
    rw [(hnodes n (List.mem_cons_self ..)).alias_eq, hn]
    exact freshAlias_not_mem used _

namespace Inclusion

mutual

/-- The nodes of an inclusion and of those below it, in pre-order; `used` are the aliases in
use before them. -/
inductive JoinedAs (env : Env) :
    JoinParent → List String → Inclusion → List JoinNode → Prop where
  | mk {parent : JoinParent} {used : List String} {i : Inclusion} {n : JoinNode}
      {below : List JoinNode} : n.parent = parent → n.used = used → n.inclusion = i →
      n.Compiled env → AllJoinedAs env n.here (n.join.aliasName :: used) i.nested below →
      JoinedAs env parent used i (n :: below)

/-- The nodes of some inclusions, one inclusion after the other. -/
inductive AllJoinedAs (env : Env) :
    JoinParent → List String → List Inclusion → List JoinNode → Prop where
  | nil {parent : JoinParent} {used : List String} : AllJoinedAs env parent used [] []
  | cons {parent : JoinParent} {used : List String} {i : Inclusion} {rest : List Inclusion}
      {nodes more : List JoinNode} : JoinedAs env parent used i nodes →
      AllJoinedAs env parent (usedAfter used nodes) rest more →
      AllJoinedAs env parent used (i :: rest) (nodes ++ more)

end

/-! ## From compilations to nodes -/

/-- What fields are returned as: an item for each of them, under a name of its own, and where
the mapping finds it. -/
theorem projectFields_spec {schema : Schema} {model aliasName : String} {path : List String} :
    ∀ {fields : List String} {plan : JoinPlan},
      projectFields schema model aliasName path fields = .ok plan →
        plan.joins = [] ∧ plan.relations = [] ∧
          plan.fields = fields.map
            (fun field => { column := aliasName ++ "_" ++ field, path, field }) ∧
          List.Forall₂
            (fun field item => ∃ column, schema.column model field = .ok column ∧
              item = .column ⟨some aliasName, column⟩ (some (aliasName ++ "_" ++ field)))
            fields plan.items := by
  intro fields
  induction fields with
  | nil =>
    intro plan h
    cases h
    exact ⟨rfl, rfl, rfl, .nil⟩
  | cons field rest ih =>
    intro plan h
    rw [projectFields] at h
    obtain ⟨column, hcolumn, h⟩ := bind_eq_ok.mp h
    obtain ⟨more, hmore, h⟩ := bind_eq_ok.mp h
    cases h
    obtain ⟨hjoins, hrelations, hfields, hitems⟩ := ih hmore
    refine ⟨hjoins, hrelations, ?_, .cons ⟨column, hcolumn, rfl⟩ hitems⟩
    rw [List.map_cons, ← hfields]
    rfl

/-- What an inclusion returns: nothing where it is not asked to, all columns where no field
is known, and else the fields that it asks for. -/
inductive Returns (i : Inclusion) (schema : Schema) (model aliasName : String)
    (path : List String) : JoinPlan → Prop where
  | nothing : i.projects = false → Returns i schema model aliasName path {}
  | star : i.projects = true → i.wantedFields schema model = .ok [] →
      Returns i schema model aliasName path { items := [.star (some aliasName)] }
  | fields {wanted : List String} {items : List SelectItem} : i.projects = true →
      i.wantedFields schema model = .ok wanted → wanted ≠ [] →
      List.Forall₂
        (fun field item => ∃ column, schema.column model field = .ok column ∧
          item = .column ⟨some aliasName, column⟩ (some (aliasName ++ "_" ++ field)))
        wanted items →
      Returns i schema model aliasName path
        { items, fields := wanted.map
            (fun field => { column := aliasName ++ "_" ++ field, path, field }) }

/-- An inclusion returns nothing, all columns or the fields that are wanted. -/
theorem returns_of_project {i : Inclusion} {schema : Schema} {model aliasName : String}
    {path : List String} {plan : JoinPlan}
    (h : i.project schema model aliasName path = .ok plan) :
    i.Returns schema model aliasName path plan := by
  unfold project at h
  split at h
  next hprojects =>
    obtain ⟨wanted, hwanted, h⟩ := bind_eq_ok.mp h
    split at h
    next hnone =>
      cases h
      exact .star hprojects (by rw [hwanted, List.isEmpty_iff.mp hnone])
    next hsome =>
      obtain ⟨hjoins, hrelations, hfields, hitems⟩ := projectFields_spec h
      obtain ⟨joins, items, fields, relations⟩ := plan
      cases hjoins
      cases hrelations
      cases hfields
      exact .fields hprojects hwanted (fun hnil => hsome (List.isEmpty_iff.mpr hnil)) hitems
  next hprojects =>
    cases h
    exact .nothing (by simpa using hprojects)

end Inclusion

/-- What a node returns is what its inclusion asks for. -/
theorem JoinNode.Compiled.returns {env : Env} {n : JoinNode} (h : n.Compiled env) :
    n.inclusion.Returns env.schema n.relation.toModel n.join.aliasName n.path n.returned :=
  Inclusion.returns_of_project h.returned_eq

/-- What an inclusion returns joins nothing and announces no relation. -/
theorem Inclusion.Returns.joins_eq {i : Inclusion} {schema : Schema} {model aliasName : String}
    {path : List String} {plan : JoinPlan} (h : i.Returns schema model aliasName path plan) :
    plan.joins = [] ∧ plan.relations = [] := by
  cases h <;> exact ⟨rfl, rfl⟩

/-- Whatever an inclusion returns, its mapping is that of some fields that it asks for, and its
items are theirs, unless they are all columns together. -/
theorem Inclusion.Returns.spec {i : Inclusion} {schema : Schema} {model aliasName : String}
    {path : List String} {plan : JoinPlan} (h : i.Returns schema model aliasName path plan) :
    ∃ wanted, (wanted = [] ∨ i.wantedFields schema model = .ok wanted) ∧
      plan.fields = wanted.map
        (fun field => { column := aliasName ++ "_" ++ field, path, field }) ∧
      (plan.items = [.star (some aliasName)] ∨
        List.Forall₂
          (fun field item => ∃ column, schema.column model field = .ok column ∧
            item = .column ⟨some aliasName, column⟩ (some (aliasName ++ "_" ++ field)))
          wanted plan.items) := by
  cases h with
  | nothing _ => exact ⟨[], Or.inl rfl, rfl, Or.inr .nil⟩
  | star _ _ => exact ⟨[], Or.inl rfl, rfl, Or.inl rfl⟩
  | @fields wanted _ _ hwanted _ hitems => exact ⟨wanted, Or.inr hwanted, rfl, Or.inr hitems⟩

/-- The first node adds its join, and what it returns, before the others do. -/
theorem planOf_cons {env : Env} {n : JoinNode} (h : n.Compiled env) (rest : List JoinNode) :
    planOf (n :: rest) = n.plan ++ planOf rest := by
  obtain ⟨hjoins, hrelations⟩ := h.returns.joins_eq
  have hown : planOf [n] = n.plan := by
    show planOf [n] = JoinPlan.append _ n.returned
    rw [JoinPlan.append, hjoins, hrelations]
    simp [planOf]
  rw [← hown, ← planOf_append]
  rfl

namespace Inclusion

/-- An inclusion's own plan is that of its node. -/
theorem node_of_compileOwn {i : Inclusion} {env : Env} {parent : JoinParent}
    {used : List String} {own : JoinPlan} {here : JoinParent}
    (h : i.compileOwn env parent used = .ok (own, here)) :
    ∃ n : JoinNode, n.inclusion = i ∧ n.parent = parent ∧ n.used = used ∧ n.Compiled env ∧
      own = n.plan ∧ here = n.here := by
  unfold compileOwn at h
  obtain ⟨relation, hrelation, h⟩ := bind_eq_ok.mp h
  obtain ⟨table, htable, h⟩ := bind_eq_ok.mp h
  obtain ⟨equalities, hequalities, h⟩ := bind_eq_ok.mp h
  obtain ⟨filter, hfilter, h⟩ := bind_eq_ok.mp h
  obtain ⟨returned, hreturned, h⟩ := bind_eq_ok.mp h
  cases h
  have hrelation := Refusal.of_eq_ok.mp hrelation
  let j : Join :=
    { table, aliasName := freshAlias used (parent.aliasName ++ "_" ++ relation.name)
      on := .all (equalities.map .atom ++ filter.toList) }
  refine ⟨{ inclusion := i, parent, used, relation, join := j, returned }, rfl, rfl, rfl, ?_,
    rfl, rfl⟩
  exact
    { relation_eq := hrelation
      table_eq := Refusal.of_eq_ok.mp htable
      alias_eq := rfl
      joined := ⟨equalities, filter, rfl, hrelation, Refusal.of_eq_ok.mp hequalities, hfilter, rfl⟩
      returned_eq := Refusal.of_eq_ok.mp (Refusal.after_eq_ok.mp hreturned) }

mutual

/-- What an inclusion is compiled to is what its nodes add. -/
theorem joinedAs_of_compile (env : Env) :
    ∀ (i : Inclusion) (parent : JoinParent) (depth : Nat) (used : List String)
      (out : JoinPlan × List String), compile env parent depth used i = .ok out →
        ∃ nodes, JoinedAs env parent used i nodes ∧ out = (planOf nodes, usedAfter used nodes)
  | ⟨relation, query, projects, nested⟩, parent, depth, used, out, h => by
    rw [compile] at h
    split at h
    next => cases h
    next =>
      obtain ⟨⟨own, here⟩, hown, h⟩ := bind_eq_ok.mp h
      obtain ⟨below, hbelow, h⟩ := bind_eq_ok.mp h
      cases h
      obtain ⟨n, hi, hparent, hused, hn, rfl, rfl⟩ := node_of_compileOwn hown
      obtain ⟨nodes, hnodes, rfl⟩ :=
        allJoinedAs_of_compileAll env nested n.here _ _ _ (Refusal.after_eq_ok.mp hbelow)
      refine ⟨n :: nodes, .mk hparent hused hi hn hnodes, ?_⟩
      rw [planOf_cons hn, usedAfter_cons]
      rfl

/-- What some inclusions are compiled to is what their nodes add. -/
theorem allJoinedAs_of_compileAll (env : Env) :
    ∀ (is : List Inclusion) (parent : JoinParent) (depth : Nat) (used : List String)
      (out : JoinPlan × List String), compileAll env parent depth used is = .ok out →
        ∃ nodes, AllJoinedAs env parent used is nodes ∧
          out = (planOf nodes, usedAfter used nodes)
  | [], parent, depth, used, out, h => by
    rw [compileAll] at h
    cases h
    exact ⟨[], .nil, rfl⟩
  | i :: rest, parent, depth, used, out, h => by
    rw [compileAll] at h
    obtain ⟨first, hfirst, h⟩ := bind_eq_ok.mp h
    obtain ⟨more, hmore, h⟩ := bind_eq_ok.mp h
    cases h
    obtain ⟨nodes, hnodes, rfl⟩ := joinedAs_of_compile env i parent depth used _ hfirst
    obtain ⟨others, hothers, rfl⟩ :=
      allJoinedAs_of_compileAll env rest parent depth _ _ (Refusal.after_eq_ok.mp hmore)
    refine ⟨nodes ++ others, .cons hnodes hothers, ?_⟩
    rw [planOf_append, usedAfter_append]

end

/-- The joins of a query are those of its nodes, which hang on the root. -/
theorem allJoinedAs_of_compileJoins {env : Env} {model aliasName : String}
    {inclusions : List Inclusion} {plan : JoinPlan}
    (h : compileJoins env model aliasName inclusions = .ok plan) :
    ∃ nodes, AllJoinedAs env { model, aliasName } [aliasName] inclusions nodes ∧
      plan = planOf nodes := by
  unfold compileJoins at h
  obtain ⟨out, hout, h⟩ := bind_eq_ok.mp h
  cases h
  obtain ⟨nodes, hnodes, rfl⟩ := allJoinedAs_of_compileAll env inclusions _ _ _ _ hout
  exact ⟨nodes, hnodes, rfl⟩

/-! ## What holds of all nodes -/

mutual

/-- Every node is what its inclusion is compiled to, after all nodes before it. -/
theorem JoinedAs.spec {env : Env} :
    ∀ {i : Inclusion} {parent : JoinParent} {used : List String} {nodes : List JoinNode},
      JoinedAs env parent used i nodes → InUse used nodes ∧ ∀ n ∈ nodes, n.Compiled env
  | ⟨_, _, _, nested⟩, _, _, _, .mk _ hused _ hn hbelow => by
    obtain ⟨hinUse, hnodes⟩ := hbelow.spec
    exact ⟨⟨hused, hinUse⟩, List.forall_mem_cons.mpr ⟨hn, hnodes⟩⟩

/-- In a forest every node is compiled, and knows the aliases of those before it. -/
theorem AllJoinedAs.spec {env : Env} :
    ∀ {is : List Inclusion} {parent : JoinParent} {used : List String} {nodes : List JoinNode},
      AllJoinedAs env parent used is nodes → InUse used nodes ∧ ∀ n ∈ nodes, n.Compiled env
  | _, _, _, _, .nil => ⟨trivial, fun _ h => absurd h (List.not_mem_nil)⟩
  | _, _, _, _, .cons hfirst hrest => by
    obtain ⟨hinUse, hnodes⟩ := hfirst.spec
    obtain ⟨hmoreInUse, hmore⟩ := hrest.spec
    exact ⟨inUse_append.mpr ⟨hinUse, hmoreInUse⟩, List.forall_mem_append.mpr ⟨hnodes, hmore⟩⟩

end

mutual

/-- What a node hangs on was chosen before its own alias. -/
theorem JoinedAs.parent_mem {env : Env} :
    ∀ {i : Inclusion} {parent : JoinParent} {used : List String} {nodes : List JoinNode},
      JoinedAs env parent used i nodes → parent.aliasName ∈ used →
        ∀ n ∈ nodes, n.parent.aliasName ∈ n.used
  | ⟨_, _, _, nested⟩, _, _, _, .mk hparent hused _ _ hbelow, hmem => by
    refine List.forall_mem_cons.mpr ⟨?_, hbelow.parent_mem (List.mem_cons_self ..)⟩
    rw [hparent, hused]
    exact hmem

theorem AllJoinedAs.parent_mem {env : Env} :
    ∀ {is : List Inclusion} {parent : JoinParent} {used : List String} {nodes : List JoinNode},
      AllJoinedAs env parent used is nodes → parent.aliasName ∈ used →
        ∀ n ∈ nodes, n.parent.aliasName ∈ n.used
  | _, _, _, _, .nil, _ => fun _ h => absurd h List.not_mem_nil
  | _, _, _, _, .cons hfirst hrest, hmem =>
    List.forall_mem_append.mpr
      ⟨hfirst.parent_mem hmem, hrest.parent_mem (subset_usedAfter _ _ hmem)⟩

end

mutual

/-- There is one node for every inclusion, in pre-order. -/
theorem JoinedAs.inclusions {env : Env} :
    ∀ {i : Inclusion} {parent : JoinParent} {used : List String} {nodes : List JoinNode},
      JoinedAs env parent used i nodes → nodes.map (·.inclusion) = i.preorder
  | ⟨_, _, _, nested⟩, _, _, _, .mk _ _ hi _ hbelow => by
    rw [List.map_cons, hi, hbelow.inclusions, preorder]

theorem AllJoinedAs.inclusions {env : Env} :
    ∀ {is : List Inclusion} {parent : JoinParent} {used : List String} {nodes : List JoinNode},
      AllJoinedAs env parent used is nodes → nodes.map (·.inclusion) = preorderOf is
  | _, _, _, _, .nil => by rw [List.map_nil, preorderOf]
  | _, _, _, _, .cons hfirst hrest => by
    rw [List.map_append, hfirst.inclusions, hrest.inclusions, preorderOf]

end

/-- Without inclusions there are no nodes, and only then. -/
theorem AllJoinedAs.nodes_eq_nil {env : Env} {parent : JoinParent} {used : List String}
    {is : List Inclusion} {nodes : List JoinNode} (h : AllJoinedAs env parent used is nodes) :
    nodes = [] ↔ is = [] := by
  cases h with
  | nil => simp
  | cons hfirst _ =>
    cases hfirst
    simp

/-- An inclusion with nothing below it has one node, which hangs where the inclusion does. -/
theorem JoinedAs.leaf {env : Env} {parent : JoinParent} {used : List String} {i : Inclusion}
    {nodes : List JoinNode} (h : JoinedAs env parent used i nodes) (hleaf : i.nested = []) :
    ∃ n, nodes = [n] ∧ n.parent = parent ∧ n.used = used ∧ n.inclusion = i ∧ n.Compiled env := by
  cases h with
  | @mk _ _ _ n below hparent hused hinclusion hn hbelow =>
    obtain rfl : below = [] := hbelow.nodes_eq_nil.mpr hleaf
    exact ⟨n, rfl, hparent, hused, hinclusion, hn⟩

/-- The node of an inclusion that is the only one. -/
theorem AllJoinedAs.single {env : Env} {parent : JoinParent} {used : List String} {i : Inclusion}
    {nodes : List JoinNode} (h : AllJoinedAs env parent used [i] nodes) (hleaf : i.nested = []) :
    ∃ n, nodes = [n] ∧ n.parent = parent ∧ n.used = used ∧ n.inclusion = i ∧ n.Compiled env := by
  cases h with
  | cons hfirst hrest =>
    cases hrest
    obtain ⟨n, rfl, hn⟩ := hfirst.leaf hleaf
    exact ⟨n, rfl, hn⟩

section

variable {env : Env} {root : JoinParent} {is : List Inclusion} {nodes : List JoinNode}

/-- The aliases of a forest differ from each other and from that of its root. -/
theorem AllJoinedAs.nodup (h : AllJoinedAs env root [root.aliasName] is nodes) :
    (root.aliasName :: nodes.map (·.join.aliasName)).Nodup := by
  obtain ⟨hinUse, hcompiled⟩ := h.spec
  have hnodup := nodup_aliases (List.nodup_singleton _) hinUse hcompiled
  rwa [usedAfter_singleton, List.nodup_reverse] at hnodup

/-- A node of a forest hangs on the root or on a node before it. -/
theorem AllJoinedAs.parent_declared (h : AllJoinedAs env root [root.aliasName] is nodes)
    {before after : List JoinNode} {n : JoinNode} (hsplit : nodes = before ++ n :: after) :
    n.parent.aliasName ∈ root.aliasName :: before.map (·.join.aliasName) := by
  have hinUse := h.spec.1
  have hmem := h.parent_mem (List.mem_singleton_self _) n (by simp [hsplit])
  rw [hsplit] at hinUse
  rwa [(inUse_append.mp hinUse).2.1, usedAfter_singleton, List.mem_reverse] at hmem

end

end Inclusion

end SqlQuery
