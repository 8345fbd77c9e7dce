import SqlQuery.Compile.Parameters
import SqlQuery.Proofs.Compile.JoinNode
import SqlQuery.Proofs.Sql.JoinText

/-!
# Joins in the order of the inclusions

Rows come back flat, and whoever folds them again counts on positions: the relation at some
position of the mapping is the one whose join stands at the same position of the statement, and
both are of the inclusion that a walk through the forest reaches at that position. `Inclusion.walk`
is this walk, on the forest alone: it goes to an inclusion before it goes to those below, and to
siblings in order, and it notes at every stop the position of the inclusion above and the names on
the way from the root.

A `JoinEntry` is what stands in the texts and in the mapping for one inclusion, and
`JoinEntry.MadeAt` says what it is made of: its join ties the table of its relation to the entry
of the inclusion above, under an alias that no entry before it has, and it returns what its
inclusion asks for.

> `joins_in_order`: the joins that a forest is compiled to are one entry for every stop.
-/

namespace SqlQuery

open Sql

/-! ## A walk through a forest -/

/-- A stop of a walk: an inclusion, the position in the walk of the one above it, if there is one,
and the names of the relations that lead to it. -/
structure Stop where
  inclusion : Inclusion
  above : Option Nat
  path : List String

namespace Inclusion

mutual

/-- The walk through a tree of inclusions from the position `start` on. -/
def walk (above : Option Nat) (path : List String) (start : Nat) : Inclusion → List Stop
  | ⟨relation, query, projects, nested⟩ =>
    ⟨⟨relation, query, projects, nested⟩, above, path ++ [relation]⟩
      :: walkAll (some start) (path ++ [relation]) (start + 1) nested

/-- The walk through some trees, one after the other. -/
def walkAll (above : Option Nat) (path : List String) (start : Nat) : List Inclusion → List Stop
  | [] => []
  | i :: rest =>
    walk above path start i ++ walkAll above path (start + (preorder i).length) rest

end

mutual

/-- The walk stops once at every inclusion, in pre-order. -/
theorem walk_inclusions (above : Option Nat) :
    ∀ (i : Inclusion) (path : List String) (start : Nat),
      (walk above path start i).map (·.inclusion) = preorder i
  | ⟨relation, query, projects, nested⟩, path, start => by
    rw [walk, preorder, List.map_cons, walkAll_inclusions]

/-- A walk through some trees meets their inclusions in pre-order. -/
theorem walkAll_inclusions (above : Option Nat) :
    ∀ (is : List Inclusion) (path : List String) (start : Nat),
      (walkAll above path start is).map (·.inclusion) = preorderOf is
  | [], path, start => by rw [walkAll, preorderOf, List.map_nil]
  | i :: rest, path, start => by
    rw [walkAll, preorderOf, List.map_append, walk_inclusions, walkAll_inclusions]

end

/-- The fields that the inclusion asks for of a model: those it selects, else all declared ones. -/
def asked (i : Inclusion) (target : Model) : List String :=
  match i.query with
  | some q => if q.selection.isEmpty then target.fieldNames else q.selection
  | none => target.fieldNames

end Inclusion

/-! ## Entries -/

/-- What stands for one inclusion: its relation, what it hangs on, the text of its join, its place
in the mapping, and the texts and the mapping of what it returns. -/
structure JoinEntry where
  parent : JoinParent
  relation : Relation
  join : String
  mapping : RelationMapping
  items : List String
  fields : List FieldMapping

namespace JoinEntry

/-- What the entries below this one hang on. -/
def here (e : JoinEntry) : JoinParent :=
  { model := e.relation.toModel, aliasName := e.mapping.aliasName, path := e.mapping.path }

/-- The entry hangs on the one at a position before it, or on the root. -/
def HangsOn (root : JoinParent) (before : List JoinEntry) (above : Option Nat) (e : JoinEntry) :
    Prop :=
  match above with
  | none => e.parent = root
  | some k => ∃ m, before[k]? = some m ∧ e.parent = m.here

end JoinEntry

/-- An alias is the candidate, or where that is in use the candidate with the smallest number from
2 that makes it another one than those in use. -/
def FirstFree (used : List String) (candidate aliasName : String) : Prop :=
  if candidate ∈ used then
    ∃ n, 2 ≤ n ∧ aliasName = numbered candidate n ∧ numbered candidate n ∉ used ∧
      ∀ m, 2 ≤ m → m < n → numbered candidate m ∈ used
  else aliasName = candidate

namespace JoinEntry

/-- The text of a join: the table of the relation, one equality for every pair of fields, and the
filter of the inclusion behind them. -/
structure Joins (env : Env) (d : Dialect) (i : Inclusion) (target : Model) (e : JoinEntry)
    (columns : List (String × String)) (filter : Option Predicate) : Prop where
  paired : e.relation.fromFields.length = e.relation.toFields.length
  some_pair : e.relation.fromFields ≠ []
  columns_eq : List.Forall₂
    (fun fields columns => env.schema.column e.parent.model fields.1 = .ok columns.1 ∧
      target.column fields.2 = .ok columns.2)
    (e.relation.fromFields.zip e.relation.toFields) columns
  filter_eq : i.compileFilter env e.relation.toModel e.mapping.aliasName = .ok filter
  text_eq : ∃ bound, e.join
    = "LEFT JOIN " ++ d.quoteName target.table ++ " AS " ++ d.quoteName e.mapping.aliasName
      ++ " ON "
      ++ " AND ".intercalate
          (columns.map (equalityText d e.mapping.aliasName e.parent.aliasName))
      ++ andText d bound filter

/-- What an entry returns: nothing where the inclusion is not to return anything, all columns
where no field is known, and else an item and a place in the mapping for every field. -/
structure Shows (d : Dialect) (i : Inclusion) (target : Model) (e : JoinEntry) : Prop where
  hidden : i.projects = false → e.items = [] ∧ e.fields = []
  star : i.projects = true → i.asked target = [] →
    e.items = [d.quoteName e.mapping.aliasName ++ ".*"] ∧ e.fields = []
  shown : i.projects = true → i.asked target ≠ [] →
    List.Forall₂
      (fun field item => ∃ column, target.column field = .ok column ∧
        item = columnText d e.mapping.aliasName column ++ " AS "
          ++ d.quoteName (e.mapping.aliasName ++ "_" ++ field))
      (i.asked target) e.items ∧
    e.fields = (i.asked target).map fun field =>
      { column := e.mapping.aliasName ++ "_" ++ field, path := e.mapping.path, field }

/-- What the entry of a stop is made of, behind the entries of the stops before. -/
structure MadeAt (env : Env) (d : Dialect) (root : JoinParent) (before : List JoinEntry)
    (stop : Stop) (e : JoinEntry) : Prop where
  hangs : e.HangsOn root before stop.above
  relation_eq : env.schema.relation e.parent.model stop.inclusion.relation = .ok e.relation
  path_eq : e.mapping.path = stop.path
  many_iff : e.mapping.many = true ↔ e.relation.kind = .oneToMany
  alias_free : FirstFree (root.aliasName :: before.map (·.mapping.aliasName))
    (e.parent.aliasName ++ "_" ++ stop.inclusion.relation) e.mapping.aliasName
  target : ∃ target, env.schema.model e.relation.toModel = .ok target ∧
    (∃ columns filter, e.Joins env d stop.inclusion target columns filter) ∧
    e.Shows d stop.inclusion target

end JoinEntry

/-! ## Nodes along the walk -/

theorem Model.relation_name {m : Model} {name : String} {r : Relation}
    (h : m.relation name = .ok r) : r.name = name := by
  unfold Model.relation at h
  split at h
  next found hfound =>
    cases h
    simpa using List.find?_some hfound
  next => cases h

/-- A relation of a model is found under its own name. -/
theorem Schema.relation_name {s : Schema} {model name : String} {r : Relation}
    (h : s.relation model name = .ok r) : r.name = name := by
  obtain ⟨m, -, hm⟩ := bind_eq_ok.mp h
  exact Model.relation_name hm

/-- A schema leaves the column of a field to its model. -/
theorem Schema.column_of_model {s : Schema} {model : String} {m : Model}
    (h : s.model model = .ok m) (field : String) : s.column model field = m.column field := by
  rw [Schema.column, h]
  rfl

namespace JoinNode

/-- What the inclusions below a position hang on: the node there, or the root. -/
def Above (root : JoinParent) (before : List JoinNode) (above : Option Nat) (parent : JoinParent) :
    Prop :=
  match above with
  | none => parent = root
  | some k => ∃ m, before[k]? = some m ∧ parent = m.here

/-- Nodes that come later change nothing about what a stop hangs on. -/
theorem Above.append {root parent : JoinParent} {before : List JoinNode} {above : Option Nat}
    (h : Above root before above parent) (more : List JoinNode) :
    Above root (before ++ more) above parent := by
  cases above with
  | none => exact h
  | some k =>
    obtain ⟨m, hm, hparent⟩ := h
    have hk : k < before.length := (List.getElem?_eq_some_iff.mp hm).1
    exact ⟨m, by rwa [List.getElem?_append_left hk], hparent⟩

/-- A node is that of a stop, behind the nodes of the stops before. -/
structure IsAt (root : JoinParent) (before : List JoinNode) (stop : Stop) (n : JoinNode) :
    Prop where
  inclusion_eq : n.inclusion = stop.inclusion
  path_eq : n.path = stop.path
  above : Above root before stop.above n.parent

end JoinNode

/-- The nodes are those of the stops of a walk, one by one, behind those of the stops before. -/
inductive Follows (root : JoinParent) : List JoinNode → List Stop → List JoinNode → Prop where
  | nil {before : List JoinNode} : Follows root before [] []
  | cons {before : List JoinNode} {stop : Stop} {stops : List Stop} {n : JoinNode}
      {nodes : List JoinNode} : n.IsAt root before stop → Follows root (before ++ [n]) stops nodes →
      Follows root before (stop :: stops) (n :: nodes)

namespace Follows

variable {root : JoinParent} {before nodes more : List JoinNode} {stops later : List Stop}

/-- A walk that goes on follows the nodes that come after. -/
theorem append (h : Follows root before stops nodes)
    (hmore : Follows root (before ++ nodes) later more) :
    Follows root before (stops ++ later) (nodes ++ more) := by
  induction h with
  | nil => simpa using hmore
  | cons hn _ ih =>
    refine .cons hn (ih ?_)
    rwa [List.append_assoc, List.singleton_append]

theorem length_eq (h : Follows root before stops nodes) : nodes.length = stops.length := by
  induction h with
  | nil => rfl
  | cons _ _ ih => rw [List.length_cons, List.length_cons, ih]

/-- At the position of a stop stands its node. -/
theorem isAt (h : Follows root before stops nodes) :
    ∀ {k : Nat} {stop : Stop} {n : JoinNode}, stops[k]? = some stop → nodes[k]? = some n →
      n.IsAt root (before ++ nodes.take k) stop := by
  induction h with
  | nil => intro k stop n hstop; simp at hstop
  | cons hn _ ih =>
    intro k stop n hstop hnode
    cases k with
    | zero =>
      cases hstop
      cases hnode
      simpa using hn
    | succ k =>
      have hrest := ih (k := k) (by simpa using hstop) (by simpa using hnode)
      rwa [List.append_assoc, List.singleton_append, ← List.take_succ_cons] at hrest

end Follows

namespace Inclusion

mutual

/-- The nodes of a tree follow the walk through it. -/
theorem JoinedAs.follows {env : Env} {root : JoinParent} :
    ∀ {i : Inclusion} {parent : JoinParent} {used : List String} {nodes : List JoinNode},
      JoinedAs env parent used i nodes → ∀ {before : List JoinNode} {above : Option Nat},
        JoinNode.Above root before above parent →
          Follows root before (walk above parent.path before.length i) nodes
  | ⟨relation, query, projects, nested⟩, parent, _, n :: below, .mk hparent _ hi hn hbelow,
      before, above, habove => by
    have hname : n.relation.name = relation := by
      rw [Schema.relation_name hn.relation_eq, hi]
    have hpath : n.path = parent.path ++ [relation] := by rw [JoinNode.path, hparent, hname]
    have hhere : JoinNode.Above root (before ++ [n]) (some before.length) n.here :=
      ⟨n, by simp, rfl⟩
    -- the node stands at the end of those before, and those below hang on it there
    have hfollows : Follows root (before ++ [n])
        (walkAll (some before.length) n.path (before ++ [n]).length nested) below :=
      hbelow.follows hhere
    rw [hpath, List.length_append, List.length_singleton] at hfollows
    rw [walk]
    exact .cons ⟨hi, hpath, by rwa [hparent]⟩ hfollows

/-- The nodes of some trees follow the walk through them. -/
theorem AllJoinedAs.follows {env : Env} {root : JoinParent} :
    ∀ {is : List Inclusion} {parent : JoinParent} {used : List String} {nodes : List JoinNode},
      AllJoinedAs env parent used is nodes → ∀ {before : List JoinNode} {above : Option Nat},
        JoinNode.Above root before above parent →
          Follows root before (walkAll above parent.path before.length is) nodes
  | _, _, _, _, .nil, before, above, _ => by
    rw [walkAll]
    exact .nil
  | i :: rest, parent, _, _, @AllJoinedAs.cons _ _ _ _ _ nodes _ hfirst hrest, before, above,
      habove => by
    -- the walk through the others starts as far on as the first tree has nodes
    have hcount : nodes.length = (preorder i).length := by
      rw [← hfirst.inclusions, List.length_map]
    have hfollows := hrest.follows (habove.append nodes)
    rw [List.length_append, hcount] at hfollows
    rw [walkAll]
    exact (hfirst.follows habove).append hfollows

end

end Inclusion

/-! ## From nodes to entries -/

/-- The alias that is chosen is the first that is free among those in use, in whatever order they
are listed. -/
theorem firstFree_freshAlias {used chosen : List String} (h : ∀ a, a ∈ used ↔ a ∈ chosen)
    (candidate : String) : FirstFree chosen candidate (freshAlias used candidate) := by
  unfold FirstFree
  by_cases hmem : candidate ∈ used
  · obtain ⟨n, hn, heq, hfree, hsmaller⟩ := freshAlias_of_mem hmem
    rw [if_pos ((h _).mp hmem)]
    refine ⟨n, (List.mem_range'_1.mp hn).1, heq, fun hc => hfree ((h _).mpr hc), ?_⟩
    intro m hm hlt
    exact (h _).mp (hsmaller m hm hlt)
  · rw [if_neg (fun hc => hmem ((h _).mpr hc)), freshAlias_of_not_mem hmem]

/-- What an inclusion returns, by the fields that it asks for. -/
theorem Inclusion.Returns.of_wanted {i : Inclusion} {schema : Schema} {model aliasName : String}
    {path wanted : List String} {plan : JoinPlan}
    (h : i.Returns schema model aliasName path plan)
    (hwanted : i.wantedFields schema model = .ok wanted) :
    (i.projects = false → plan.items = [] ∧ plan.fields = []) ∧
      (i.projects = true → wanted = [] →
        plan.items = [.star (some aliasName)] ∧ plan.fields = []) ∧
      (i.projects = true → wanted ≠ [] →
        List.Forall₂
          (fun field item => ∃ column, schema.column model field = .ok column ∧
            item = .column ⟨some aliasName, column⟩ (some (aliasName ++ "_" ++ field)))
          wanted plan.items ∧
        plan.fields = wanted.map
          (fun field => { column := aliasName ++ "_" ++ field, path, field })) := by
  cases h with
  | nothing hprojects => simp [hprojects]
  | star hprojects hnone =>
    cases hwanted.symm.trans hnone
    simp [hprojects]
  | fields hprojects hfields hne hitems =>
    cases hwanted.symm.trans hfields
    simp [hprojects, hne, hitems]

/-- Equalities for pairs of fields are those of the columns of the pairs. -/
theorem exists_columns_of_pairs {schema : Schema} {parent : JoinParent} {model aliasName : String}
    {target : Model} (htarget : schema.model model = .ok target)
    {pairs : List (String × String)} {equalities : List Atom}
    (h : List.Forall₂ (Pairs schema parent model aliasName) pairs equalities) :
    ∃ columns : List (String × String),
      List.Forall₂
        (fun fields columns => schema.column parent.model fields.1 = .ok columns.1 ∧
          target.column fields.2 = .ok columns.2) pairs columns ∧
      equalities.map Predicate.atom = columns.map (equality aliasName parent.aliasName) := by
  induction h with
  | nil => exact ⟨[], .nil, rfl⟩
  | @cons pair e pairs equalities hpair _ ih =>
    obtain ⟨a, b, ha, hb, rfl⟩ := hpair
    obtain ⟨columns, hcolumns, hrest⟩ := ih
    have hb' : target.column pair.2 = .ok b := by rwa [← Schema.column_of_model htarget]
    refine ⟨(a, b) :: columns, .cons ⟨ha, hb'⟩ hcolumns, ?_⟩
    rw [List.map_cons, List.map_cons, hrest]
    rfl

namespace JoinNode

/-- The entry of a node whose join has the given text; `bound` is how many values stand before
the items. -/
def entry (d : Dialect) (bound : Nat) (n : JoinNode) (join : String) : JoinEntry :=
  { parent := n.parent, relation := n.relation, join, mapping := n.mapping
    items := n.returned.items.map fun i => d.render bound (i.tokens (α := Value))
    fields := n.returned.fields }

variable {env : Env} {n : JoinNode}

/-- The columns of the equalities of a node, pair by pair. -/
theorem Compiled.exists_columns (h : n.Compiled env) {target : Model}
    (htarget : env.schema.model n.relation.toModel = .ok target) :
    ∃ columns filter, columns ≠ [] ∧
      List.Forall₂
        (fun fields columns => env.schema.column n.parent.model fields.1 = .ok columns.1 ∧
          target.column fields.2 = .ok columns.2)
        (n.relation.fromFields.zip n.relation.toFields) columns ∧
      n.inclusion.compileFilter env n.relation.toModel n.join.aliasName = .ok filter ∧
      n.join.on = .all (columns.map (equality n.join.aliasName n.parent.aliasName)
        ++ filter.toList) := by
  obtain ⟨equalities, filter, hjoined⟩ := h.joined
  obtain ⟨hsome, hpairs⟩ := relationEqualities_spec hjoined.equalities_eq
  obtain ⟨columns, hcolumns, hequalities⟩ := exists_columns_of_pairs htarget hpairs
  refine ⟨columns, filter, ?_, hcolumns, hjoined.filter_eq, by rw [hjoined.on_eq, hequalities]⟩
  rintro rfl
  exact hsome (List.map_eq_nil_iff.mp hequalities)

/-- The join of an entry is made of what its node was compiled to. -/
theorem Compiled.joins (h : n.Compiled env) {target : Model}
    (htarget : env.schema.model n.relation.toModel = .ok target) (d : Dialect) (items : Nat)
    {join : String} (hjoin : ∃ bound, join = d.render bound (n.join.tokens d)) :
    ∃ columns filter, (n.entry d items join).Joins env d n.inclusion target columns filter := by
  obtain ⟨equalities, _, hjoined⟩ := h.joined
  obtain ⟨hlength, hsome⟩ := paired_of_relationEqualities hjoined.equalities_eq
  obtain ⟨columns, filter, hne, hcolumns, hfilter, hon⟩ := h.exists_columns htarget
  obtain ⟨bound, rfl⟩ := hjoin
  have htable : n.join.table = target.table := by
    have heq := h.table_eq
    rw [Schema.table, htarget] at heq
    exact (Except.ok.inj heq).symm
  have hfits := (Inclusion.compileFilter_spec hfilter).fits
  refine ⟨columns, filter, hlength, hsome, hcolumns, hfilter, bound, ?_⟩
  rw [← htable]
  exact Join.render_tokens d bound hon hne hfits

/-- An entry returns what its node returns. -/
theorem Compiled.shows (h : n.Compiled env) {target : Model}
    (htarget : env.schema.model n.relation.toModel = .ok target) (d : Dialect) (bound : Nat)
    (join : String) : (n.entry d bound join).Shows d n.inclusion target := by
  have hwanted : n.inclusion.wantedFields env.schema n.relation.toModel
      = .ok (n.inclusion.asked target) := by
    unfold Inclusion.wantedFields Inclusion.asked
    rw [Schema.fieldNames, htarget]
    cases n.inclusion.query with
    | none => rfl
    | some q => cases hselection : q.selection.isEmpty <;> simp [hselection]
  obtain ⟨hhidden, hstar, hshown⟩ := h.returns.of_wanted hwanted
  refine ⟨?_, ?_, ?_⟩
  · intro hprojects
    obtain ⟨hitems, hfields⟩ := hhidden hprojects
    exact ⟨by simp [entry, hitems], hfields⟩
  · intro hprojects hnone
    obtain ⟨hitems, hfields⟩ := hstar hprojects hnone
    refine ⟨?_, hfields⟩
    rw [entry, hitems, List.map_singleton, SelectItem.render_star]
    rfl
  · intro hprojects hsome
    obtain ⟨hitems, hfields⟩ := hshown hprojects hsome
    refine ⟨?_, hfields⟩
    show List.Forall₂ _ _ (n.returned.items.map _)
    rw [List.forall₂_map_right_iff]
    refine hitems.imp fun field item hitem => ?_
    obtain ⟨column, hfound, rfl⟩ := hitem
    exact ⟨column, by rwa [← Schema.column_of_model htarget],
      SelectItem.render_column d bound _ _ _⟩

end JoinNode

/-! ## Texts one after the other -/

namespace Parameters

/-- Every fragment is written behind some values, and the texts keep its order. -/
theorem writeAll_spec (fs : List (Fragment Value)) (p : Parameters) :
    List.Forall₂ (fun f text => ∃ bound, text = p.dialect.render bound f) fs (p.writeAll fs).1 ∧
      (p.writeAll fs).2.dialect = p.dialect := by
  induction fs generalizing p with
  | nil => exact ⟨.nil, rfl⟩
  | cons f rest ih =>
    obtain ⟨htexts, hdialect⟩ := ih (p.bindAll (slots f))
    exact ⟨.cons ⟨p.bound.length, rfl⟩ htexts, hdialect⟩

/-- Fragments that bind nothing are all written behind the same values. -/
theorem writeAll_of_no_slots (p : Parameters) {fs : List (Fragment Value)}
    (h : ∀ f ∈ fs, slots f = []) :
    (p.writeAll fs).1 = fs.map (p.dialect.render p.bound.length) := by
  induction fs with
  | nil => rfl
  | cons f rest ih =>
    have hsame : p.bindAll (slots f) = p := by
      rw [h f (List.mem_cons_self ..), bindAll, List.append_nil]
    have hrest := ih fun g hg => h g (List.mem_cons_of_mem _ hg)
    show p.dialect.render p.bound.length f :: ((p.bindAll (slots f)).writeAll rest).1 = _
    rw [hsame, hrest, List.map_cons]

end Parameters

/-- The entries of some nodes and the texts of their joins. -/
def entriesOf (d : Dialect) (bound : Nat) (nodes : List JoinNode) (joins : List String) :
    List JoinEntry :=
  List.zipWith (JoinNode.entry d bound) nodes joins

section

variable {d : Dialect} {bound : Nat} {nodes : List JoinNode} {joins : List String}

/-- The entries hold the texts, and what the nodes add to the selection. -/
theorem entriesOf_spec (d : Dialect) (bound : Nat) (h : nodes.length = joins.length) :
    (entriesOf d bound nodes joins).length = nodes.length ∧
      (entriesOf d bound nodes joins).map (·.join) = joins ∧
      (entriesOf d bound nodes joins).map (·.mapping) = nodes.map (·.mapping) ∧
      (entriesOf d bound nodes joins).flatMap (·.items)
        = (nodes.flatMap (·.returned.items)).map
            (fun i => d.render bound (i.tokens (α := Value))) ∧
      (entriesOf d bound nodes joins).flatMap (·.fields) = nodes.flatMap (·.returned.fields) := by
  unfold entriesOf
  induction nodes generalizing joins with
  | nil =>
    obtain rfl := List.length_eq_zero_iff.mp h.symm
    simp
  | cons n rest ih =>
    obtain ⟨join, joins, rfl⟩ := List.exists_cons_of_length_eq_add_one h.symm
    obtain ⟨hlength, hjoins, hmapping, hitems, hfields⟩ := ih (by simpa using h)
    rw [List.zipWith_cons_cons]
    refine ⟨by simp [hlength], ?_, ?_, ?_, ?_⟩
    · rw [List.map_cons, hjoins]
      rfl
    · rw [List.map_cons, List.map_cons, hmapping]
      rfl
    · rw [List.flatMap_cons, List.flatMap_cons, List.map_append, hitems]
      rfl
    · rw [List.flatMap_cons, List.flatMap_cons, hfields]
      rfl

/-- The first entries are those of the first nodes. -/
theorem take_entriesOf (k : Nat) :
    (entriesOf d bound nodes joins).take k = entriesOf d bound (nodes.take k) (joins.take k) :=
  List.take_zipWith

/-- Where a node stands above another one, its entry stands above the other one's. -/
theorem hangsOn_entry {root : JoinParent} {above : Option Nat} {n : JoinNode} {join : String}
    (hlength : nodes.length = joins.length) (h : JoinNode.Above root nodes above n.parent) :
    (n.entry d bound join).HangsOn root (entriesOf d bound nodes joins) above := by
  cases above with
  | none => exact h
  | some k =>
    obtain ⟨m, hm, hparent⟩ := h
    have hk : k < joins.length := hlength ▸ (List.getElem?_eq_some_iff.mp hm).1
    refine ⟨m.entry d bound joins[k], ?_, hparent⟩
    rw [entriesOf, List.getElem?_zipWith, hm, List.getElem?_eq_getElem hk]

end

/-- The entry of a node is what its stop is made into. -/
theorem JoinNode.Compiled.madeAt {env : Env} {root : JoinParent} {d : Dialect} {items : Nat}
    {before : List JoinNode} {joins : List String} {stop : Stop} {n : JoinNode} {join : String}
    (h : n.Compiled env) (hat : n.IsAt root before stop)
    (hused : n.used = usedAfter [root.aliasName] before) (hlength : before.length = joins.length)
    (hjoin : ∃ bound, join = d.render bound (n.join.tokens d)) :
    (n.entry d items join).MadeAt env d root (entriesOf d items before joins) stop := by
  have hinclusion := hat.inclusion_eq
  have hrelation : env.schema.relation n.parent.model stop.inclusion.relation = .ok n.relation :=
    hinclusion ▸ h.relation_eq
  have hname : n.relation.name = stop.inclusion.relation := Schema.relation_name hrelation
  have haliases : (entriesOf d items before joins).map (·.mapping.aliasName)
      = before.map (·.join.aliasName) := by
    obtain ⟨-, -, hmapping, -⟩ := entriesOf_spec d items hlength
    have hnames := congrArg (List.map RelationMapping.aliasName) hmapping
    rwa [List.map_map, List.map_map] at hnames
  obtain ⟨target, htarget, -⟩ := bind_eq_ok.mp h.table_eq
  refine ⟨hangsOn_entry hlength hat.above, hrelation, hat.path_eq, ?_, ?_, target, htarget, ?_, ?_⟩
  · show n.relation.kind.isMany = true ↔ n.relation.kind = .oneToMany
    simp [RelationKind.isMany]
  · rw [haliases]
    show FirstFree _ (n.parent.aliasName ++ "_" ++ _) n.join.aliasName
    rw [h.alias_eq, hname, hused, usedAfter_singleton]
    exact firstFree_freshAlias (fun _ => List.mem_reverse) _
  · exact hinclusion ▸ h.joins htarget d items hjoin
  · exact hinclusion ▸ h.shows htarget d items join

/-- What stands at the position of a stop is made of its inclusion, where the nodes follow the
walk, each was compiled behind those before it, and every text is that of the join of its node. -/
theorem madeAt_entriesOf {env : Env} {root : JoinParent} {d : Dialect} {items : Nat}
    {stops : List Stop} {nodes : List JoinNode} {joins : List String}
    (hfollows : Follows root [] stops nodes) (hinUse : InUse [root.aliasName] nodes)
    (hcompiled : ∀ n ∈ nodes, n.Compiled env)
    (hjoins : List.Forall₂ (fun n text => ∃ bound, text = d.render bound (n.join.tokens d))
      nodes joins)
    {k : Nat} {stop : Stop} (hstop : stops[k]? = some stop) :
    ∃ e, (entriesOf d items nodes joins)[k]? = some e ∧
      e.MadeAt env d root ((entriesOf d items nodes joins).take k) stop := by
  have hk : k < nodes.length := hfollows.length_eq ▸ (List.getElem?_eq_some_iff.mp hstop).1
  have hk' : k < joins.length := hjoins.length_eq ▸ hk
  have hn : nodes[k]? = some nodes[k] := List.getElem?_eq_getElem hk
  refine ⟨nodes[k].entry d items joins[k], ?_, ?_⟩
  · rw [entriesOf, List.getElem?_zipWith, hn, List.getElem?_eq_getElem hk']
  · -- the aliases in use are those of the nodes before
    have hsplit : nodes = nodes.take k ++ nodes[k] :: nodes.drop (k + 1) := by
      rw [← List.drop_eq_getElem_cons hk, List.take_append_drop]
    have hused : nodes[k].used = usedAfter [root.aliasName] (nodes.take k) := by
      rw [hsplit] at hinUse
      exact (inUse_append.mp hinUse).2.1
    have hlength : (nodes.take k).length = (joins.take k).length := by
      rw [List.length_take, List.length_take, hjoins.length_eq]
    rw [take_entriesOf]
    exact (hcompiled _ (List.getElem_mem hk)).madeAt (hfollows.isAt hstop hn) hused hlength
      (hjoins.get hk hk')

/-- The joins of a forest, in whatever context they are written: the joins and the relations of
the mapping are one each for every stop of the walk through the forest, which stops once at every
inclusion, in pre-order. What stands at the position of a stop is made of its inclusion, and items
and fields are those of the entries, one after the other. -/
theorem joins_in_order {env : Env} {model aliasName : String} {inclusions : List Inclusion}
    {p : Parameters} {texts : JoinTexts}
    (h : (p.writeJoins (compileJoins env model aliasName inclusions)).1 = .ok texts) :
    let root : JoinParent := { model, aliasName }
    let stops := Inclusion.walkAll none [] 0 inclusions
    stops.map (·.inclusion) = Inclusion.preorderOf inclusions ∧
      ∃ entries : List JoinEntry, entries.length = stops.length ∧
        texts.joins = entries.map (·.join) ∧
        texts.plan.relations = entries.map (·.mapping) ∧
        texts.items = entries.flatMap (·.items) ∧
        texts.plan.fields = entries.flatMap (·.fields) ∧
        ∀ (k : Nat) (stop : Stop), stops[k]? = some stop →
          ∃ e, entries[k]? = some e ∧ e.MadeAt env p.dialect root (entries.take k) stop := by
  intro root stops
  refine ⟨Inclusion.walkAll_inclusions none inclusions [] 0, ?_⟩
  cases hplan : compileJoins env model aliasName inclusions with
  | error r => rw [hplan] at h; cases h
  | ok plan =>
    rw [hplan] at h
    cases h
    obtain ⟨nodes, hjoined, rfl⟩ := Inclusion.allJoinedAs_of_compileJoins hplan
    have habove : JoinNode.Above root [] none root := rfl
    have hfollows : Follows root [] stops nodes := hjoined.follows habove
    obtain ⟨hinUse, hcompiled⟩ := hjoined.spec
    let written := p.writeAll ((planOf nodes).joins.map (·.tokens p.dialect))
    obtain ⟨hjoins, hdialect⟩ : List.Forall₂ _ _ written.1 ∧ _ := Parameters.writeAll_spec _ p
    rw [planOf, List.forall₂_map_left_iff, List.forall₂_map_left_iff] at hjoins
    obtain ⟨hlength, hentries⟩ :=
      entriesOf_spec p.dialect written.2.bound.length hjoins.length_eq
    obtain ⟨hjoin, hmapping, hitems, hfields⟩ := hentries
    refine ⟨entriesOf p.dialect written.2.bound.length nodes written.1,
      hlength.trans hfollows.length_eq, hjoin.symm, hmapping.symm, ?_, hfields.symm, ?_⟩
    · show (written.2.writeAll _).1 = _
      rw [Parameters.writeAll_of_no_slots, hitems, hdialect, List.map_map]
      · rfl
      · intro f hf
        obtain ⟨i, -, rfl⟩ := List.mem_map.mp hf
        exact i.slots_tokens
    · exact fun k stop hstop => madeAt_entriesOf hfollows hinUse hcompiled hjoins hstop

/-- Readers with the other readers of their late books, and with all their books a second time:
the second join of the books comes last, under a number. -/
theorem joins_in_order_again :
    let readers : Model :=
      { name := "Reader", table := "readers"
        relations := [{ name := "books", toModel := "Book", fromFields := ["id"]
                        toFields := ["reader"], kind := .oneToMany }] }
    let books : Model :=
      { name := "Book", table := "books"
        fields := [{ name := "reader", column := some "reader_id" }, { name := "late" }]
        relations := [{ name := "reader", toModel := "Reader", fromFields := ["reader"]
                        toFields := ["id"], kind := .manyToOne }] }
    let late : Query :=
      { model := "Book", operation := .findMany, filter := .and [.equals "late" (.bool true)] }
    let env : Env := { schema := .ofModels [readers, books], dialect := .postgres }
    let p : Parameters := { dialect := .postgres, bound := [.int 7] }
    ∃ texts, (p.writeJoins (compileJoins env "Reader" "readers"
        [{ relation := "books", query := some late, projects := false
           nested := [{ relation := "reader" }] },
         { relation := "books" }])).1 = .ok texts ∧
      texts.joins =
        ["LEFT JOIN books AS readers_books ON readers_books.reader_id = readers.id" ++
          " AND readers_books.late = $2",
         "LEFT JOIN readers AS readers_books_reader" ++
          " ON readers_books_reader.id = readers_books.reader_id",
         "LEFT JOIN books AS readers_books_2 ON readers_books_2.reader_id = readers.id"] ∧
      texts.items =
        ["readers_books_reader.*", "readers_books_2.reader_id AS readers_books_2_reader",
         "readers_books_2.late AS readers_books_2_late"] ∧
      ∃ entries : List JoinEntry, texts.joins = entries.map (·.join) ∧
        ∃ e, entries[2]? = some e ∧
          e.MadeAt env .postgres { model := "Reader", aliasName := "readers" } (entries.take 2)
            { inclusion := { relation := "books" }, above := none, path := ["books"] } := by
  intro readers books late env p
  have hok : ∃ texts, (p.writeJoins (compileJoins env "Reader" "readers"
      [{ relation := "books", query := some late, projects := false
         nested := [{ relation := "reader" }] },
       { relation := "books" }])).1 = .ok texts := ⟨_, rfl⟩
  obtain ⟨texts, htexts⟩ := hok
  obtain ⟨-, entries, -, hjoins, -, -, -, hentries⟩ := joins_in_order htexts
  refine ⟨texts, htexts, ?_, ?_, entries, hjoins, hentries 2 _ rfl⟩
  · cases htexts
    decide +kernel
  · cases htexts
    decide +kernel

end SqlQuery
