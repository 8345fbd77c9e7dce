import SqlQuery.Compile.Query
import SqlQuery.Proofs.Compile.Inclusion

/-!
# What values belong to

Where placeholders are question marks, nothing in the text tells two of them apart, so
two values that change places are only seen in the rows. A `Part` is what values of a
query belong to: a condition, a row under its columns, or an assignment.

> `Carries`: a fragment holds what some parts are written as, in their order, and all
> that it binds is bound in them.

> `Carries.slots_eq`: such a fragment binds the values of the parts.

The lemmas for filters, joins, rows and assignments follow; statements are put together
from these.
-/

namespace SqlQuery

open Sql

/-! ## The values of a filter -/

namespace Filter

mutual

/-- The values that a filter binds: those of its conditions, then those of its groups. -/
def boundValues : Filter → List Value
  | ⟨_, conditions, nested⟩ =>
    conditions.flatMap Condition.boundValues ++ boundValuesOf nested

/-- The values that some filters bind, in order. -/
def boundValuesOf : List Filter → List Value
  | [] => []
  | f :: rest => boundValues f ++ boundValuesOf rest

end

mutual

/-- A filter binds what its conditions bind, in the order of the tree. -/
theorem boundValues_eq :
    ∀ f : Filter, f.boundValues = f.allConditions.flatMap Condition.boundValues
  | ⟨op, conditions, nested⟩ => by
    rw [boundValues, allConditions, List.flatMap_append, boundValuesOf_eq nested]

/-- Some filters bind what their conditions bind. -/
theorem boundValuesOf_eq :
    ∀ fs : List Filter, boundValuesOf fs = (conditionsOf fs).flatMap Condition.boundValues
  | [] => rfl
  | f :: rest => by
    rw [boundValuesOf, conditionsOf, List.flatMap_append, boundValues_eq f, boundValuesOf_eq rest]

end

end Filter

/-! ## Parts -/

/-- What values of a query belong to. The values of a row belong to the columns that
are listed before it, in their order. -/
inductive Part where
  | condition (model : String) (clause : Clause) (c : Condition)
  | columns (model : String) (fields : List String)
  | row (values : List Value)
  | assignment (model : String) (field : String) (value : Value)

namespace Part

/-- The values of a part, in order. -/
def values : Part → List Value
  | .condition _ _ c => c.boundValues
  | .columns _ _ => []
  | .row values => values
  | .assignment _ _ value => [value]

/-- What a part is written as. -/
def Written (env : Env) : Part → Fragment Value → Prop
  | .condition model clause c, f => ∃ qualifier a,
    c.atom env { model := some model, qualifier, clause } = .ok a ∧ f = a.tokens env.dialect
  | .columns model fields, f => ∃ columns,
    columnsOf env.schema (some model) fields = .ok columns ∧ f = nameList columns
  | .row values, f => f = slotList values
  | .assignment model field value, f => ∃ column,
    env.schema.column model field = .ok column ∧ f = compared .eq [.name column] [.slot value]

end Part

/-- The parts of a filter. -/
def Filter.parts (model : String) (clause : Clause) (f : Filter) : List Part :=
  f.allConditions.map (.condition model clause)

/-- The parts of an inclusion's own filter. -/
def JoinSite.parts (schema : Schema) (site : JoinSite) : List Part :=
  match schema.relation site.model site.inclusion.relation with
  | .ok r => site.inclusion.ownFilter.parts r.toModel .joinOn
  | .error _ => []

/-- The parts of a row that is assigned field by field. -/
def Row.parts (model : String) (row : Row) : List Part :=
  row.map fun field => .assignment model field.1 field.2

theorem Filter.values_parts (model : String) (clause : Clause) (f : Filter) :
    (f.parts model clause).flatMap Part.values = f.boundValues := by
  rw [Filter.parts, List.flatMap_map, Filter.boundValues_eq]
  rfl

theorem Row.values_parts (model : String) (row : Row) :
    (row.parts model).flatMap Part.values = row.values := by
  rw [Row.parts, Row.values, List.flatMap_map, List.map_eq_flatMap]
  rfl

/-- The parts of joined inclusions hold the values of their filters. -/
theorem values_sites {env : Env} {sites : List JoinSite} {joins : List Join}
    (h : List.Forall₂ (JoinSite.CompiledTo env) sites joins) :
    (sites.flatMap (·.parts env.schema)).flatMap Part.values
      = sites.flatMap (·.inclusion.ownFilter.boundValues) := by
  induction h with
  | nil => rfl
  | @cons site j _ _ hj _ ih =>
    obtain ⟨relation, parent, equalities, filter, hj⟩ := hj
    have hsite : site.parts env.schema
        = site.inclusion.ownFilter.parts relation.toModel .joinOn := by
      rw [JoinSite.parts, hj.relation_eq]
    rw [List.flatMap_cons, List.flatMap_append, ih, List.flatMap_cons, hsite, Filter.values_parts]

/-! ## What a fragment binds -/

/-- What a part is written as binds the values of the part. -/
theorem Part.slots_eq {env : Env} {part : Part} {f : Fragment Value}
    (h : part.Written env f) : slots f = part.values := by
  cases part with
  | condition model clause c =>
    obtain ⟨qualifier, a, ha, rfl⟩ := h
    rw [Atom.slots_tokens, (Condition.atom_spec ha).1]
    rfl
  | columns model fields =>
    obtain ⟨columns, -, rfl⟩ := h
    exact slots_nameList columns
  | row values =>
    cases h
    exact slots_slotList values
  | assignment model field value =>
    obtain ⟨column, -, rfl⟩ := h
    rfl

/-- A fragment holds what some parts are written as, in their order, and binds nothing
beside them. -/
def Carries (env : Env) (parts : List Part) (ts : Fragment Value) : Prop :=
  ∃ fragments, List.Forall₂ (Part.Written env) parts fragments ∧ Woven Token.isSlot fragments ts

namespace Carries

variable {env : Env} {parts more : List Part} {ts us : Fragment Value}

theorem glue (h : slots ts = []) : Carries env [] ts :=
  ⟨[], .nil, .glue (slots_eq_nil_iff.mp h)⟩

theorem part {p : Part} (h : p.Written env ts) : Carries env [p] ts :=
  ⟨[ts], .cons h .nil, .self ts⟩

/-- Two fragments in a row hold the parts of both. -/
theorem append (h : Carries env parts ts) (h' : Carries env more us) :
    Carries env (parts ++ more) (ts ++ us) := by
  obtain ⟨fs, hfs, hwoven⟩ := h
  obtain ⟨gs, hgs, hwoven'⟩ := h'
  exact ⟨fs ++ gs, List.rel_append hfs hgs, hwoven.append hwoven'⟩

theorem glue_append (h : Carries env parts us) (ts : Fragment Value) (hts : slots ts = []) :
    Carries env parts (ts ++ us) :=
  (glue hts).append h

/-- What binds nothing may follow a fragment that holds parts. -/
theorem append_glue (h : Carries env parts ts) (hus : slots us = []) :
    Carries env parts (ts ++ us) := by
  have h' : Carries env (parts ++ []) (ts ++ us) := h.append (glue hus)
  rwa [List.append_nil] at h'

theorem grouped (h : Carries env parts ts) : Carries env parts (grouped ts) := by
  obtain ⟨fs, hfs, hwoven⟩ := h
  exact ⟨fs, hfs, hwoven.grouped⟩

/-- Fragments with a separator between them. -/
theorem intercalate {sep : Fragment Value} (hsep : slots sep = []) :
    ∀ {pss : List (List Part)} {tss : List (Fragment Value)},
      List.Forall₂ (Carries env) pss tss →
        Carries env pss.flatten (sep.intercalate tss) := by
  intro pss tss h
  induction h with
  | nil => exact glue rfl
  | @cons ps ts pss tss hp htail ih =>
    cases tss with
    | nil =>
      cases htail
      simpa using hp
    | cons us tss =>
      rw [List.intercalate_cons_cons, List.flatten_cons, List.append_assoc]
      exact hp.append (ih.glue_append sep hsep)

/-- Parts that are written one by one, with commas between them. -/
theorem commas (h : List.Forall₂ (Part.Written env) parts (tss : List (Fragment Value))) :
    Carries env parts (commas tss) := by
  have hsingle : List.Forall₂ (Carries env) (parts.map fun p => [p]) tss := by
    rw [List.forall₂_map_left_iff]
    exact h.imp fun _ _ hp => part hp
  have hall : Carries env (parts.map fun p => [p]).flatten (Sql.commas tss) :=
    intercalate rfl hsingle
  rw [← List.flatMap_def] at hall
  simpa using hall

/-- A fragment binds the values of its parts. -/
theorem slots_eq (h : Carries env parts ts) : slots ts = parts.flatMap Part.values := by
  obtain ⟨fs, hfs, hwoven⟩ := h
  rw [hwoven.slots_eq]
  clear hwoven
  induction hfs with
  | nil => rfl
  | cons hp _ ih => rw [List.flatMap_cons, List.flatMap_cons, Part.slots_eq hp, ih]

end Carries

/-! ## Filters and joins -/

/-- The text of a compiled filter holds its conditions. -/
theorem Filter.CompiledTo.carries {env : Env} {model : String} {qualifier : Option String}
    {clause : Clause} {f : Filter} {p : Option Predicate}
    (h : f.CompiledTo env { model := some model, qualifier, clause } p) :
    Carries env (f.parts model clause) (optional env.dialect p) := by
  refine ⟨(Predicate.atomsOf p.toList).map (·.tokens env.dialect), ?_, ?_⟩
  · rw [Filter.parts, List.forall₂_map_left_iff, List.forall₂_map_right_iff]
    exact h.atoms.imp fun c a ha => ⟨qualifier, a, ha, rfl⟩
  · cases p with
    | none => exact .glue (by intro t ht; exact absurd ht (by simp [Sql.optional]))
    | some q =>
      rw [Option.toList_some, Predicate.atomsOf, Predicate.atomsOf, List.append_nil]
      exact q.woven_tokens env.dialect

/-- The equalities of a relation bind nothing. -/
theorem values_of_relationEqualities {schema : Schema} {parent : JoinParent}
    {relation : Relation} {aliasName : String} {equalities : List Atom}
    (h : relationEqualities schema parent relation aliasName = .ok equalities) :
    ∀ e ∈ equalities, e.values = [] := by
  have hpairs := (relationEqualities_spec h).2
  intro e he
  clear h
  generalize relation.fromFields.zip relation.toFields = pairs at hpairs
  induction hpairs with
  | nil => exact absurd he (by simp)
  | cons hpair _ ih =>
    rcases List.mem_cons.mp he with rfl | he
    · obtain ⟨a, b, -, -, rfl⟩ := hpair
      rfl
    · exact ih he

/-- Pieces that bind nothing need not be counted. -/
theorem Sql.Woven.drop_all {d : Dialect} {ts : Fragment Value} {fs : List (Fragment Value)} :
    ∀ {as : List Atom}, (∀ a ∈ as, a.values = []) →
      Woven Token.isSlot (as.map (·.tokens d) ++ fs) ts → Woven Token.isSlot fs ts := by
  intro as
  induction as with
  | nil => intro _ h; exact h
  | cons a as ih =>
    intro has h
    have hslots : slots (a.tokens d) = [] := by
      rw [Atom.slots_tokens]
      exact has a (List.mem_cons_self ..)
    exact ih (fun b hb => has b (List.mem_cons_of_mem _ hb))
      (h.drop (slots_eq_nil_iff.mp hslots))

/-- The text of a join holds the conditions of its inclusion. -/
theorem JoinSite.CompiledTo.carries {env : Env} {site : JoinSite} {j : Join}
    (h : site.CompiledTo env j) : Carries env (site.parts env.schema) (j.tokens env.dialect) := by
  obtain ⟨relation, parent, equalities, filter, hj⟩ := h
  have hconds := (Inclusion.compileFilter_spec hj.filter_eq).atoms
  -- the equalities come first among the atoms, but they bind nothing
  have hon : Woven Token.isSlot ((Predicate.atomsOf filter.toList).map (·.tokens env.dialect))
      (j.on.tokens env.dialect) := by
    have hatoms : j.on.atoms = equalities ++ Predicate.atomsOf filter.toList := by
      rw [hj.on_eq, Predicate.atoms, Predicate.atomsOf_append, Predicate.atomsOf_map_atom]
    have hwoven := j.on.woven_tokens env.dialect
    rw [hatoms, List.map_append] at hwoven
    exact Woven.drop_all (values_of_relationEqualities hj.equalities_eq) hwoven
  suffices hcarries : Carries env (site.parts env.schema) (j.on.tokens env.dialect) from
    hcarries.glue_append _ rfl
  refine ⟨_, ?_, hon⟩
  unfold JoinSite.parts
  rw [hj.relation_eq]
  dsimp only
  rw [Filter.parts, List.forall₂_map_left_iff, List.forall₂_map_right_iff]
  exact hconds.imp fun c a ha => ⟨_, a, ha, rfl⟩

/-- Joins hold the conditions of their sites, in order. -/
theorem carries_joins {env : Env} {sites : List JoinSite} {joins : List Join}
    (h : List.Forall₂ (JoinSite.CompiledTo env) sites joins) :
    Carries env (sites.flatMap (·.parts env.schema)) (joins.flatMap (·.tokens env.dialect)) := by
  induction h with
  | nil => exact .glue rfl
  | cons hj _ ih => exact hj.carries.append ih

/-! ## Selections -/

/-- A clause that may be left out holds what its body holds. -/
theorem Carries.clause {env : Env} {parts : List Part} {body : Fragment Value}
    (words : List Keyword) (h : Carries env parts body) :
    Carries env parts (clause words body) := by
  unfold Sql.clause
  split
  next hempty =>
    rw [List.isEmpty_iff.mp hempty] at h
    exact h
  next => exact h.glue_append _ (slots_words words)

/-- A selection holds the conditions of its joins, of its filter and of its groups. -/
theorem carries_selection {env : Env} {joined filtered grouped : List Part} {s : Select}
    (hjoins : Carries env joined (s.joins.flatMap (·.tokens env.dialect)))
    (hwhere : Carries env filtered (optional env.dialect s.where_))
    (hhaving : Carries env grouped (optional env.dialect s.having)) :
    Carries env (joined ++ filtered ++ grouped) (s.tokens env.dialect) := by
  -- the other clauses name columns, and what they hold is never bound
  have hhead : slots (Token.word .select :: s.distinct.tokens ++ commas (s.items.map (·.tokens))
      ++ [Token.word .from_, .name s.table] : Fragment Value) = [] := by
    simp [List.flatMap_map]
  have hgroup : slots (Sql.clause [.group, .by_] (commas (s.groupBy.map (·.tokens)))
      : Fragment Value) = [] := by
    simp [List.flatMap_map]
  have horder : slots (Sql.clause [.order, .by_]
      (commas (s.orderBy.map fun o => o.1.tokens ++ [Token.word (.ofOrder o.2)])) : Fragment Value)
        = [] := by
    simp [List.flatMap_map]
  have hselect := (((((hjoins.glue_append _ hhead).append (hwhere.clause [.where_])).append_glue
    hgroup).append (hhaving.clause [.having])).append_glue horder).append_glue
      (slots_limitOffset env.dialect s.limit s.offset)
  exact hselect

/-! ## Written data -/

/-- The columns and the rows of an insertion hold the values of the rows. -/
theorem carries_insert {env : Env} {model : String} {fields columns : List String}
    (table : String) (rows : List (List Value))
    (hcolumns : columnsOf env.schema (some model) fields = .ok columns) :
    Carries env (.columns model fields :: rows.map .row)
      (insertInto table columns
        ++ .word .values :: commas (rows.map fun r => grouped (slotList r))) := by
  have hinto : Carries env [.columns model fields] (insertInto table columns) := by
    have hnames : Part.Written env (.columns model fields) (nameList columns) :=
      ⟨columns, hcolumns, rfl⟩
    exact (Carries.part hnames).grouped.glue_append _ rfl
  have hrows : Carries env (rows.map .row) (commas (rows.map fun r => grouped (slotList r))) := by
    have hall : List.Forall₂ (Carries env) (rows.map fun r => [Part.row r])
        (rows.map fun r => grouped (slotList r)) := by
      rw [List.forall₂_map_left_iff, List.forall₂_map_right_iff, List.forall₂_same]
      intro r _
      exact (Carries.part (p := .row r) rfl).grouped
    have hcommas : Carries env (rows.map fun r => [Part.row r]).flatten
        (commas (rows.map fun r => grouped (slotList r))) := .intercalate rfl hall
    have hflat : (rows.map fun r => [Part.row r]).flatten = rows.map .row := by
      rw [← List.flatMap_def, List.map_eq_flatMap]
    rwa [hflat] at hcommas
  have hvalues := hrows.glue_append [.word .values] rfl
  exact hinto.append hvalues

/-- Each column is written with the value of its own field. -/
theorem written_assignments {env : Env} {model : String} {row : Row} {columns : List String}
    (h : List.Forall₂ (fun field column => env.schema.column model field.1 = .ok column)
      row columns) :
    List.Forall₂ (Part.Written env) (row.parts model)
      (((columns.zip row.values).map fun c => { column := c.1, source := .value c.2 }).map
        (Assignment.tokens env.dialect)) := by
  induction h with
  | nil => exact .nil
  | cons hfield _ ih => exact .cons ⟨_, hfield, rfl⟩ ih

/-- The assignments of a row hold its values. -/
theorem carries_assignments {env : Env} {model : String} {row : Row}
    {assignments : List Assignment}
    (h : assignmentsOf env.schema (some model) row = .ok assignments) :
    Carries env (row.parts model) (assignmentList env.dialect assignments) := by
  unfold assignmentsOf at h
  obtain ⟨columns, hcolumns, h⟩ := bind_eq_ok.mp h
  cases h
  have hall := forall₂_of_mapM hcolumns
  rw [Row.fields, List.forall₂_map_left_iff] at hall
  exact .commas (written_assignments hall)

/-- What is done on a conflict holds what it sets. -/
theorem carries_conflict {env : Env} {parts : List Part} {c : Conflict}
    (h : Carries env parts (assignmentList env.dialect c.assignments)) :
    Carries env parts (c.tokens env.dialect) := by
  unfold Conflict.tokens Dialect.onConflict
  split
  next => exact h.glue_append _ rfl
  next => exact h.glue_append _ (by simp)

end SqlQuery
