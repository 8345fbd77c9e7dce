import SqlQuery.Proofs.Compile.DistinctColumns
import SqlQuery.Proofs.Compile.Guard

/-!
# What a nested write comes to

A change to a relation is compiled to statements of a few forms. They are listed here once, with all
that the parts of each are compiled from, so that what holds of every statement of a nested write is
seen from the forms and not from the changes.

> `NestedScope.emits_of_compile`: every statement of a change has one of the forms.
-/

namespace SqlQuery

open Sql

namespace NestedScope

/-- The statements that a change may be compiled to. Rows that it creates are inserted below the
parent, all of them or one where nothing is picked. Rows that are picked are tied to the parent or
untied, and so are all of the parent's own; of these, those that are picked are set or deleted. -/
inductive Emits (x : NestedScope) (change : RelationChange) : Statement → Prop
  | insert {first : Row} {rest : List Row} {columns : List String}
      (hcreated : change.created = first :: rest)
      (hcolumns : columnsOf x.env.schema x.target.model first.fields = .ok columns) :
      Emits x change (.insert x.target.table (x.target.foreignKey :: columns)
        (insertedRows x.key change.created) none true)
  | insertUnless {row : Row} {columns : List String} {own : Bool} {f : Filter} {p : Predicate}
      (hcreated : change.created = [row])
      (hcolumns : columnsOf x.env.schema x.target.model row.fields = .ok columns)
      (hp : x.pick own f = .ok p) :
      Emits x change (.insertUnless x.target.table (x.target.foreignKey :: columns)
        (x.key :: row.values) p)
  | attach {f : Filter} {p : Predicate} (hp : x.pick false f = .ok p) :
      Emits x change (.update x.target.table [x.attach] p false)
  | detach {f : Filter} {p : Predicate} (hp : x.pick false f = .ok p) :
      Emits x change (.update x.target.table [x.detach] p false)
  | detachAll : Emits x change (.update x.target.table [x.detach] (.all [x.scopeAtom]) false)
  | update {row : Row} {assignments : List Assignment} {f : Filter} {p : Predicate}
      (hrow : row ∈ change.updated) (hsome : row ≠ [])
      (hassignments : assignmentsOf x.env.schema x.target.model row = .ok assignments)
      (hp : x.pick true f = .ok p) :
      Emits x change (.update x.target.table assignments p false)
  | delete {f : Filter} {p : Predicate} (hp : x.pick true f = .ok p) :
      Emits x change (.delete x.target.table p false)

variable {x : NestedScope} {change : RelationChange} {s : Statement}

theorem emits_connect {f : Filter} (h : x.connect f = .ok s) : x.Emits change s := by
  obtain ⟨p, hp, h⟩ := bind_eq_ok.mp h
  cases h
  exact .attach hp

theorem emits_insert (h : x.insert change.created = .ok s) : x.Emits change s := by
  obtain ⟨first, rest, columns, hcreated, hcolumns, rfl⟩ := insert_spec h
  exact .insert hcreated hcolumns

/-- A guarded insertion is emitted for the one row of its change. -/
theorem emits_insertUnless {row : Row} {own : Bool} {f : Filter} {p : Predicate}
    (hcreated : change.created = [row]) (hp : x.pick own f = .ok p)
    (h : x.insertUnless row p = .ok s) : x.Emits change s := by
  obtain ⟨columns, hcolumns, h⟩ := bind_eq_ok.mp h
  cases h
  exact .insertUnless hcreated hcolumns hp

/-- An update is emitted for a row that sets something. -/
theorem emits_update {row : Row} {f : Filter} (hrow : row ∈ change.updated) (hsome : row ≠ [])
    (h : x.update row f = .ok s) : x.Emits change s := by
  obtain ⟨assignments, hassignments, h⟩ := bind_eq_ok.mp h
  obtain ⟨p, hp, h⟩ := bind_eq_ok.mp h
  cases h
  exact .update hrow hsome hassignments hp

/-- An update that would set nothing is not emitted. -/
theorem emits_updateIfAny {row : Row} {f : Filter} {statements : List Statement}
    (hrow : row ∈ change.updated) (h : x.updateIfAny row f = .ok statements) :
    ∀ s ∈ statements, x.Emits change s := by
  unfold updateIfAny at h
  by_cases hempty : row.isEmpty = true
  · rw [if_pos hempty] at h
    cases h
    exact fun _ hs => absurd hs List.not_mem_nil
  · rw [if_neg hempty] at h
    obtain ⟨-, -, h⟩ := bind_eq_ok.mp h
    obtain ⟨s, hs, h⟩ := bind_eq_ok.mp h
    cases h
    exact List.forall_mem_singleton.mpr (emits_update hrow (by simpa using hempty) hs)

theorem emits_replace {f : Filter} {statements : List Statement}
    (h : x.replace f = .ok statements) : ∀ s ∈ statements, x.Emits change s := by
  unfold replace at h
  dsimp only at h
  split at h
  next =>
    cases h
    exact List.forall_mem_singleton.mpr (.detachAll)
  next =>
    obtain ⟨s, hs, h⟩ := bind_eq_ok.mp h
    cases h
    exact List.forall_mem_cons.mpr
      ⟨.detachAll, List.forall_mem_singleton.mpr (emits_connect hs)⟩

/-- Every statement of a change has one of the forms. -/
theorem emits_of_compile {statements : List Statement} (h : x.compile change = .ok statements) :
    ∀ s ∈ statements, x.Emits change s := by
  cases change with
  | create row =>
    obtain ⟨-, -, h⟩ := bind_eq_ok.mp h
    obtain ⟨s, hs, h⟩ := bind_eq_ok.mp h
    cases h
    exact List.forall_mem_singleton.mpr (emits_insert hs)
  | createMany rows =>
    rw [compile] at h
    obtain ⟨-, -, h⟩ := bind_eq_ok.mp (check_eq_ok h)
    obtain ⟨s, hs, h⟩ := bind_eq_ok.mp h
    cases h
    exact List.forall_mem_singleton.mpr (emits_insert hs)
  | connect f =>
    obtain ⟨s, hs, h⟩ := bind_eq_ok.mp h
    cases h
    exact List.forall_mem_singleton.mpr (emits_connect hs)
  | connectOrCreate f row =>
    obtain ⟨-, -, h⟩ := bind_eq_ok.mp h
    obtain ⟨p, hp, h⟩ := bind_eq_ok.mp h
    obtain ⟨s, hs, h⟩ := bind_eq_ok.mp h
    cases h
    have hpick : x.pick false f = .ok p := hp
    exact List.forall_mem_cons.mpr
      ⟨.attach hpick, List.forall_mem_singleton.mpr (emits_insertUnless rfl hpick hs)⟩
  | disconnect f =>
    obtain ⟨p, hp, h⟩ := bind_eq_ok.mp h
    cases h
    have hpick : x.pick false f = .ok p := hp
    exact List.forall_mem_singleton.mpr (.detach hpick)
  | set f => exact emits_replace h
  | update f row | updateMany f row =>
    obtain ⟨⟨⟩, hrow, h⟩ := bind_eq_ok.mp h
    obtain ⟨s, hs, h⟩ := bind_eq_ok.mp h
    cases h
    exact List.forall_mem_singleton.mpr (emits_update (List.mem_singleton_self _)
      (Row.checkRow_eq_ok_iff.mp hrow).1 hs)
  | delete f | deleteMany f =>
    obtain ⟨s, hs, h⟩ := bind_eq_ok.mp h
    cases h
    obtain ⟨p, hp, hs⟩ := bind_eq_ok.mp hs
    cases hs
    exact List.forall_mem_singleton.mpr (.delete hp)
  | upsert f created updated =>
    unfold compile upsert at h
    obtain ⟨-, -, h⟩ := bind_eq_ok.mp h
    obtain ⟨updates, hupdates, h⟩ := bind_eq_ok.mp h
    obtain ⟨present, hpresent, h⟩ := bind_eq_ok.mp h
    obtain ⟨s, hs, h⟩ := bind_eq_ok.mp h
    cases h
    have hpick : x.pick true f = .ok present := hpresent
    refine List.forall_mem_append.mpr ⟨emits_updateIfAny (List.mem_singleton_self _) hupdates, ?_⟩
    exact List.forall_mem_singleton.mpr (emits_insertUnless rfl hpick hs)

end NestedScope

end SqlQuery
