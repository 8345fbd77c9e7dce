import SqlQuery.Compile.Query
import SqlQuery.Proofs.Compile.Outcome

/-!
# The ways through a compilation

A query is compiled by its payload, once the payload is found to be of the kind that
its operation takes; so in the end its operation decides.

> `Query.route_of_compile`: a compiled query went one of six ways.
-/

namespace SqlQuery

open Sql

namespace Query

/-- How a query is compiled; its operation decides, and its payload belongs to it. -/
inductive Route (q : Query) (env : Env) : Statement → Prop where
  | create {row : Row} {s : Statement} : q.operation = .create → q.payload = .create row →
      q.compileCreate env row = .ok s → Route q env s
  | createMany {rows : List Row} {s : Statement} : q.operation = .createMany →
      q.payload = .createMany rows → q.compileCreateMany env rows = .ok s → Route q env s
  | update {row : Row} {s : Statement} : (q.operation = .update ∨ q.operation = .updateMany) →
      q.payload = .update row → q.compileUpdate env row = .ok s → Route q env s
  | upsert {keys : List String} {create update : Row} {s : Statement} :
      q.operation = .upsert → q.payload = .upsert keys create update →
      q.compileUpsert env keys create update = .ok s → Route q env s
  | delete {s : Statement} : (q.operation = .delete ∨ q.operation = .deleteMany) →
      q.payload = .none → q.compileDelete env = .ok s → Route q env s
  | select {s : Select} {m : ResultMapping} : ¬(q.operation = .delete ∨ q.operation = .deleteMany) →
      expectedPayload q.operation = .none → q.payload = .none →
      q.compileSelect env = .ok (s, m) → Route q env (.select s)

/-- A query that passes the check of its payload has one of the kind its operation takes. -/
theorem kind_of_checkPayload {q : Query} {u : Unit} (h : q.checkPayload = .ok u) :
    expectedPayload q.operation = q.payload.kind := by
  unfold checkPayload at h
  dsimp only at h
  split at h
  next => cases h
  next hkind => exact Decidable.not_not.mp hkind

theorem route_of_compile {q : Query} {env : Env} {c : Compiled} (h : q.compile env = .ok c) :
    q.Route env c.statement := by
  unfold compile at h
  obtain ⟨⟨⟩, hcheck, h⟩ := bind_eq_ok.mp h
  have hkind := kind_of_checkPayload hcheck
  unfold compileWrite? at h
  cases hpayload : q.payload with
  | none =>
    rw [hpayload] at h
    rw [hpayload, Payload.kind] at hkind
    by_cases hdelete : q.operation = .delete ∨ q.operation = .deleteMany
    · rw [if_pos hdelete] at h
      obtain ⟨s, hs, h⟩ := bind_eq_ok.mp h
      cases h
      exact .delete hdelete hpayload hs
    · rw [if_neg hdelete] at h
      obtain ⟨⟨s, m⟩, hs, h⟩ := bind_eq_ok.mp h
      cases h
      exact .select hdelete hkind hpayload hs
  | create row =>
    rw [hpayload] at h
    rw [hpayload, Payload.kind] at hkind
    obtain ⟨s, hs, h⟩ := bind_eq_ok.mp h
    cases h
    have hop : q.operation = .create := by
      revert hkind
      cases q.operation <;> decide
    exact .create hop hpayload hs
  | createMany rows =>
    rw [hpayload] at h
    rw [hpayload, Payload.kind] at hkind
    obtain ⟨s, hs, h⟩ := bind_eq_ok.mp h
    cases h
    have hop : q.operation = .createMany := by
      revert hkind
      cases q.operation <;> decide
    exact .createMany hop hpayload hs
  | update row =>
    rw [hpayload] at h
    rw [hpayload, Payload.kind] at hkind
    obtain ⟨s, hs, h⟩ := bind_eq_ok.mp h
    cases h
    have hop : q.operation = .update ∨ q.operation = .updateMany := by
      revert hkind
      cases q.operation <;> decide
    exact .update hop hpayload hs
  | upsert keys create update =>
    rw [hpayload] at h
    rw [hpayload, Payload.kind] at hkind
    obtain ⟨s, hs, h⟩ := bind_eq_ok.mp h
    cases h
    have hop : q.operation = .upsert := by
      revert hkind
      cases q.operation <;> decide
    exact .upsert hop hpayload hs

/-- The mapping of a selection is compiled with it. -/
theorem compileSelect_of_compile {q : Query} {env : Env} {c : Compiled} {s : Select}
    (hdelete : ¬(q.operation = .delete ∨ q.operation = .deleteMany)) (hpayload : q.payload = .none)
    (h : q.compile env = .ok c) (hs : c.statement = .select s) :
    q.compileSelect env = .ok (s, c.mapping) := by
  have hnone : q.compileWrite? env = none := by
    unfold compileWrite?
    rw [hpayload]
    exact if_neg hdelete
  unfold compile at h
  obtain ⟨-, -, h⟩ := bind_eq_ok.mp h
  rw [hnone] at h
  obtain ⟨⟨t, mapping⟩, ht, h⟩ := bind_eq_ok.mp h
  cases h
  cases hs
  exact ht

end Query

end SqlQuery
