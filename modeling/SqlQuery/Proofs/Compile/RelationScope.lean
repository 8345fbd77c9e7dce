import SqlQuery.Compile.Nested
import SqlQuery.Proofs.Compile.BoundValues
import SqlQuery.Proofs.Sql.Clause

/-!
# Filters stay below their relation

A nested update or deletion is confined to the rows of one parent, and a join to the
pairs that its relation allows; the filter of the query stands beside these equalities
in the same clause. Were it a disjunction without parentheses, it would let other rows
in. `Confined` says of the lexemes of a clause that they are read as the conjunction of
the equalities and of what the filter means.

> `confined_all`: equalities and a filter that is compiled as an operand are confined.

> `relation_scope`: the clauses of nested writes and of joins are confined.
-/

namespace SqlQuery

open Sql

/-! ## Confined clauses -/

/-- A clause is read as a formula over some equalities and the conditions of a filter,
which holds where all the equalities and the filter do. The values that were bound
before the clause decide about the numbers of its placeholders. -/
structure Confined (env : Env) (scope : FilterScope) (bound : List Value)
    (equalities : List Atom) (f : Filter) (clause : List Lexeme) (formula : Formula) : Prop where
  reads : ∃ conditions units,
    Condition.CompiledTo env scope f.allConditions conditions ∧
      (({ dialect := env.dialect, bound } : Parameters).writeAll
          ((equalities ++ conditions).map (·.tokens env.dialect))).1.mapM
        (fun text => lexemes env.dialect.quote text.toList) = some units ∧
      Formula.ofLexemes units clause = some formula
  holds : ∀ truth, formula.eval truth
    = ((List.range equalities.length).all truth
        && (f.isEmpty || f.meaning truth equalities.length))

/-- Equalities with a filter beside them that was compiled as an operand. -/
theorem confined_all {env : Env} {scope : FilterScope} {equalities : List Atom} {f : Filter}
    {p : Option Predicate} (hne : equalities ≠ []) (hp : f.OperandOf env scope p)
    (bound : List Value) :
    ∃ formula, Confined env scope bound equalities f
      (lexemesOf env.dialect bound.length
        ((Predicate.all (equalities.map .atom ++ p.toList)).tokens env.dialect)) formula := by
  have hatoms : (Predicate.all (equalities.map .atom ++ p.toList)).atoms
      = equalities ++ Predicate.atomsOf p.toList := by
    rw [Predicate.atoms, Predicate.atomsOf_append, Predicate.atomsOf_map_atom]
  -- compiled as an operand, the filter needs no parentheses beside the equalities
  have hall := hp.fits_all hne
  obtain ⟨formula, hformula, hmeans⟩ := hall.ofLexemes env.dialect bound.length
  rw [hatoms] at hformula
  have hunits := mapM_lexemes_writeAll
    ((equalities ++ Predicate.atomsOf p.toList).map (·.tokens env.dialect))
    { dialect := env.dialect, bound }
  refine ⟨formula, ⟨_, _, hp.atoms, hunits, hformula⟩, ?_⟩
  intro truth
  rw [hmeans, Predicate.eval, Predicate.evalEach_append, Predicate.evalEach_map_atom,
    Predicate.atomsOf_map_atom, List.all_append, Nat.zero_add, hp.eval, ← List.range_eq_range']
  simp

/-- Where a clause holds, so does every equality. -/
theorem Confined.equality {env : Env} {scope : FilterScope} {bound : List Value}
    {equalities : List Atom} {f : Filter} {clause : List Lexeme} {formula : Formula}
    (h : Confined env scope bound equalities f clause formula) {truth : Nat → Bool}
    (htrue : formula.eval truth = true) : ∀ i < equalities.length, truth i = true := by
  rw [h.holds, Bool.and_eq_true, List.all_eq_true] at htrue
  intro i hi
  exact htrue.1 i (List.mem_range.mpr hi)

/-! ## Nested writes -/

/-- The filter of a change that is confined to the rows of the parent. -/
def RelationChange.confined? : RelationChange → Option Filter
  | .update f _ | .updateMany f _ | .delete f | .deleteMany f | .upsert f _ _ => some f
  | _ => none

/-- The equality of a foreign key with the key of the parent. -/
def keyEquality (foreignKey : String) (key : Value) : Atom :=
  .compare (.column { column := foreignKey }) false .eq key

namespace NestedScope

/-- The condition of a statement is confined by the foreign key: it is the conjunction of
the key's equality and of the filter, whose values are the last that are bound, and only
rows of the parent meet it. -/
def Confines (x : NestedScope) (f : Filter) (s : Statement) : Prop :=
  ∃ bound clause formula,
    s.condition? x.env.dialect = some clause ∧
      (s.prepare x.env.dialect).args = bound ++ x.key :: f.boundValues ∧
      Confined x.env x.filterScope bound [keyEquality x.target.foreignKey x.key] f clause
        formula ∧
      ∀ (row : String → Value) (truth : Nat → Bool),
        (truth 0 = true → row x.target.foreignKey = x.key) →
          formula.eval truth = true → row x.target.foreignKey = x.key

/-- A statement is confined where its condition is, with the key before the values of the filter. -/
theorem confines_of_confined {x : NestedScope} {f : Filter} {s : Statement}
    {bound : List Value} {clause : List Lexeme} {formula : Formula}
    (hclause : s.condition? x.env.dialect = some clause)
    (hargs : (s.prepare x.env.dialect).args = bound ++ x.key :: f.boundValues)
    (h : Confined x.env x.filterScope bound [keyEquality x.target.foreignKey x.key] f clause
      formula) : x.Confines f s := by
  refine ⟨bound, clause, formula, hclause, hargs, h, ?_⟩
  intro row truth hrow htrue
  exact hrow (h.equality htrue 0 (by simp))

/-- The condition on the parent's rows is confined, behind any values. -/
theorem scopedWhere_spec {x : NestedScope} {f : Filter} {p : Predicate}
    (h : x.scopedWhere f = .ok p) :
    slots (p.tokens x.env.dialect) = x.key :: f.boundValues ∧
      ∀ bound : List Value, ∃ formula,
        Confined x.env x.filterScope bound [keyEquality x.target.foreignKey x.key] f
          (lexemesOf x.env.dialect bound.length (p.tokens x.env.dialect)) formula := by
  unfold scopedWhere at h
  obtain ⟨q, hq, h⟩ := bind_eq_ok.mp h
  cases h
  have hoperand := Filter.compileOperand_spec (Refusal.forget_eq_ok.mp hq)
  refine ⟨?_, fun bound => confined_all (by simp) hoperand bound⟩
  have hslots : ∀ as : List Atom,
      (as.map (·.tokens x.env.dialect)).flatMap slots = as.flatMap Atom.values := by
    intro as
    simp [List.flatMap_map]
  have hvalues := Condition.values_of_compiledTo hoperand.atoms
  rw [Predicate.slots_tokens_eq, Predicate.atoms, hslots, Predicate.atomsOf, List.flatMap_append,
    hvalues, Filter.boundValues_eq]
  rfl

/-- An update below a parent stays with the parent's rows. -/
theorem update_confines {x : NestedScope} {row : Row} {f : Filter} {s : Statement}
    (h : x.update row f = .ok s) : x.Confines f s := by
  unfold update at h
  obtain ⟨assignments, -, h⟩ := bind_eq_ok.mp h
  obtain ⟨p, hp, h⟩ := bind_eq_ok.mp h
  cases h
  obtain ⟨hslots, hconfined⟩ := scopedWhere_spec hp
  obtain ⟨formula, hformula⟩ := hconfined (slots (assignmentList x.env.dialect assignments))
  refine confines_of_confined (condition?_update ..) ?_ hformula
  show slots ((Statement.update x.target.table assignments p false).tokens x.env.dialect) = _
  simp [Statement.tokens, hslots]

/-- A deletion below a parent stays with the parent's rows. -/
theorem delete_confines {x : NestedScope} {f : Filter} {s : Statement}
    (h : x.delete f = .ok s) : x.Confines f s := by
  unfold delete at h
  obtain ⟨p, hp, h⟩ := bind_eq_ok.mp h
  cases h
  obtain ⟨hslots, hconfined⟩ := scopedWhere_spec hp
  obtain ⟨formula, hformula⟩ := hconfined []
  refine confines_of_confined (condition?_delete ..) ?_ hformula
  show slots ((Statement.delete x.target.table p false).tokens x.env.dialect) = _
  simp [Statement.tokens, hslots]

theorem insertUnless_confines {x : NestedScope} {row : Row} {f : Filter} {p : Predicate}
    {s : Statement} (hp : x.scopedWhere f = .ok p) (h : x.insertUnless row p = .ok s) :
    x.Confines f s := by
  unfold insertUnless at h
  obtain ⟨columns, -, h⟩ := bind_eq_ok.mp h
  cases h
  obtain ⟨hslots, hconfined⟩ := scopedWhere_spec hp
  obtain ⟨formula, hformula⟩ := hconfined (x.key :: row.values)
  refine confines_of_confined (condition?_insertUnless ..) ?_ hformula
  show slots ((Statement.insertUnless x.target.table (x.target.foreignKey :: columns)
    (x.key :: row.values) p).tokens x.env.dialect) = _
  simp [Statement.tokens, insertInto, notExists, hslots]

/-- Both statements of an upsert look at the parent's rows only. -/
theorem upsert_confines {x : NestedScope} {f : Filter} {create update : Row}
    {statements : List Statement} (h : x.upsert f create update = .ok statements) :
    ∀ s ∈ statements, x.Confines f s := by
  unfold upsert at h
  obtain ⟨-, -, h⟩ := bind_eq_ok.mp h
  obtain ⟨updates, hupdates, h⟩ := bind_eq_ok.mp h
  obtain ⟨present, hpresent, h⟩ := bind_eq_ok.mp h
  obtain ⟨insertion, hinsertion, h⟩ := bind_eq_ok.mp h
  cases h
  intro s hs
  rcases List.mem_append.mp hs with hs | hs
  · unfold updateIfAny at hupdates
    split at hupdates
    -- an update without fields is left out
    next =>
      cases hupdates
      exact absurd hs (by simp)
    next =>
      obtain ⟨-, -, hupdates⟩ := bind_eq_ok.mp hupdates
      obtain ⟨s', hs', hupdates⟩ := bind_eq_ok.mp hupdates
      cases hupdates
      rw [List.mem_singleton.mp hs]
      exact update_confines hs'
  · rw [List.mem_singleton.mp hs]
    exact insertUnless_confines hpresent hinsertion

/-- Every statement of a change that is confined to the parent's rows is so in its
text. -/
theorem compile_confines {x : NestedScope} {change : RelationChange} {f : Filter}
    {statements : List Statement} (hf : change.confined? = some f)
    (h : x.compile change = .ok statements) : ∀ s ∈ statements, x.Confines f s := by
  have hrow : ∀ {row : Row}, (do
        checkRow x.site row
        return [← x.update row f]) = .ok statements → ∀ s ∈ statements, x.Confines f s := by
    intro row h
    obtain ⟨-, -, h⟩ := bind_eq_ok.mp h
    obtain ⟨s', hs', h⟩ := bind_eq_ok.mp h
    cases h
    intro s hs
    rw [List.mem_singleton.mp hs]
    exact update_confines hs'
  have hdelete : (do return [← x.delete f]) = .ok statements →
      ∀ s ∈ statements, x.Confines f s := by
    intro h
    obtain ⟨s', hs', h⟩ := bind_eq_ok.mp h
    cases h
    intro s hs
    rw [List.mem_singleton.mp hs]
    exact delete_confines hs'
  cases change with
  | update g row => cases hf; exact hrow h
  | updateMany g row => cases hf; exact hrow h
  | delete g => cases hf; exact hdelete h
  | deleteMany g => cases hf; exact hdelete h
  | upsert g create update => cases hf; exact upsert_confines h
  | _ => cases hf

end NestedScope

/-! ## Joins -/

/-- The condition of a join is confined by the equalities of its relation, whatever has
been bound before it. -/
def JoinSite.Confines (env : Env) (site : JoinSite) (j : Join) : Prop :=
  ∃ relation parent equalities,
    env.schema.relation site.model site.inclusion.relation = .ok relation ∧
      parent.model = site.model ∧
      List.Forall₂ (Pairs env.schema parent relation.toModel j.aliasName)
        (relation.fromFields.zip relation.toFields) equalities ∧
      ∀ bound, ∃ clause formula,
        j.condition? env.dialect bound = some clause ∧
          Confined env
            { model := some relation.toModel, qualifier := some j.aliasName, clause := .joinOn }
            bound equalities site.inclusion.ownFilter clause formula

/-- A join is confined by the equalities of its relation. -/
theorem JoinSite.CompiledTo.confines {env : Env} {site : JoinSite} {j : Join}
    (h : site.CompiledTo env j) : site.Confines env j := by
  obtain ⟨relation, parent, equalities, filter, hj⟩ := h
  obtain ⟨hne, hpairs⟩ := relationEqualities_spec hj.equalities_eq
  refine ⟨relation, parent, equalities, hj.relation_eq, hj.model_eq, hpairs, ?_⟩
  intro bound
  obtain ⟨formula, hformula⟩ :=
    confined_all hne (Inclusion.compileFilter_spec hj.filter_eq) bound
  rw [← hj.on_eq] at hformula
  exact ⟨_, formula, condition?_join .., hformula⟩

/-- A filter never widens the relation that it is placed beside: the conditions of nested
updates, deletions and upserts are confined by the parent's key, and those of joins by the
equalities of the relation. -/
theorem relation_scope (env : Env) :
    (∀ (parent : String) (key : Value) (w : NestedWrite) (f : Filter)
        (statements : List Statement),
      w.change.confined? = some f → w.compile env parent key = .ok statements →
        ∃ target, w.target env.schema parent = .ok target ∧
          ∀ s ∈ statements,
            NestedScope.Confines
              { env, target, relation := w.relation, kind := w.change.kind, key } f s) ∧
      ∀ (model aliasName : String) (inclusions : List Inclusion) (plan : JoinPlan),
        compileJoins env model aliasName inclusions = .ok plan →
          List.Forall₂ (JoinSite.Confines env)
            (Inclusion.sitesOf env.schema model inclusions) plan.joins := by
  refine ⟨?_, ?_⟩
  · intro parent key w f statements hf h
    unfold NestedWrite.compile at h
    obtain ⟨target, htarget, h⟩ := bind_eq_ok.mp h
    exact ⟨target, htarget, NestedScope.compile_confines hf h⟩
  · intro model aliasName inclusions plan h
    exact (Inclusion.compileJoins_spec h).2.imp fun _ _ hj => hj.confines

/-- The deletion of a reader's books that are late or of unknown state. -/
def lateBooks : NestedWrite :=
  { relation := "books"
    change := .deleteMany (.or [.equals "late" (.bool true), .isNull "late"]) }

/-- A disjunction stays in its parentheses beside the foreign key. -/
theorem relation_scope_late :
    ∃ s target, lateBooks.compile { schema := librarySchema, dialect := .postgres } "Reader"
          (.int 7) = .ok [s] ∧
      s.prepare .postgres
        = { sql := "DELETE FROM books WHERE reader_id = $1 AND (late = $2 OR late IS NULL)"
            args := [.int 7, .bool true] } ∧
      NestedScope.Confines
        { env := { schema := librarySchema, dialect := .postgres }, target
          relation := "books", kind := .deleteMany, key := .int 7 }
        (.or [.equals "late" (.bool true), .isNull "late"]) s := by
  have htext : (lateBooks.compile { schema := librarySchema, dialect := .postgres } "Reader"
        (.int 7)).map (·.map (·.prepare .postgres))
      = .ok
          [{ sql := "DELETE FROM books WHERE reader_id = $1 AND (late = $2 OR late IS NULL)"
             args := [.int 7, .bool true] }] := by decide
  cases hs : lateBooks.compile { schema := librarySchema, dialect := .postgres } "Reader"
      (.int 7) with
  | error e =>
    rw [hs] at htext
    cases htext
  | ok statements =>
    rw [hs] at htext
    obtain ⟨s, rfl, hprepared⟩ := List.map_eq_singleton_iff.mp (Except.ok.inj htext)
    obtain ⟨target, -, hconfines⟩ :=
      (relation_scope _).1 "Reader" (.int 7) lateBooks _ _ rfl hs
    exact ⟨s, target, rfl, hprepared, hconfines s (by simp)⟩

end SqlQuery
