import SqlQuery.Proofs.Compile.EitherOr
import SqlQuery.Proofs.Compile.JoinNode

/-!
# Whose children a row is among

Two clauses tell which rows of a relation belong to a row of its parent. The condition of a join
holds one equality for every pair of fields that the relation lists. A nested write knows the parent
by one key, and asks that the column of the first field on the other side be equal to it. With the
parent's value of the first field for the key this is the first equality of the join, so what is
joined to the parent is within reach of its nested writes. The other way round it is so where the
remaining equalities hold, and there are none if the relation lists one pair.

> `NestedScope.picks_scopeAtom`: to have the parent's key is to meet the equality of one pair.

> `JoinNode.Compiled.shares`: a join and a write to its relation have the first equality in common.

> `children_agree`: rows that are joined, and rows that nested writes reach.
-/

namespace SqlQuery

open Sql

/-- What an operand finds in a pair of rows, one of which is joined under an alias. -/
def joinedLook (aliasName : String) (parent child : TableRow) : Operand → Value
  | .column c => if c.qualifier = some aliasName then child c.column else parent c.column
  | .aggregate .. => .null

/-- A write to a relation that the parent declares goes to the relation's model. -/
theorem NestedWrite.target_of_relation {w : NestedWrite} {schema : Schema} {parent : String}
    {r : Relation} (h : schema.relation parent w.relation = .ok r) :
    w.target schema parent = RelationTarget.declared schema parent r w.change.kind := by
  unfold Schema.relation at h
  obtain ⟨m, hm, hr⟩ := bind_eq_ok.mp h
  unfold target
  rw [hm]
  dsimp only
  rw [hr]

/-- The target of a relation is the table of its model, and the column of the first field there. -/
theorem RelationTarget.declared_spec {schema : Schema} {parent : String} {r : Relation}
    {kind : RelationChange.Kind} {target : RelationTarget}
    (h : declared schema parent r kind = .ok target) :
    r.kind ≠ .manyToOne ∧ schema.table r.toModel = .ok target.table ∧
      ∃ field rest, r.toFields = field :: rest ∧
        schema.column r.toModel field = .ok target.foreignKey := by
  unfold declared at h
  split at h
  next => cases h
  next hkind =>
    split at h
    next => cases h
    next field rest hfields =>
      obtain ⟨table, htable, h⟩ := bind_eq_ok.mp h
      obtain ⟨foreignKey, hforeignKey, h⟩ := bind_eq_ok.mp h
      cases h
      exact ⟨hkind, htable, field, rest, hfields, hforeignKey⟩

/-- To have the parent's key is to meet the equality of the two columns. -/
theorem NestedScope.picks_scopeAtom {x : NestedScope} {E : Engine} {parent : JoinParent}
    {aliasName column : String} {parentRow childRow : TableRow}
    (halias : parent.aliasName ≠ aliasName) (hkey : x.key = parentRow column) :
    x.scopeAtom.Picks E childRow ↔
      (Atom.sameColumn ⟨some aliasName, x.target.foreignKey⟩ ⟨some parent.aliasName, column⟩).truth
        E (joinedLook aliasName parentRow childRow) = some true := by
  have hchild : joinedLook aliasName parentRow childRow
      (.column ⟨some aliasName, x.target.foreignKey⟩) = childRow x.target.foreignKey :=
    if_pos rfl
  have hparent : joinedLook aliasName parentRow childRow
      (.column ⟨some parent.aliasName, column⟩) = parentRow column :=
    if_neg fun he => halias (Option.some.inj he)
  unfold Predicate.Picks
  rw [Atom.truth, hchild, hparent, ← hkey]
  exact Iff.rfl

/-- The scope in which a write below a parent is compiled. -/
def NestedWrite.scope (w : NestedWrite) (env : Env) (target : RelationTarget) (key : Value) :
    NestedScope :=
  { env, target, relation := w.relation, kind := w.change.kind, key }

namespace JoinNode

variable {env : Env} {n : JoinNode}

/-- Whether a row and one that is joined to it meet some equalities. -/
def Meets (E : Engine) (n : JoinNode) (equalities : List Atom) (parentRow childRow : TableRow) :
    Prop :=
  ∀ e ∈ equalities, e.truth E (joinedLook n.join.aliasName parentRow childRow) = some true

instance (E : Engine) (equalities : List Atom) (parentRow childRow : TableRow) :
    Decidable (n.Meets E equalities parentRow childRow) :=
  inferInstanceAs (Decidable (∀ e ∈ equalities, _ = _))

/-- What a join and a write to its relation have in common: the table, and the first equality of
the join, which is what the write asks for if the parent is known by the column of that equality. -/
structure Shares (env : Env) (n : JoinNode) (w : NestedWrite) (target : RelationTarget)
    (column : String) (first : Atom) (rest : List Atom) : Prop where
  table_eq : n.join.table = target.table
  equalities_eq : relationEqualities env.schema n.parent n.relation n.join.aliasName
    = .ok (first :: rest)
  on_eq : ∃ filter : Option Predicate,
    n.join.on = .all ((first :: rest).map .atom ++ filter.toList)
  rest_iff : rest = [] ↔ n.relation.fromFields.length = 1
  column_eq : ∃ field, n.relation.fromFields.head? = some field ∧
    env.schema.column n.parent.model field = .ok column
  first_iff : ∀ (E : Engine) (parentRow childRow : TableRow),
    n.Meets E [first] parentRow childRow ↔
      (w.scope env target (parentRow column)).scopeAtom.Picks E childRow

/-- A join and a write to the relation of its inclusion share the first equality. -/
theorem Compiled.shares (h : n.Compiled env) (hused : n.parent.aliasName ∈ n.used) {w : NestedWrite}
    {target : RelationTarget} (hw : w.relation = n.inclusion.relation)
    (htarget : w.target env.schema n.parent.model = .ok target) :
    ∃ column first rest, n.Shares env w target column first rest := by
  have hrelation := h.relation_eq
  rw [← hw] at hrelation
  rw [NestedWrite.target_of_relation hrelation] at htarget
  obtain ⟨-, htable, toField, toRest, hto, hforeignKey⟩ := RelationTarget.declared_spec htarget
  obtain ⟨equalities, filter, hjoined⟩ := h.joined
  obtain ⟨hlength, hsome⟩ := paired_of_relationEqualities hjoined.equalities_eq
  obtain ⟨-, hpairs⟩ := relationEqualities_spec hjoined.equalities_eq
  obtain ⟨fromField, fromRest, hfrom⟩ := List.exists_cons_of_ne_nil hsome
  rw [hfrom, hto, List.length_cons, List.length_cons, Nat.succ_inj] at hlength
  rw [hfrom, hto, List.zip_cons_cons] at hpairs
  cases hpairs with
  | @cons _ first _ rest hfirst hrest =>
    obtain ⟨column, foreignKey, hcolumn, hfk, rfl⟩ := hfirst
    cases hfk.symm.trans hforeignKey
    have halias : n.parent.aliasName ≠ n.join.aliasName := by
      intro he
      have hfresh := freshAlias_not_mem n.used (n.parent.aliasName ++ "_" ++ n.relation.name)
      rw [← h.alias_eq, ← he] at hfresh
      exact hfresh hused
    refine ⟨column, _, rest, ?_, hjoined.equalities_eq, ⟨filter, hjoined.on_eq⟩, ?_, ?_, ?_⟩
    · exact Except.ok.inj (h.table_eq.symm.trans htable)
    · rw [hfrom, List.length_cons, ← List.length_eq_zero_iff, ← hrest.length_eq, List.length_zip,
        ← hlength, Nat.min_self]
      omega
    · exact ⟨fromField, by rw [hfrom]; rfl, hcolumn⟩
    · intro E parentRow childRow
      unfold Meets
      rw [List.forall_mem_singleton]
      exact (NestedScope.picks_scopeAtom (x := w.scope env target (parentRow column)) halias
        rfl).symm

/-- Rows that are joined are those that the write reaches and that meet the other equalities. -/
theorem Shares.meets_iff {w : NestedWrite} {target : RelationTarget} {column : String}
    {first : Atom} {rest : List Atom} (h : n.Shares env w target column first rest) (E : Engine)
    (parentRow childRow : TableRow) :
    n.Meets E (first :: rest) parentRow childRow ↔
      (w.scope env target (parentRow column)).scopeAtom.Picks E childRow ∧
        n.Meets E rest parentRow childRow := by
  rw [← h.first_iff]
  unfold Meets
  rw [List.forall_mem_cons, List.forall_mem_singleton]

/-- The column that the parent is known by is that of the relation's first field. -/
theorem Shares.column_of {w : NestedWrite} {target : RelationTarget} {column known field : String}
    {first : Atom} {rest : List Atom} (h : n.Shares env w target column first rest)
    (hfield : n.relation.fromFields.head? = some field)
    (hknown : env.schema.column n.parent.model field = .ok known) : column = known := by
  obtain ⟨field', hfield', hcolumn⟩ := h.column_eq
  cases hfield.symm.trans hfield'
  exact Except.ok.inj (hcolumn.symm.trans hknown)

end JoinNode

/-- Joins and nested writes on the children of a row. Where the joins of some inclusions are
compiled, and a write to the relation of one of them has a target below the model that the relation
is declared on, both go to one table. With what stands in the column of the relation's first field
for the parent's key, the rows that meet the equalities of the join are those of which the scope of
the write is true and which meet the equalities of the other pairs. If the relation lists one pair
of fields, the rows are the same. -/
theorem children_agree (env : Env) {model aliasName : String} {inclusions : List Inclusion}
    {plan : JoinPlan} (h : compileJoins env model aliasName inclusions = .ok plan) :
    ∃ nodes, Inclusion.AllJoinedAs env { model, aliasName } [aliasName] inclusions nodes ∧
      plan = planOf nodes ∧
      ∀ n ∈ nodes, ∀ (w : NestedWrite) (target : RelationTarget),
        w.relation = n.inclusion.relation → w.target env.schema n.parent.model = .ok target →
          ∃ column first rest, n.Shares env w target column first rest ∧
            ∀ (E : Engine) (parentRow childRow : TableRow),
              (n.Meets E (first :: rest) parentRow childRow ↔
                (w.scope env target (parentRow column)).scopeAtom.Picks E childRow ∧
                  n.Meets E rest parentRow childRow) ∧
              (n.relation.fromFields.length = 1 →
                (n.Meets E (first :: rest) parentRow childRow ↔
                  (w.scope env target (parentRow column)).scopeAtom.Picks E childRow)) := by
  obtain ⟨nodes, hnodes, hplan⟩ := Inclusion.allJoinedAs_of_compileJoins h
  refine ⟨nodes, hnodes, hplan, ?_⟩
  intro n hn w target hw htarget
  have hused := hnodes.parent_mem (List.mem_singleton_self _) n hn
  obtain ⟨column, first, rest, hshares⟩ := (hnodes.spec.2 n hn).shares hused hw htarget
  refine ⟨column, first, rest, hshares, ?_⟩
  intro E parentRow childRow
  refine ⟨hshares.meets_iff E parentRow childRow, fun hone => ?_⟩
  rw [hshares.rest_iff.mpr hone]
  exact hshares.first_iff E parentRow childRow

/-- All books of a reader are thrown away. -/
def throwAway : NestedWrite :=
  { relation := "books", change := .deleteMany {} }

/-- Readers with the books that they both read and own. -/
def ownerSchema : Schema :=
  .ofModels
    [{ name := "Reader", table := "readers", relations :=
        [{ name := "books", toModel := "Book", fromFields := ["id", "id"]
           toFields := ["reader", "owner"], kind := .oneToMany }] },
     { name := "Book", table := "books", fields :=
        [{ name := "reader", column := some "reader_id" },
         { name := "owner", column := some "owner_id" }] }]

/-- A book that the seventh reader has borrowed from the ninth one. -/
def lentBook : TableRow := fun column =>
  if column = "reader_id" then .int 7 else .int 9

/-- The books of a reader are those that are joined. Where a second pair asks that the reader own
them too, the lent book is within reach of the write, and it is its owner that keeps it from being
joined. -/
theorem children_agree_books :
    (let env : Env := { schema := librarySchema, dialect := .sqlite }
      let target : RelationTarget :=
        { model := some "Book", table := "books", foreignKey := "reader_id" }
      ∃ (plan : JoinPlan) (n : JoinNode) (e : Atom),
        compileJoins env "Reader" "readers" [{ relation := "books" }] = .ok plan ∧
        throwAway.target librarySchema "Reader" = .ok target ∧ plan.joins = [n.join] ∧
        n.Shares env throwAway target "id" e [] ∧
        ∀ (E : Engine) (reader book : TableRow), n.Meets E [e] reader book ↔
          (throwAway.scope env target (reader "id")).scopeAtom.Picks E book) ∧
      let env : Env := { schema := ownerSchema, dialect := .sqlite }
      let target : RelationTarget :=
        { model := some "Book", table := "books", foreignKey := "reader_id" }
      let owned : Atom :=
        .sameColumn ⟨some "readers_books", "owner_id"⟩ ⟨some "readers", "id"⟩
      ∃ (plan : JoinPlan) (n : JoinNode) (e : Atom),
        compileJoins env "Reader" "readers" [{ relation := "books" }] = .ok plan ∧
        throwAway.target ownerSchema "Reader" = .ok target ∧ plan.joins = [n.join] ∧
        n.Shares env throwAway target "id" e [owned] ∧
        (∀ (E : Engine) (reader book : TableRow), n.Meets E [e, owned] reader book ↔
          (throwAway.scope env target (reader "id")).scopeAtom.Picks E book ∧
            n.Meets E [owned] reader book) ∧
        (throwAway.scope env target (.int 7)).scopeAtom.Picks .exact lentBook ∧
        ¬n.Meets .exact [owned] (fun _ => .int 7) lentBook ∧
        ¬n.Meets .exact [e, owned] (fun _ => .int 7) lentBook := by
  refine ⟨?_, ?_⟩
  · intro env target
    have htarget : throwAway.target librarySchema "Reader" = .ok target := by decide
    obtain ⟨plan, hplan⟩ : ∃ plan,
        compileJoins env "Reader" "readers" [{ relation := "books" }] = .ok plan := ⟨_, rfl⟩
    obtain ⟨nodes, hnodes, rfl, hagree⟩ := children_agree env hplan
    obtain ⟨n, rfl, hparent, -, hinclusion, hn⟩ := hnodes.single rfl
    obtain ⟨column, e, rest, hshares, hrows⟩ := hagree n (by simp) throwAway target
      (by rw [hinclusion]; rfl) (by rw [hparent]; exact htarget)
    have hrelation := hn.relation_eq
    rw [hparent, hinclusion] at hrelation
    have hone : n.relation.fromFields.length = 1 := by
      rw [← Except.ok.inj hrelation]
      rfl
    obtain rfl := hshares.rest_iff.mpr hone
    obtain rfl : column = "id" :=
      hshares.column_of (by rw [← Except.ok.inj hrelation]; rfl) (by rw [hparent]; rfl)
    refine ⟨_, n, e, hplan, htarget, rfl, hshares, ?_⟩
    exact fun E reader book => (hrows E reader book).2 hone
  · intro env target owned
    have htarget : throwAway.target ownerSchema "Reader" = .ok target := by decide
    obtain ⟨plan, hplan⟩ : ∃ plan,
        compileJoins env "Reader" "readers" [{ relation := "books" }] = .ok plan := ⟨_, rfl⟩
    obtain ⟨nodes, hnodes, rfl, hagree⟩ := children_agree env hplan
    obtain ⟨n, rfl, hparent, hused, hinclusion, hn⟩ := hnodes.single rfl
    obtain ⟨column, e, rest, hshares, hrows⟩ := hagree n (by simp) throwAway target
      (by rw [hinclusion]; rfl) (by rw [hparent]; exact htarget)
    have hrelation := hn.relation_eq
    rw [hparent, hinclusion] at hrelation
    have halias : n.join.aliasName = "readers_books" := by
      rw [hn.alias_eq, hused, hparent, ← Except.ok.inj hrelation]
      decide
    have hequalities := hshares.equalities_eq
    rw [hparent, halias, ← Except.ok.inj hrelation] at hequalities
    cases hequalities
    obtain rfl : column = "id" :=
      hshares.column_of (by rw [← Except.ok.inj hrelation]; rfl) (by rw [hparent]; rfl)
    have hrows E reader book := (hrows E reader book).1
    have howner : ¬n.Meets .exact [owned] (fun _ => .int 7) lentBook := by
      unfold JoinNode.Meets
      rw [halias]
      decide
    refine ⟨_, n, _, hplan, htarget, rfl, hshares, hrows, by decide, howner, ?_⟩
    exact fun hmeets => howner ((hrows _ _ _).mp hmeets).2

/-- Of two pairs a join asks for both equalities and a nested write for the first one only, so books
are thrown away that are not joined. -/
theorem borrowed_thrown_away :
    let env : Env := { schema := ownerSchema, dialect := .sqlite }
    ∃ (plan : JoinPlan) (j : Join) (p : Predicate),
      compileJoins env "Reader" "readers" [{ relation := "books" }] = .ok plan ∧
      plan.joins = [j] ∧
      j.on = .all
        [.atom (.sameColumn ⟨some "readers_books", "reader_id"⟩ ⟨some "readers", "id"⟩),
          .atom (.sameColumn ⟨some "readers_books", "owner_id"⟩ ⟨some "readers", "id"⟩)] ∧
      j.on.truth .exact (joinedLook j.aliasName (fun _ => .int 7) lentBook) = some false ∧
      throwAway.compile env "Reader" (.int 7) = .ok [.delete "books" p false] ∧
      p.Picks .exact lentBook := by
  intro env
  refine ⟨_, _, _, rfl, rfl, rfl, by decide, rfl, by decide⟩

end SqlQuery
