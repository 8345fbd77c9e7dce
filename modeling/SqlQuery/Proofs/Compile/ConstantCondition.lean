import SqlQuery.Proofs.Compile.Attachment
import SqlQuery.Proofs.Compile.Safety
import SqlQuery.Proofs.Compile.Written
import SqlQuery.Proofs.Sql.WhereClause

/-!
# Conditions that look at no column

A condition that asks about the items of a list looks at nothing where the list has none: it is
written as a comparison of two numbers, which is true of every row or of no row. A filter that is
made of such conditions only is not empty, so it is taken where a filter is required. What stands
behind WHERE then names no column, and it is true of all rows or of none, whichever the tree makes
of its conditions. One condition of another kind is enough for a column to be named, and beside it
the comparison of numbers is written all the same.

> `Condition.constant_of_atom`: an atom looks at its condition's column unless the condition asks
> about an empty list.

> `Filter.restricts_of_compile`: what a filter says behind WHERE, and the columns named there.

> `columns_named_in_where`: the same of every statement for which a filter is required.
-/

namespace SqlQuery

open Sql

/-! ## Conditions -/

/-- What an operator says of an empty list, if it asks about a list. -/
def Operator.ofNothing? : Operator → Option Bool
  | .isIn | .hasSome => some false
  | .notIn | .hasEvery => some true
  | _ => none

namespace Condition

/-- What a condition says of every row, if it asks about an empty list. -/
def constant? (c : Condition) : Option Bool :=
  if c.value.array? = some [] then c.op.ofNothing? else none

variable {c : Condition} {env : Env} {scope : FilterScope} {lhs : Operand} {a : Atom}

/-- What an atom is if its condition is known to be a constant, or not to be one. -/
def Realizes (said : Option Bool) (a : Atom) : Prop :=
  match said with
  | some truth => a = .constant truth
  | none => a.operands ≠ []

/-- A condition on a list is a constant where the list is empty. -/
theorem constant_of_membership {expected : Bool} (h : c.membership lhs expected = .ok a) :
    Realizes (if c.value.array? = some [] then some (!expected) else none) a := by
  unfold membership at h
  split at h
  next => cases h
  next hitems =>
    cases h
    rw [if_pos hitems]
    rfl
  next items hne hitems =>
    cases h
    rw [if_neg fun he => hne (Option.some.inj (hitems.symm.trans he))]
    exact List.cons_ne_nil _ _

/-- A condition on elements is a constant where there are none. -/
theorem constant_of_elements {vacuous : Bool} {test : List Value → ArrayTest}
    (h : c.elements env lhs vacuous test = .ok a) :
    Realizes (if c.value.array? = some [] then some vacuous else none) a := by
  unfold elements at h
  split at h
  next => cases h
  next items hitems =>
    obtain ⟨style, -, h⟩ := bind_eq_ok.mp h
    cases h
    cases items with
    | nil =>
      rw [if_pos hitems]
      rfl
    | cons v rest =>
      rw [if_neg fun he => by simpa using hitems.symm.trans he]
      exact List.cons_ne_nil _ _

/-- An atom is a constant where its condition asks about an empty list, and looks at something
where it does not. -/
theorem constant_of_atom (h : c.atom env scope = .ok a) : Realizes c.constant? a := by
  unfold atom at h
  obtain ⟨lhs, -, h⟩ := bind_eq_ok.mp h
  unfold constant? Operator.ofNothing?
  split at h
  next => cases h
  next =>
    cases hop : c.op <;> rw [hop] at h <;> dsimp only at h ⊢
    case isIn | notIn => exact constant_of_membership h
    case hasEvery | hasSome => exact constant_of_elements h
    all_goals rw [ite_self]
    case equals | not =>
      cases h
      unfold matching
      split <;> exact List.cons_ne_nil _ _
    case lt | lte | gt | gte =>
      unfold ordered at h
      split at h <;> cases h
      exact List.cons_ne_nil _ _
    case contains | startsWith | endsWith =>
      unfold patterned at h
      split at h <;> cases h
      exact List.cons_ne_nil _ _
    case isNull | search =>
      split at h <;> cases h
      exact List.cons_ne_nil _ _
    case isEmpty | has =>
      split at h
      all_goals first
        | cases h
        | obtain ⟨style, rfl⟩ := arrays_spec h
          exact List.cons_ne_nil _ _

/-- A condition stands as some part of a text: as a comparison of two numbers if it asks about an
empty list, and as something with the name of its column in it if it does not. -/
def StandsAs (env : Env) (scope : FilterScope) (c : Condition) (piece : List Lexeme) : Prop :=
  match c.constant? with
  | some truth => piece = [.word ['1'], .mark '=', .word [if truth then '1' else '0']]
  | none => ∃ ref, c.columnRef env scope = .ok ref ∧ Lexeme.ofName ref.column.toList ∈ piece

/-- A comparison of two numbers is read back as it stands. -/
theorem lexemesOf_constant (d : Dialect) (bound : Nat) (truth : Bool) :
    lexemesOf d bound ((Atom.constant truth).tokens d)
      = [.word ['1'], .mark '=', .word [if truth then '1' else '0']] := by
  cases truth <;> rfl

/-- What an atom is written as is what its condition stands as. -/
theorem standsAs_of_atom (h : c.atom env scope = .ok a) (bound : Nat) :
    c.StandsAs env scope (lexemesOf env.dialect bound (a.tokens env.dialect)) := by
  have hatom := constant_of_atom h
  unfold StandsAs
  cases hconstant : c.constant? with
  | some truth =>
    rw [hconstant] at hatom
    rw [show a = .constant truth from hatom]
    exact lexemesOf_constant env.dialect bound truth
  | none =>
    rw [hconstant] at hatom
    obtain ⟨o, ho⟩ := List.exists_mem_of_ne_nil _ hatom
    refine ⟨o.ref, columnRef_of_operand (operand_of_atom h o ho), ?_⟩
    refine ofName_mem_lexemesOf (name_mem_of_mem_references ?_) _ _
    rw [(a.refersTo env.dialect).references_eq, Atom.refs_eq]
    exact List.mem_map_of_mem ho

/-- The atoms of conditions are written one after the other as what the conditions stand as. -/
theorem standsAs_of_compiledTo {cs : List Condition} {as : List Atom}
    (h : CompiledTo env scope cs as) (bound : Nat) :
    List.Forall₂ (StandsAs env scope) cs
      (lexemesOfAll env.dialect bound (as.map (·.tokens env.dialect))) := by
  induction h generalizing bound with
  | nil => exact .nil
  | cons hc _ ih => exact .cons (standsAs_of_atom hc bound) (ih _)

end Condition

/-! ## Filters -/

namespace Filter

/-- What a filter says of every row, where all its conditions ask about empty lists. -/
def constant (f : Filter) : Bool :=
  f.meaning (fun i => (f.allConditions[i]?.bind Condition.constant?).getD false) 0

/-- What a filter makes of the condition of a statement: there is one to look at, every condition
stands in its place behind WHERE, the columns that are named there are those of the conditions that
look at one, and without any the condition says the same of every row. -/
structure Restricts (f : Filter) (env : Env) (scope : FilterScope) (s : Statement) (p : Predicate)
    (bound : Nat) : Prop where
  conditions_ne : f.allConditions ≠ []
  where_eq : s.where? = some p
  text : ∃ tail, (tail = [] ∨ tail = [Keyword.returning.lexeme, .mark '*']) ∧
    (lexemes env.dialect.quote (s.prepare env.dialect).sql.toList).map (Lexeme.behind .where_)
      = some (lexemesOf env.dialect bound (p.tokens env.dialect) ++ tail)
  pieces : ∃ pieces, List.Forall₂ (Condition.StandsAs env scope) f.allConditions pieces ∧
    Woven Lexeme.isPlaceholder pieces (lexemesOf env.dialect bound (p.tokens env.dialect))
  named : ∀ c ∈ f.allConditions, c.constant? = none → ∃ ref, c.columnRef env scope = .ok ref ∧
    Lexeme.ofName ref.column.toList ∈ lexemesOf env.dialect bound (p.tokens env.dialect)
  unnamed : (∀ c ∈ f.allConditions, c.constant? ≠ none) → ∀ name,
    Lexeme.ofName name ∉ lexemesOf env.dialect bound (p.tokens env.dialect)
  constant : (∀ c ∈ f.allConditions, c.constant? ≠ none) → ∀ (E : Engine) (look : Operand → Value),
    p.truth E look = some f.constant

variable {f : Filter} {env : Env} {scope : FilterScope} {s : Statement} {p : Predicate}

/-- The atoms of a compiled filter are constants where its conditions are. -/
theorem atoms_eq_of_constant (h : Condition.CompiledTo env scope f.allConditions p.atoms)
    (hconstant : ∀ c ∈ f.allConditions, c.constant? ≠ none) :
    p.atoms = f.allConditions.map fun c => .constant (c.constant?.getD false) := by
  generalize f.allConditions = cs, p.atoms = as at h hconstant ⊢
  induction h with
  | nil => rfl
  | @cons c a cs as hc _ ih =>
    have hatom := Condition.constant_of_atom hc
    obtain ⟨truth, htruth⟩ := Option.ne_none_iff_exists'.mp (hconstant c (List.mem_cons_self ..))
    rw [htruth] at hatom
    rw [List.map_cons, htruth, ← ih fun c hc => hconstant c (List.mem_cons_of_mem _ hc)]
    exact congrArg (· :: as) hatom

/-- The condition that a filter is compiled to. -/
theorem restricts_of_compile (h : f.compile env scope = .ok (some p)) (hs : s.where? = some p) :
    ∃ bound, f.Restricts env scope s p bound := by
  have hspec := compileNode_spec env scope f 1 (some p) h
  have hatoms : Condition.CompiledTo env scope f.allConditions p.atoms := by
    simpa [Predicate.atomsOf] using hspec.atoms
  obtain ⟨bound, tail, htail, htext⟩ := Statement.behind_where hs env.dialect
  have hpieces := Condition.standsAs_of_compiledTo hatoms bound
  have hwoven := (p.woven_tokens env.dialect).lexemes env.dialect bound
  refine ⟨bound, ?_, hs, ⟨tail, htail, htext⟩, ⟨_, hpieces, hwoven⟩, ?_, ?_, ?_⟩
  · intro hempty
    cases hspec.none_iff.mpr ((Filter.isEmpty_iff f).mpr hempty)
  · intro c hc hnone
    obtain ⟨piece, hpiece, hstands⟩ := exists_mem_of_forall₂ (List.Forall₂.flip hpieces) c hc
    rw [hnone] at hstands
    obtain ⟨ref, href, hname⟩ := hstands
    exact ⟨ref, href, hwoven.mem_of_mem hpiece hname⟩
  · intro hconstant name
    refine ofName_not_mem_lexemesOf (Predicate.isPlain_tokens p ?_) _ _ _
    intro a ha
    rw [atoms_eq_of_constant hatoms hconstant] at ha
    obtain ⟨c, -, rfl⟩ := List.mem_map.mp ha
    exact ⟨_, rfl⟩
  · intro hconstant E look
    have heval := hspec.eval p rfl
    rw [constant, ← heval]
    refine Predicate.truth_of_known p 0 fun i a hi => ?_
    rw [atoms_eq_of_constant hatoms hconstant, List.getElem?_map] at hi
    obtain ⟨c, hc, rfl⟩ := Option.map_eq_some_iff.mp hi
    rw [Nat.zero_add, hc]
    rfl

end Filter

/-! ## The statements for which a filter is required -/

/-- An update or a deletion has for its condition what its filter is compiled to. -/
theorem Query.filter_of_compile {q : Query} {env : Env} {c : Compiled}
    (hop : q.operation.needsFilter = true) (h : q.compile env = .ok c) :
    ∃ p, q.filter.compile env { model := some q.model } = .ok (some p) ∧
      c.statement.where? = some p := by
  have hwrites : q.operation.reads = false := by
    revert hop
    cases q.operation <;> decide
  have hwritten := writtenAs_of_compile hwrites h
  have hpayload := payload_of_needsFilter hop (kind_of_compile h)
  generalize c.statement = s at hwritten ⊢
  cases hwritten with
  | update _ _ _ hp => exact ⟨_, compile_of_safeWhere hp, rfl⟩
  | delete _ hp => exact ⟨_, compile_of_safeWhere hp, rfl⟩
  | create hinsert | createMany hinsert | upsert hinsert =>
    rw [hinsert] at hpayload
    rcases hpayload with ⟨row, he⟩ | ⟨he, -⟩ <;> cases he

namespace NestedScope

/-- Rows that are tied to the parent or to none are those that the filter is true of. -/
theorem filter_of_compile {x : NestedScope} {change : RelationChange} {f : Filter}
    {statements : List Statement} (hf : change = .connect f ∨ change = .disconnect f)
    (h : x.compile change = .ok statements) :
    ∃ s p, statements = [s] ∧ f.compile x.env x.filterScope = .ok (some p) ∧
      s.where? = some p := by
  rcases hf with rfl | rfl
  · obtain ⟨s, hs, h⟩ := bind_eq_ok.mp h
    obtain ⟨p, hp, hs⟩ := bind_eq_ok.mp hs
    cases hs
    cases h
    exact ⟨_, p, rfl, compile_of_requiredWhere hp, rfl⟩
  · obtain ⟨p, hp, h⟩ := bind_eq_ok.mp h
    cases h
    exact ⟨_, p, rfl, compile_of_requiredWhere hp, rfl⟩

end NestedScope

/-- Which columns are named behind WHERE. A query that updates or deletes, and a write that connects
or disconnects rows, has a condition, and it names the column of every condition of the filter that
does not ask about an empty list. Where all of them do, it names none and is true of all rows or of
none: of all exactly if the tree is true with what its conditions say of empty lists. -/
theorem columns_named_in_where (env : Env) :
    (∀ (q : Query) (c : Compiled), q.operation.needsFilter = true → q.compile env = .ok c →
        ∃ p bound, q.filter.Restricts env { model := some q.model } c.statement p bound) ∧
      ∀ (parent : String) (key : Value) (before : List NestedWrite) (w : NestedWrite)
          (after : List NestedWrite) (f : Filter) (statements : List Statement),
        (w.change = .connect f ∨ w.change = .disconnect f) →
          NestedWrite.compileAll env parent key (before ++ w :: after) = .ok statements →
            ∃ first target s last p bound,
              NestedWrite.compileAll env parent key before = .ok first ∧
              w.target env.schema parent = .ok target ∧
              NestedWrite.compileAll env parent key after = .ok last ∧
              statements = first ++ s :: last ∧
              f.Restricts env { model := target.model } s p bound := by
  refine ⟨?_, ?_⟩
  · intro q c hop h
    obtain ⟨p, hp, hs⟩ := Query.filter_of_compile hop h
    obtain ⟨bound, hrestricts⟩ := Filter.restricts_of_compile hp hs
    exact ⟨p, bound, hrestricts⟩
  · intro parent key before w after f statements hf h
    obtain ⟨first, own, last, hfirst, hown, hlast, rfl⟩ := NestedWrite.compileAll_around h
    unfold NestedWrite.compile at hown
    obtain ⟨target, htarget, hown⟩ := bind_eq_ok.mp hown
    obtain ⟨s, p, rfl, hp, hs⟩ := NestedScope.filter_of_compile hf hown
    obtain ⟨bound, hrestricts⟩ := Filter.restricts_of_compile hp hs
    exact ⟨first, target, s, last, p, bound, hfirst, htarget, hlast, rfl, hrestricts⟩

/-- A deletion of the readers who are in no list, or in one without items and of a name. -/
def namedPurge : Query :=
  { model := "Reader", operation := .deleteMany
    filter := .or [.isIn "id" (.array []), .equals "name" (.string "a")] }

/-- All books are given up that are late in none of no ways. -/
def giveUpAny : NestedWrite :=
  { relation := "books"
    change := .disconnect (.not [.or [.isIn "late" (.array [])]]) }

/-- A constant stands beside a condition that names its column, and alone it names none. -/
theorem columns_named_in_where_purge :
    (∃ c p bound, namedPurge.compile { schema := librarySchema, dialect := .sqlite } = .ok c ∧
        (c.statement.prepare .sqlite).sql = "DELETE FROM readers WHERE 1 = 0 OR name = ?" ∧
        c.statement.where? = some p ∧
        Lexeme.ofName "name".toList ∈ lexemesOf .sqlite bound (p.tokens .sqlite) ∧
        ∃ piece, Woven Lexeme.isPlaceholder [[.word ['1'], .mark '=', .word ['0']], piece]
          (lexemesOf .sqlite bound (p.tokens .sqlite))) ∧
      ∃ s p, NestedWrite.compileAll { schema := librarySchema, dialect := .sqlite } "Reader" (.int 7)
          [giveUpAny] = .ok [s] ∧
        (s.prepare .sqlite).sql = "UPDATE books SET reader_id = NULL WHERE NOT (1 = 0)" ∧
        s.where? = some p ∧ ∀ (E : Engine) (row : TableRow), p.Picks E row := by
  refine ⟨?_, ?_⟩
  · have hsql : (namedPurge.compile { schema := librarySchema, dialect := .sqlite }).map
          (fun c => (c.statement.prepare .sqlite).sql)
        = .ok "DELETE FROM readers WHERE 1 = 0 OR name = ?" := by decide
    cases hc : namedPurge.compile { schema := librarySchema, dialect := .sqlite } with
    | error e =>
      rw [hc] at hsql
      cases hsql
    | ok c =>
      rw [hc] at hsql
      obtain ⟨p, bound, hrestricts⟩ := (columns_named_in_where _).1 namedPurge c rfl hc
      obtain ⟨ref, href, hnamed⟩ := hrestricts.named (.equals "name" (.string "a"))
        (by simp [namedPurge, Filter.or, Filter.allConditions, Filter.conditionsOf]) rfl
      cases href
      obtain ⟨pieces, hpieces, hwoven⟩ := hrestricts.pieces
      have hconditions : namedPurge.filter.allConditions
          = [.isIn "id" (.array []), .equals "name" (.string "a")] := rfl
      rw [hconditions] at hpieces
      cases hpieces with
      | cons hfirst hrest =>
        cases hrest with
        | cons _ hnone =>
          cases hnone
          cases hfirst
          exact ⟨c, p, bound, rfl, Except.ok.inj hsql, hrestricts.where_eq, hnamed, _, hwoven⟩
  · have hsql : (NestedWrite.compileAll { schema := librarySchema, dialect := .sqlite } "Reader"
          (.int 7) [giveUpAny]).map (·.map fun s => (s.prepare .sqlite).sql)
        = .ok ["UPDATE books SET reader_id = NULL WHERE NOT (1 = 0)"] := by decide
    cases hs : NestedWrite.compileAll { schema := librarySchema, dialect := .sqlite } "Reader"
        (.int 7) [giveUpAny] with
    | error e =>
      rw [hs] at hsql
      cases hsql
    | ok statements =>
      rw [hs] at hsql
      obtain ⟨first, target, s, last, p, bound, hfirst, -, hlast, rfl, hrestricts⟩ :=
        (columns_named_in_where _).2 "Reader" (.int 7) [] giveUpAny [] _ statements (.inr rfl) hs
      cases hfirst
      cases hlast
      refine ⟨s, p, rfl, by simpa using Except.ok.inj hsql, hrestricts.where_eq, ?_⟩
      intro E row
      exact hrestricts.constant (by decide) E row.look

/-- A deletion of the readers whose id is in no list without items. -/
def wholePurge : Query :=
  { model := "Reader", operation := .deleteMany
    filter := .and [{ field := "id", op := .notIn, value := .array [] }] }

/-- A filter with a condition in it is taken for one that restricts: the deletion is not refused,
no column is named behind WHERE, and no row is left. -/
theorem wholePurge_unconditional :
    ∃ c ls, wholePurge.compile { schema := librarySchema, dialect := .sqlite } = .ok c ∧
      (c.statement.prepare .sqlite).sql = "DELETE FROM readers WHERE 1 = 1" ∧
      (lexemes Dialect.sqlite.quote (c.statement.prepare .sqlite).sql.toList).map
        (Lexeme.behind .where_) = some ls ∧
      (∀ name, Lexeme.ofName name ∉ ls) ∧
      ∀ (E : Engine) (db : Database), c.statement.run E db "readers" = [] := by
  let one : Predicate := .all [.atom (.constant true)]
  refine ⟨{ statement := .delete "readers" one false, mapping := { model := "Reader" } },
    [.word ['1'], .mark '=', .word ['1']], rfl, by decide, ?_, ?_, ?_⟩
  · rw [lexemes_prepare]
    decide
  · intro name hmem
    simp only [List.mem_cons, List.not_mem_nil, or_false] at hmem
    rcases hmem with he | he | he
    · exact Lexeme.ofName_ne_word (by decide) he
    · exact ofName_ne_mark (by decide) he
    · exact Lexeme.ofName_ne_word (by decide) he
  · intro E db
    rw [Statement.run, Function.update_self, List.filter_eq_nil_iff]
    intro r _
    have hpicks : one.Picks E r := rfl
    simpa using hpicks

end SqlQuery
