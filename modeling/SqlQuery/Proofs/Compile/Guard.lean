import SqlQuery.Proofs.Compile.NestedArguments
import SqlQuery.Proofs.Sql.InsertText
import SqlQuery.Proofs.Sql.JoinText
import SqlQuery.Proofs.Sql.Numbering

/-!
# The guard of a conditional insertion

A nested write that inserts a row only where no row is there updates the rows that are there
first. Update and insertion are statements of their own, each with its own arguments, and each
writes the filter behind other values: the update behind what it assigns, the insertion behind the
row that it inserts. `NestedScope.pickText` is the text of a filter as either of them needs it,
behind any values. The filter is required where the rows are those of any parent, and stands beside
the foreign key where they are the rows of this one; so in both cases there is a text, and the
insertion has a guard.

> `NestedScope.pickText_of_pick`: a filter that is compiled has a text behind any values, and it
> is never empty.

> `NestedWrite.insertion_guarded`: the insertion is guarded by the predicate that the update has
> for its condition.
-/

namespace SqlQuery

open Sql

namespace NestedScope

variable {x : NestedScope} {own : Bool} {f : Filter} {p : Predicate}

/-! ## The rows that a filter picks -/

/-- The predicate for the rows that a filter picks, of all rows or of the parent's own. -/
def pick (x : NestedScope) (own : Bool) (f : Filter) : Except Error Predicate :=
  if own then x.scopedWhere f else x.requiredWhere f

/-- The text for the rows that a filter picks, and the list after it. Where they are the parent's
own, the filter stands behind the equality of the foreign key, if it has a text. -/
def pickText (x : NestedScope) (own : Bool) (f : Filter) (p : Parameters) :
    Except Error String × Parameters :=
  if own then
    let (key, p) := p.bind x.key
    let (text, p) := p.writePredicate (f.compileOperand x.env x.filterScope)
    (text.map fun text => p.dialect.quoteName x.target.foreignKey ++ " = " ++ key
      ++ (if text = "" then "" else " AND " ++ text), p)
  else p.writePredicate (f.compile x.env x.filterScope)

/-- The equality of the foreign key, written alone. -/
theorem render_scopeAtom (d : Dialect) (bound : Nat) :
    d.render bound (x.scopeAtom.tokens d)
      = d.quoteName x.target.foreignKey ++ " = " ++ d.placeholder (bound + 1) := by
  have hopens : Opens [Token.slot x.key] := opens_cons rfl _
  show d.render bound (.name x.target.foreignKey :: .symbol .eq :: [.slot x.key]) = _
  rw [render_name_cons d bound _ (opens_cons rfl _), render_symbol_cons d bound rfl hopens,
    render_slot]
  simp only [String.append_assoc]
  rfl

/-- The text of a predicate behind the equality of the foreign key, where there is a predicate. -/
def besideText (d : Dialect) (bound : Nat) (q : Option Predicate) : String :=
  if d.render bound (optional d q) = "" then "" else " AND " ++ d.render bound (optional d q)

/-- The equality of the foreign key with a predicate beside it, which has a text if it is there. -/
theorem render_scoped (d : Dialect) (bound : Nat) {q : Option Predicate}
    (hq : ∀ r ∈ q, r.FitsAt .operand ∧ d.render (bound + 1) (r.tokens d) ≠ "") :
    d.render bound ((Predicate.all (x.scopeAtom :: q.toList)).tokens d)
      = d.render bound (x.scopeAtom.tokens d) ++ besideText d (bound + 1) q := by
  unfold besideText
  cases q with
  | none =>
    have hempty : d.render (bound + 1) (optional d none) = "" := rfl
    have hone : joined .and [x.scopeAtom.tokens d] = x.scopeAtom.tokens d :=
      List.intercalate_singleton
    rw [if_pos hempty, String.append_empty]
    exact congrArg _ hone
  | some r =>
    obtain ⟨hfits, hne⟩ := hq r rfl
    have hcloses : Closes (x.scopeAtom.tokens d) := closes_concat rfl [_, _]
    have hslots : (slots (x.scopeAtom.tokens d)).length = 1 := rfl
    have hone : joined .and [r.tokens d] = r.tokens d := List.intercalate_singleton
    show d.render bound (joined .and [x.scopeAtom.tokens d, r.tokens d]) = _
    rw [render_joined_cons d bound .and hcloses (hfits.opens d) [], hslots, hone,
      Sql.optional, if_neg hne]
    simp only [String.append_assoc]
    rfl

/-- The text for the rows of the parent that a filter picks. -/
theorem pickText_own {q : Option Predicate} (h : f.compileOperand x.env x.filterScope = .ok q)
    (bound : List Value) :
    x.pickText true f { dialect := x.env.dialect, bound }
      = (.ok (x.env.dialect.render bound.length (x.scopeAtom.tokens x.env.dialect)
          ++ besideText x.env.dialect (bound.length + 1) q),
        { dialect := x.env.dialect
          bound := bound ++ x.key :: slots (optional x.env.dialect q) }) := by
  rw [render_scopeAtom, ← render_slot x.env.dialect bound.length x.key]
  have hlength : bound.length + 1 = (bound ++ [x.key]).length := by simp
  have hbound : bound ++ x.key :: slots (optional x.env.dialect q)
      = bound ++ [x.key] ++ slots (optional x.env.dialect q) := by simp
  unfold pickText
  rw [if_pos rfl, h, hlength, hbound]
  rfl

/-- A filter that is compiled has a text behind any values, and it is not empty. -/
theorem pickText_of_pick (h : x.pick own f = .ok p) (bound : List Value) :
    x.pickText own f { dialect := x.env.dialect, bound }
        = (.ok (x.env.dialect.render bound.length (p.tokens x.env.dialect)),
            { dialect := x.env.dialect, bound := bound ++ slots (p.tokens x.env.dialect) }) ∧
      x.env.dialect.render bound.length (p.tokens x.env.dialect) ≠ "" ∧ p.FitsAt .alone := by
  cases own with
  | false =>
    have h : x.requiredWhere f = .ok p := h
    have hspec := requiredWhere_spec h
    refine ⟨?_, (hspec.filled x.env.dialect).render_ne_empty _ _, hspec.fits p rfl⟩
    show Parameters.writePredicate _ (f.compile x.env x.filterScope) = _
    rw [compile_of_requiredWhere h]
    rfl
  | true =>
    have h : x.scopedWhere f = .ok p := h
    unfold scopedWhere at h
    obtain ⟨q, hq, h⟩ := bind_eq_ok.mp h
    cases h
    have hq := Refusal.forget_eq_ok.mp hq
    have hoperand := Filter.compileOperand_spec hq
    have hbeside : ∀ r ∈ q, r.FitsAt .operand ∧
        x.env.dialect.render (bound.length + 1) (r.tokens x.env.dialect) ≠ "" := by
      rintro r ⟨⟩
      exact ⟨hoperand.fits r rfl, (hoperand.filled x.env.dialect).render_ne_empty _ _⟩
    have hfits : (Predicate.all (x.scopeAtom :: q.toList)).FitsAt .operand := by
      refine .all fun r hr => ?_
      rcases List.mem_cons.mp hr with rfl | hr
      · exact .atom _
      · exact hoperand.fits r (by simpa using hr)
    have hatoms : ∀ a ∈ (Predicate.all (x.scopeAtom :: q.toList)).atoms, a.HasItems :=
      List.forall_mem_cons.mpr ⟨trivial, Condition.hasItems_of_compiledTo hoperand.atoms⟩
    have hslots : slots ((Predicate.all (x.scopeAtom :: q.toList)).tokens x.env.dialect)
        = x.key :: slots (optional x.env.dialect q) := by
      cases q with
      | none => rfl
      | some r =>
        show slots (joined .and [x.scopeAtom.tokens x.env.dialect, r.tokens x.env.dialect]) = _
        rw [joined, List.intercalate_cons_cons, List.intercalate_singleton]
        simp only [slots_append]
        rfl
    refine ⟨?_, (hfits.filled x.env.dialect hatoms).render_ne_empty _ _, .alone hfits⟩
    rw [pickText_own hq, render_scoped _ _ hbeside, hslots]

/-! ## The two statements -/

/-- An update of the rows that a filter picks: it is written as what it assigns and the text of
the filter behind these values, which are bound before those of the filter. -/
structure Addresses (x : NestedScope) (own : Bool) (f : Filter) (p : Predicate)
    (assigned : List Value) (where_ : String) (values : List Value) (s : Statement) : Prop where
  picked : x.pickText own f { dialect := x.env.dialect, bound := assigned }
    = (.ok where_, { dialect := x.env.dialect, bound := assigned ++ values })
  statement : ∃ assignments, s = .update x.target.table assignments p false ∧
    (s.prepare x.env.dialect).sql
      = "UPDATE " ++ x.env.dialect.quoteName x.target.table ++ " SET "
        ++ x.env.dialect.render 0 (assignmentList x.env.dialect assignments) ++ " WHERE " ++ where_
  args : (s.prepare x.env.dialect).args = assigned ++ values

/-- An insertion of a row unless a filter picks one: it is written with a guard, which is the text
of the filter behind the values of the row and is not empty. -/
structure Guards (x : NestedScope) (own : Bool) (f : Filter) (p : Predicate) (create : Row)
    (guard : String) (values : List Value) (s : Statement) : Prop where
  picked : x.pickText own f { dialect := x.env.dialect, bound := x.key :: create.values }
    = (.ok guard, { dialect := x.env.dialect, bound := x.key :: create.values ++ values })
  nonempty : guard ≠ ""
  statement : ∃ columns,
    columnsOf x.env.schema x.target.model create.fields = .ok columns ∧
    s = .insertUnless x.target.table (x.target.foreignKey :: columns) (x.key :: create.values) p ∧
    (s.prepare x.env.dialect).sql
      = insertIntoText x.env.dialect x.target.table (x.target.foreignKey :: columns) ++ " SELECT "
        ++ placeholdersText x.env.dialect 0 (create.length + 1) ++ dualText x.env.dialect
        ++ " WHERE NOT EXISTS (SELECT 1 FROM " ++ x.env.dialect.quoteName x.target.table
        ++ " WHERE " ++ guard ++ ")"
  args : (s.prepare x.env.dialect).args = x.key :: create.values ++ values

/-- An update looks for the picked rows behind the values that it sets. -/
theorem addresses_of_pick (h : x.pick own f = .ok p) {assignments : List Assignment}
    (hsome : assignments ≠ []) :
    x.Addresses own f p (slots (assignmentList x.env.dialect assignments))
      (x.env.dialect.render (slots (assignmentList x.env.dialect assignments)).length
        (p.tokens x.env.dialect))
      (slots (p.tokens x.env.dialect)) (.update x.target.table assignments p false) := by
  obtain ⟨hpicked, -, hfits⟩ := pickText_of_pick h (slots (assignmentList _ assignments))
  refine ⟨hpicked, ⟨assignments, rfl, ?_⟩, argumentsOf_update ..⟩
  rw [Statement.sql_update _ _ hsome hfits]
  exact String.append_empty

/-- A guard is written around the condition that it denies. -/
theorem render_notExists (d : Dialect) (bound : Nat) (table : String) (hp : Opens (p.tokens d)) :
    d.render bound (notExists d table p)
      = "NOT EXISTS (SELECT 1 FROM " ++ d.quoteName table ++ " WHERE "
        ++ d.render bound (p.tokens d) ++ ")" := by
  have hone {g : Fragment Value} (hg : Opens g) :
      d.render bound (.number 1 :: g) = "1" ++ " " ++ d.render bound g := by
    have hnumber : d.render bound [Token.number (α := Value) 1] = "1" := by
      simp only [Dialect.render, number, layout, Token.chars]
      decide
    rw [← List.singleton_append, render_append d bound (closes_token rfl) hg, hnumber]
    rfl
  show d.render bound (.word .not :: .word .exists_ :: grouped
    (.word .select :: .number 1 :: .word .from_ :: .name table :: .word .where_ :: p.tokens d)) = _
  rw [render_word_cons d bound .not (opens_cons rfl _),
    render_word_cons d bound .exists_ (opens_grouped _), render_grouped,
    render_word_cons d bound .select (opens_cons rfl _), hone (opens_cons rfl _),
    render_word_cons d bound .from_ (opens_cons rfl _),
    render_name_cons d bound table (opens_cons rfl _), render_word_cons d bound .where_ hp]
  simp only [Keyword.text, String.append_assoc]
  rfl

/-- A guarded insertion looks for the picked rows behind the values that it inserts. -/
theorem guards_of_pick (h : x.pick own f = .ok p) {create : Row} {s : Statement}
    (hs : x.insertUnless create p = .ok s) :
    x.Guards own f p create
      (x.env.dialect.render (create.length + 1) (p.tokens x.env.dialect))
      (slots (p.tokens x.env.dialect)) s := by
  have hlength : (x.key :: create.values).length = create.length + 1 := by simp [Row.values]
  obtain ⟨hpicked, hne, hfits⟩ := pickText_of_pick h (x.key :: create.values)
  rw [hlength] at hpicked hne
  have hargs := arguments_insertUnless hs
  unfold insertUnless at hs
  obtain ⟨columns, hcolumns, hs⟩ := bind_eq_ok.mp hs
  cases hs
  refine ⟨hpicked, hne, ⟨columns, hcolumns, rfl, ?_⟩, hargs⟩
  rw [Statement.sql_insertUnless _ _ _ (by simp), hlength,
    render_notExists _ _ _ (hfits.opens x.env.dialect)]
  simp only [String.append_assoc]
  rfl

/-! ## Changes -/

/-- Connecting and creating look for the same rows, with one value before the condition and with
those of the new row. -/
theorem guarded_connectOrCreate {create : Row} {statements : List Statement}
    (h : x.compile (.connectOrCreate f create) = .ok statements) :
    ∃ p where_ guard values update insertion, statements = [update, insertion] ∧
      x.Addresses false f p [x.key] where_ values update ∧
      x.Guards false f p create guard values insertion ∧
      SameButNumbers x.env.dialect 1 (create.length + 1) where_ guard := by
  obtain ⟨-, -, h⟩ := bind_eq_ok.mp h
  obtain ⟨p, hp, h⟩ := bind_eq_ok.mp h
  obtain ⟨insertion, hinsertion, h⟩ := bind_eq_ok.mp h
  cases h
  have hpick : x.pick false f = .ok p := hp
  have haddresses := addresses_of_pick hpick (List.cons_ne_nil x.attach [])
  have hslots : slots (assignmentList x.env.dialect [x.attach]) = [x.key] := rfl
  rw [hslots] at haddresses
  exact ⟨p, _, _, _, _, insertion, rfl, haddresses, guards_of_pick hpick hinsertion,
    sameButNumbers_render ..⟩

/-- Updating and creating look for the same rows, and without anything to update only the second is
done. -/
theorem guarded_upsert {create update : Row} {statements : List Statement}
    (h : x.upsert f create update = .ok statements) :
    ∃ p guard values before insertion, statements = before ++ [insertion] ∧
      x.Guards true f p create guard values insertion ∧
      (update = [] → before = []) ∧
      (update ≠ [] → ∃ where_ s, before = [s] ∧
        x.Addresses true f p update.values where_ values s ∧
        SameButNumbers x.env.dialect update.length (create.length + 1) where_ guard) := by
  unfold upsert at h
  obtain ⟨-, -, h⟩ := bind_eq_ok.mp h
  obtain ⟨before, hbefore, h⟩ := bind_eq_ok.mp h
  obtain ⟨p, hp, h⟩ := bind_eq_ok.mp h
  obtain ⟨insertion, hinsertion, h⟩ := bind_eq_ok.mp h
  cases h
  have hpick : x.pick true f = .ok p := hp
  refine ⟨p, _, _, before, insertion, rfl, guards_of_pick hpick hinsertion, ?_, ?_⟩
  · rintro rfl
    exact (Except.ok.inj hbefore).symm
  · intro hne
    unfold updateIfAny at hbefore
    rw [if_neg (by simpa using hne)] at hbefore
    obtain ⟨-, -, hbefore⟩ := bind_eq_ok.mp hbefore
    obtain ⟨s, hs, hbefore⟩ := bind_eq_ok.mp hbefore
    cases hbefore
    unfold NestedScope.update at hs
    obtain ⟨assignments, hassignments, hs⟩ := bind_eq_ok.mp hs
    -- the filter is compiled once more for the update, to the same predicate
    rw [hp] at hs
    cases hs
    have hslots := slots_assignmentsOf hassignments x.env.dialect
    have hsome : assignments ≠ [] := by
      rintro rfl
      exact hne (List.map_eq_nil_iff.mp hslots.symm)
    have haddresses := addresses_of_pick hpick hsome
    rw [hslots] at haddresses
    have hlength : update.values.length = update.length := List.length_map ..
    rw [hlength] at haddresses
    exact ⟨_, _, rfl, haddresses, sameButNumbers_render ..⟩

end NestedScope

/-- A nested write that connects rows or creates one, and one that updates rows or inserts one,
ends in an insertion with a guard, also where there is nothing to update. The statement before it
updates rows of the same table, and the guard is its condition but for the numbers of the
placeholders, with the same values bound in the same order: both hold one predicate, so that the
insertion asks for the rows that the update was about. -/
theorem NestedWrite.insertion_guarded {w : NestedWrite} {env : Env} {parent : String} {key : Value}
    {statements : List Statement} (h : w.compile env parent key = .ok statements) :
    ∃ target, w.target env.schema parent = .ok target ∧ ∀ x : NestedScope,
      x = { env, target, relation := w.relation, kind := w.change.kind, key } →
        (∀ f create, w.change = .connectOrCreate f create →
          ∃ p where_ guard values update insertion, statements = [update, insertion] ∧
            x.Addresses false f p [key] where_ values update ∧
            x.Guards false f p create guard values insertion ∧
            SameButNumbers env.dialect 1 (create.length + 1) where_ guard) ∧
        (∀ f create update, w.change = .upsert f create update →
          ∃ p guard values before insertion, statements = before ++ [insertion] ∧
            x.Guards true f p create guard values insertion ∧
            (update = [] → before = []) ∧
            (update ≠ [] → ∃ where_ s, before = [s] ∧
              x.Addresses true f p update.values where_ values s ∧
              SameButNumbers env.dialect update.length (create.length + 1) where_ guard)) := by
  unfold NestedWrite.compile at h
  obtain ⟨target, htarget, h⟩ := bind_eq_ok.mp h
  refine ⟨target, htarget, ?_⟩
  rintro x rfl
  refine ⟨?_, ?_⟩
  · intro f create hchange
    exact NestedScope.guarded_connectOrCreate (hchange ▸ h)
  · intro f create update hchange
    exact NestedScope.guarded_upsert (hchange ▸ h)

/-- The books of a reader that are late or that nobody has are no longer late, or there is one
that is not. -/
def booksInTime : NestedWrite :=
  { relation := "books"
    change := .upsert (.or [.equals "late" (.bool true), .isNull "late"])
      [("late", .bool false), ("shelf", .int 3)] [("late", .bool false)] }

/-- An upsert of books, the guard of which is numbered on behind the inserted values. -/
theorem NestedWrite.insertion_guarded_in_time :
    ∃ statements, booksInTime.compile { schema := {}, dialect := .postgres } "reader" (.int 7)
        = .ok statements ∧
      statements.map (·.prepare .postgres)
        = [{ sql := "UPDATE books SET late = $1 WHERE reader_id = $2"
               ++ " AND (late = $3 OR late IS NULL)"
             args := [.bool false, .int 7, .bool true] },
           { sql := "INSERT INTO books (reader_id, late, shelf) SELECT $1, $2, $3 WHERE NOT EXISTS"
               ++ " (SELECT 1 FROM books WHERE reader_id = $4 AND (late = $5 OR late IS NULL))"
             args := [.int 7, .bool false, .int 3, .int 7, .bool true] }] ∧
      ∃ target p guard values where_ s insertion,
        booksInTime.target {} "reader" = .ok target ∧ statements = [s] ++ [insertion] ∧
        let x : NestedScope :=
          { env := { schema := {}, dialect := .postgres }, target, relation := "books"
            kind := .upsert, key := .int 7 }
        let f := Filter.or [.equals "late" (.bool true), .isNull "late"]
        x.Guards true f p [("late", .bool false), ("shelf", .int 3)] guard values insertion ∧
          x.Addresses true f p [.bool false] where_ values s ∧
          SameButNumbers .postgres 1 3 where_ guard := by
  obtain ⟨statements, hs⟩ : ∃ statements,
      booksInTime.compile { schema := {}, dialect := .postgres } "reader" (.int 7)
        = .ok statements := ⟨_, rfl⟩
  refine ⟨statements, hs, ?_, ?_⟩
  · obtain rfl := Except.ok.inj hs
    decide +kernel
  · obtain ⟨target, htarget, hguarded⟩ := NestedWrite.insertion_guarded hs
    obtain ⟨p, guard, values, before, insertion, hstatements, hguards, -, hupdate⟩ :=
      (hguarded _ rfl).2 _ _ _ rfl
    obtain ⟨where_, s, rfl, haddresses, hsame⟩ := hupdate (by decide)
    exact ⟨target, p, guard, values, where_, s, insertion, htarget, hstatements, hguards,
      haddresses, hsame⟩

end SqlQuery
