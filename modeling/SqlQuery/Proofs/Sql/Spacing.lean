import SqlQuery.Proofs.Sql.Parentheses

/-!
# Where blanks are written

Between two tokens stands one blank, unless a bracket, a comma or a dot stands at one of
them. So the text of two fragments in a row is the text of both with a blank between them
as soon as the first does not end with a symbol that holds what follows, nor the second
begin with one that holds what goes before.

> `render_append`: such fragments are written one after the other, with a blank.

> `Predicate.FitsAt.opens`, `Predicate.FitsAt.closes`: a predicate is such a fragment.

> `Statement.sql_update`, `Statement.sql_delete`: the texts of updates and deletions.
-/

namespace SqlQuery.Sql

variable {α : Type}

/-- Whether a blank can stand before a token. -/
def Token.isClearBefore : Token α → Bool
  | .symbol s => !s.holdsPrevious
  | _ => true

/-- Whether a blank can stand behind a token. -/
def Token.isClearBehind : Token α → Bool
  | .symbol s => !s.holdsNext
  | _ => true

/-- A blank stands between two tokens of which neither holds on to the other. -/
theorem Token.touches_eq_false {t u : Token α} (ht : t.isClearBehind = true)
    (hu : u.isClearBefore = true) : t.touches u = false := by
  cases t <;> cases u <;> simp_all [touches, isClearBefore, isClearBehind]

/-- A blank can stand before the fragment. -/
def Opens (f : Fragment α) : Prop :=
  ∃ t rest, f = t :: rest ∧ t.isClearBefore = true

/-- A blank can stand behind the fragment. -/
def Closes (f : Fragment α) : Prop :=
  ∃ front t, f = front ++ [t] ∧ t.isClearBehind = true

theorem opens_cons {t : Token α} (ht : t.isClearBefore = true) (rest : Fragment α) :
    Opens (t :: rest) :=
  ⟨t, rest, rfl, ht⟩

theorem closes_concat {t : Token α} (ht : t.isClearBehind = true) (front : Fragment α) :
    Closes (front ++ [t]) :=
  ⟨front, t, rfl, ht⟩

theorem closes_token {t : Token α} (ht : t.isClearBehind = true) : Closes [t] :=
  closes_concat ht []

/-- Only the first fragment decides about what stands before both. -/
theorem Opens.append {f : Fragment α} (h : Opens f) (g : Fragment α) : Opens (f ++ g) := by
  obtain ⟨t, rest, rfl, ht⟩ := h
  exact opens_cons ht (rest ++ g)

/-- Only the last fragment decides about what stands behind both. -/
theorem Closes.append {g : Fragment α} (h : Closes g) (f : Fragment α) : Closes (f ++ g) := by
  obtain ⟨front, t, rfl, ht⟩ := h
  rw [← List.append_assoc]
  exact closes_concat ht (f ++ front)

/-- A token more in front changes nothing about the end. -/
theorem Closes.cons {f : Fragment α} (h : Closes f) (t : Token α) : Closes (t :: f) :=
  h.append [t]

/-- Numbering keeps what a fragment starts with. -/
theorem opens_number {f : Fragment α} (h : Opens f) (bound : Nat) : Opens (number bound f) := by
  obtain ⟨t, rest, rfl, ht⟩ := h
  cases t <;> exact ⟨_, _, rfl, ht⟩

theorem closes_number {f : Fragment α} (h : Closes f) (bound : Nat) : Closes (number bound f) := by
  obtain ⟨front, t, rfl, ht⟩ := h
  rw [number_append]
  cases t <;> exact ⟨_, _, rfl, ht⟩

/-! ## Two fragments in a row -/

/-- Two fragments are laid out with one blank between them. -/
theorem layout_append (quote : Char) (write : α → String) {f g : Fragment α} (hf : Closes f)
    (hg : Opens g) :
    layout quote write (f ++ g) = layout quote write f ++ ' ' :: layout quote write g := by
  obtain ⟨front, t, rfl, ht⟩ := hf
  obtain ⟨u, rest, rfl, hu⟩ := hg
  have hblank := Token.touches_eq_false ht hu
  induction front with
  | nil => simp [layout, hblank]
  | cons v front ih =>
    rw [List.append_assoc, List.singleton_append] at ih ⊢
    -- what stands behind the first token is not empty, so a rule of the layout applies
    cases front with
    | nil =>
      simp only [List.nil_append, List.cons_append] at ih ⊢
      rw [layout, ih, layout.eq_def quote write [v, t]]
      simp only [List.append_assoc]
    | cons w front =>
      simp only [List.cons_append] at ih ⊢
      rw [layout, ih, layout]
      simp only [List.append_assoc]

/-- The text of two fragments is that of the first, a blank, and that of the second behind the
values of the first. -/
theorem render_append (d : Dialect) (bound : Nat) {f g : Fragment α} (hf : Closes f)
    (hg : Opens g) :
    d.render bound (f ++ g)
      = d.render bound f ++ " " ++ d.render (bound + (slots f).length) g := by
  unfold Dialect.render
  rw [number_append, layout_append _ _ (closes_number hf bound) (opens_number hg _)]
  rw [String.ofList_append, ← List.singleton_append, String.ofList_append, String.append_assoc]

/-! ## Fragments that blanks can stand beside -/

theorem closes_call (k : Keyword) (fs : List (Fragment α)) : Closes (call k fs) :=
  closes_concat rfl _

theorem opens_call (k : Keyword) (fs : List (Fragment α)) : Opens (call k fs) :=
  opens_cons rfl _

/-- A blank can stand before a parenthesis that opens. -/
theorem opens_grouped (f : Fragment α) : Opens (grouped f) :=
  opens_cons rfl _

/-- A blank can stand behind a parenthesis that closes. -/
theorem closes_grouped (f : Fragment α) : Closes (grouped f) :=
  closes_concat rfl _

theorem Opens.compared {f : Fragment α} (h : Opens f) (s : Symbol) (g : Fragment α) :
    Opens (compared s f g) :=
  h.append _

theorem Closes.compared {g : Fragment α} (h : Closes g) (s : Symbol) (f : Fragment α) :
    Closes (compared s f g) :=
  (h.cons (.symbol s)).append f

/-- The first of several fragments opens them all. -/
theorem Opens.intercalate {f : Fragment α} (h : Opens f) (sep : Fragment α)
    (fs : List (Fragment α)) : Opens (sep.intercalate (f :: fs)) := by
  cases fs with
  | nil => simpa using h
  | cons g fs =>
    rw [List.intercalate_cons_cons, List.append_assoc]
    exact h.append _

/-- The last of several fragments closes them all. -/
theorem Closes.intercalate (sep : Fragment α) :
    ∀ {fs : List (Fragment α)}, fs ≠ [] → (∀ f ∈ fs, Closes f) → Closes (sep.intercalate fs) := by
  intro fs
  induction fs with
  | nil => intro hne; exact absurd rfl hne
  | cons f fs ih =>
    intro _ h
    cases fs with
    | nil => simpa using h f (List.mem_cons_self ..)
    | cons g fs =>
      rw [List.intercalate_cons_cons]
      exact (ih (by simp) fun x hx => h x (List.mem_cons_of_mem _ hx)).append _

theorem opens_commas {β : Type} {write : β → Fragment α} (h : ∀ x, Opens (write x)) {xs : List β}
    (hxs : xs ≠ []) : Opens (commas (xs.map write)) := by
  obtain ⟨x, rest, rfl⟩ := List.exists_cons_of_ne_nil hxs
  exact (h x).intercalate _ _

/-- A list that has a member closes with the last one. -/
theorem closes_commas {β : Type} {write : β → Fragment α} (h : ∀ x, Closes (write x))
    {xs : List β} (hxs : xs ≠ []) : Closes (commas (xs.map write)) := by
  refine Closes.intercalate _ (by simpa using hxs) ?_
  intro f hf
  obtain ⟨x, -, rfl⟩ := List.mem_map.mp hf
  exact h x

/-- Folding letter case opens with its word, or with what it leaves alone. -/
theorem opens_folding (folded : Bool) {f : Fragment α} (h : Opens f) :
    Opens (folding folded f) := by
  cases folded with
  | true => exact opens_call ..
  | false => exact h

/-- Folding letter case closes with a parenthesis, or with what it leaves alone. -/
theorem closes_folding (folded : Bool) {f : Fragment α} (h : Closes f) :
    Closes (folding folded f) := by
  cases folded with
  | true => exact closes_call ..
  | false => exact h

/-- A reference to a column starts with a name. -/
theorem ColumnRef.opens (c : ColumnRef) : Opens (c.tokens (α := α)) := by
  unfold ColumnRef.tokens
  split <;> exact opens_cons rfl _

theorem ColumnRef.closes (c : ColumnRef) : Closes (c.tokens (α := α)) := by
  unfold ColumnRef.tokens
  split
  next => exact ((closes_token rfl).cons _).cons _
  next => exact closes_token rfl

/-- An operand starts with a name or with a word. -/
theorem Operand.opens (o : Operand) : Opens (o.tokens (α := α)) := by
  cases o with
  | column c => exact c.opens
  | aggregate f c => exact opens_call ..

/-! ## Atoms and predicates -/

/-- A test of an array starts with the column, a word or a parenthesis. -/
theorem ArrayTest.opens (style : ArrayStyle) {column : Fragment Value} (h : Opens column)
    (test : ArrayTest) : Opens (test.tokens style column) := by
  cases test with
  | empty expected => cases expected <;> cases style <;> exact opens_cons rfl _
  | has element => cases style <;> exact opens_cons rfl _
  | hasEvery elements | hasSome elements =>
    cases style with
    | native => exact h.compared _ _
    | json => exact opens_call ..

/-- A test of an array can be followed by a blank in every style. -/
theorem ArrayTest.closes (style : ArrayStyle) (column : Fragment Value) (test : ArrayTest) :
    Closes (test.tokens style column) := by
  cases test with
  | empty expected =>
    cases expected with
    | true => cases style <;> exact (closes_token rfl).compared _ _
    | false => exact (closes_grouped _).cons _
  | has element =>
    cases style with
    | native => exact (closes_call ..).compared _ _
    | json => exact closes_call ..
  | hasEvery elements | hasSome elements =>
    cases style with
    | native =>
      have harray : Closes (SqlQuery.ArrayStyle.nativeArray (slotList elements)) :=
        closes_concat rfl _
      exact harray.compared _ _
    | json => exact closes_call ..

theorem Atom.opens (d : Dialect) (a : Atom) : Opens (a.tokens d) := by
  cases a with
  | compare lhs folded op value => exact (opens_folding folded lhs.opens).compared _ _
  | sameColumn a b => exact a.opens.compared _ _
  | null lhs expected => cases expected <;> exact lhs.opens.append _
  | oneOf lhs folded expected items =>
    exact ((opens_folding folded lhs.opens).append _).append _
  | like lhs folded pattern => exact (opens_folding folded lhs.opens).append _
  | array style lhs test => exact ArrayTest.opens style lhs.opens test
  | search lhs query =>
    cases d with
    | sqlite => exact lhs.opens.append _
    | postgres | mysql => exact opens_cons rfl _
  | constant truth => exact opens_cons rfl _

theorem Atom.closes (d : Dialect) (a : Atom) : Closes (a.tokens d) := by
  cases a with
  | compare lhs folded op value => exact (closes_folding folded (closes_token rfl)).compared _ _
  | sameColumn a b => exact b.closes.compared _ _
  | null lhs expected =>
    have hnull : Closes [Token.word (α := Value) .null] := closes_token rfl
    cases expected with
    | true => exact (hnull.cons _).append _
    | false => exact ((hnull.cons _).cons _).append _
  | oneOf lhs folded expected items => exact (closes_grouped _).append _
  | like lhs folded pattern =>
    exact ((closes_folding folded (closes_token rfl)).cons _).append _
  | array style lhs test => exact ArrayTest.closes style _ test
  | search lhs query =>
    cases d with
    | postgres => exact (closes_call ..).compared _ _
    | mysql => exact (closes_call ..).append _
    | sqlite => exact ((closes_token rfl).cons _).append _
  | constant truth => exact (closes_token rfl).compared _ _

namespace Predicate

/-- A predicate opens with its first part, a word or a parenthesis. -/
theorem FitsAt.opens {place : Place} {p : Predicate} (h : p.FitsAt place) (d : Dialect) :
    Opens (p.tokens d) := by
  induction h with
  | atom a => exact a.opens d
  | group _ _ => exact opens_grouped _
  | not _ _ => exact opens_cons rfl _
  | all _ ih | any _ ih => exact (ih _ (List.mem_cons_self ..)).intercalate _ _
  | one _ ih => exact ih.intercalate _ _
  | alone _ ih => exact ih

/-- A predicate closes with its last part or a parenthesis. -/
theorem FitsAt.closes {place : Place} {p : Predicate} (h : p.FitsAt place) (d : Dialect) :
    Closes (p.tokens d) := by
  have hparts : ∀ {k : Keyword} {q : Predicate} {rest : List Predicate},
      (∀ r ∈ q :: rest, Closes (r.tokens d)) → Closes (joined k (tokensOf d (q :: rest))) := by
    intro k q rest ih
    rw [tokensOf_eq]
    refine .intercalate _ (by simp) ?_
    intro f hf
    obtain ⟨r, hr, rfl⟩ := List.mem_map.mp hf
    exact ih r hr
  induction h with
  | atom a => exact a.closes d
  | group _ _ => exact closes_grouped _
  | not _ _ => exact (closes_grouped _).cons _
  | all _ ih | any _ ih => exact hparts ih
  | one _ ih => exact hparts (by simpa using ih)
  | alone _ ih => exact ih

end Predicate

/-! ## Updates and deletions -/

/-- A name alone is quoted where its dialect needs it. -/
theorem render_name (d : Dialect) (bound : Nat) (n : String) :
    d.render bound [Token.name (α := α) n] = d.quoteName n := by
  simp [Dialect.render, number, layout, Token.chars, Dialect.quoteName, escape]

/-- A placeholder alone has the number behind the values bound before. -/
theorem render_slot (d : Dialect) (bound : Nat) (a : α) :
    d.render bound [Token.slot a] = d.placeholder (bound + 1) := by
  simp [Dialect.render, number, layout, Token.chars]

/-- A word stands apart from what opens behind it, and binds nothing. -/
theorem render_word_cons (d : Dialect) (bound : Nat) (k : Keyword) {f : Fragment α}
    (h : Opens f) : d.render bound (.word k :: f) = k.text ++ " " ++ d.render bound f := by
  have hword : d.render bound [Token.word (α := α) k] = k.text := by
    simp [Dialect.render, number, layout, Token.chars]
  rw [← List.singleton_append, render_append d bound (closes_token rfl) h, hword]
  rfl

/-- A name stands apart from what opens behind it, and binds nothing. -/
theorem render_name_cons (d : Dialect) (bound : Nat) (n : String) {f : Fragment α}
    (h : Opens f) : d.render bound (.name n :: f) = d.quoteName n ++ " " ++ d.render bound f := by
  rw [← List.singleton_append, render_append d bound (closes_token rfl) h, render_name]
  rfl

/-- A symbol alone is written as its characters. -/
theorem render_symbol (d : Dialect) (bound : Nat) (s : Symbol) :
    d.render bound [Token.symbol (α := α) s] = s.text := by
  simp [Dialect.render, number, layout, Token.chars]

/-- A symbol that does not hold on to what follows stands apart from it. -/
theorem render_symbol_cons (d : Dialect) (bound : Nat) {s : Symbol} (hs : s.holdsNext = false)
    {f : Fragment α} (h : Opens f) :
    d.render bound (.symbol s :: f) = s.text ++ " " ++ d.render bound f := by
  have hclear : (Token.symbol (α := α) s).isClearBehind = true := by
    simp [Token.isClearBehind, hs]
  rw [← List.singleton_append, render_append d bound (closes_token hclear) h, render_symbol]
  rfl

/-- An assignment starts with the name of its column. -/
theorem Assignment.opens (d : Dialect) (a : Assignment) : Opens (a.tokens d) :=
  opens_cons rfl _

/-- An assignment ends in a placeholder, a name or a parenthesis. -/
theorem Assignment.closes (d : Dialect) (a : Assignment) : Closes (a.tokens d) := by
  unfold Assignment.tokens
  refine Closes.compared ?_ _ _
  cases a.source with
  | value v => exact closes_token rfl
  | null => exact closes_token rfl
  | proposed =>
    cases d with
    | mysql => exact closes_call ..
    | postgres | sqlite => exact ((closes_token rfl).cons _).cons _

/-- A list of assignments opens if there is one. -/
theorem opens_assignmentList (d : Dialect) {as : List Assignment} (h : as ≠ []) :
    Opens (assignmentList d as) :=
  opens_commas (·.opens d) h

/-- A list of assignments closes if there is one. -/
theorem closes_assignmentList (d : Dialect) {as : List Assignment} (h : as ≠ []) :
    Closes (assignmentList d as) :=
  closes_commas (·.closes d) h

/-- What a request for the written rows adds to a text. -/
def returningText (d : Dialect) (returning : Bool) : String :=
  if returning && d.returnsRows then " RETURNING *" else ""

/-- Asking for the written rows adds to the end of a text, and binds nothing. -/
theorem render_returning (d : Dialect) (bound : Nat) {f : Fragment α} (hf : Closes f)
    (returning : Bool) :
    d.render bound (f ++ returningTokens d returning)
      = d.render bound f ++ returningText d returning := by
  unfold returningTokens returningText
  split
  · have htail : d.render (bound + (slots f).length) [Token.word (α := α) .returning, .name "*"]
        = "RETURNING *" := by
      cases d <;> simp [Dialect.render, number, layout, Token.chars, Token.touches, Keyword.text,
        escapeChars]
    rw [render_append d bound hf (opens_cons rfl _), htail, String.append_assoc]
    rfl
  · simp

namespace Statement

/-- The text of an update: what is set stands before WHERE, and the predicate behind. -/
theorem sql_update (d : Dialect) (table : String) {as : List Assignment} (has : as ≠ [])
    {p : Predicate} (hp : p.FitsAt .alone) (returning : Bool) :
    ((Statement.update table as p returning).prepare d).sql
      = "UPDATE " ++ d.quoteName table ++ " SET " ++ d.render 0 (assignmentList d as) ++ " WHERE "
        ++ d.render (slots (assignmentList d as)).length (p.tokens d)
        ++ returningText d returning := by
  have hwhere : Opens (Token.word .where_ :: p.tokens d) := opens_cons rfl _
  have hlist : Opens (assignmentList d as ++ Token.word .where_ :: p.tokens d) :=
    (opens_assignmentList d has).append _
  have hset : Opens (Token.word .set ::
      (assignmentList d as ++ Token.word .where_ :: p.tokens d)) := opens_cons rfl _
  have htable : Opens (Token.name table :: .word .set ::
      (assignmentList d as ++ Token.word .where_ :: p.tokens d)) := opens_cons rfl _
  show d.render 0 ([Token.word .update, .name table, .word .set] ++ assignmentList d as
    ++ Token.word .where_ :: p.tokens d ++ returningTokens d returning) = _
  rw [render_returning d 0 (((hp.closes d).cons _).append _)]
  simp only [List.cons_append, List.nil_append]
  rw [render_word_cons d 0 .update htable, render_name_cons d 0 table hset,
    render_word_cons d 0 .set hlist, render_append d 0 (closes_assignmentList d has) hwhere,
    render_word_cons d _ .where_ (hp.opens d), Nat.zero_add]
  simp only [Keyword.text, String.append_assoc]
  rfl

/-- The text of a deletion. -/
theorem sql_delete (d : Dialect) (table : String) {p : Predicate} (hp : p.FitsAt .alone)
    (returning : Bool) :
    ((Statement.delete table p returning).prepare d).sql
      = "DELETE FROM " ++ d.quoteName table ++ " WHERE " ++ d.render 0 (p.tokens d)
        ++ returningText d returning := by
  have hwhere : Opens (Token.word .where_ :: p.tokens d) := opens_cons rfl _
  have htable : Opens (Token.name table :: .word .where_ :: p.tokens d) := opens_cons rfl _
  have hfrom : Opens (Token.word .from_ :: .name table :: .word .where_ :: p.tokens d) :=
    opens_cons rfl _
  show d.render 0 ([Token.word .delete, .word .from_, .name table, .word .where_] ++ p.tokens d
    ++ returningTokens d returning) = _
  rw [render_returning d 0 ((hp.closes d).append _)]
  simp only [List.cons_append, List.nil_append]
  rw [render_word_cons d 0 .delete hfrom, render_word_cons d 0 .from_ htable,
    render_name_cons d 0 table hwhere, render_word_cons d 0 .where_ (hp.opens d)]
  simp only [Keyword.text, String.append_assoc]
  rfl

end Statement

end SqlQuery.Sql
