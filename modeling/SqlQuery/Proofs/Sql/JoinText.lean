import SqlQuery.Proofs.Sql.Spacing

/-!
# The text of a join

A join is written as its table, its alias and its condition. Of the condition this file reads the
part that the relation decides: equalities of columns, which stand first and bind nothing, so
that their text is the same wherever the join stands. What follows them is the text of one more
operand of AND.

> `Join.render_tokens`: the text of such a join.

> `SelectItem.render_star`, `SelectItem.render_column`: the texts of what a join returns.
-/

namespace SqlQuery.Sql

variable {α : Type}

/-- Parts with a word between them: the first one, the word, and the others. -/
theorem render_joined_cons (d : Dialect) (bound : Nat) (k : Keyword) {f g : Fragment α}
    (hf : Closes f) (hg : Opens g) (rest : List (Fragment α)) :
    d.render bound (joined k (f :: g :: rest))
      = d.render bound f ++ " " ++ k.text ++ " "
        ++ d.render (bound + (slots f).length) (joined k (g :: rest)) := by
  have hrest : Opens (joined k (g :: rest)) := hg.intercalate _ _
  have hsplit : joined k (f :: g :: rest) = f ++ (.word k :: joined k (g :: rest)) := by
    simp [joined, List.intercalate_cons_cons]
  rw [hsplit, render_append d bound hf (opens_cons rfl _), render_word_cons _ _ _ hrest]
  simp only [String.append_assoc]

/-! ## Columns -/

/-- The text of a column of a table or an alias. -/
def columnText (d : Dialect) (qualifier column : String) : String :=
  d.quoteName qualifier ++ "." ++ d.quoteName column

/-- A qualified column is written with a dot between its names. -/
theorem ColumnRef.render_tokens (d : Dialect) (bound : Nat) (qualifier column : String) :
    d.render bound (ColumnRef.tokens (α := α) ⟨some qualifier, column⟩)
      = columnText d qualifier column := by
  unfold columnText
  simp only [Dialect.render, ColumnRef.tokens, number, layout, Token.chars, Token.touches,
    Symbol.holdsPrevious, Symbol.holdsNext, Symbol.text, Dialect.quoteName, escape]
  simp [String.ofList_append, String.append_assoc]

namespace SelectItem

/-- All columns of a table are written as a star behind its name. -/
theorem render_star (d : Dialect) (bound : Nat) (qualifier : String) :
    d.render bound ((SelectItem.star (some qualifier)).tokens (α := α))
      = d.quoteName qualifier ++ ".*" := by
  have hstar : d.quoteName "*" = "*" := by cases d <;> rfl
  rw [tokens, ColumnRef.render_tokens, columnText, hstar, String.append_assoc]
  rfl

/-- An item is written with the name that its values are returned under. -/
theorem render_column (d : Dialect) (bound : Nat) (qualifier column output : String) :
    d.render bound
        ((SelectItem.column ⟨some qualifier, column⟩ (some output)).tokens (α := α))
      = columnText d qualifier column ++ " AS " ++ d.quoteName output := by
  have hnamed : Opens [Token.name (α := α) output] := opens_cons rfl _
  rw [tokens, aliasTokens, render_append d bound (ColumnRef.closes _) (opens_cons rfl _),
    ColumnRef.render_tokens, render_word_cons _ _ _ hnamed, render_name]
  simp only [String.append_assoc, Keyword.text]
  rfl

end SelectItem

/-! ## Conditions of joins -/

/-- The equality of a column of a joined table and a column of what it is joined to. -/
def equality (aliasName parent : String) (columns : String × String) : Predicate :=
  .atom (.sameColumn ⟨some aliasName, columns.2⟩ ⟨some parent, columns.1⟩)

/-- The text of an equality. -/
def equalityText (d : Dialect) (aliasName parent : String) (columns : String × String) : String :=
  columnText d aliasName columns.2 ++ " = " ++ columnText d parent columns.1

/-- An equality of a join names the column of the joined table first. -/
theorem render_equality (d : Dialect) (bound : Nat) (aliasName parent : String)
    (columns : String × String) :
    d.render bound ((equality aliasName parent columns).tokens d)
      = equalityText d aliasName parent columns := by
  show d.render bound (compared .eq (ColumnRef.tokens _) (ColumnRef.tokens _)) = _
  rw [compared, render_append d bound (ColumnRef.closes _) (opens_cons rfl _),
    render_symbol_cons _ _ rfl (ColumnRef.opens _), ColumnRef.render_tokens,
    ColumnRef.render_tokens, equalityText]
  simp only [String.append_assoc, Symbol.text]
  rfl

theorem slots_equality (d : Dialect) (aliasName parent : String) (columns : String × String) :
    slots ((equality aliasName parent columns).tokens d) = [] :=
  rfl

/-- What an operand adds to the operands before it; nothing where there is none. -/
def andText (d : Dialect) (bound : Nat) : Option Predicate → String
  | some p => " AND " ++ d.render bound (p.tokens d)
  | none => ""

/-- Equalities and one more operand: the texts of the equalities stand first. -/
theorem render_equalities (d : Dialect) (bound : Nat) (aliasName parent : String)
    {filter : Option Predicate} (hfilter : ∀ p ∈ filter, p.FitsAt .operand)
    {columns : List (String × String)} (hcolumns : columns ≠ []) :
    d.render bound
        ((Predicate.all (columns.map (equality aliasName parent) ++ filter.toList)).tokens d)
      = " AND ".intercalate (columns.map (equalityText d aliasName parent))
        ++ andText d bound filter := by
  have hcloses (c : String × String) : Closes ((equality aliasName parent c).tokens d) :=
    Atom.closes d _
  rw [Predicate.tokens, Predicate.tokensOf_eq, List.map_append, List.map_map]
  induction columns with
  | nil => exact absurd rfl hcolumns
  | cons c rest ih =>
    cases rest with
    | nil =>
      cases filter with
      | none => simp [joined, andText, render_equality]
      | some p =>
        have hp : Opens (p.tokens d) := (hfilter p rfl).opens d
        have hjoined := render_joined_cons d bound .and (hcloses c) hp []
        simpa [joined, andText, render_equality, slots_equality, Keyword.text,
          String.append_assoc] using hjoined
    | cons c' rest =>
      -- an equality binds nothing, so the others stand behind as many values as it does
      have hopens : Opens ((equality aliasName parent c').tokens d) := Atom.opens d _
      have hrest := ih (by simp)
      simp only [List.map_cons, List.cons_append, Function.comp_apply] at hrest ⊢
      rw [render_joined_cons d bound .and (hcloses c) hopens, slots_equality, List.length_nil,
        Nat.add_zero, hrest, render_equality, String.intercalate_cons_cons]
      simp only [String.append_assoc, Keyword.text]
      rfl

/-- The text of a join on equalities and one more operand. -/
theorem Join.render_tokens (d : Dialect) (bound : Nat) {j : Join} {parent : String}
    {columns : List (String × String)} {filter : Option Predicate}
    (hon : j.on = .all (columns.map (equality j.aliasName parent) ++ filter.toList))
    (hcolumns : columns ≠ []) (hfilter : ∀ p ∈ filter, p.FitsAt .operand) :
    d.render bound (j.tokens d)
      = "LEFT JOIN " ++ d.quoteName j.table ++ " AS " ++ d.quoteName j.aliasName ++ " ON "
        ++ " AND ".intercalate (columns.map (equalityText d j.aliasName parent))
        ++ andText d bound filter := by
  have hopens : Opens (j.on.tokens d) := by
    obtain ⟨c, rest, rfl⟩ := List.exists_cons_of_ne_nil hcolumns
    rw [hon, Predicate.tokens, Predicate.tokensOf_eq]
    exact (Atom.opens d _).intercalate _ _
  rw [tokens]
  simp only [List.cons_append, List.nil_append]
  rw [render_word_cons _ _ _ (opens_cons rfl _), render_word_cons _ _ _ (opens_cons rfl _),
    render_name_cons _ _ _ (opens_cons rfl _), render_word_cons _ _ _ (opens_cons rfl _),
    render_name_cons _ _ _ (opens_cons rfl _), render_word_cons _ _ _ hopens, hon,
    render_equalities d bound _ _ hfilter hcolumns]
  simp only [String.append_assoc, Keyword.text]
  rfl

end SqlQuery.Sql
