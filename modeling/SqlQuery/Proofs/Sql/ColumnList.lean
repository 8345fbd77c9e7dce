import SqlQuery.Proofs.Sql.SelectList

/-!
# Reading the columns of an insertion

An insertion lists its columns in parentheses behind its table. A reader finds the list by its
place, and the names in it up to the parenthesis that closes it, which no name can be taken for.

> `listed_nameList`: the names of a list are read up to the parenthesis behind it.

> `insertedColumns_tokens`: the columns that are read from the text of a statement are those that
> it lists for the rows it inserts.
-/

namespace SqlQuery.Sql

/-- The columns that a statement lists for the rows that it inserts. -/
def Statement.inserted : Statement → List String
  | .insert _ columns _ _ _ => columns
  | .insertUnless _ columns _ _ => columns
  | _ => []

/-- The lexeme of a word. -/
def Keyword.lexeme (k : Keyword) : Lexeme :=
  .word k.text.toList

/-- The names up to the parenthesis that closes their list. -/
def Lexeme.listed (ls : List Lexeme) : List String :=
  (ls.takeWhile (· ≠ .mark ')')).filterMap Lexeme.name?

open Lexeme

/-- The columns of an insertion, as they are read from its lexemes. -/
def insertedColumns (ls : List Lexeme) : List String :=
  if ls.head? = some Keyword.insert.lexeme then listed (ls.drop 4) else []

/-! ## Lists of names -/

/-- The symbols of a list are commas and those of its members. -/
theorem symbol_mem_commas {α : Type} {fs : List (Fragment α)} {s : Symbol}
    (h : Token.symbol s ∈ commas fs) : s = .comma ∨ ∃ f ∈ fs, Token.symbol s ∈ f := by
  refine (mem_intercalate h).imp_left ?_
  intro he
  cases he
  rfl

/-- Names are separated by commas and hold no symbols. -/
theorem symbol_mem_nameList {α : Type} {names : List String} {s : Symbol}
    (h : Token.symbol s ∈ nameList (α := α) names) : s = .comma := by
  rcases symbol_mem_commas h with hs | ⟨f, hf, hs⟩
  · exact hs
  · obtain ⟨n, -, rfl⟩ := List.mem_map.mp hf
    exact absurd hs (by simp)

/-- Placeholders are separated by commas and hold no symbols. -/
theorem symbol_mem_slotList {items : List Value} {s : Symbol}
    (h : Token.symbol s ∈ slotList items) : s = .comma := by
  rcases symbol_mem_commas h with hs | ⟨f, hf, hs⟩
  · exact hs
  · obtain ⟨v, -, rfl⟩ := List.mem_map.mp hf
    exact absurd hs (by simp)

/-- Rows are written with commas and parentheses. -/
theorem symbol_mem_groups {rows : List (List Value)} {s : Symbol}
    (h : Token.symbol s ∈ commas (rows.map fun row => grouped (slotList row))) :
    s = .comma ∨ s = .group ∨ s = .close := by
  rcases symbol_mem_commas h with hs | ⟨f, hf, hs⟩
  · exact Or.inl hs
  · obtain ⟨row, -, rfl⟩ := List.mem_map.mp hf
    simp only [grouped, List.cons_append, List.mem_cons, Token.symbol.injEq, List.mem_append,
      List.not_mem_nil, or_false] at hs
    rcases hs with hs | hs | hs
    · exact Or.inr (Or.inl hs)
    · exact Or.inl (symbol_mem_slotList hs)
    · exact Or.inr (Or.inr hs)

/-- A name is read back from its lexeme, quoted or bare. -/
theorem name?_ofName (n : String) : (Lexeme.ofName n.toList).name? = some n :=
  (standsFor_ofName n).name_eq

/-- A list is read as the lexemes of its first entry, a comma, and the lexemes of the others. -/
theorem lexemesOf_commas_cons {α : Type} (d : Dialect) (bound : Nat) (f g : Fragment α)
    (fs : List (Fragment α)) :
    lexemesOf d bound (commas (f :: g :: fs))
      = lexemesOf d bound f
        ++ Lexeme.mark ',' :: lexemesOf d (bound + (slots f).length) (commas (g :: fs)) := by
  have hsplit : commas (f :: g :: fs) = f ++ ([Token.symbol .comma] ++ commas (g :: fs)) := by
    simp [commas, List.intercalate_cons_cons]
  rw [hsplit, lexemesOf_append, lexemesOf_append]
  rfl

/-- The names of a list are read back in order. -/
theorem filterMap_nameList {α : Type} (d : Dialect) (bound : Nat) (names : List String) :
    (lexemesOf d bound (nameList (α := α) names)).filterMap name? = names := by
  induction names with
  | nil => rfl
  | cons n names ih =>
    cases names with
    | nil => exact List.filterMap_cons_some (name?_ofName n)
    | cons m names =>
      have hsplit := lexemesOf_commas_cons (α := α) d bound [.name n] [.name m]
        (names.map fun n => [.name n])
      unfold nameList at ih ⊢
      rw [List.map_cons, List.map_cons, hsplit, List.filterMap_append,
        List.filterMap_cons_none (by rfl)]
      exact congrArg₂ _ (List.filterMap_cons_some (name?_ofName n)) ih

/-- The names of a list are read up to the parenthesis behind them. -/
theorem listed_nameList {α : Type} (d : Dialect) (bound : Nat) (names : List String)
    (more : List Lexeme) :
    listed (lexemesOf d bound (nameList (α := α) names) ++ .mark ')' :: more) = names := by
  have hclose : Lexeme.mark ')' ∉ lexemesOf d bound (nameList (α := α) names) := by
    refine mark_not_mem d (by decide) ?_ bound
    intro s hs
    rw [symbol_mem_nameList hs]
    decide
  unfold listed
  rw [takeWhile_ne_append hclose]
  exact filterMap_nameList d bound names

/-! ## Insertions -/

/-- An insertion is read as its words, its table and the list of its columns in parentheses. -/
theorem lexemesOf_insertInto {α : Type} (d : Dialect) (table : String) (columns : List String)
    (f : Fragment α) :
    lexemesOf d 0 (insertInto table columns ++ f)
      = Keyword.insert.lexeme :: Keyword.into.lexeme :: .ofName table.toList :: .mark '('
        :: (lexemesOf d 0 (nameList (α := α) columns) ++ Lexeme.mark ')' :: lexemesOf d 0 f) := by
  have htokens : insertInto table columns ++ f = [Token.word .insert, .word .into, .name table,
      .symbol .group] ++ (nameList columns ++ ([Token.symbol .close] ++ f)) := by
    simp [insertInto, grouped]
  rw [htokens, lexemesOf_append, lexemesOf_append, lexemesOf_append, slots_nameList]
  rfl

/-- The columns that are read from an insertion are those that it lists. -/
theorem insertedColumns_tokens (d : Dialect) (s : Statement) :
    insertedColumns (lexemesOf d 0 (s.tokens d)) = s.inserted := by
  have hread (table : String) (columns : List String) (f : Fragment Value) :
      insertedColumns (lexemesOf d 0 (insertInto table columns ++ f)) = columns := by
    rw [lexemesOf_insertInto, insertedColumns, if_pos (by rfl)]
    exact listed_nameList d 0 columns _
  cases s with
  | select s =>
    obtain ⟨more, hmore⟩ := lexemesOf_select d s
    rw [Statement.tokens, hmore]
    exact if_neg (by simp [Keyword.lexeme, Keyword.text])
  | insert table columns rows conflict returning =>
    unfold Statement.tokens
    dsimp only
    rw [List.append_assoc, List.append_assoc]
    exact hread table columns _
  | insertUnless table columns row present =>
    rw [Statement.tokens, List.append_assoc, List.append_assoc]
    exact hread table columns _
  | update table assignments p returning =>
    rw [Statement.tokens, List.append_assoc, List.append_assoc]
    exact if_neg (by simp [Keyword.lexeme, Keyword.text, lexemesOf, number, Token.lexemes])
  | delete table p returning =>
    rw [Statement.tokens, List.append_assoc]
    exact if_neg (by simp [Keyword.lexeme, Keyword.text, lexemesOf, number, Token.lexemes])

end SqlQuery.Sql
