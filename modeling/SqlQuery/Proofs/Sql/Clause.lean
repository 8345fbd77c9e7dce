import SqlQuery.Proofs.Sql.Weave

/-!
# Finding a clause in the text

The condition of a statement is what stands behind WHERE and that of a join what stands
behind ON. Both are reserved words: a name that is spelled like one of them is quoted, so
a reader finds the keyword only where it was written.

> `behind_lexemesOf`: behind the first keyword stands what was written behind it.

> `condition?_update`, `condition?_delete`, `condition?_insertUnless`, `condition?_join`:
> the condition that is read is the predicate of the statement or join.
-/

namespace SqlQuery.Sql

/-! ## Finding a clause -/

/-- The lexemes behind the first occurrence of a keyword. -/
def Lexeme.behind (k : Keyword) (ls : List Lexeme) : List Lexeme :=
  (ls.dropWhile fun l => l ≠ .word k.text.toList).tail

/-- Nothing else is written like the keyword: no name, no number and no other keyword. -/
structure Keyword.Reserved (k : Keyword) : Prop where
  not_bare : isBare k.text.toList = false
  not_digits : k.text.toList.all Char.isDigit = false
  unique : ∀ k' : Keyword, k'.text.toList = k.text.toList → k' = k

/-- WHERE is no bare name, and stands in no longer word. -/
theorem Keyword.reserved_where : Keyword.where_.Reserved where
  not_bare := by decide
  not_digits := by decide
  unique k' := by cases k' <;> decide

/-- ON is no bare name, and stands in no longer word. -/
theorem Keyword.reserved_on : Keyword.on.Reserved where
  not_bare := by decide
  not_digits := by decide
  unique k' := by cases k' <;> decide

/-- A name that would have to be quoted is not read as the word that it is spelled like. -/
theorem Lexeme.ofName_ne_word {name w : List Char} (hw : isBare w = false) :
    Lexeme.ofName name ≠ .word w := by
  unfold Lexeme.ofName
  split
  · simp
  · split
    next hbare =>
      intro he
      cases he
      rw [hw] at hbare
      exact absurd hbare (by simp)
    next => simp

/-- A reserved keyword is read only where it is written. -/
theorem not_mem_lexemesOf {α : Type} {k : Keyword} (hk : k.Reserved) (d : Dialect)
    {f : Fragment α} :
    ∀ bound, Token.word k ∉ f → Lexeme.word k.text.toList ∉ lexemesOf d bound f := by
  unfold lexemesOf
  induction f with
  | nil => intro bound _; simp [number]
  | cons t f ih =>
    intro bound hf
    have hne : t ≠ .word k := fun he => hf (he ▸ List.mem_cons_self ..)
    have hrest : Token.word k ∉ f := fun hmem => hf (List.mem_cons_of_mem _ hmem)
    intro hmem
    cases t with
    | word k' =>
      rcases List.mem_cons.mp hmem with he | hmem
      · have htext : k'.text.toList = k.text.toList := (Lexeme.word.inj he).symm
        exact hne (congrArg Token.word (hk.unique k' htext))
      · exact ih bound hrest hmem
    | symbol s =>
      rcases List.mem_append.mp hmem with he | hmem
      · obtain ⟨c, -, hc⟩ := List.mem_map.mp he
        cases hc
      · exact ih bound hrest hmem
    | name n =>
      -- a name that is spelled like the keyword is quoted
      rcases List.mem_cons.mp hmem with he | hmem
      · exact Lexeme.ofName_ne_word hk.not_bare he.symm
      · exact ih bound hrest hmem
    | number n =>
      rcases List.mem_cons.mp hmem with he | hmem
      · have hdigits : k.text.toList.all Char.isDigit = true := by
          rw [Lexeme.word.inj he, List.all_eq_true]
          exact fun c hc => Nat.isDigit_of_mem_toDigits (by decide) (by decide) hc
        rw [hk.not_digits] at hdigits
        exact absurd hdigits (by simp)
      · exact ih bound hrest hmem
    | slot a =>
      rcases List.mem_cons.mp hmem with he | hmem
      · cases he
      · exact ih (bound + 1) hrest hmem

/-- A clause is found behind its keyword where nothing before it holds the keyword. -/
theorem behind_lexemesOf {α : Type} {k : Keyword} (hk : k.Reserved) (d : Dialect) (bound : Nat)
    {ts : Fragment α} (before after : Fragment α) (hts : ts = before ++ .word k :: after)
    (hbefore : Token.word k ∉ before) :
    Lexeme.behind k (lexemesOf d bound ts)
      = lexemesOf d (bound + (slots before).length) after := by
  have hword : lexemesOf d (bound + (slots before).length) (.word k :: after)
      = .word k.text.toList :: lexemesOf d (bound + (slots before).length) after := rfl
  have hdropped : ∀ l ∈ lexemesOf d bound before, decide (l ≠ .word k.text.toList) = true := by
    intro l hl
    rw [decide_eq_true_eq]
    rintro rfl
    exact not_mem_lexemesOf hk d bound hbefore hl
  rw [hts, lexemesOf_append, hword, Lexeme.behind, List.dropWhile_append_of_pos hdropped]
  simp

/-! ## Where keywords stand -/

/-- What stands in fragments with a token between them is that token or stands in one of them. -/
theorem mem_intercalate {α : Type} {t u : Token α} :
    ∀ {fs : List (Fragment α)}, t ∈ [u].intercalate fs → t = u ∨ ∃ f ∈ fs, t ∈ f := by
  intro fs
  induction fs with
  | nil => intro h; exact absurd h (by simp)
  | cons f fs ih =>
    intro h
    cases fs with
    | nil => exact Or.inr ⟨f, by simp, by simpa using h⟩
    | cons g fs =>
      rw [List.intercalate_cons_cons, List.mem_append, List.mem_append] at h
      rcases h with (h | h) | h
      · exact Or.inr ⟨f, by simp, h⟩
      · exact Or.inl (by simpa using h)
      · rcases ih h with h | ⟨f', hf', h⟩
        · exact Or.inl h
        · exact Or.inr ⟨f', List.mem_cons_of_mem _ hf', h⟩

/-- Fragments without a keyword have none with commas between them. -/
theorem not_mem_commas {α : Type} {k : Keyword} {fs : List (Fragment α)}
    (h : ∀ f ∈ fs, Token.word k ∉ f) : Token.word k ∉ commas fs := by
  intro hmem
  rcases mem_intercalate hmem with he | ⟨f, hf, hmem⟩
  · cases he
  · exact h f hf hmem

theorem not_mem_slotList {k : Keyword} (items : List Value) : Token.word k ∉ slotList items := by
  refine not_mem_commas ?_
  intro f hf
  obtain ⟨v, -, rfl⟩ := List.mem_map.mp hf
  simp

/-- No condition is in what an insertion starts with. -/
theorem not_mem_insertInto {table : String} {columns : List String} :
    Token.word .where_ ∉ insertInto (α := Value) table columns := by
  have hnames : Token.word .where_ ∉ nameList (α := Value) columns := by
    refine not_mem_commas ?_
    intro f hf
    obtain ⟨n, -, rfl⟩ := List.mem_map.mp hf
    simp
  simp [insertInto, grouped, hnames]

theorem not_mem_assignmentList (d : Dialect) (assignments : List Assignment) :
    Token.word .where_ ∉ assignmentList d assignments := by
  refine not_mem_commas ?_
  intro f hf
  obtain ⟨⟨column, source⟩, -, rfl⟩ := List.mem_map.mp hf
  cases source with
  | value v => simp [Assignment.tokens, compared]
  | null => simp [Assignment.tokens, compared]
  | proposed => cases d <;> simp [Assignment.tokens, compared, Dialect.proposed, call, commas]

/-- The text of a statement is read back as the lexemes of its tokens. -/
theorem lexemes_prepare (d : Dialect) (s : Statement) :
    lexemes d.quote (s.prepare d).sql.toList = some (lexemesOf d 0 (s.tokens d)) :=
  lexemes_render d 0 (s.tokens d)

/-- The condition of a statement that is written for a relation: what stands behind
WHERE, and for an insertion what the rows that it must not find would meet. -/
def Statement.condition? (d : Dialect) (s : Statement) : Option (List Lexeme) :=
  let text := lexemes d.quote (s.prepare d).sql.toList
  match s with
  | .update .. | .delete .. => text.map (Lexeme.behind .where_)
  | .insertUnless .. =>
    text.map fun ls => (Lexeme.behind .where_ (Lexeme.behind .where_ ls)).dropLast
  | _ => none

/-- The condition of an update is what stands behind its WHERE, numbered behind what is set. -/
theorem condition?_update (d : Dialect) (table : String) (assignments : List Assignment)
    (p : Predicate) :
    Statement.condition? d (.update table assignments p false)
      = some (lexemesOf d (slots (assignmentList d assignments)).length (p.tokens d)) := by
  have hbefore : Token.word .where_ ∉
      ([Token.word .update, .name table, .word .set] ++ assignmentList d assignments
        : Fragment Value) := by
    simp [not_mem_assignmentList]
  have hbehind := behind_lexemesOf Keyword.reserved_where d 0 _ (p.tokens d)
    (List.append_nil _) hbefore
  unfold Statement.condition?
  dsimp only
  rw [lexemes_prepare, Option.map_some]
  refine congrArg some (hbehind.trans ?_)
  simp

/-- The condition of a deletion is what stands behind its WHERE. -/
theorem condition?_delete (d : Dialect) (table : String) (p : Predicate) :
    Statement.condition? d (.delete table p false) = some (lexemesOf d 0 (p.tokens d)) := by
  have hbefore : Token.word .where_ ∉
      ([.word .delete, .word .from_, .name table] : Fragment Value) := by
    simp
  have hbehind := behind_lexemesOf Keyword.reserved_where d 0 _ (p.tokens d)
    (List.append_nil _) hbefore
  unfold Statement.condition?
  dsimp only
  rw [lexemes_prepare, Option.map_some]
  exact congrArg some hbehind

/-- The condition of a guarded insertion is that of its guard, numbered behind the row. -/
theorem condition?_insertUnless (d : Dialect) (table : String) (columns : List String)
    (row : List Value) (p : Predicate) :
    Statement.condition? d (.insertUnless table columns row p)
      = some (lexemesOf d row.length (p.tokens d)) := by
  let before : Fragment Value :=
    insertInto table columns ++ Token.word .select :: slotList row ++ d.dual
  let search : Fragment Value :=
    [.word .not, .word .exists_, .symbol .group, .word .select, .number 1, .word .from_,
      .name table]
  have htokens : (Statement.insertUnless table columns row p).tokens d
      = before ++ Token.word .where_
        :: (search ++ Token.word .where_ :: (p.tokens d ++ [Token.symbol .close])) :=
    rfl
  have hbefore : Token.word .where_ ∉ before := by
    have hdual : Token.word .where_ ∉ d.dual (α := Value) := by cases d <;> simp [Dialect.dual]
    simp [before, not_mem_insertInto, not_mem_slotList, hdual]
  have hslots : slots before = row := by simp [before, insertInto]
  -- the first WHERE is that of the insertion, the second one that of the search
  have hfirst := behind_lexemesOf Keyword.reserved_where d 0 before _ htokens hbefore
  have hsecond := behind_lexemesOf Keyword.reserved_where d (0 + (slots before).length) search
    (p.tokens d ++ [Token.symbol .close]) rfl (by simp [search])
  have hclose : ∀ bound, lexemesOf d bound [Token.symbol (α := Value) .close] = [.mark ')'] :=
    fun _ => rfl
  unfold Statement.condition?
  dsimp only
  rw [lexemes_prepare, Option.map_some, hfirst, hsecond, lexemesOf_append, hslots, hclose]
  simp [search]

/-- The condition of a join: what stands behind ON, where values have been bound before. -/
def Join.condition? (d : Dialect) (bound : List Value) (j : Join) : Option (List Lexeme) :=
  (lexemes d.quote (({ dialect := d, bound } : Parameters).write (j.tokens d)).1.toList).map
    (Lexeme.behind .on)

/-- The condition of a join is what stands behind its ON. -/
theorem condition?_join (d : Dialect) (bound : List Value) (j : Join) :
    j.condition? d bound = some (lexemesOf d bound.length (j.on.tokens d)) := by
  have hbefore : Token.word .on ∉
      ([.word .left, .word .join, .name j.table, .word .as, .name j.aliasName]
        : Fragment Value) := by
    simp
  have hbehind := behind_lexemesOf Keyword.reserved_on d bound.length _ (j.on.tokens d) rfl hbefore
  have hread : lexemes d.quote (({ dialect := d, bound } : Parameters).write (j.tokens d)).1.toList
      = some (lexemesOf d bound.length (j.tokens d)) :=
    lexemes_render d bound.length (j.tokens d)
  unfold Join.condition?
  rw [hread, Option.map_some]
  exact congrArg some hbehind

end SqlQuery.Sql
