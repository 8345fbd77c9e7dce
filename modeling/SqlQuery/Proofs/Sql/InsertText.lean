import SqlQuery.Proofs.Sql.Spacing

/-!
# The text of an insertion

An insertion is written as its table and its columns, and behind them the placeholders of its
rows: in a group for each row, or as a selection where there is one row and it is inserted on a
condition. Lists have commas between their entries. The placeholders are counted on from one entry
to the next, so an entry is written as it would be alone behind the values of those before it.

> `render_commas`: the text of a list is made of the texts of its entries.

> `Statement.sql_insert`, `Statement.sql_insertUnless`: the texts of insertions.
-/

namespace SqlQuery.Sql

variable {α : Type}

/-! ## Symbols that hold what is beside them -/

/-- What follows a symbol that holds it is written without a blank. -/
theorem layout_holdsNext (quote : Char) (write : α → String) {s : Symbol}
    (hs : s.holdsNext = true) (f : Fragment α) :
    layout quote write (.symbol s :: f) = s.text.toList ++ layout quote write f := by
  cases f with
  | nil => simp [layout, Token.chars]
  | cons t f =>
    have htouches : (Token.symbol s).touches t = true := by
      cases t <;> simp [Token.touches, hs]
    rw [layout, if_pos htouches, List.append_nil]
    rfl

/-- What goes before a symbol that holds it is written without a blank. -/
theorem layout_holdsPrevious (quote : Char) (write : α → String) {s : Symbol}
    (hs : s.holdsPrevious = true) (f g : Fragment α) :
    layout quote write (f ++ .symbol s :: g)
      = layout quote write f ++ layout quote write (.symbol s :: g) := by
  have htouches (t : Token α) : t.touches (.symbol s) = true := by
    cases t <;> simp [Token.touches, hs]
  induction f with
  | nil => rfl
  | cons t f ih =>
    cases f with
    | nil => simp [layout, htouches]
    | cons u f =>
      simp only [List.cons_append] at ih ⊢
      rw [layout, ih, layout]
      simp only [List.append_assoc]

/-- A symbol that holds what follows is written right before it. -/
theorem render_holdsNext (d : Dialect) (bound : Nat) {s : Symbol} (hs : s.holdsNext = true)
    (f : Fragment α) : d.render bound (.symbol s :: f) = s.text ++ d.render bound f := by
  unfold Dialect.render
  rw [number, layout_holdsNext _ _ hs, String.ofList_append, String.ofList_toList]

/-- A symbol that holds on to what precedes is written right behind it. -/
theorem render_holdsPrevious (d : Dialect) (bound : Nat) {s : Symbol}
    (hs : s.holdsPrevious = true) (f g : Fragment α) :
    d.render bound (f ++ .symbol s :: g)
      = d.render bound f ++ d.render (bound + (slots f).length) (.symbol s :: g) := by
  unfold Dialect.render
  rw [number_append, number, layout_holdsPrevious _ _ hs, String.ofList_append]

/-- Parentheses hold what stands in them without blanks. -/
theorem render_grouped (d : Dialect) (bound : Nat) (f : Fragment α) :
    d.render bound (grouped f) = "(" ++ d.render bound f ++ ")" := by
  unfold grouped
  rw [List.cons_append, render_holdsNext d bound rfl, render_holdsPrevious d bound rfl,
    render_symbol, ← String.append_assoc]
  rfl

/-! ## Lists -/

/-- What the entries of a list are written as, each behind the values of those before it. -/
def renderEach (d : Dialect) (bound : Nat) : List (Fragment α) → List String
  | [] => []
  | f :: rest => d.render bound f :: renderEach d (bound + (slots f).length) rest

/-- The text of a list is made of the texts of its entries. -/
theorem render_commas (d : Dialect) :
    ∀ {bound : Nat} {fs : List (Fragment α)}, (∀ f ∈ fs, Opens f) →
      d.render bound (commas fs) = ", ".intercalate (renderEach d bound fs) := by
  intro bound fs
  induction fs generalizing bound with
  | nil => intro _; rfl
  | cons f fs ih =>
    intro h
    cases fs with
    | nil => simp [commas, renderEach]
    | cons g fs =>
      have hg : Opens g := h g (by simp)
      have hrest : Opens (commas (g :: fs)) := hg.intercalate _ fs
      have hsplit : commas (f :: g :: fs) = f ++ .symbol .comma :: commas (g :: fs) := by
        simp [commas, List.intercalate_cons_cons]
      rw [hsplit, render_holdsPrevious d bound rfl, render_symbol_cons d _ rfl hrest,
        ih fun f' hf' => h f' (List.mem_cons_of_mem _ hf')]
      show _ = ", ".intercalate
        (d.render bound f :: d.render (bound + (slots f).length) g :: renderEach d _ fs)
      rw [String.intercalate_cons_cons]
      simp only [String.append_assoc]
      rfl

/-- The text of some names with commas between them. -/
def namesText (d : Dialect) (names : List String) : String :=
  ", ".intercalate (names.map d.quoteName)

/-- A list of names is written with a comma and a blank between them. -/
theorem render_nameList (d : Dialect) (bound : Nat) (names : List String) :
    d.render bound (nameList (α := α) names) = namesText d names := by
  have heach : renderEach d bound (names.map fun n => [Token.name (α := α) n])
      = names.map d.quoteName := by
    induction names with
    | nil => rfl
    | cons n names ih =>
      rw [List.map_cons, List.map_cons, renderEach, render_name]
      exact congrArg _ ih
  unfold nameList
  rw [render_commas d fun f hf => ?_, heach, namesText]
  obtain ⟨n, -, rfl⟩ := List.mem_map.mp hf
  exact opens_cons rfl _

/-- The text of `n` placeholders with commas between them, behind `bound` values. -/
def placeholdersText (d : Dialect) (bound n : Nat) : String :=
  ", ".intercalate ((List.range' (bound + 1) n).map d.placeholder)

/-- A list of values is written as their placeholders. -/
theorem render_slotList (d : Dialect) (bound : Nat) (values : List Value) :
    d.render bound (slotList values) = placeholdersText d bound values.length := by
  have heach : renderEach d bound (values.map fun v => [Token.slot v])
      = (List.range' (bound + 1) values.length).map d.placeholder := by
    induction values generalizing bound with
    | nil => rfl
    | cons v values ih =>
      rw [List.map_cons, renderEach, render_slot, List.length_cons, List.range'_succ, List.map_cons]
      exact congrArg _ (ih (bound + 1))
  unfold slotList
  rw [render_commas d fun f hf => ?_, heach, placeholdersText]
  obtain ⟨v, -, rfl⟩ := List.mem_map.mp hf
  exact opens_cons rfl _

/-- The texts of rows of placeholders in parentheses. -/
def groupTexts (d : Dialect) (bound : Nat) : List (List Value) → List String
  | [] => []
  | row :: rest =>
    ("(" ++ placeholdersText d bound row.length ++ ")") :: groupTexts d (bound + row.length) rest

/-- Rows are written as groups of placeholders, each numbered behind those before it. -/
theorem render_groups (d : Dialect) (bound : Nat) (rows : List (List Value)) :
    d.render bound (commas (rows.map fun row => grouped (slotList row)))
      = ", ".intercalate (groupTexts d bound rows) := by
  have heach : renderEach d bound (rows.map fun row => grouped (slotList row))
      = groupTexts d bound rows := by
    induction rows generalizing bound with
    | nil => rfl
    | cons row rows ih =>
      rw [List.map_cons, renderEach, render_grouped, render_slotList, slots_grouped,
        slots_slotList, groupTexts, ih]
  rw [render_commas d fun f hf => ?_, heach]
  obtain ⟨row, -, rfl⟩ := List.mem_map.mp hf
  exact opens_grouped _

/-! ## Insertions -/

/-- The text of the start of an insertion. -/
def insertIntoText (d : Dialect) (table : String) (columns : List String) : String :=
  "INSERT INTO " ++ d.quoteName table ++ " (" ++ namesText d columns ++ ")"

/-- What an insertion starts with is written as its table and its columns. -/
theorem render_insertInto (d : Dialect) (table : String) (columns : List String) {f : Fragment α}
    (hf : Opens f) :
    d.render 0 (insertInto table columns ++ f)
      = insertIntoText d table columns ++ " " ++ d.render 0 f := by
  have hslots : slots (insertInto (α := α) table columns) = [] := by
    simp [insertInto]
  have hcloses : Closes (insertInto (α := α) table columns) := (closes_grouped _).append _
  have hinto : d.render 0 (insertInto (α := α) table columns) = insertIntoText d table columns := by
    unfold insertInto
    simp only [List.cons_append, List.nil_append]
    rw [render_word_cons d 0 .insert (opens_cons rfl _),
      render_word_cons d 0 .into (opens_cons rfl _), render_name_cons d 0 table (opens_grouped _),
      render_grouped, render_nameList]
    simp only [Keyword.text, insertIntoText, String.append_assoc]
    rfl
  rw [render_append d 0 hcloses hf, hslots, hinto]
  rfl

/-- The text of what a selection without a table selects from. -/
def dualText (d : Dialect) : String :=
  if d = .mysql then " FROM DUAL" else ""

/-- The table of one row is written only where the dialect needs one. -/
theorem render_dual (d : Dialect) (bound : Nat) {f g : Fragment α} (hf : Closes f)
    (hg : Opens g) :
    d.render bound (f ++ d.dual ++ g)
      = d.render bound f ++ dualText d ++ " " ++ d.render (bound + (slots f).length) g := by
  cases d with
  | mysql =>
    have hdual : Opens (Token.word .dual :: g) := opens_cons rfl _
    have hfrom : Opens (Token.word .from_ :: .word .dual :: g) := opens_cons rfl _
    show Dialect.render .mysql bound (f ++ [Token.word .from_, .word .dual] ++ g) = _
    rw [List.append_assoc]
    show Dialect.render .mysql bound (f ++ Token.word .from_ :: .word .dual :: g) = _
    rw [render_append _ bound hf hfrom, render_word_cons _ _ .from_ hdual,
      render_word_cons _ _ .dual hg]
    simp only [Keyword.text, dualText, String.append_assoc]
    rfl
  | postgres | sqlite =>
    show Dialect.render _ bound (f ++ [] ++ g) = _
    rw [List.append_nil, render_append _ bound hf hg]
    simp [dualText]

namespace Statement

/-- The text of an insertion of rows. -/
theorem sql_insert (d : Dialect) (table : String) (columns : List String)
    {rows : List (List Value)} (hrows : rows ≠ []) (returning : Bool) :
    ((Statement.insert table columns rows none returning).prepare d).sql
      = insertIntoText d table columns ++ " VALUES " ++ ", ".intercalate (groupTexts d 0 rows)
        ++ returningText d returning := by
  have hopens : Opens (commas (rows.map fun row => grouped (slotList row))) :=
    opens_commas (fun row => opens_grouped (slotList row)) hrows
  have hcloses : Closes (commas (rows.map fun row => grouped (slotList row))) :=
    closes_commas (fun row => closes_grouped (slotList row)) hrows
  show d.render 0 (insertInto table columns
    ++ .word .values :: commas (rows.map fun row => grouped (slotList row)) ++ []
    ++ returningTokens d returning) = _
  rw [List.append_nil, render_returning d 0 ((hcloses.cons _).append _),
    render_insertInto d table columns (opens_cons rfl _), render_word_cons d 0 .values hopens,
    render_groups]
  simp only [Keyword.text, String.append_assoc]
  rfl

/-- The text of an insertion of one row on a condition. -/
theorem sql_insertUnless (d : Dialect) (table : String) (columns : List String)
    {row : List Value} (hrow : row ≠ []) (p : Predicate) :
    ((Statement.insertUnless table columns row p).prepare d).sql
      = insertIntoText d table columns ++ " SELECT " ++ placeholdersText d 0 row.length
        ++ dualText d ++ " WHERE " ++ d.render row.length (notExists d table p) := by
  have hlist : Opens (slotList row) := opens_commas (fun _ => opens_cons rfl _) hrow
  have hcloses : Closes (slotList row) := closes_commas (fun _ => closes_token rfl) hrow
  have hexists : Opens (notExists d table p) := opens_cons rfl _
  have hwhere : Opens (Token.word .where_ :: notExists d table p) := opens_cons rfl _
  have hsource : Opens (slotList row ++ d.dual ++ Token.word .where_ :: notExists d table p) :=
    (hlist.append _).append _
  have hselect : Opens (Token.word .select ::
      (slotList row ++ d.dual ++ Token.word .where_ :: notExists d table p)) := opens_cons rfl _
  have htokens : (Statement.insertUnless table columns row p).tokens d
      = insertInto table columns ++ Token.word .select
        :: (slotList row ++ d.dual ++ Token.word .where_ :: notExists d table p) := by
    simp [tokens]
  show d.render 0 (tokens d (insertUnless table columns row p)) = _
  rw [htokens, render_insertInto d table columns hselect, render_word_cons d 0 .select hsource,
    render_dual d 0 hcloses hwhere, render_slotList, slots_slotList, Nat.zero_add,
    render_word_cons d _ .where_ hexists]
  simp only [Keyword.text, String.append_assoc]
  rfl

end Statement

end SqlQuery.Sql
