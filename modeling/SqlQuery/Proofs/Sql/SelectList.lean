import Mathlib.Data.List.TakeWhile
import SqlQuery.Proofs.Sql.Clause
import SqlQuery.Proofs.Sql.Template

/-!
# Reading the select list

The items of a selection stand between SELECT, with what makes rows distinct, and FROM, and
there are commas between them. What a database returns for an item has a name: the one
behind AS, or without AS that of the column, in either case the last thing that is written.

> `selectItems_tokens`: the items that are read from the lexemes of a selection are its items.

> `resultColumn?_tokens`: the name that an item has in a result is the one that it was given.
-/

namespace SqlQuery.Sql

/-- FROM is no bare name, and stands in no longer word. -/
theorem Keyword.reserved_from : Keyword.from_.Reserved where
  not_bare := by decide
  not_digits := by decide
  unique k' := by cases k' <;> decide

/-- DISTINCT is no bare name, and stands in no longer word. -/
theorem Keyword.reserved_distinct : Keyword.distinct.Reserved where
  not_bare := by decide
  not_digits := by decide
  unique k' := by cases k' <;> decide

/-- The lexemes behind DISTINCT and the columns that it names, where there are any. -/
def Lexeme.behindDistinct (ls : List Lexeme) : List Lexeme :=
  if ls.head? = some (.word Keyword.distinct.text.toList) then
    if ls.tail.head? = some (.word Keyword.on.text.toList) then
      (ls.dropWhile (· ≠ .mark ')')).tail
    else ls.tail
  else ls

/-- The items of a selection, as they are read from its lexemes. -/
def selectItems (ls : List Lexeme) : List (List Lexeme) :=
  ((Lexeme.behindDistinct ls.tail).takeWhile (· ≠ .word Keyword.from_.text.toList)).splitOn
    (.mark ',')

/-- The name that an item has in a result. -/
def resultColumn? (item : List Lexeme) : Option String :=
  item.getLast?.bind Lexeme.name?

/-! ## Up to a lexeme -/

section

variable {l : Lexeme} {ls : List Lexeme} (h : l ∉ ls)

include h

/-- A reader that stops at a lexeme goes through all that comes before it. -/
theorem takeWhile_ne_self : ls.takeWhile (· ≠ l) = ls :=
  List.takeWhile_eq_self_iff.mpr fun _ hl' =>
    decide_eq_true fun he => h (he ▸ hl')

/-- A reader that stops at a lexeme reads what is before the first one. -/
theorem takeWhile_ne_append (more : List Lexeme) : (ls ++ l :: more).takeWhile (· ≠ l) = ls := by
  rw [List.takeWhile_append, takeWhile_ne_self h, if_pos rfl, List.takeWhile_cons_of_neg (by simp),
    List.append_nil]

end

/-! ## Marks -/

/-- A mark that is read comes of a symbol, unless it is the name `*`. -/
theorem symbol_of_mark_mem {α : Type} (d : Dialect) {c : Char} {f : Fragment α} :
    ∀ bound, Lexeme.mark c ∈ lexemesOf d bound f →
      c = '*' ∨ ∃ s, Token.symbol s ∈ f ∧ c ∈ s.text.toList := by
  unfold lexemesOf
  induction f with
  | nil => intro bound h; exact absurd h List.not_mem_nil
  | cons t f ih =>
    intro bound h
    have hrest : ∀ bound, Lexeme.mark c ∈ (number bound f).flatMap (Token.lexemes d) →
        c = '*' ∨ ∃ s, Token.symbol s ∈ t :: f ∧ c ∈ s.text.toList := by
      intro bound hmem
      refine (ih bound hmem).imp_right ?_
      rintro ⟨s, hs, hc⟩
      exact ⟨s, List.mem_cons_of_mem _ hs, hc⟩
    cases t with
    | word k =>
      rcases List.mem_cons.mp h with he | h
      · cases he
      · exact hrest bound h
    | symbol s =>
      rcases List.mem_append.mp h with h | h
      · obtain ⟨c', hc', he⟩ := List.mem_map.mp h
        cases he
        exact Or.inr ⟨s, List.mem_cons_self .., hc'⟩
      · exact hrest bound h
    | name n =>
      rcases List.mem_cons.mp h with he | h
      · left
        unfold Lexeme.ofName at he
        split at he
        · exact Lexeme.mark.inj he
        · split at he <;> cases he
      · exact hrest bound h
    | number n =>
      rcases List.mem_cons.mp h with he | h
      · cases he
      · exact hrest bound h
    | slot a =>
      rcases List.mem_cons.mp h with he | h
      · cases he
      · exact hrest (bound + 1) h

/-- A mark is read only from symbols that are written with it. -/
theorem mark_not_mem {α : Type} (d : Dialect) {c : Char} (hc : c ≠ '*') {f : Fragment α}
    (h : ∀ s, Token.symbol s ∈ f → c ∉ s.text.toList) (bound : Nat) :
    Lexeme.mark c ∉ lexemesOf d bound f := by
  intro hmem
  rcases symbol_of_mark_mem d bound hmem with he | ⟨s, hs, hc'⟩
  · exact hc he
  · exact h s hs hc'

/-! ## The parts of a selection -/

/-- Fragments without slots are read one by one, whatever stands between them. -/
theorem lexemesOf_intercalate {α : Type} (d : Dialect) (bound : Nat) {t : Token α}
    (ht : slots [t] = []) :
    ∀ {fs : List (Fragment α)}, (∀ f ∈ fs, slots f = []) →
      lexemesOf d bound ([t].intercalate fs)
        = (lexemesOf d bound [t]).intercalate (fs.map (lexemesOf d bound)) := by
  intro fs
  induction fs with
  | nil => intro _; rfl
  | cons f fs ih =>
    intro h
    cases fs with
    | nil => simp
    | cons g fs =>
      have hf := h f (List.mem_cons_self ..)
      have hrest := ih fun f' hf' => h f' (List.mem_cons_of_mem _ hf')
      rw [List.intercalate_cons_cons, lexemesOf_append, lexemesOf_append, slots_append, hf, ht,
        List.map_cons, List.map_cons, List.intercalate_cons_cons, ← List.map_cons, ← hrest]
      rfl

/-- A list whose members bind nothing is read as its members with commas between them. -/
theorem lexemesOf_commas {α : Type} (d : Dialect) (bound : Nat) {fs : List (Fragment α)}
    (h : ∀ f ∈ fs, slots f = []) :
    lexemesOf d bound (commas fs) = [.mark ','].intercalate (fs.map (lexemesOf d bound)) :=
  lexemesOf_intercalate d bound rfl h

/-- The symbols that stand in a column. -/
theorem symbol_mem_column {α : Type} {c : ColumnRef} {s : Symbol}
    (h : Token.symbol s ∈ c.tokens (α := α)) : s = .dot := by
  unfold ColumnRef.tokens at h
  split at h
  · simpa using h
  · exact absurd h (by simp)

/-- The symbols that stand in an item. -/
theorem symbol_mem_item {α : Type} {i : SelectItem} {s : Symbol}
    (h : Token.symbol s ∈ i.tokens (α := α)) : s = .dot ∨ s = .arguments ∨ s = .close := by
  have hnamed : ∀ {a : Option String}, Token.symbol s ∉ aliasTokens (α := α) a := by
    intro a
    cases a <;> simp [aliasTokens]
  cases i with
  | star qualifier => exact Or.inl (symbol_mem_column h)
  | column c a =>
    rcases List.mem_append.mp h with h | h
    · exact Or.inl (symbol_mem_column h)
    · exact absurd h hnamed
  | aggregate f c a =>
    rcases List.mem_append.mp h with h | h
    · simp only [Operand.tokens, call, commas, List.intercalate_singleton, List.mem_cons,
        List.mem_append, List.not_mem_nil, or_false, reduceCtorEq, Token.symbol.injEq,
        false_or] at h
      rcases h with (rfl | h) | rfl
      · exact Or.inr (Or.inl rfl)
      · exact Or.inl (symbol_mem_column h)
      · exact Or.inr (Or.inr rfl)
    · exact absurd h hnamed

/-- Whether a keyword can stand in an item: the one before its name, or an aggregate. -/
def Keyword.inItem : Keyword → Bool
  | .as | .count | .sum | .avg | .min | .max => true
  | _ => false

/-- The only words of an item are functions and AS. -/
theorem word_mem_item {α : Type} {i : SelectItem} {k : Keyword}
    (h : Token.word k ∈ i.tokens (α := α)) : k.inItem = true := by
  have hcolumn : ∀ {c : ColumnRef}, Token.word k ∉ c.tokens (α := α) := by
    intro c
    unfold ColumnRef.tokens
    split <;> simp
  have hnamed : ∀ {a : Option String}, Token.word k ∈ aliasTokens (α := α) a →
      k.inItem = true := by
    intro a h
    cases a with
    | some a =>
      have hk : k = .as := by simpa [aliasTokens] using h
      rw [hk]
      rfl
    | none => exact absurd h List.not_mem_nil
  cases i with
  | star qualifier => exact absurd h hcolumn
  | column c a =>
    rcases List.mem_append.mp h with h | h
    · exact absurd h hcolumn
    · exact hnamed h
  | aggregate f c a =>
    rcases List.mem_append.mp h with h | h
    · simp only [Operand.tokens, call, commas, List.intercalate_singleton, List.mem_cons,
        List.mem_append, List.not_mem_nil, or_false, reduceCtorEq, Token.word.injEq] at h
      rcases h with rfl | h
      · cases f <;> rfl
      · exact absurd (h.resolve_left (by simp)) hcolumn
    · exact hnamed h

/-- A word that is in no item is not in a list of them. -/
theorem word_not_mem_items {k : Keyword} (hk : k.inItem = false) (items : List SelectItem) :
    Token.word k ∉ (commas (items.map (·.tokens)) : Fragment Value) := by
  refine not_mem_commas ?_
  intro f hf hmem
  obtain ⟨i, -, rfl⟩ := List.mem_map.mp hf
  rw [word_mem_item hmem] at hk
  cases hk

/-- What makes rows distinct is passed over where no item reads as a part of it. -/
theorem behindDistinct_append (d : Dialect) (x : Distinct) {ls : List Lexeme}
    (hdistinct : ls.head? ≠ some (.word Keyword.distinct.text.toList))
    (hon : ls.head? ≠ some (.word Keyword.on.text.toList)) :
    Lexeme.behindDistinct (lexemesOf d 0 (x.tokens (α := Value)) ++ ls) = ls := by
  cases x with
  | keep => exact if_neg hdistinct
  | rows =>
    have hread : lexemesOf d 0 (Distinct.rows.tokens (α := Value))
        = [Lexeme.word Keyword.distinct.text.toList] := rfl
    unfold Lexeme.behindDistinct
    rw [hread, if_pos (by rfl)]
    exact if_neg hon
  | on columns =>
    have hclose : Lexeme.mark ')' ∉
        lexemesOf d 0 (commas (columns.map (·.tokens)) : Fragment Value) := by
      refine mark_not_mem d (by decide) ?_ 0
      intro s hs
      rcases mem_intercalate hs with he | ⟨f, hf, hs⟩
      · cases he
        decide
      · obtain ⟨c, -, rfl⟩ := List.mem_map.mp hf
        rw [symbol_mem_column hs]
        decide
    have hslots : slots (commas (columns.map (·.tokens)) : Fragment Value) = [] := by
      simp [List.flatMap_map]
    have hread : lexemesOf d 0 ((Distinct.on columns).tokens (α := Value))
        = [Lexeme.word Keyword.distinct.text.toList, .word Keyword.on.text.toList, .mark '(']
          ++ lexemesOf d 0 (commas (columns.map (·.tokens)) : Fragment Value)
          ++ [Lexeme.mark ')'] := by
      show lexemesOf d 0 ([Token.word .distinct, .word .on, .symbol .group]
        ++ commas (columns.map (·.tokens)) ++ [Token.symbol .close] : Fragment Value) = _
      rw [lexemesOf_append, lexemesOf_append, slots_append, hslots]
      rfl
    -- the columns hold no parenthesis, so the first one that closes ends their list
    have hpassed : ∀ l ∈ [Lexeme.word Keyword.distinct.text.toList, .word Keyword.on.text.toList,
        .mark '('] ++ lexemesOf d 0 (commas (columns.map (·.tokens)) : Fragment Value),
        decide (l ≠ .mark ')') = true := by
      intro l hl
      rw [decide_eq_true_eq]
      rintro rfl
      rcases List.mem_append.mp hl with hl | hl
      · exact absurd hl (by simp)
      · exact hclose hl
    unfold Lexeme.behindDistinct
    rw [hread, if_pos (by rfl), if_pos (by rfl), List.append_assoc,
      List.dropWhile_append_of_pos hpassed]
    simp

/-- The lexemes of a selection: those of its items, between what makes rows distinct and the
table. -/
theorem lexemesOf_select (d : Dialect) (s : Select) :
    ∃ more, lexemesOf d 0 (s.tokens d)
      = .word Keyword.select.text.toList :: (lexemesOf d 0 (s.distinct.tokens (α := Value))
        ++ (lexemesOf d 0 (commas (s.items.map (·.tokens)) : Fragment Value)
          ++ Lexeme.word Keyword.from_.text.toList :: more)) := by
  let rest : Fragment Value :=
    .name s.table :: (s.joins.flatMap (·.tokens d)
      ++ clause [.where_] (optional d s.where_)
      ++ clause [.group, .by_] (commas (s.groupBy.map (·.tokens)))
      ++ clause [.having] (optional d s.having)
      ++ clause [.order, .by_]
        (commas (s.orderBy.map fun o => o.1.tokens ++ [Token.word (.ofOrder o.2)]))
      ++ d.limitOffset s.limit s.offset)
  have htokens : s.tokens d = [Token.word .select] ++ (s.distinct.tokens
      ++ (commas (s.items.map (·.tokens)) ++ Token.word .from_ :: rest)) := by
    simp [Select.tokens, rest]
  have hslots : slots (commas (s.items.map (·.tokens)) : Fragment Value) = [] := by
    simp [List.flatMap_map]
  refine ⟨lexemesOf d 0 rest, ?_⟩
  rw [htokens, lexemesOf_append, lexemesOf_append, lexemesOf_append, Distinct.slots_tokens, hslots]
  rfl

/-- The items that are read from the lexemes of a selection are its items. -/
theorem selectItems_tokens (d : Dialect) {s : Select} (hitems : s.items ≠ []) :
    selectItems (lexemesOf d 0 (s.tokens d))
      = s.items.map fun i => lexemesOf d 0 (i.tokens : Fragment Value) := by
  obtain ⟨more, hread⟩ := lexemesOf_select d s
  -- no item holds one of the words that stand around the list
  have hword : ∀ {k : Keyword}, k.Reserved → k.inItem = false → Lexeme.word k.text.toList
      ∉ lexemesOf d 0 (commas (s.items.map (·.tokens)) : Fragment Value) :=
    fun hk hitem => not_mem_lexemesOf hk d 0 (word_not_mem_items hitem s.items)
  have hhead : ∀ {k : Keyword}, k.Reserved → k.inItem = false → k ≠ .from_ →
      (lexemesOf d 0 (commas (s.items.map (·.tokens)) : Fragment Value)
        ++ .word Keyword.from_.text.toList :: more).head? ≠ some (.word k.text.toList) := by
    intro k hk hitem hne he
    have hnot := hword hk hitem
    cases hls : lexemesOf d 0 (commas (s.items.map (·.tokens)) : Fragment Value) with
    | nil =>
      rw [hls] at he
      exact hne (hk.unique _ (Lexeme.word.inj (Option.some.inj he))).symm
    | cons l ls =>
      rw [hls] at he hnot
      exact hnot (Option.some.inj he ▸ List.mem_cons_self ..)
  unfold selectItems
  rw [hread, List.tail_cons, behindDistinct_append d s.distinct
    (hhead Keyword.reserved_distinct rfl (by simp)) (hhead Keyword.reserved_on rfl (by simp)),
    takeWhile_ne_append (hword Keyword.reserved_from rfl), lexemesOf_commas d 0 (by simp),
    List.map_map]
  refine List.splitOn_intercalate _ ?_ fun hnil => hitems (List.map_eq_nil_iff.mp hnil)
  intro ls hls
  obtain ⟨i, -, rfl⟩ := List.mem_map.mp hls
  refine mark_not_mem d (by decide) ?_ 0
  intro symbol hsymbol
  rcases symbol_mem_item hsymbol with rfl | rfl | rfl <;> decide

/-! ## Names -/

/-- The name that an item has in a result; all columns together have none. -/
def SelectItem.resultName : SelectItem → Option String
  | .star _ => none
  | .column c aliasName => some (aliasName.getD c.column)
  | .aggregate _ _ aliasName => some aliasName

theorem lexemesOf_name {α : Type} (d : Dialect) (bound : Nat) (f : Fragment α) (n : String) :
    (lexemesOf d bound (f ++ [Token.name n])).getLast? = some (.ofName n.toList) := by
  rw [lexemesOf_append]
  exact List.getLast?_concat ..

/-- A column is the last thing that is read of it. -/
theorem ColumnRef.getLast?_tokens {α : Type} (d : Dialect) (c : ColumnRef) :
    (lexemesOf d 0 (c.tokens (α := α))).getLast? = some (.ofName c.column.toList) := by
  obtain ⟨qualifier, column⟩ := c
  cases qualifier with
  | some q => exact lexemesOf_name d 0 [.name q, .symbol .dot] column
  | none => exact lexemesOf_name d 0 [] column

/-- The name of an item is the last thing that is read of it. -/
theorem resultColumn?_tokens (d : Dialect) {i : SelectItem} {n : String}
    (h : i.resultName = some n) :
    resultColumn? (lexemesOf d 0 (i.tokens : Fragment Value)) = some n := by
  have hname : ∀ {f : Fragment Value} {n : String},
      (lexemesOf d 0 f).getLast? = some (.ofName n.toList) →
        resultColumn? (lexemesOf d 0 f) = some n := by
    intro f n hlast
    rw [resultColumn?, hlast]
    exact (Lexeme.standsFor_ofName n).name_eq
  cases i with
  | star qualifier => cases h
  | column c aliasName =>
    cases aliasName with
    | some a =>
      have htokens : (SelectItem.column c (some a)).tokens (α := Value)
          = (c.tokens ++ [Token.word .as]) ++ [Token.name a] := by
        simp [SelectItem.tokens, aliasTokens]
      rw [htokens, ← Option.some.inj h]
      exact hname (lexemesOf_name d 0 _ a)
    | none =>
      have htokens : (SelectItem.column c none).tokens (α := Value) = c.tokens := by
        simp [SelectItem.tokens, aliasTokens]
      rw [htokens, ← Option.some.inj h]
      exact hname (c.getLast?_tokens d)
  | aggregate f c a =>
    have htokens : (SelectItem.aggregate f c a).tokens (α := Value)
        = ((Operand.aggregate f c).tokens ++ [Token.word .as]) ++ [Token.name a] := by
      simp [SelectItem.tokens, aliasTokens]
    rw [htokens, ← Option.some.inj h]
    exact hname (lexemesOf_name d 0 _ a)

/-- All columns together end in a star. -/
theorem getLast?_star (d : Dialect) (qualifier : Option String) :
    (lexemesOf d 0 ((SelectItem.star qualifier).tokens : Fragment Value)).getLast?
      = some (.mark '*') := by
  have hlast := ColumnRef.getLast?_tokens (α := Value) d { qualifier, column := "*" }
  have hstar : Lexeme.ofName "*".toList = .mark '*' := by decide
  rwa [hstar] at hlast

end SqlQuery.Sql
