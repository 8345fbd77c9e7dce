import SqlQuery.Proofs.Sql.AtomText
import SqlQuery.Proofs.Sql.Weave

/-!
# The text of a selection

A selection is written clause by clause, and a clause that has nothing to say is left out with its
words. So the text is put together of the texts of the clauses, each with a blank before it. What
an insertion does on a conflict is one more such clause.

> `Spells`, `Adds`: the text of a fragment, alone and behind others.

> `Select.render_tokens`: the text of a selection is made of the texts of its parts.

> `Statement.sql_upsert`: the text of an insertion that may become an update.
-/

namespace SqlQuery

namespace Sql

variable {α : Type} {d : Dialect} {bound : Nat} {f g : Fragment α} {s t : String}

/-! ## Fragments behind each other -/

/-- The fragment is written as the text behind `bound` values, and blanks can stand beside it. -/
structure Spells (d : Dialect) (bound : Nat) (f : Fragment α) (text : String) : Prop where
  opens : Opens f
  closes : Closes f
  render_eq : d.render bound f = text

/-- What a fragment adds to the text before it: a blank and its own text, or nothing at all where
it has no tokens. -/
inductive Adds (d : Dialect) (bound : Nat) : Fragment α → String → Prop where
  | nothing : Adds d bound [] ""
  | more {f : Fragment α} {text : String} (h : Spells d bound f text) :
      Adds d bound f (" " ++ text)

/-- Two fragments are written with a blank between them, the second behind the values of the
first. -/
theorem Spells.append (hf : Spells d bound f s)
    (hg : Spells d (bound + (slots f).length) g t) : Spells d bound (f ++ g) (s ++ " " ++ t) where
  opens := hf.opens.append g
  closes := hg.closes.append f
  render_eq := by rw [render_append d bound hf.closes hg.opens, hf.render_eq, hg.render_eq]

/-- A fragment that binds nothing leaves the numbers of the next one as they are. -/
theorem Spells.append_unbound (hf : Spells d bound f s) (hnone : slots f = [])
    (hg : Spells d bound g t) : Spells d bound (f ++ g) (s ++ " " ++ t) :=
  hf.append (by rwa [hnone])

/-- What may be left out is written behind a fragment that stands there in any case. -/
theorem Spells.add {k : Nat} (hf : Spells d bound f s) (hk : bound + (slots f).length = k)
    (hg : Adds d k g t) : Spells d bound (f ++ g) (s ++ t) := by
  subst hk
  cases hg with
  | nothing => simpa using hf
  | more hg =>
    rw [← String.append_assoc]
    exact hf.append hg

/-- What two fragments add is added one after the other. -/
theorem Adds.append (hf : Adds d bound f s) (hg : Adds d (bound + (slots f).length) g t) :
    Adds d bound (f ++ g) (s ++ t) := by
  cases hf with
  | nothing => simpa [slots] using hg
  | more hf =>
    rw [String.append_assoc]
    exact .more (hf.add rfl hg)

/-- What any number of fragments add; each of them is written behind the values of those before
it. -/
theorem Adds.flatten {fs : List (Fragment α)} :
    (∀ f ∈ fs, Opens f ∧ Closes f) →
      Adds d bound fs.flatten (String.join ((renderEach d bound fs).map (" " ++ ·))) := by
  induction fs generalizing bound with
  | nil => intro _; exact .nothing
  | cons f fs ih =>
    intro h
    obtain ⟨⟨hopens, hcloses⟩, hrest⟩ := List.forall_mem_cons.mp h
    rw [List.flatten_cons, renderEach, List.map_cons, String.join_cons]
    exact .append (.more ⟨hopens, hcloses, rfl⟩) (ih hrest)

/-- Words alone; they are the same in every dialect. -/
theorem Spells.words {words : List Keyword} (hne : words ≠ [])
    (h : d.render bound (words.map (Token.word (α := α))) = s) :
    Spells d bound (words.map (Token.word (α := α))) s where
  opens := by
    obtain ⟨k, rest, rfl⟩ := List.exists_cons_of_ne_nil hne
    exact opens_cons rfl _
  closes := by
    rw [← List.dropLast_append_getLast hne, List.map_append]
    exact closes_concat rfl _
  render_eq := h

/-- A name alone. -/
theorem Spells.name (n : String) : Spells d bound [Token.name (α := α) n] (d.quoteName n) :=
  ⟨opens_cons rfl _, closes_token rfl, render_name d bound n⟩

/-- A list in parentheses. -/
theorem Spells.grouped (f : Fragment α) :
    Spells d bound (grouped f) ("(" ++ d.render bound f ++ ")") :=
  ⟨opens_grouped f, closes_grouped f, render_grouped d bound f⟩

/-- A list of some entries has their texts with commas between them. -/
theorem Spells.commas {fs : List (Fragment α)} (hne : fs ≠ [])
    (h : ∀ f ∈ fs, Opens f ∧ Closes f) :
    Spells d bound (commas fs) (", ".intercalate (renderEach d bound fs)) where
  opens := by
    obtain ⟨f, rest, rfl⟩ := List.exists_cons_of_ne_nil hne
    exact (h f (List.mem_cons_self ..)).1.intercalate _ _
  closes := .intercalate _ hne fun f hf => (h f hf).2
  render_eq := render_commas d fun f hf => (h f hf).1

/-- What has a token has a text: a reader of the text meets the token. -/
theorem Spells.text_ne_empty (h : Spells d bound f s) : s ≠ "" := by
  rintro rfl
  obtain ⟨⟨token, rest, rfl, -⟩, -, hempty⟩ := h
  have hread := lexemes_render d bound (token :: rest)
  rw [hempty] at hread
  have hnone : lexemesOf d bound (token :: rest) = [] := (Option.some.inj hread).symm
  rw [← List.singleton_append, lexemesOf_append, List.append_eq_nil_iff] at hnone
  cases token with
  | symbol s =>
    have hmarks : s.text.toList = [] := by
      simpa [lexemesOf, number, Token.lexemes] using hnone.1
    exact absurd hmarks (by cases s <;> decide)
  | word k | name n | number n | slot a => cases hnone.1

/-! ## Clauses -/

/-- The text of a clause with some words before its body, which is left out with an empty body. -/
def clauseText (words body : String) : String :=
  if body = "" then "" else " " ++ words ++ " " ++ body

/-- A clause is written behind other clauses, or not at all. -/
theorem adds_clause {words : List Keyword} {w body : String} {f : Fragment α} (hne : words ≠ [])
    (hwords : d.render bound (words.map (Token.word (α := α))) = w)
    (hbody : f = [] ∧ body = "" ∨ Spells d bound f body) :
    Adds d bound (clause words f) (clauseText w body) := by
  rcases hbody with ⟨rfl, rfl⟩ | h
  · exact .nothing
  · have hsome : clause words f = words.map Token.word ++ f := by
      obtain ⟨token, rest, rfl, -⟩ := h.opens
      rfl
    rw [hsome, clauseText, if_neg h.text_ne_empty, String.append_assoc, String.append_assoc]
    refine .more ?_
    rw [← String.append_assoc]
    exact (Spells.words hne hwords).append_unbound (slots_words words) h

/-- Entries that bind nothing have the same texts wherever the list stands. -/
theorem renderEach_map {β : Type} {write : β → Fragment α} {text : β → String} (xs : List β)
    (hwrite : ∀ x n, d.render n (write x) = text x) (hslots : ∀ x, slots (write x) = []) :
    renderEach d bound (xs.map write) = xs.map text := by
  induction xs with
  | nil => rfl
  | cons x xs ih =>
    rw [List.map_cons, renderEach, hslots, hwrite x bound]
    exact congrArg _ ih

/-- A list that has entries has their texts with commas between them. -/
theorem spells_list {β : Type} {write : β → Fragment α} {text : β → String} {xs : List β}
    (hne : xs ≠ []) (hwrite : ∀ x n, Spells d n (write x) (text x))
    (hslots : ∀ x, slots (write x) = []) :
    Spells d bound (commas (xs.map write)) (", ".intercalate (xs.map text)) := by
  rw [← renderEach_map xs (fun x n => (hwrite x n).render_eq) hslots]
  refine .commas (by simpa using hne) fun f hf => ?_
  obtain ⟨x, -, rfl⟩ := List.mem_map.mp hf
  exact ⟨(hwrite x bound).opens, (hwrite x bound).closes⟩

/-- The body of a clause with a list is the text of the list, and empty where the list is. -/
theorem spells_list_or_empty {β : Type} {write : β → Fragment α} {text : β → String} (xs : List β)
    (hwrite : ∀ x n, Spells d n (write x) (text x)) (hslots : ∀ x, slots (write x) = []) :
    commas (xs.map write) = [] ∧ ", ".intercalate (xs.map text) = ""
      ∨ Spells d bound (commas (xs.map write)) (", ".intercalate (xs.map text)) := by
  rcases xs with _ | ⟨x, xs⟩
  · exact Or.inl ⟨rfl, rfl⟩
  · exact Or.inr (spells_list (by simp) hwrite hslots)

/-- A predicate that may be left out has the text of its tokens, if it has any. -/
theorem spells_optional {p : Option Predicate} (hp : ∀ q ∈ p, q.FitsAt .alone) :
    optional d p = [] ∧ d.render bound (optional d p) = ""
      ∨ Spells d bound (optional d p) (d.render bound (optional d p)) := by
  cases p with
  | none => exact Or.inl ⟨rfl, rfl⟩
  | some q => exact Or.inr ⟨(hp q rfl).opens d, (hp q rfl).closes d, rfl⟩

/-! ## Items -/

/-- The text of the name that is given to an item, if it is given one. -/
def aliasText (d : Dialect) : Option String → String
  | some a => " AS " ++ d.quoteName a
  | none => ""

/-- The text of an item. -/
def SelectItem.written (d : Dialect) : SelectItem → String
  | .star qualifier => ColumnRef.written d { qualifier, column := "*" }
  | .column c aliasName => c.written d ++ aliasText d aliasName
  | .aggregate f c aliasName => (Operand.aggregate f c).written d ++ aliasText d (some aliasName)

/-- The name of an item is added behind it. -/
theorem adds_alias (aliasName : Option String) :
    Adds d bound (aliasTokens (α := α) aliasName) (aliasText d aliasName) := by
  cases aliasName with
  | none => exact .nothing
  | some a =>
    have has : Spells d bound ([Keyword.as].map (Token.word (α := α))) "AS" :=
      .words (by simp) rfl
    have hname : Spells d bound (aliasTokens (α := α) (some a)) ("AS" ++ " " ++ d.quoteName a) :=
      has.append_unbound rfl (.name a)
    have htext : aliasText d (some a) = " " ++ ("AS" ++ " " ++ d.quoteName a) := by
      simp only [aliasText, ← String.toList_inj]
      simp
    rw [htext]
    exact .more hname

/-- A column is written behind what qualifies it. -/
theorem spells_column (c : ColumnRef) : Spells d bound (c.tokens (α := α)) (c.written d) :=
  ⟨c.opens, c.closes, c.render_written d bound⟩

/-- An item is written with its name, and no value is bound in it. -/
theorem SelectItem.spells (i : SelectItem) :
    Spells d bound (i.tokens (α := α)) (i.written d) := by
  cases i with
  | star qualifier => exact spells_column _
  | column c aliasName => exact (spells_column c).add rfl (adds_alias aliasName)
  | aggregate f c aliasName =>
    have hcall : Spells d bound (Operand.tokens (α := α) (.aggregate f c))
        ((Operand.aggregate f c).written d) :=
      ⟨(Operand.aggregate f c).opens, (Operand.aggregate f c).closes,
        (Operand.aggregate f c).render_written d bound⟩
    exact hcall.add rfl (adds_alias (some aliasName))

/-- The text of a way to drop rows. -/
def Distinct.written (d : Dialect) : Distinct → String
  | .keep => ""
  | .rows => " DISTINCT"
  | .on columns => " DISTINCT ON (" ++ ", ".intercalate (columns.map (·.written d)) ++ ")"

/-- A way to drop rows is added behind SELECT. -/
theorem Distinct.adds (x : Distinct) : Adds d bound (x.tokens (α := α)) (x.written d) := by
  cases x with
  | keep => exact .nothing
  | rows =>
    have hwords : Spells d bound ([Keyword.distinct].map (Token.word (α := α))) "DISTINCT" :=
      .words (by simp) rfl
    exact .more hwords
  | on columns =>
    have hlist : d.render bound (commas (columns.map (ColumnRef.tokens (α := α))))
        = ", ".intercalate (columns.map (·.written d)) := by
      rw [render_commas d fun f hf => ?_, renderEach_map columns (fun c n => c.render_written d n)
        ColumnRef.slots_tokens]
      obtain ⟨c, -, rfl⟩ := List.mem_map.mp hf
      exact c.opens
    have hwords : Spells d bound ([Keyword.distinct, .on].map (Token.word (α := α)))
        "DISTINCT ON" := .words (by simp) rfl
    have hon := hwords.append_unbound rfl (.grouped (commas (columns.map (·.tokens))))
    rw [hlist] at hon
    have htext (list : String) : " DISTINCT ON (" ++ list ++ ")"
        = " " ++ ("DISTINCT ON" ++ " " ++ ("(" ++ list ++ ")")) := by
      simp only [← String.toList_inj]
      simp
    show Adds d bound _ (" DISTINCT ON (" ++ ", ".intercalate (columns.map (·.written d)) ++ ")")
    rw [htext]
    exact .more hon

end Sql

namespace Dialect

open Sql

variable {α : Type} {d : Dialect} {bound : Nat}

/-- The text of the limit that stands for none. -/
def noLimitText? : Dialect → Option String
  | .postgres => none
  | .mysql => some "18446744073709551615"
  | .sqlite => some "-1"

/-- The text of the clause for a page of rows. -/
def pageText (d : Dialect) (limit offset : Option Nat) : String :=
  let skipped := match offset with
    | some n => " OFFSET " ++ toString n
    | none => ""
  match limit, offset, d.noLimitText? with
  | some n, _, _ => " LIMIT " ++ toString n ++ skipped
  | none, some _, some unlimited => " LIMIT " ++ unlimited ++ skipped
  | none, _, _ => skipped

/-- A word and a number. -/
theorem adds_counted (k : Keyword) (n : Nat) :
    Adds d bound [Token.word (α := α) k, .number n] (" " ++ (k.text ++ " " ++ toString n)) := by
  have hword : Spells d bound ([k].map (Token.word (α := α))) k.text :=
    .words (by simp) (render_word d bound k)
  exact .more (hword.append ⟨opens_cons rfl _, closes_token rfl, render_number d _ n⟩)

/-- A page is added behind all other clauses. A dialect without an offset of its own has a limit
there in any case. -/
theorem adds_limitOffset (limit offset : Option Nat) :
    Adds d bound (d.limitOffset (α := α) limit offset) (d.pageText limit offset) := by
  have hlimit (n : Nat) : " " ++ (Keyword.limit.text ++ " " ++ toString n)
      = " LIMIT " ++ toString n := by
    simp only [Keyword.text, ← String.toList_inj]
    simp
  have hoffset (n : Nat) : " " ++ (Keyword.offset.text ++ " " ++ toString n)
      = " OFFSET " ++ toString n := by
    simp only [Keyword.text, ← String.toList_inj]
    simp
  have hskipped (k n : Nat) :
      Adds d k [Token.word (α := α) .offset, .number n] (" OFFSET " ++ toString n) :=
    hoffset n ▸ adds_counted .offset n
  have htaken (n : Nat) :
      Adds d bound [Token.word (α := α) .limit, .number n] (" LIMIT " ++ toString n) :=
    hlimit n ▸ adds_counted .limit n
  unfold limitOffset pageText
  cases limit with
  | some n =>
    cases offset with
    | some k => exact (htaken n).append (hskipped _ k)
    | none => simpa using htaken n
  | none =>
    cases offset with
    | none => cases d <;> exact .nothing
    | some k =>
      cases d with
      | postgres => exact hskipped _ k
      | mysql => exact (htaken 18446744073709551615).append (hskipped _ k)
      | sqlite =>
        have hminus : Spells .sqlite bound
            [Token.word (α := α) .limit, .symbol .minus, .number 1] "LIMIT -1" :=
          ⟨opens_cons rfl _, ((closes_token rfl).cons _).cons _, rfl⟩
        exact (Adds.more hminus).append (hskipped _ k)

/-- The text of what an insertion does where it meets a row with the same keys. -/
def conflictText (d : Dialect) (keys assignments : String) : String :=
  match d with
  | .mysql => " ON DUPLICATE KEY UPDATE " ++ assignments
  | _ => " ON CONFLICT (" ++ keys ++ ") DO UPDATE SET " ++ assignments

/-- What an insertion does on a conflict is added behind its rows; the keys bind nothing. -/
theorem adds_onConflict {keys assignments : Fragment α} {text : String}
    (hkeys : slots keys = []) (h : Spells d bound assignments text) :
    Adds d bound (d.onConflict keys assignments) (d.conflictText (d.render bound keys) text) := by
  have hduplicate : Spells d bound
      ([Keyword.on, .duplicate, .key, .update].map (Token.word (α := α)))
      "ON DUPLICATE KEY UPDATE" := .words (by simp) rfl
  have hconflict : Spells d bound ([Keyword.on, .conflict].map (Token.word (α := α)))
      "ON CONFLICT" := .words (by simp) rfl
  have hset : Spells d bound ([Keyword.do_, .update, .set].map (Token.word (α := α)))
      "DO UPDATE SET" := .words (by simp) rfl
  have hgroup := hconflict.append_unbound rfl (.grouped keys)
  have hnone : slots ([Keyword.on, .conflict].map Token.word ++ grouped keys) = [] := by
    simp [slots, hkeys]
  have hstandard := (hgroup.append_unbound hnone hset).append_unbound
    (by rw [slots_append, hnone]; rfl) h
  have htext : " ON CONFLICT (" ++ d.render bound keys ++ ") DO UPDATE SET " ++ text
      = " " ++ ("ON CONFLICT" ++ " " ++ ("(" ++ d.render bound keys ++ ")") ++ " "
        ++ "DO UPDATE SET" ++ " " ++ text) := by
    simp only [← String.toList_inj]
    simp
  have htext' : " ON DUPLICATE KEY UPDATE " ++ text
      = " " ++ ("ON DUPLICATE KEY UPDATE" ++ " " ++ text) := by
    simp only [← String.toList_inj]
    simp
  have hstandard := Adds.more hstandard
  have hmysql := Adds.more (hduplicate.append_unbound rfl h)
  rw [← htext] at hstandard
  rw [← htext'] at hmysql
  cases d with
  | mysql => exact hmysql
  | postgres | sqlite => exact hstandard

/-- The text of the value that an insertion would have given to a column. -/
def proposedText (d : Dialect) (column : String) : String :=
  match d with
  | .mysql => "VALUES(" ++ column ++ ")"
  | _ => "EXCLUDED." ++ column

end Dialect

namespace Sql

variable {d : Dialect} {bound : Nat}

/-! ## Assignments -/

/-- A column that is set to a value stands before the value's placeholder. -/
theorem Assignment.render_value (column : String) (v : Value) :
    d.render bound (Assignment.tokens d ⟨column, .value v⟩)
      = d.quoteName column ++ " = " ++ d.placeholder (bound + 1) := by
  show d.render bound (compared .eq [Token.name column] [.slot v]) = _
  rw [render_compared d bound rfl rfl (closes_token rfl) (opens_cons rfl _), render_name,
    render_slot, ← String.toList_inj]
  simp [Symbol.text, slots]

/-- A column that is set to what was proposed for it is written twice. -/
theorem Assignment.render_proposed (column : String) :
    d.render bound (Assignment.tokens d ⟨column, .proposed⟩)
      = d.quoteName column ++ " = " ++ d.proposedText (d.quoteName column) := by
  have hproposed (n : Nat) : d.render n (d.proposed [Token.name (α := Value) column])
      = d.proposedText (d.quoteName column) := by
    cases d with
    | mysql => exact (render_call_one _ n .values _).trans (by rw [render_name]; rfl)
    | postgres | sqlite =>
      have hdot (d : Dialect) : d.render n [Token.word (α := Value) .excluded, .symbol .dot,
          .name column] = "EXCLUDED" ++ ("." ++ d.quoteName column) := by
        have hsplit : [Token.word (α := Value) .excluded, .symbol .dot, .name column]
            = [Token.word .excluded] ++ Token.symbol .dot :: [Token.name column] := rfl
        rw [hsplit, render_holdsPrevious d n rfl, render_word, render_holdsNext d _ rfl,
          render_name]
        rfl
      exact (hdot _).trans String.append_assoc.symm
  have hopens : Opens (d.proposed [Token.name (α := Value) column]) := by
    cases d with
    | mysql => exact opens_call ..
    | postgres | sqlite => exact opens_cons rfl _
  show d.render bound (compared .eq [Token.name column] (d.proposed [Token.name column])) = _
  rw [render_compared d bound rfl rfl (closes_token rfl) hopens, render_name, hproposed,
    ← String.toList_inj]
  simp [Symbol.text]

/-! ## Statements -/

/-- The text of an entry of a sort. -/
def orderText (d : Dialect) (o : ColumnRef × SortOrder) : String :=
  o.1.written d ++ " " ++ (Keyword.ofOrder o.2).text

/-- The texts that a selection is put together of; of clauses only the bodies. -/
structure SelectTexts where
  distinct : String
  items : List String
  table : String
  joins : List String
  where_ : String
  groupBy : List String
  having : String
  orderBy : List String
  page : String

/-- The text of a selection, put together of its parts. -/
def SelectTexts.text (t : SelectTexts) : String :=
  "SELECT" ++ t.distinct ++ " " ++ ", ".intercalate t.items ++ " FROM " ++ t.table
    ++ String.join (t.joins.map (" " ++ ·))
    ++ clauseText "WHERE" t.where_
    ++ clauseText "GROUP BY" (", ".intercalate t.groupBy)
    ++ clauseText "HAVING" t.having
    ++ clauseText "ORDER BY" (", ".intercalate t.orderBy)
    ++ t.page

namespace Select

/-- The texts of the parts of a selection. Joins come first, so their values are behind none; those
of WHERE and of HAVING are behind the values of what stands before. -/
def texts (d : Dialect) (s : Select) : SelectTexts :=
  let joined := (slots (s.joins.flatMap (·.tokens d))).length
  let filtered := joined + (slots (optional d s.where_)).length
  { distinct := s.distinct.written d
    items := s.items.map (·.written d)
    table := d.quoteName s.table
    joins := renderEach d 0 (s.joins.map (·.tokens d))
    where_ := d.render joined (optional d s.where_)
    groupBy := s.groupBy.map (·.written d)
    having := d.render filtered (optional d s.having)
    orderBy := s.orderBy.map (orderText d)
    page := d.pageText s.limit s.offset }

/-- What a selection starts with: its items and its table. Nothing is bound there. -/
theorem spells_head (d : Dialect) (s : Select) (hitems : s.items ≠ []) :
    Spells d 0 (Token.word (α := Value) .select :: s.distinct.tokens
        ++ commas (s.items.map (·.tokens)) ++ [.word .from_, .name s.table])
      ("SELECT" ++ s.distinct.written d ++ " " ++ ", ".intercalate (s.items.map (·.written d))
        ++ " FROM " ++ d.quoteName s.table) := by
  have hselect : Spells d 0 ([Keyword.select].map (Token.word (α := Value))) "SELECT" :=
    .words (by simp) rfl
  have hfrom : Spells d 0 ([Keyword.from_].map (Token.word (α := Value))) "FROM" :=
    .words (by simp) rfl
  have hlist : Spells d 0 (commas (s.items.map (SelectItem.tokens (α := Value))))
      (", ".intercalate (s.items.map (·.written d))) :=
    spells_list hitems (fun i _ => i.spells) SelectItem.slots_tokens
  have htext (items table : String) :
      items ++ " FROM " ++ table = items ++ " " ++ ("FROM" ++ " " ++ table) := by
    simp only [← String.toList_inj]
    simp
  rw [htext]
  exact ((hselect.add rfl s.distinct.adds).append_unbound (by simp) hlist).append_unbound
    (by simp) (hfrom.append_unbound rfl (.name s.table))

/-- What the joins of a selection add. -/
theorem adds_joins (d : Dialect) (s : Select) (hjoins : ∀ j ∈ s.joins, Closes (j.on.tokens d)) :
    Adds d 0 (s.joins.flatMap (·.tokens d))
      (String.join ((renderEach d 0 (s.joins.map (·.tokens d))).map (" " ++ ·))) := by
  rw [List.flatMap_def]
  refine .flatten fun f hf => ?_
  obtain ⟨j, hj, rfl⟩ := List.mem_map.mp hf
  exact ⟨opens_cons rfl _, (hjoins j hj).append _⟩

/-- What the order of a selection adds, which binds nothing. -/
theorem adds_orderBy (d : Dialect) (bound : Nat) (s : Select) :
    Adds d bound
      (clause [.order, .by_]
        (commas (s.orderBy.map fun o => o.1.tokens ++ [Token.word (α := Value) (.ofOrder o.2)])))
      (clauseText "ORDER BY" (", ".intercalate (s.orderBy.map (orderText d)))) := by
  have hentry (o : ColumnRef × SortOrder) (n : Nat) :
      Spells d n (o.1.tokens ++ ([Keyword.ofOrder o.2].map (Token.word (α := Value))))
        (orderText d o) :=
    (spells_column o.1).append_unbound (by simp) (.words (by simp) (render_word d n _))
  exact adds_clause (by simp) rfl (spells_list_or_empty s.orderBy hentry (by simp))

/-- The text of a selection is put together of the texts of its parts, each behind the values that
are bound before it. -/
theorem render_tokens (d : Dialect) (s : Select) (hitems : s.items ≠ [])
    (hjoins : ∀ j ∈ s.joins, Closes (j.on.tokens d))
    (hwhere : ∀ p ∈ s.where_, p.FitsAt .alone) (hhaving : ∀ p ∈ s.having, p.FitsAt .alone) :
    d.render 0 (s.tokens d) = (s.texts d).text := by
  set joined := (slots (s.joins.flatMap (·.tokens d))).length with hjoinedEq
  set filtered := joined + (slots (optional d s.where_)).length with hfilteredEq
  have hcolumn (c : ColumnRef) (n : Nat) : Spells d n (c.tokens (α := Value)) (c.written d) :=
    spells_column c
  have hwhereAdds : Adds d joined (clause [.where_] (optional d s.where_))
      (clauseText "WHERE" (d.render joined (optional d s.where_))) :=
    adds_clause (by simp) rfl (spells_optional hwhere)
  have hgroupAdds : Adds d filtered (clause [.group, .by_] (commas (s.groupBy.map (·.tokens))))
      (clauseText "GROUP BY" (", ".intercalate (s.groupBy.map (·.written d)))) :=
    adds_clause (by simp) rfl
      (spells_list_or_empty s.groupBy hcolumn ColumnRef.slots_tokens)
  have hhavingAdds : Adds d filtered (clause [.having] (optional d s.having))
      (clauseText "HAVING" (d.render filtered (optional d s.having))) :=
    adds_clause (by simp) rfl (spells_optional hhaving)
  have hlisted : slots (commas (s.items.map (SelectItem.tokens (α := Value)))) = [] := by simp
  have hgroups : slots (commas (s.groupBy.map (ColumnRef.tokens (α := Value)))) = [] := by simp
  have hjoined := (s.spells_head d hitems).add (by simp [slots, hlisted]) (s.adds_joins d hjoins)
  have hfiltered := hjoined.add (k := joined) (by simp [slots, hlisted, joined]) hwhereAdds
  have hgrouped := hfiltered.add (k := filtered) (by simp [slots, hlisted, filtered, joined])
    hgroupAdds
  have hkept := hgrouped.add (k := filtered)
    (by simp [slots, hlisted, hgroups, filtered, joined]) hhavingAdds
  exact ((hkept.add rfl (s.adds_orderBy d _)).add rfl
    (Dialect.adds_limitOffset s.limit s.offset)).render_eq

/-- A selection binds what its joins bind, then what WHERE and HAVING bind, and nothing else. -/
theorem slots_tokens (d : Dialect) (s : Select) :
    slots (s.tokens d) = slots (s.joins.flatMap (·.tokens d)) ++ slots (optional d s.where_)
      ++ slots (optional d s.having) := by
  have hlisted : slots (commas (s.items.map (SelectItem.tokens (α := Value)))) = [] := by simp
  have hgroups : slots (commas (s.groupBy.map (ColumnRef.tokens (α := Value)))) = [] := by simp
  have horder : slots (commas (s.orderBy.map fun o =>
      o.1.tokens ++ [Token.word (α := Value) (.ofOrder o.2)])) = [] := by
    simp [List.flatMap_map, slots]
  simp only [Select.tokens, slots_append, slots_clause, slots_limitOffset, hlisted, hgroups, horder,
    slots, Distinct.slots_tokens, List.nil_append, List.append_nil]

end Select

/-! ## Insertions that become updates -/

/-- What an insertion starts with: its table, its columns and the placeholders of its rows. -/
theorem spells_insertion (d : Dialect) (table : String) (columns : List String)
    {rows : List (List Value)} (hrows : rows ≠ []) :
    Spells d 0
      (insertInto table columns ++ .word .values :: commas (rows.map fun r => grouped (slotList r)))
      (insertIntoText d table columns ++ " VALUES " ++ ", ".intercalate (groupTexts d 0 rows)) where
  opens := opens_cons rfl _
  closes := ((closes_commas (fun r => closes_grouped (slotList r)) hrows).cons _).append _
  render_eq := by
    have hopens : Opens (commas (rows.map fun r => grouped (slotList r))) :=
      opens_commas (fun r => opens_grouped (slotList r)) hrows
    rw [render_insertInto d table columns (opens_cons rfl _), render_word_cons d 0 .values hopens,
      render_groups, ← String.toList_inj]
    simp [Keyword.text]

/-- The text of an insertion that becomes an update where it meets a row with the same keys. What
is set there is written behind the values of the rows. -/
theorem Statement.sql_upsert (d : Dialect) (table : String) (columns : List String)
    {rows : List (List Value)} (hrows : rows ≠ []) {c : Conflict} (hsome : c.assignments ≠ [])
    (returning : Bool) :
    ((Statement.insert table columns rows (some c) returning).prepare d).sql
      = insertIntoText d table columns ++ " VALUES " ++ ", ".intercalate (groupTexts d 0 rows)
        ++ d.conflictText (namesText d c.keys)
          (d.render rows.flatten.length (assignmentList d c.assignments))
        ++ returningText d returning := by
  have hset : Spells d rows.flatten.length (assignmentList d c.assignments)
      (d.render rows.flatten.length (assignmentList d c.assignments)) :=
    ⟨opens_assignmentList d hsome, closes_assignmentList d hsome, rfl⟩
  have hkeys : slots (nameList (α := Value) c.keys) = [] := by simp [nameList]
  have hconflict := Dialect.adds_onConflict hkeys hset
  rw [render_nameList] at hconflict
  have hvalues : slots (insertInto table columns
      ++ Token.word .values :: commas (rows.map fun r => grouped (slotList r))) = rows.flatten := by
    simp [insertInto, slots, List.flatMap_map, List.flatMap_id']
  have hboth := (spells_insertion d table columns hrows).add
    (k := rows.flatten.length) (by rw [hvalues, Nat.zero_add]) hconflict
  show d.render 0 (insertInto table columns
    ++ .word .values :: commas (rows.map fun r => grouped (slotList r))
    ++ d.onConflict (nameList c.keys) (assignmentList d c.assignments)
    ++ returningTokens d returning) = _
  rw [render_returning d 0 hboth.closes]
  exact congrArg (· ++ returningText d returning) hboth.render_eq

end Sql

end SqlQuery
