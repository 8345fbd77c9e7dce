import SqlQuery.Proofs.Sql.InsertText
import SqlQuery.Proofs.Sql.JoinText

/-!
# The text of an atom

Every operator has a template: the operand and the placeholders of an atom, with words and symbols
around them. The templates of arrays and of searches are those that a dialect has for them. Here
they are functions of the texts that go into them, and each is the text of the fragment that it
stands for; so the text of an atom can be put together of texts alone.

> `ArrayStyle.render_isEmpty` to `ArrayStyle.render_hasSome`, `Dialect.render_search`: the templates
> of the dialects.

> `Sql.render_compare` to `Sql.render_constant`: those of the other operators.

> `Sql.render_joined`: the text of parts with a word between them is made of the texts of the parts.
-/

namespace SqlQuery

namespace Sql

variable {α : Type} (d : Dialect) (bound : Nat)

/-! ## Parts of an atom -/

/-- The text of a function applied to the text of its arguments. -/
def callText (k : Keyword) (arguments : String) : String :=
  k.text ++ "(" ++ arguments ++ ")"

theorem render_word (k : Keyword) : d.render bound [Token.word (α := α) k] = k.text := by
  simp [Dialect.render, number, layout, Token.chars]

/-- A number alone is written in decimal digits. -/
theorem render_number (n : Nat) : d.render bound [Token.number (α := α) n] = toString n := by
  simp [Dialect.render, number, layout, Token.chars, Nat.repr]

/-- A call is written as the function's word, and its arguments in parentheses right behind it. -/
theorem render_call (k : Keyword) (fs : List (Fragment α)) :
    d.render bound (call k fs) = callText k (d.render bound (commas fs)) := by
  have hcall : call k fs
      = [Token.word k] ++ Token.symbol .arguments :: (commas fs ++ [Token.symbol .close]) := by
    simp [call]
  rw [hcall, render_holdsPrevious d bound rfl, render_holdsNext d _ rfl,
    render_holdsPrevious d _ rfl, render_symbol, render_word]
  simp only [callText, Symbol.text, String.append_assoc]
  rfl

/-- The argument of a call with only one needs no comma. -/
theorem render_call_one (k : Keyword) (f : Fragment α) :
    d.render bound (call k [f]) = callText k (d.render bound f) := by
  rw [render_call, commas, List.intercalate_singleton]

/-- Of two arguments the second one is numbered behind the values of the first. -/
theorem render_call_two (k : Keyword) {f g : Fragment α} (hf : Opens f) (hg : Opens g) :
    d.render bound (call k [f, g]) = callText k
      (d.render bound f ++ ", " ++ d.render (bound + (slots f).length) g) := by
  have hboth : ∀ x ∈ [f, g], Opens x := by simp [hf, hg]
  rw [render_call, render_commas d hboth]
  rfl

/-- A symbol between two fragments stands apart from both, if it clings to neither. -/
theorem render_compared {s : Symbol} (hnext : s.holdsNext = false)
    (hprevious : s.holdsPrevious = false) {f g : Fragment α} (hf : Closes f) (hg : Opens g) :
    d.render bound (compared s f g)
      = d.render bound f ++ " " ++ s.text ++ " "
        ++ d.render (bound + (slots f).length) g := by
  have hsymbol : Opens (Token.symbol s :: g) :=
    opens_cons (by simp [Token.isClearBefore, hprevious]) g
  rw [compared, render_append d bound hf hsymbol, render_symbol_cons d _ hnext hg]
  simp only [String.append_assoc]

/-- A text in lower case, where that is wanted. -/
def foldingText (folded : Bool) (text : String) : String :=
  if folded then callText .lower text else text

/-- Folding letter case is a call around a text, or leaves the text alone. -/
theorem render_folding (folded : Bool) (f : Fragment α) :
    d.render bound (folding folded f) = foldingText folded (d.render bound f) := by
  cases folded with
  | true => exact render_call_one d bound .lower f
  | false => rfl

/-- The text of parts with a word between them is made of the texts of the parts. -/
theorem render_joined (k : Keyword) {fs : List (Fragment α)} :
    (∀ f ∈ fs, Opens f ∧ Closes f) →
      d.render bound (joined k fs)
        = (" " ++ k.text ++ " ").intercalate (renderEach d bound fs) := by
  induction fs generalizing bound with
  | nil => intro _; rfl
  | cons f fs ih =>
    intro h
    cases fs with
    | nil => simp [joined, renderEach]
    | cons g fs =>
      obtain ⟨hf, hg, hrest⟩ : (Opens f ∧ Closes f) ∧ (Opens g ∧ Closes g) ∧ _ := by
        simpa only [List.forall_mem_cons] using h
      rw [render_joined_cons d bound k hf.2 hg.1, ih _ (List.forall_mem_cons.mpr ⟨hg, hrest⟩)]
      simp only [renderEach, String.intercalate_cons_cons, String.append_assoc]

/-- Fragments that come later are numbered behind the values of those before them. -/
theorem renderEach_append (fs gs : List (Fragment α)) :
    renderEach d bound (fs ++ gs)
      = renderEach d bound fs ++ renderEach d (bound + (fs.flatMap slots).length) gs := by
  induction fs generalizing bound with
  | nil => rfl
  | cons f fs ih =>
    rw [List.cons_append, renderEach, renderEach, ih, List.flatMap_cons, List.length_append,
      Nat.add_assoc, List.cons_append]

/-! ## Operands -/

/-- The text of a column, behind what qualifies it. -/
def ColumnRef.written (c : ColumnRef) : String :=
  match c.qualifier with
  | some q => columnText d q c.column
  | none => d.quoteName c.column

/-- A reference to a column is written with its qualifier in front, if it has one. -/
theorem ColumnRef.render_written (c : ColumnRef) :
    d.render bound (c.tokens (α := α)) = c.written d := by
  obtain ⟨_ | q, column⟩ := c
  · exact render_name d bound column
  · exact ColumnRef.render_tokens d bound q column

namespace Operand

/-- The text of an operand, made of the text of its column. -/
def written (o : Operand) : String :=
  match o with
  | .column c => c.written d
  | .aggregate f c => callText (.ofAggregate f) (c.written d)

/-- An operand is written alike behind any values, since it binds none. -/
theorem render_written (o : Operand) : d.render bound (o.tokens (α := α)) = o.written d := by
  cases o with
  | column c => exact c.render_written d bound
  | aggregate f c =>
    rw [tokens, render_call_one, ColumnRef.render_written]
    rfl

/-- An operand ends in a name or in a parenthesis, and lets a blank stand behind it. -/
theorem closes (o : Operand) : Closes (o.tokens (α := α)) := by
  cases o with
  | column c => exact c.closes
  | aggregate f c => exact closes_call ..

end Operand

end Sql

/-! ## Templates of the dialects -/

namespace ArrayStyle

open Sql

variable (d : Dialect) (bound : Nat) (o : Operand)

/-- The template of the test that an array has no element. -/
def isEmptyText (style : ArrayStyle) (column : String) : String :=
  match style with
  | .native => "COALESCE(array_length(" ++ column ++ ", 1), 0) = 0"
  | .json => "JSON_LENGTH(" ++ column ++ ") = 0"

/-- The template of the test that an array has an element. -/
def hasText (style : ArrayStyle) (column element : String) : String :=
  match style with
  | .native => element ++ " = ANY(" ++ column ++ ")"
  | .json => "JSON_CONTAINS(" ++ column ++ ", JSON_ARRAY(" ++ element ++ "))"

/-- The template of the test that an array has every one of some elements. -/
def hasEveryText (style : ArrayStyle) (column elements : String) : String :=
  match style with
  | .native => column ++ " @> ARRAY[" ++ elements ++ "]"
  | .json => "JSON_CONTAINS(" ++ column ++ ", JSON_ARRAY(" ++ elements ++ "))"

/-- The template of the test that an array has one of some elements. -/
def hasSomeText (style : ArrayStyle) (column elements : String) : String :=
  match style with
  | .native => column ++ " && ARRAY[" ++ elements ++ "]"
  | .json => "JSON_OVERLAPS(" ++ column ++ ", JSON_ARRAY(" ++ elements ++ "))"

/-- An array is written in brackets behind its word. -/
theorem render_nativeArray {α : Type} (elements : Fragment α) :
    d.render bound (nativeArray elements) = "ARRAY[" ++ d.render bound elements ++ "]" := by
  have harray : nativeArray elements
      = [Token.word .array] ++ Token.symbol .items :: (elements ++ [Token.symbol .closeItems]) := by
    simp [nativeArray]
  rw [harray, render_holdsPrevious d bound rfl, render_holdsNext d _ rfl,
    render_holdsPrevious d _ rfl, render_symbol, render_word]
  simp only [Keyword.text, Symbol.text, String.append_assoc]
  rfl

/-- Whether an array is empty is asked as the style of the dialect asks for it. -/
theorem render_isEmpty {α : Type} (style : ArrayStyle) :
    d.render bound (style.isEmpty (o.tokens (α := α))) = style.isEmptyText (o.written d) := by
  have hnumber (n : Nat) : Opens [Token.number (α := α) n] := opens_cons rfl _
  have hzero : toString (0 : Nat) = "0" := rfl
  have hone : toString (1 : Nat) = "1" := rfl
  -- the template has in one string what stands in several tokens, so characters are compared
  cases style with
  | native =>
    rw [isEmpty, render_compared d bound rfl rfl (closes_call ..) (hnumber 0),
      render_call_two d bound _ (opens_call ..) (hnumber 0),
      render_call_two d bound _ o.opens (hnumber 1), Operand.render_written, render_number,
      render_number, render_number, hone, hzero, ← String.toList_inj]
    unfold isEmptyText
    simp [callText, Keyword.text, Symbol.text]
  | json =>
    rw [isEmpty, render_compared d bound rfl rfl (closes_call ..) (hnumber 0), render_call_one,
      Operand.render_written, render_number, hzero, ← String.toList_inj]
    unfold isEmptyText
    simp [callText, Keyword.text, Symbol.text]

/-- Whether an array has an element is asked with the placeholder of that element. -/
theorem render_has (style : ArrayStyle) (element : Value) :
    d.render bound (style.has o.tokens [.slot element])
      = style.hasText (o.written d) (d.placeholder (bound + 1)) := by
  cases style with
  | native =>
    rw [has, render_compared d bound rfl rfl (closes_token rfl) (opens_call ..), render_slot,
      render_call_one, Operand.render_written, ← String.toList_inj]
    unfold hasText
    simp [callText, Keyword.text, Symbol.text]
  | json =>
    rw [has, render_call_two d bound _ o.opens (opens_call ..), Operand.render_written,
      Operand.slots_tokens, render_call_one, render_slot, ← String.toList_inj]
    unfold hasText
    simp [callText, Keyword.text]

/-- A test with several elements is a native array beside a symbol or a function of two documents,
as the array is stored. -/
theorem render_elements {s : Symbol} (hnext : s.holdsNext = false)
    (hprevious : s.holdsPrevious = false) (elements : List Value) :
    d.render bound (compared s o.tokens (nativeArray (slotList elements)))
      = o.written d ++ " " ++ s.text ++ " ARRAY[" ++ placeholdersText d bound elements.length
        ++ "]" := by
  have hopens : Opens (nativeArray (slotList elements)) := opens_cons rfl _
  rw [render_compared d bound hnext hprevious o.closes hopens, Operand.render_written,
    Operand.slots_tokens, render_nativeArray, List.length_nil, Nat.add_zero, render_slotList,
    ← String.toList_inj]
  simp

/-- A function of two documents takes the column and an array of placeholders. -/
theorem render_documents (k : Keyword) (elements : List Value) :
    d.render bound (call k [o.tokens, call .jsonArray [slotList elements]])
      = k.text ++ "(" ++ o.written d ++ ", JSON_ARRAY("
        ++ placeholdersText d bound elements.length ++ "))" := by
  rw [render_call_two d bound _ o.opens (opens_call ..), Operand.render_written,
    Operand.slots_tokens, render_call_one, List.length_nil, Nat.add_zero, render_slotList,
    ← String.toList_inj]
  simp [callText, Keyword.text]

/-- Whether an array has all of some elements is asked with a placeholder for each of them. -/
theorem render_hasEvery (style : ArrayStyle) (elements : List Value) :
    d.render bound (style.hasEvery o.tokens (slotList elements))
      = style.hasEveryText (o.written d) (placeholdersText d bound elements.length) := by
  cases style with
  | native =>
    rw [hasEvery, render_elements d bound o rfl rfl, ← String.toList_inj]
    unfold hasEveryText
    simp [Symbol.text]
  | json =>
    rw [hasEvery, render_documents, ← String.toList_inj]
    unfold hasEveryText
    simp [Keyword.text]

/-- Whether an array has one of some elements is asked with a placeholder for each of them. -/
theorem render_hasSome (style : ArrayStyle) (elements : List Value) :
    d.render bound (style.hasSome o.tokens (slotList elements))
      = style.hasSomeText (o.written d) (placeholdersText d bound elements.length) := by
  cases style with
  | native =>
    rw [hasSome, render_elements d bound o rfl rfl, ← String.toList_inj]
    unfold hasSomeText
    simp [Symbol.text]
  | json =>
    rw [hasSome, render_documents, ← String.toList_inj]
    unfold hasSomeText
    simp [Keyword.text]

end ArrayStyle

namespace Dialect

open Sql

/-- The template of a search for words. -/
def searchText (d : Dialect) (column query : String) : String :=
  match d with
  | .postgres => "to_tsvector(" ++ column ++ ") @@ plainto_tsquery(" ++ query ++ ")"
  | .mysql => "MATCH(" ++ column ++ ") AGAINST(" ++ query ++ " IN NATURAL LANGUAGE MODE)"
  | .sqlite => column ++ " MATCH " ++ query

/-- A text search is written as the dialect writes it, with one placeholder. -/
theorem render_search (d : Dialect) (bound : Nat) (o : Operand) (query : Value) :
    d.render bound (d.search o.tokens [.slot query])
      = d.searchText (o.written d) (d.placeholder (bound + 1)) := by
  cases d with
  | postgres =>
    rw [search, render_compared _ bound rfl rfl (closes_call ..) (opens_call ..), slots_call,
      render_call_one, render_call_one, Operand.render_written, render_slot, ← String.toList_inj]
    unfold searchText
    simp [callText, Keyword.text, Symbol.text]
  | mysql =>
    have hmode : Opens [Token.word (α := Value) .in_, .word .natural, .word .language,
      .word .mode] := opens_cons rfl _
    have hmodeText (n : Nat) : Dialect.render .mysql n [Token.word (α := Value) .in_,
        .word .natural, .word .language, .word .mode] = "IN NATURAL LANGUAGE MODE" := rfl
    rw [search, render_append _ bound (closes_call ..) (opens_call ..), slots_call,
      render_call_one, render_call_one, render_append _ _ (closes_token rfl) hmode, hmodeText,
      Operand.render_written, render_slot, ← String.toList_inj]
    unfold searchText
    simp [callText, Keyword.text]
  | sqlite =>
    have hquery : Opens [Token.slot query] := opens_cons rfl _
    rw [search, render_append _ bound o.closes (opens_cons rfl _), render_word_cons _ _ _ hquery,
      Operand.render_written, Operand.slots_tokens, render_slot, ← String.toList_inj]
    unfold searchText
    simp [Keyword.text]

end Dialect

/-! ## Templates of the other operators -/

namespace Sql

variable (d : Dialect) (bound : Nat) (lhs : Operand)

/-- Folding the case of an operand leaves room for a blank behind it. -/
theorem closes_operand (folded : Bool) : Closes (folding (α := Value) folded lhs.tokens) :=
  closes_folding folded lhs.closes

theorem slots_operand (folded : Bool) : slots (folding (α := Value) folded lhs.tokens) = [] := by
  rw [slots_folding, Operand.slots_tokens]

/-- An operand is written folded or as it is, behind any values. -/
theorem render_operand (folded : Bool) :
    d.render bound (folding (α := Value) folded lhs.tokens)
      = foldingText folded (lhs.written d) := by
  rw [render_folding, Operand.render_written]

/-- The symbols of comparisons stand apart from what they compare. -/
theorem Comparison.symbol_clear (op : Comparison) :
    op.symbol.holdsNext = false ∧ op.symbol.holdsPrevious = false := by
  cases op <;> exact ⟨rfl, rfl⟩

theorem render_compare (folded : Bool) (op : Comparison) (value : Value) :
    d.render bound ((Atom.compare lhs folded op value).tokens d)
      = foldingText folded (lhs.written d) ++ " " ++ op.symbol.text ++ " "
        ++ foldingText folded (d.placeholder (bound + 1)) := by
  have hvalue : Opens (folding folded [Token.slot value]) := opens_folding folded (opens_cons rfl _)
  rw [Atom.tokens, render_compared d bound op.symbol_clear.1 op.symbol_clear.2
    (closes_operand lhs folded) hvalue, slots_operand, render_operand, render_folding,
    List.length_nil, Nat.add_zero, render_slot]

/-- An equality of two columns, which binds nothing. -/
theorem render_sameColumn (a b : ColumnRef) :
    d.render bound ((Atom.sameColumn a b).tokens d) = a.written d ++ " = " ++ b.written d := by
  rw [Atom.tokens, render_compared d bound rfl rfl a.closes b.opens, ColumnRef.render_written,
    ColumnRef.render_written, ← String.toList_inj]
  simp [Symbol.text]

theorem render_null (expected : Bool) :
    d.render bound ((Atom.null lhs expected).tokens d)
      = lhs.written d ++ (if expected then " IS NULL" else " IS NOT NULL") := by
  have hnull (n : Nat) : d.render n [Token.word (α := Value) .is, .word .null] = "IS NULL" := rfl
  have hnot (n : Nat) :
      d.render n [Token.word (α := Value) .is, .word .not, .word .null] = "IS NOT NULL" := rfl
  cases expected with
  | true =>
    rw [Atom.tokens, render_append d bound lhs.closes (opens_cons rfl _), hnull,
      Operand.render_written, ← String.toList_inj]
    simp
  | false =>
    rw [Atom.tokens, render_append d bound lhs.closes (opens_cons rfl _), hnot,
      Operand.render_written, ← String.toList_inj]
    simp

/-- A list of values has a placeholder for each of them. -/
theorem renderEach_placeholders (folded : Bool) (items : List Value) :
    renderEach d bound (items.map fun v => folding folded [.slot v])
      = ((List.range' (bound + 1) items.length).map d.placeholder).map (foldingText folded) := by
  induction items generalizing bound with
  | nil => rfl
  | cons v items ih =>
    rw [List.map_cons, renderEach, ih, render_folding, render_slot, slots_folding,
      List.length_cons, List.range'_succ, List.map_cons, List.map_cons]
    rfl

/-- A list of items is written as their placeholders, each folded where the operand is. -/
theorem render_oneOf (folded expected : Bool) (items : List Value) :
    d.render bound ((Atom.oneOf lhs folded expected items).tokens d)
      = foldingText folded (lhs.written d) ++ (if expected then " IN (" else " NOT IN (")
        ++ ", ".intercalate
          (((List.range' (bound + 1) items.length).map d.placeholder).map (foldingText folded))
        ++ ")" := by
  have hlist (f : Fragment Value) (hf : f ∈ items.map fun v => folding folded [.slot v]) :
      Opens f := by
    obtain ⟨v, -, rfl⟩ := List.mem_map.mp hf
    exact opens_folding folded (opens_cons rfl _)
  set words : Fragment Value := if expected then [.word .in_] else [.word .not, .word .in_]
    with hwords
  have hopens : Opens words := by cases expected <;> exact opens_cons rfl _
  have hcloses : Closes words := by
    cases expected with
    | true => exact closes_token rfl
    | false => exact (closes_token rfl).cons _
  have hslots : slots words = [] := by cases expected <;> rfl
  have htext (n : Nat) : d.render n words = if expected then "IN" else "NOT IN" := by
    cases expected <;> rfl
  rw [Atom.tokens, ← hwords, render_append d bound (hcloses.append _) (opens_grouped _),
    render_append d bound (closes_operand lhs folded) hopens, slots_append, slots_operand, hslots,
    render_operand, render_grouped, render_commas d hlist, renderEach_placeholders, htext,
    ← String.toList_inj]
  cases expected <;> simp

/-- A pattern is bound, and matched against the operand in the same letter case. -/
theorem render_like (folded : Bool) (pattern : String) :
    d.render bound ((Atom.like lhs folded pattern).tokens d)
      = foldingText folded (lhs.written d) ++ " LIKE "
        ++ foldingText folded (d.placeholder (bound + 1)) := by
  have hpattern : Opens (folding folded [Token.slot (Value.string pattern)]) :=
    opens_folding folded (opens_cons rfl _)
  rw [Atom.tokens, render_append d bound (closes_operand lhs folded) (opens_cons rfl _),
    slots_operand, render_operand, render_word_cons d _ _ hpattern, render_folding,
    List.length_nil, Nat.add_zero, render_slot, ← String.toList_inj]
  simp [Keyword.text]

/-- A constant is written as a comparison of two numbers. -/
theorem render_constant (truth : Bool) :
    d.render bound ((Atom.constant truth).tokens d) = if truth then "1 = 1" else "1 = 0" := by
  cases truth <;> rfl

end Sql

end SqlQuery
