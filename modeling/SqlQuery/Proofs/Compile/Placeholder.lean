import SqlQuery.Compile.Query
import SqlQuery.Proofs.Sql.Lexeme

/-!
# Placeholders are dense

Arguments travel beside the text of a statement and are found again by the place of
their placeholders only. A reader of the text meets outside quoted names the
placeholders of all arguments in order, each once, and no other dollar sign or question
mark, whatever characters the names hold.

The slots of a fragment are numbered where it is written (`number`), so everything
follows from two facts about fragments:

> `filterMap_lexemesOf`: the placeholders among the lexemes are those of the slots.

> `filter_lexemesOf`: no other lexeme holds a dollar sign or a question mark.
-/

namespace SqlQuery.Sql

/-- The text of a placeholder. -/
def Lexeme.placeholder? : Lexeme → Option String
  | .placeholder cs => some (String.ofList cs)
  | _ => none

/-- The placeholders that a reader of SQL text meets, from left to right. -/
def placeholders (quote : Char) (sql : String) : Option (List String) :=
  (lexemes quote sql.toList).map fun ls => ls.filterMap Lexeme.placeholder?

/-- Whether placeholders are written with the character. -/
def isPlaceholderMark (c : Char) : Bool :=
  c == '$' || c == '?'

/-- The dollar signs and question marks outside quoted names. -/
def placeholderMarks (quote : Char) (sql : String) : List Char :=
  (outside quote false sql.toList).filter isPlaceholderMark

/-- The placeholders of `n` values: numbered from 1 in PostgreSQL, question marks
elsewhere. -/
def densePlaceholders : Dialect → Nat → List String
  | .postgres, n => (List.range' 1 n).map fun i => "$" ++ toString i
  | _, n => List.replicate n "?"

/-- The character that a dialect writes placeholders with. -/
def placeholderMark : Dialect → Char
  | .postgres => '$'
  | _ => '?'

/-- Values that are numbered from one have dense placeholders. -/
theorem map_placeholder (d : Dialect) (n : Nat) :
    (List.range' 1 n).map d.placeholder = densePlaceholders d n := by
  have hconst : ∀ is : List Nat, is.map (fun _ => "?") = List.replicate is.length "?" := by
    intro is
    induction is with
    | nil => rfl
    | cons i is ih => rw [List.map_cons, ih]; rfl
  cases d with
  | postgres => rfl
  | mysql =>
    show (List.range' 1 n).map (fun _ => "?") = _
    rw [hconst, List.length_range']
    rfl
  | sqlite =>
    show (List.range' 1 n).map (fun _ => "?") = _
    rw [hconst, List.length_range']
    rfl

/-! ## Fragments -/

/-- A name is no placeholder, whatever it is spelled like. -/
theorem placeholder?_ofName (name : List Char) : (Lexeme.ofName name).placeholder? = none := by
  unfold Lexeme.ofName
  split
  · rfl
  · split <;> rfl

/-- The placeholders among the lexemes of a fragment are those of its slots. -/
theorem filterMap_lexemesOf {α : Type} (d : Dialect) (bound : Nat) (f : Fragment α) :
    (lexemesOf d bound f).filterMap Lexeme.placeholder?
      = (List.range' (bound + 1) (slots f).length).map d.placeholder := by
  have hfrag : ∀ ts : Fragment Nat,
      (ts.flatMap (Token.lexemes d)).filterMap Lexeme.placeholder?
        = (slots ts).map d.placeholder := by
    intro ts
    induction ts with
    | nil => rfl
    | cons t ts ih =>
      rw [List.flatMap_cons, List.filterMap_append, ih]
      cases t with
      | word k => rfl
      | number n => rfl
      | symbol s =>
        have hmarks : ∀ cs : List Char,
            (cs.map Lexeme.mark).filterMap Lexeme.placeholder? = [] := by
          intro cs
          induction cs with
          | nil => rfl
          | cons c cs ih => rw [List.map_cons, List.filterMap_cons_none rfl, ih]
        show (s.text.toList.map Lexeme.mark).filterMap _ ++ _ = _
        rw [hmarks]
        rfl
      | name n =>
        show [Lexeme.ofName n.toList].filterMap _ ++ _ = _
        rw [List.filterMap_cons_none (placeholder?_ofName _)]
        rfl
      | slot i => simp [Token.lexemes, Lexeme.placeholder?, slots]
  unfold lexemesOf
  rw [hfrag, slots_number]

/-- Words hold no dollar sign and no question mark. -/
theorem filter_isPlaceholderMark_word {w : List Char} (h : ∀ c ∈ w, isWordChar c = true) :
    w.filter isPlaceholderMark = [] := by
  rw [List.filter_eq_nil_iff]
  intro c hc hmark
  have hword := h c hc
  simp only [isPlaceholderMark, Bool.or_eq_true, beq_iff_eq] at hmark
  rcases hmark with he | he <;> rw [he] at hword <;> exact absurd hword (by decide)

theorem bareChars_marks : ∀ cs : List Char, (cs.map Lexeme.mark).flatMap Lexeme.bareChars = cs
  | [] => rfl
  | c :: cs => by
    rw [List.map_cons, List.flatMap_cons, bareChars_marks cs]
    rfl

/-- A name shows no dollar sign and no question mark outside quotes. -/
theorem filter_ofName (name : List Char) :
    ((Lexeme.ofName name).bareChars).filter isPlaceholderMark = [] := by
  unfold Lexeme.ofName
  split
  · decide
  · split
    next hbare => exact filter_isPlaceholderMark_word (isWordChar_of_isBare hbare).2
    next => rfl

/-- A placeholder holds one character that placeholders are written with, the one of
its dialect. -/
theorem filter_placeholder (d : Dialect) (i : Nat) :
    (d.placeholder i).toList.filter isPlaceholderMark = [placeholderMark d] := by
  cases d with
  | postgres =>
    have htext : (Dialect.placeholder .postgres i).toList = '$' :: Nat.toDigits 10 i := by
      simp [Dialect.placeholder]
    rw [htext, List.filter_cons_of_pos (by decide),
      filter_isPlaceholderMark_word isWordChar_of_mem_toDigits]
    rfl
  | mysql => simp [Dialect.placeholder, placeholderMark, isPlaceholderMark]
  | sqlite => simp [Dialect.placeholder, placeholderMark, isPlaceholderMark]

/-- A fragment holds one dollar sign or question mark for every slot outside quoted
names, and no other. -/
theorem filter_lexemesOf {α : Type} (d : Dialect) (bound : Nat) (f : Fragment α) :
    ((lexemesOf d bound f).flatMap Lexeme.bareChars).filter isPlaceholderMark
      = List.replicate (slots f).length (placeholderMark d) := by
  have hfrag : ∀ ts : Fragment Nat,
      ((ts.flatMap (Token.lexemes d)).flatMap Lexeme.bareChars).filter isPlaceholderMark
        = List.replicate (slots ts).length (placeholderMark d) := by
    intro ts
    induction ts with
    | nil => rfl
    | cons t ts ih =>
      rw [List.flatMap_cons, List.flatMap_append, List.filter_append, ih]
      cases t with
      | word k =>
        simp [Token.lexemes, Lexeme.bareChars, slots,
          filter_isPlaceholderMark_word k.isWordChar_of_mem]
      | number n =>
        simp [Token.lexemes, Lexeme.bareChars, slots,
          filter_isPlaceholderMark_word isWordChar_of_mem_toDigits]
      | symbol s =>
        have hmark : s.text.toList.filter isPlaceholderMark = [] := by cases s <;> decide
        simp [Token.lexemes, bareChars_marks, slots, hmark]
      | name n => simp [Token.lexemes, slots, filter_ofName]
      | slot i =>
        simp [Token.lexemes, Lexeme.bareChars, slots, filter_placeholder, List.replicate_succ]
  have hlength : (slots (number bound f)).length = (slots f).length := by
    rw [slots_number, List.length_range']
  unfold lexemesOf
  rw [hfrag, hlength]

/-! ## Statements -/

/-- Reading the text of a statement meets the placeholders of its arguments. -/
theorem Statement.placeholders_prepare (d : Dialect) (s : Statement) :
    placeholders d.quote (s.prepare d).sql
      = some (densePlaceholders d (s.prepare d).args.length) := by
  unfold placeholders Statement.prepare
  rw [lexemes_render, Option.map_some, filterMap_lexemesOf, Nat.zero_add, map_placeholder]

/-- Outside quoted names the text of a statement has one dollar sign or question mark for each
argument. -/
theorem Statement.placeholderMarks_prepare (d : Dialect) (s : Statement) :
    placeholderMarks d.quote (s.prepare d).sql
      = List.replicate (s.prepare d).args.length (placeholderMark d) := by
  have hread := lexemes_render d 0 (s.tokens d)
  -- a blank is no placeholder, so dropping blanks first changes nothing
  have hblank : ∀ cs : List Char,
      cs.filter isPlaceholderMark = (cs.filter (· ≠ ' ')).filter isPlaceholderMark := by
    intro cs
    rw [List.filter_filter]
    apply List.filter_congr
    intro c _
    by_cases hc : c = ' '
    · rw [hc]; decide
    · simp [hc]
  unfold placeholderMarks Statement.prepare
  rw [hblank, filter_outside_eq d hread, filter_lexemesOf]

end SqlQuery.Sql

namespace SqlQuery

open Sql

/-- A schema whose names hold quote characters and what placeholders are written with. -/
def awkwardSchema : Schema :=
  .ofModels
    [{ name := "U", table := "t\"$9", relations :=
        [{ name := "r?", toModel := "V", fromFields := ["x$1"], toFields := ["y"]
           kind := .oneToMany }] },
     { name := "V", table := "v" }]

/-- A query with such names, with conditions on the root and on an inclusion. -/
def awkwardQuery : Query :=
  let joined : Query :=
    { model := "V", operation := .findMany, filter := .and [.equals "?" (.bool true)] }
  { model := "U", operation := .findMany, selection := ["a$1"]
    filter := .or [.equals "b?" (.int 1), .isIn "\"$2" (.array [.int 2, .null])]
    inclusions := [{ relation := "r?", query := some joined }] }

end SqlQuery
