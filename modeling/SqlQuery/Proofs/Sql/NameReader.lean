import Mathlib.Data.List.TakeWhile
import SqlQuery.Proofs.Sql.Lexeme

/-!
# Names are read back

What a name is written as can be undone without knowing the name. The first character tells which
of the three forms stands there: a quote character begins a quoted name, in which a doubled one
stands for itself, `*` stands alone, and a word character begins a run that goes on as far as it
can. `readName` reads one name in this way, and gives it with the text behind it.

A quoted name ends at a quote character that no second one follows, and a bare one where no word
character follows. So the text behind a name must begin with neither:

> `readName_escapeChars`: of a written name and such a text, the reader gives the name and the text.

> `escape_read_back`: so no two names are written alike, and what is left bare is no reserved word.
-/

namespace SqlQuery.Sql

/-! ## The reader -/

/-- The name before the closing quote character, and the text behind that. A doubled quote
character stands for itself; a name that nothing closes cannot be read. -/
def readQuoted (quote : Char) : List Char → Option (List Char × List Char)
  | [] => none
  | [c] => if c = quote then some ([], []) else none
  | c :: next :: rest =>
    if c ≠ quote then (readQuoted quote (next :: rest)).map fun read => (c :: read.1, read.2)
    else if next = quote then (readQuoted quote rest).map fun read => (quote :: read.1, read.2)
    else some ([], next :: rest)

/-- The name at the start of a text, and the text behind it. -/
def readName (quote : Char) : List Char → Option (List Char × List Char)
  | [] => none
  | c :: text =>
    if c = quote then readQuoted quote text
    else if c = '*' then some (['*'], text)
    else if isWordChar c then
      some ((c :: text).takeWhile isWordChar, (c :: text).dropWhile isWordChar)
    else none

/-- Texts that are the same but for the case of their letters. -/
def SameLetters (a b : List Char) : Prop :=
  a.map Text.foldToAscii = b.map Text.foldToAscii

instance (a b : List Char) : Decidable (SameLetters a b) :=
  inferInstanceAs (Decidable (_ = _))

/-! ## Quoted names -/

/-- In a quoted name every character but the quote is itself. -/
theorem readQuoted_of_ne {quote c : Char} (h : c ≠ quote) (text : List Char) :
    readQuoted quote (c :: text)
      = (readQuoted quote text).map fun read => (c :: read.1, read.2) := by
  cases text with
  | nil => exact if_neg h
  | cons next rest => exact if_pos h

/-- In a quoted name a pair of quote characters is one of them. -/
theorem readQuoted_pair (quote : Char) (text : List Char) :
    readQuoted quote (quote :: quote :: text)
      = (readQuoted quote text).map fun read => (quote :: read.1, read.2) := by
  rw [readQuoted, if_neg (not_not.mpr rfl), if_pos rfl]

/-- A quote character that no other follows ends the name. -/
theorem readQuoted_close {quote : Char} {rest : List Char} (h : rest.head? ≠ some quote) :
    readQuoted quote (quote :: rest) = some ([], rest) := by
  cases rest with
  | nil => exact if_pos rfl
  | cons next rest =>
    have hnext : next ≠ quote := fun heq => h (congrArg some heq)
    rw [readQuoted, if_neg (not_not.mpr rfl), if_neg hnext]

/-- The doubled characters of a name and a quote character are read as the name. -/
theorem readQuoted_doubled {quote : Char} {rest : List Char} (h : rest.head? ≠ some quote)
    (name : List Char) :
    readQuoted quote (doubled quote name ++ quote :: rest) = some (name, rest) := by
  induction name with
  | nil => exact readQuoted_close h
  | cons c name ih =>
    by_cases hc : c = quote
    · rw [hc, doubled, if_pos rfl, List.cons_append, List.cons_append, readQuoted_pair, ih]
      rfl
    · rw [doubled, if_neg hc, List.cons_append, readQuoted_of_ne hc, ih]
      rfl

/-! ## Bare names -/

/-- What is apart from a name does not start with its quote character. -/
theorem Apart.head?_ne {quote : Char} {rest : List Char} (h : Apart quote rest) :
    rest.head? ≠ some quote :=
  fun heq => (h quote heq).2 rfl

/-- No character of the text behind a word belongs to the word. -/
theorem Apart.takeWhile_eq_nil {quote : Char} {rest : List Char} (h : Apart quote rest) :
    rest.takeWhile isWordChar = [] ∧ rest.dropWhile isWordChar = rest := by
  cases rest with
  | nil => exact ⟨rfl, rfl⟩
  | cons c rest =>
    have hc : ¬isWordChar c = true := by simp [(h c rfl).1]
    exact ⟨List.takeWhile_cons_of_neg hc, List.dropWhile_cons_of_neg hc⟩

/-- What a bare name is: a word that begins with no number and is not reserved. -/
theorem isBare_iff {name : List Char} :
    isBare name = true ↔
      isReserved name = false ∧ name ≠ [] ∧ (∀ c ∈ name, isWordChar c = true) ∧
        ∀ c, name.head? = some c → Text.isNumeric c = false := by
  simp only [isBare, Bool.and_eq_true, Bool.not_eq_true', List.isEmpty_eq_false_iff,
    List.all_eq_true, Option.any_eq_false, and_assoc]

/-- A bare name is read up to what is apart from it. -/
theorem readName_bare (d : Dialect) {name rest : List Char} (hname : isBare name = true)
    (hrest : Apart d.quote rest) : readName d.quote (name ++ rest) = some (name, rest) := by
  obtain ⟨-, hne, hword, -⟩ := isBare_iff.mp hname
  obtain ⟨htake, hdrop⟩ := hrest.takeWhile_eq_nil
  obtain ⟨c, cs, rfl⟩ := List.exists_cons_of_ne_nil hne
  have hc := hword c (List.mem_cons_self ..)
  have hquote : c ≠ d.quote := by
    rintro rfl
    rw [not_isWordChar_quote] at hc
    cases hc
  have hstar : c ≠ '*' := by
    rintro rfl
    exact absurd hc (by decide)
  rw [List.cons_append, readName, if_neg hquote, if_neg hstar, if_pos hc, ← List.cons_append,
    List.takeWhile_append_of_pos hword, List.dropWhile_append_of_pos hword, htake, hdrop,
    List.append_nil]

/-! ## All names -/

/-- Of a written name and the text behind it, the reader gives the name and the text. -/
theorem readName_escapeChars (d : Dialect) (name : List Char) {rest : List Char}
    (hrest : Apart d.quote rest) :
    readName d.quote (escapeChars d.quote name ++ rest) = some (name, rest) := by
  by_cases hstar : name = ['*']
  · have hquote : '*' ≠ d.quote := by cases d <;> decide
    rw [hstar, escape_star, List.singleton_append, readName, if_neg hquote, if_pos rfl]
  · cases hbare : isBare name with
    | true =>
      rw [escape_bare _ hbare]
      exact readName_bare d hbare hrest
    | false =>
      rw [escape_quoted _ hstar hbare, List.cons_append, readName, if_pos rfl, List.append_assoc]
      exact readQuoted_doubled hrest.head?_ne name

/-- A reserved word is reserved in whatever letter case it is written. -/
theorem isReserved_of_sameLetters {name : List Char} {w : String} (hw : w ∈ reservedWords)
    (h : SameLetters name w.toList) : isReserved name = true := by
  have hfold : ∀ w ∈ reservedWords, String.ofList (w.toList.map Text.foldToAscii) = w := by decide
  rw [isReserved, h, hfold w hw]
  exact List.contains_iff_mem.mpr hw

/-- What is written without quote characters is `*` or a bare name. -/
theorem star_or_bare_of_head {quote : Char} {name : List Char}
    (h : (escapeChars quote name).head? ≠ some quote) : name = ['*'] ∨ isBare name = true := by
  by_cases hstar : name = ['*']
  · exact Or.inl hstar
  · cases hbare : isBare name with
    | true => exact Or.inr rfl
    | false =>
      rw [escape_quoted _ hstar hbare] at h
      exact absurd rfl h

/-- A written name is read back: before any text that begins with neither a quote character nor a
word character, the reader takes what the name was written as, no less and no more, for the name.
So no two names are written alike. What is written without quote characters is a word that has
characters, does not begin with a number and is no reserved word in any letter case. -/
theorem escape_read_back (d : Dialect) :
    (∀ (name : String) (rest : List Char), Apart d.quote rest →
      readName d.quote ((escape d.quote name).toList ++ rest) = some (name.toList, rest)) ∧
    (∀ name name' : String, name ≠ name' → escape d.quote name ≠ escape d.quote name') ∧
    ∀ name : String, (escape d.quote name).toList.head? ≠ some d.quote →
      escape d.quote name ≠ "" ∧
      (∀ c, (escape d.quote name).toList.head? = some c → Text.isNumeric c = false) ∧
      ∀ w ∈ reservedWords, ¬SameLetters (escape d.quote name).toList w.toList := by
  have hread (name : String) (rest : List Char) (hrest : Apart d.quote rest) :
      readName d.quote ((escape d.quote name).toList ++ rest) = some (name.toList, rest) := by
    rw [escape, String.toList_ofList]
    exact readName_escapeChars d name.toList hrest
  refine ⟨hread, ?_, ?_⟩
  · intro name name' hne heq
    -- both names are what is read where nothing follows
    have hname := hread name [] (apart_nil _)
    rw [heq, hread name' [] (apart_nil _)] at hname
    exact hne (String.toList_inj.mp (Prod.ext_iff.mp (Option.some.inj hname)).1.symm)
  · intro name hhead
    rw [ne_eq, ← String.toList_inj]
    rw [escape, String.toList_ofList] at hhead ⊢
    rcases star_or_bare_of_head hhead with hstar | hbare
    · rw [hstar, escape_star]
      refine ⟨by decide, ?_, by decide⟩
      intro c hc
      cases hc
      decide
    · rw [escape_bare _ hbare]
      obtain ⟨hreserved, hne, -, hnumeric⟩ := isBare_iff.mp hbare
      refine ⟨hne, hnumeric, ?_⟩
      intro w hw hsame
      rw [isReserved_of_sameLetters hw hsame] at hreserved
      cases hreserved

/-- A name with quote characters at both ends and in a run, with more text behind it; two names of
quote characters alone; and a bare name that is longer than the reserved word in it. -/
theorem escape_read_back_runs :
    (Apart '\x60' ", \x60b\x60".toList ∧
      escape '\x60' "\x60a\x60\x60" = "\x60\x60\x60a\x60\x60\x60\x60\x60" ∧
      readName '\x60' "\x60\x60\x60a\x60\x60\x60\x60\x60, \x60b\x60".toList
        = some ("\x60a\x60\x60".toList, ", \x60b\x60".toList)) ∧
    ("\"" ≠ "\"\"" ∧ escape '"' "\"" ≠ escape '"' "\"\"") ∧
    (escape '"' "KEYS").toList.head? ≠ some '"' ∧
      ∀ w ∈ reservedWords, ¬SameLetters "KEYS".toList w.toList := by
  have hrest : Apart '\x60' ", \x60b\x60".toList := by
    intro c hc
    cases hc
    decide
  have hname : escape '\x60' "\x60a\x60\x60" = "\x60\x60\x60a\x60\x60\x60\x60\x60" := by decide
  have hread := (escape_read_back .mysql).1 "\x60a\x60\x60" _ hrest
  have hne : "\"" ≠ "\"\"" := by decide
  have hbare : escape '"' "KEYS" = "KEYS" := by decide
  have hhead : (escape '"' "KEYS").toList.head? ≠ some '"' := by decide
  refine ⟨⟨hrest, hname, ?_⟩, ⟨hne, (escape_read_back .postgres).2.1 _ _ hne⟩, hhead, ?_⟩
  · rw [show Dialect.mysql.quote = '\x60' from rfl, hname] at hread
    exact hread
  · have hwords := ((escape_read_back .postgres).2.2 "KEYS" hhead).2.2
    rw [show Dialect.postgres.quote = '"' from rfl, hbare] at hwords
    exact hwords

-- the Kelvin sign is a K in lower case, so the name is a reserved word that has to be quoted
example : escape '"' "\u212aey" = "\"\u212aey\"" := by
  decide

end SqlQuery.Sql
