import SqlQuery.Sql.Statement

/-!
# Reading SQL text back

`lexemes` reads SQL text from left to right, as a database does before it looks at
any grammar: a run of letters, digits and underscores is one word, what stands
between two quote characters is one quoted name (a doubled quote character inside
it standing for one), a dollar sign with the word behind it or a question mark is
a placeholder, and any other character but a blank is a mark of its own. Text that
ends inside a quoted name cannot be read.

The printer is `layout`, and the two agree:

> `lexemes_render`: reading the text of a fragment gives the lexemes of its tokens.

> `filter_outside_eq`: what the reader finds outside quoted names is all that
> stands there, blanks apart.
-/

namespace SqlQuery.Sql

/-- What a reader of SQL text tells apart. -/
inductive Lexeme where
  | word (chars : List Char)
  | quoted (name : List Char)
  | placeholder (chars : List Char)
  | mark (c : Char)
deriving DecidableEq, Repr

/-- What a reader is in the middle of. After a quote character inside a quoted name
only the next character tells whether the name goes on. -/
inductive Reading where
  | between
  | word (chars : List Char)
  | placeholder (chars : List Char)
  | quoted (name : List Char)
  | closing (name : List Char)

namespace Reading

/-- Takes one more character into what is being read, if it belongs there. -/
def extend (quote : Char) : Reading → Char → Option Reading
  | .between, _ => none
  | .word w, c => if isWordChar c then some (.word (w ++ [c])) else none
  | .placeholder w, c => if isWordChar c then some (.placeholder (w ++ [c])) else none
  | .quoted n, c => some (if c = quote then .closing n else .quoted (n ++ [c]))
  | .closing n, c => if c = quote then some (.quoted (n ++ [c])) else none

/-- What has been read where it ends here; a quoted name has to be closed first. -/
def finish : Reading → Option (List Lexeme)
  | .between => some []
  | .word w => some [.word w]
  | .placeholder w => some [.placeholder w]
  | .quoted _ => none
  | .closing n => some [.quoted n]

/-- What a character begins, with the lexemes that it is by itself. -/
def start (quote c : Char) : List Lexeme × Reading :=
  if c = ' ' then ([], .between)
  else if c = quote then ([], .quoted [])
  else if c = '?' then ([.placeholder [c]], .between)
  else if c = '$' then ([], .placeholder [c])
  else if isWordChar c then ([], .word [c])
  else ([.mark c], .between)

end Reading

/-- The lexemes of text that goes on from what is being read. -/
def lexemesFrom (quote : Char) : Reading → List Char → Option (List Lexeme)
  | r, [] => r.finish
  | r, c :: rest =>
    match r.extend quote c with
    | some r' => lexemesFrom quote r' rest
    | none => do
      let done ← r.finish
      let more ← lexemesFrom quote (Reading.start quote c).2 rest
      return done ++ (Reading.start quote c).1 ++ more

/-- The lexemes of SQL text, unless it ends inside a quoted name. -/
def lexemes (quote : Char) (text : List Char) : Option (List Lexeme) :=
  lexemesFrom quote .between text

/-! ## Characters -/

/-- No word holds the quote character of a dialect. -/
theorem not_isWordChar_quote (d : Dialect) : isWordChar d.quote = false := by
  cases d <;> decide

theorem quote_ne_blank (d : Dialect) : d.quote ≠ ' ' := by
  cases d <;> decide

/-- A word character begins a word. -/
theorem start_wordChar (d : Dialect) {c : Char} (h : isWordChar c = true) :
    Reading.start d.quote c = ([], .word [c]) := by
  have hne : ∀ x : Char, isWordChar x = false → c ≠ x := by
    intro x hx he
    rw [he, hx] at h
    exact absurd h (by simp)
  unfold Reading.start
  rw [if_neg (hne ' ' (by decide)), if_neg (hne _ (not_isWordChar_quote d)),
    if_neg (hne '?' (by decide)), if_neg (hne '$' (by decide)), if_pos h]

/-- Whether a character can only be read as a mark. -/
def isMark (c : Char) : Bool :=
  !(isWordChar c || ['"', '\x60', ' ', '?', '$'].contains c)

theorem start_mark (d : Dialect) {c : Char} (h : isMark c = true) :
    Reading.start d.quote c = ([.mark c], .between) := by
  simp only [isMark, Bool.not_eq_true', Bool.or_eq_false_iff, List.contains_eq_mem,
    decide_eq_false_iff_not, List.mem_cons, List.not_mem_nil, or_false, not_or] at h
  obtain ⟨hw, hdouble, hback, hblank, hquestion, hdollar⟩ := h
  have hquote : c ≠ d.quote := by
    cases d
    · exact hdouble
    · exact hback
    · exact hdouble
  unfold Reading.start
  rw [if_neg hblank, if_neg hquote, if_neg hquestion, if_neg hdollar, hw]
  rfl

/-! ## Where a lexeme ends -/

/-- Text that cannot be taken for the rest of a word or of a quoted name. -/
def Apart (quote : Char) (rest : List Char) : Prop :=
  ∀ c, rest.head? = some c → isWordChar c = false ∧ c ≠ quote

theorem apart_nil (quote : Char) : Apart quote [] := by
  intro c h
  exact absurd h (by simp)

theorem apart_blank (d : Dialect) (rest : List Char) : Apart d.quote (' ' :: rest) := by
  intro c h
  cases h
  exact ⟨by decide, (quote_ne_blank d).symm⟩

theorem apart_mark (d : Dialect) {c : Char} (rest : List Char) (h : isMark c = true) :
    Apart d.quote (c :: rest) := by
  intro c' hc
  cases hc
  have hs := start_mark d h
  refine ⟨?_, ?_⟩
  · simp only [isMark, Bool.not_eq_true', Bool.or_eq_false_iff] at h
    exact h.1
  · intro he
    rw [he] at hs
    unfold Reading.start at hs
    rw [if_neg (quote_ne_blank d), if_pos rfl] at hs
    exact absurd hs (by simp)

/-- Where the next character does not belong to what is being read, reading starts
afresh with it. -/
theorem lexemesFrom_of_extend_none (quote : Char) (r : Reading) (rest : List Char)
    {done : List Lexeme} (hdone : r.finish = some done)
    (hrest : ∀ c, rest.head? = some c → r.extend quote c = none) :
    lexemesFrom quote r rest = (lexemes quote rest).map (done ++ ·) := by
  cases rest with
  | nil =>
    unfold lexemes
    rw [lexemesFrom, lexemesFrom, hdone]
    simp [Reading.finish]
  | cons c rest =>
    have hc := hrest c rfl
    unfold lexemes
    rw [lexemesFrom, lexemesFrom, hc, hdone]
    cases lexemesFrom quote (Reading.start quote c).2 rest <;>
      simp [Reading.extend, Reading.finish]

/-- Word characters are taken into a word, and into a placeholder, one by one. -/
theorem lexemesFrom_run {quote : Char} (mk : List Char → Reading)
    (hmk : ∀ w c, isWordChar c = true → (mk w).extend quote c = some (mk (w ++ [c]))) :
    ∀ (cs w rest : List Char), (∀ c ∈ cs, isWordChar c = true) →
      lexemesFrom quote (mk w) (cs ++ rest) = lexemesFrom quote (mk (w ++ cs)) rest := by
  intro cs
  induction cs with
  | nil => intro w rest _; simp
  | cons c cs ih =>
    intro w rest hcs
    rw [List.cons_append, lexemesFrom, hmk w c (hcs c (List.mem_cons_self ..))]
    dsimp only
    rw [ih (w ++ [c]) rest fun x hx => hcs x (List.mem_cons_of_mem _ hx)]
    simp

/-- The doubled characters of a name and a closing quote character are the name. -/
theorem lexemesFrom_doubled (quote : Char) :
    ∀ (cs n rest : List Char),
      lexemesFrom quote (.quoted n) (doubled quote cs ++ quote :: rest)
        = lexemesFrom quote (.closing (n ++ cs)) rest := by
  intro cs
  induction cs with
  | nil =>
    intro n rest
    simp [doubled, lexemesFrom, Reading.extend]
  | cons c cs ih =>
    intro n rest
    by_cases hc : c = quote
    · -- the two quote characters close the name and open it again
      subst hc
      simp only [doubled, if_true, List.cons_append, lexemesFrom, Reading.extend]
      rw [ih]
      simp
    · simp only [doubled, if_neg hc, List.cons_append, lexemesFrom, Reading.extend]
      rw [ih]
      simp

/-! ## Single lexemes -/

theorem lexemes_blank (d : Dialect) (rest : List Char) :
    lexemes d.quote (' ' :: rest) = lexemes d.quote rest := by
  unfold lexemes
  rw [lexemesFrom]
  simp [Reading.extend, Reading.finish, Reading.start]

theorem lexemes_mark (d : Dialect) {c : Char} (rest : List Char) (h : isMark c = true) :
    lexemes d.quote (c :: rest) = (lexemes d.quote rest).map (Lexeme.mark c :: ·) := by
  unfold lexemes
  rw [lexemesFrom]
  simp only [Reading.extend, Reading.finish, start_mark d h]
  cases lexemesFrom d.quote .between rest <;> simp

/-- A word is one lexeme if what follows is apart from it. -/
theorem lexemes_word (d : Dialect) {cs rest : List Char} (hne : cs ≠ [])
    (hcs : ∀ c ∈ cs, isWordChar c = true) (hrest : Apart d.quote rest) :
    lexemes d.quote (cs ++ rest) = (lexemes d.quote rest).map (Lexeme.word cs :: ·) := by
  -- the first character begins the word, and the others are taken into it
  obtain ⟨c, cs', rfl⟩ := List.exists_cons_of_ne_nil hne
  have hstart := start_wordChar d (hcs c (List.mem_cons_self ..))
  have hrun : lexemesFrom d.quote (.word [c]) (cs' ++ rest)
      = lexemesFrom d.quote (.word (c :: cs')) rest :=
    lexemesFrom_run Reading.word (by intro w x hx; simp [Reading.extend, hx])
      cs' [c] rest fun x hx => hcs x (List.mem_cons_of_mem _ hx)
  have hend := lexemesFrom_of_extend_none d.quote (.word (c :: cs')) rest
    rfl (by intro x hx; simp [Reading.extend, (hrest x hx).1])
  unfold lexemes at hend ⊢
  rw [List.cons_append, lexemesFrom]
  simp only [Reading.extend, Reading.finish, hstart]
  rw [hrun, hend]
  cases lexemesFrom d.quote .between rest <;> simp

/-- A question mark is a placeholder by itself. -/
theorem lexemes_question (d : Dialect) (rest : List Char) :
    lexemes d.quote ('?' :: rest)
      = (lexemes d.quote rest).map (Lexeme.placeholder ['?'] :: ·) := by
  have hstart : Reading.start d.quote '?' = ([.placeholder ['?']], .between) := by
    cases d <;> rfl
  unfold lexemes
  rw [lexemesFrom]
  simp only [Reading.extend, Reading.finish, hstart]
  cases lexemesFrom d.quote .between rest <;> simp

/-- A dollar sign takes the word characters behind it into its placeholder. -/
theorem lexemes_dollar (d : Dialect) {cs rest : List Char}
    (hcs : ∀ c ∈ cs, isWordChar c = true) (hrest : Apart d.quote rest) :
    lexemes d.quote ('$' :: cs ++ rest)
      = (lexemes d.quote rest).map (Lexeme.placeholder ('$' :: cs) :: ·) := by
  have hstart : Reading.start d.quote '$' = ([], .placeholder ['$']) := by
    cases d <;> rfl
  have hrun : lexemesFrom d.quote (.placeholder ['$']) (cs ++ rest)
      = lexemesFrom d.quote (.placeholder ('$' :: cs)) rest :=
    lexemesFrom_run Reading.placeholder (by intro w x hx; simp [Reading.extend, hx])
      cs ['$'] rest hcs
  have hend := lexemesFrom_of_extend_none d.quote (.placeholder ('$' :: cs)) rest
    rfl (by intro x hx; simp [Reading.extend, (hrest x hx).1])
  unfold lexemes at hend ⊢
  rw [List.cons_append, lexemesFrom]
  simp only [Reading.extend, Reading.finish, hstart]
  rw [hrun, hend]
  cases lexemesFrom d.quote .between rest <;> simp

/-- A quoted name is one lexeme, and the quote characters in it are read once. -/
theorem lexemes_quoted (d : Dialect) {name rest : List Char} (hrest : Apart d.quote rest) :
    lexemes d.quote (d.quote :: (doubled d.quote name ++ [d.quote]) ++ rest)
      = (lexemes d.quote rest).map (Lexeme.quoted name :: ·) := by
  have hstart : Reading.start d.quote d.quote = ([], .quoted []) := by
    unfold Reading.start
    rw [if_neg (quote_ne_blank d), if_pos rfl]
  have hend := lexemesFrom_of_extend_none d.quote (.closing name) rest
    rfl (by intro x hx; simp [Reading.extend, (hrest x hx).2])
  unfold lexemes at hend ⊢
  rw [List.cons_append, lexemesFrom]
  simp only [Reading.extend, Reading.finish, hstart, List.append_assoc, List.singleton_append]
  rw [lexemesFrom_doubled, List.nil_append, hend]
  cases lexemesFrom d.quote .between rest <;> simp

/-! ## What stands outside quoted names -/

/-- The characters that stand outside quoted names. A doubled quote character ends
the name and begins it again with nothing in between. -/
def outside (quote : Char) : (inside : Bool) → List Char → List Char
  | _, [] => []
  | inside, c :: rest =>
    if c = quote then outside quote (!inside) rest
    else if inside then outside quote inside rest
    else c :: outside quote inside rest

/-- The characters of a lexeme that is no quoted name. -/
def Lexeme.bareChars : Lexeme → List Char
  | .word w => w
  | .placeholder w => w
  | .mark c => [c]
  | .quoted _ => []

namespace Reading

/-- The characters outside quoted names that are being read. -/
def pending : Reading → List Char
  | .word w => w
  | .placeholder w => w
  | _ => []

/-- Whether a quoted name is being read. -/
def inside : Reading → Bool
  | .quoted _ => true
  | _ => false

/-- A text that ends well has all pending characters in its last lexeme. -/
theorem bareChars_of_finish {r : Reading} {done : List Lexeme} (h : r.finish = some done) :
    done.flatMap Lexeme.bareChars = r.pending := by
  cases r <;> cases h <;> simp [Lexeme.bareChars, pending]

/-- A text that ends well does not end inside a quoted name. -/
theorem inside_of_finish {r : Reading} {done : List Lexeme} (h : r.finish = some done) :
    r.inside = false := by
  cases r <;> cases h <;> rfl

/-- What a character begins holds that character, unless it is a blank or a quote
character. -/
theorem outside_start (d : Dialect) (c : Char) (rest : List Char) :
    (start d.quote c).1.flatMap Lexeme.bareChars ++ (start d.quote c).2.pending
        ++ (outside d.quote (start d.quote c).2.inside rest).filter (· ≠ ' ')
      = (outside d.quote false (c :: rest)).filter (· ≠ ' ') := by
  unfold start
  by_cases hblank : c = ' '
  · subst hblank
    rw [if_pos rfl, outside, if_neg (quote_ne_blank d).symm]
    simp [pending, inside]
  · rw [if_neg hblank, outside]
    by_cases hquote : c = d.quote
    · rw [if_pos hquote, if_pos hquote]
      simp [pending, inside]
    · rw [if_neg hquote, if_neg hquote]
      by_cases hquestion : c = '?'
      · simp [hquestion, pending, inside, Lexeme.bareChars]
      · by_cases hdollar : c = '$'
        · simp [hdollar, pending, inside]
        · cases hword : isWordChar c <;>
            simp [hquestion, hdollar, hblank, pending, inside, Lexeme.bareChars]

/-- A character that belongs to what is being read is kept outside quoted names and
dropped inside them. -/
theorem outside_extend (d : Dialect) {r r' : Reading} {c : Char}
    (h : r.extend d.quote c = some r') (rest : List Char) :
    r'.pending ++ (outside d.quote r'.inside rest).filter (· ≠ ' ')
      = r.pending ++ (outside d.quote r.inside (c :: rest)).filter (· ≠ ' ') := by
  have hword : isWordChar c = true → c ≠ d.quote ∧ c ≠ ' ' := by
    intro hw
    refine ⟨fun he => ?_, fun he => ?_⟩
    · rw [he, not_isWordChar_quote] at hw
      exact absurd hw (by simp)
    · rw [he] at hw
      exact absurd hw (by decide)
  cases r with
  | between => exact absurd h (by simp [extend])
  | word w | placeholder w =>
    cases hw : isWordChar c with
    | false => exact absurd h (by simp [extend, hw])
    | true =>
      simp only [extend, hw, if_true, Option.some.injEq] at h
      subst h
      simp [pending, inside, outside, hword hw]
  | quoted n =>
    simp only [extend, Option.some.injEq] at h
    subst h
    by_cases hc : c = d.quote <;> simp [pending, inside, outside, hc]
  | closing n =>
    by_cases hc : c = d.quote
    · simp only [extend, hc, if_true, Option.some.injEq] at h
      subst h
      simp [pending, inside, outside, hc]
    · exact absurd h (by simp [extend, hc])

end Reading

/-- From any state the reader gives the characters outside quoted names, but for blanks. -/
theorem filter_outside_from (d : Dialect) :
    ∀ (text : List Char) (r : Reading) (ls : List Lexeme),
      lexemesFrom d.quote r text = some ls →
        ls.flatMap Lexeme.bareChars
          = r.pending ++ (outside d.quote r.inside text).filter (· ≠ ' ') := by
  intro text
  induction text with
  | nil =>
    intro r ls h
    rw [lexemesFrom] at h
    simp [Reading.bareChars_of_finish h, outside]
  | cons c rest ih =>
    intro r ls h
    rw [lexemesFrom] at h
    split at h
    next r' hr' => rw [ih r' ls h, Reading.outside_extend d hr' rest]
    next =>
      -- a lexeme ends here, so no quoted name is being read
      simp only [Option.bind_eq_bind, Option.bind_eq_some_iff, Option.pure_def,
        Option.some.injEq] at h
      obtain ⟨done, hdone, more, hmore, rfl⟩ := h
      rw [List.flatMap_append, List.flatMap_append, ih _ _ hmore,
        Reading.bareChars_of_finish hdone, Reading.inside_of_finish hdone,
        ← Reading.outside_start d c rest]
      simp only [List.append_assoc]

/-- What is read outside quoted names is all that stands there but the blanks. -/
theorem filter_outside_eq (d : Dialect) {text : List Char} {ls : List Lexeme}
    (h : lexemes d.quote text = some ls) :
    (outside d.quote false text).filter (· ≠ ' ') = ls.flatMap Lexeme.bareChars :=
  (filter_outside_from d text .between ls h).symm

/-! ## Lexemes of tokens -/

/-- The lexeme of a name. -/
def Lexeme.ofName (name : List Char) : Lexeme :=
  if name = ['*'] then .mark '*' else if isBare name then .word name else .quoted name

/-- The lexemes of a token, its slot holding the number of a placeholder. -/
def Token.lexemes (d : Dialect) : Token Nat → List Lexeme
  | .word k => [.word k.text.toList]
  | .symbol s => s.text.toList.map .mark
  | .name n => [.ofName n.toList]
  | .number n => [.word (Nat.toDigits 10 n)]
  | .slot i => [.placeholder (d.placeholder i).toList]

/-- The lexemes of a fragment that is written after `bound` values. -/
def lexemesOf {α : Type} (d : Dialect) (bound : Nat) (f : Fragment α) : List Lexeme :=
  (number bound f).flatMap (Token.lexemes d)

theorem Keyword.text_ne_nil (k : Keyword) : k.text.toList ≠ [] := by
  cases k <;> decide

theorem Keyword.isWordChar_of_mem (k : Keyword) : ∀ c ∈ k.text.toList, isWordChar c = true := by
  have hall : k.text.toList.all isWordChar = true := by cases k <;> decide
  exact List.all_eq_true.mp hall

theorem Symbol.isMark_of_mem (s : Symbol) : ∀ c ∈ s.text.toList, isMark c = true := by
  have hall : s.text.toList.all isMark = true := by cases s <;> decide
  exact List.all_eq_true.mp hall

theorem Symbol.text_ne_nil (s : Symbol) : s.text.toList ≠ [] := by
  cases s <;> decide

/-- A digit is a character of words. -/
theorem isWordChar_of_isDigit {c : Char} (h : c.isDigit = true) : isWordChar c = true := by
  have hascii : c.toNat < 0x80 := by
    simp only [Char.isDigit, Bool.and_eq_true, decide_eq_true_eq] at h
    exact Nat.lt_of_le_of_lt (UInt32.le_iff_toNat_le.mp h.2) (by decide)
  simp [isWordChar, Text.isAlphanumeric, hascii, Char.isAlphanum, h]

theorem isDigit_of_mem_toDigits {n : Nat} : ∀ c ∈ Nat.toDigits 10 n, c.isDigit = true :=
  fun _ hc => Nat.isDigit_of_mem_toDigits (by decide) (by decide) hc

theorem isWordChar_of_mem_toDigits {n : Nat} : ∀ c ∈ Nat.toDigits 10 n, isWordChar c = true :=
  fun c hc => isWordChar_of_isDigit (isDigit_of_mem_toDigits c hc)

/-- A bare name is made of word characters. -/
theorem isWordChar_of_isBare {name : List Char} (h : isBare name = true) :
    name ≠ [] ∧ ∀ c ∈ name, isWordChar c = true := by
  simp only [isBare, Bool.and_eq_true, Bool.not_eq_true', List.all_eq_true,
    List.isEmpty_eq_false_iff] at h
  exact ⟨h.1.1.2, h.1.2⟩

/-- Marks need nothing to keep them apart from what follows. -/
theorem lexemes_marks (d : Dialect) (rest : List Char) :
    ∀ cs : List Char, (∀ c ∈ cs, isMark c = true) →
      lexemes d.quote (cs ++ rest) = (lexemes d.quote rest).map (cs.map .mark ++ ·) := by
  intro cs
  induction cs with
  | nil => intro _; simp
  | cons c cs ih =>
    intro hcs
    rw [List.cons_append, lexemes_mark d _ (hcs c (List.mem_cons_self ..)),
      ih fun x hx => hcs x (List.mem_cons_of_mem _ hx)]
    cases lexemes d.quote rest <;> simp

/-- A name is one lexeme as it is written, quoted or bare. -/
theorem lexemes_name (d : Dialect) (name rest : List Char) (hrest : Apart d.quote rest) :
    lexemes d.quote (escapeChars d.quote name ++ rest)
      = (lexemes d.quote rest).map (Lexeme.ofName name :: ·) := by
  by_cases hstar : name = ['*']
  · subst hstar
    rw [escape_star]
    exact lexemes_mark d rest (by decide)
  · cases hbare : isBare name with
    | true =>
      obtain ⟨hne, hword⟩ := isWordChar_of_isBare hbare
      rw [escape_bare _ hbare, lexemes_word d hne hword hrest]
      simp [Lexeme.ofName, hstar, hbare]
    | false =>
      rw [escape_quoted _ hstar hbare, lexemes_quoted d hrest]
      simp [Lexeme.ofName, hstar, hbare]

/-- A PostgreSQL placeholder is a dollar sign with its number. -/
theorem toList_dollar (i : Nat) :
    (Dialect.placeholder .postgres i).toList = '$' :: Nat.toDigits 10 i := by
  simp [Dialect.placeholder]

/-- Elsewhere a placeholder is a question mark, whatever its number. -/
theorem toList_question {d : Dialect} (hd : d ≠ .postgres) (i : Nat) :
    (d.placeholder i).toList = ['?'] := by
  cases d with
  | postgres => exact absurd rfl hd
  | mysql | sqlite => simp [Dialect.placeholder]

/-- A placeholder is one lexeme if what follows is apart from it. -/
theorem lexemes_placeholder (d : Dialect) (i : Nat) {rest : List Char}
    (hrest : Apart d.quote rest) :
    lexemes d.quote ((d.placeholder i).toList ++ rest)
      = (lexemes d.quote rest).map (Lexeme.placeholder (d.placeholder i).toList :: ·) := by
  by_cases hd : d = .postgres
  · subst hd
    rw [toList_dollar]
    exact lexemes_dollar .postgres isWordChar_of_mem_toDigits hrest
  · rw [toList_question hd]
    exact lexemes_question d rest

/-- One token is read as its lexemes; all but symbols have to be kept apart from
what follows. -/
theorem lexemes_token (d : Dialect) (t : Token Nat) (rest : List Char)
    (hrest : (∀ s, t ≠ .symbol s) → Apart d.quote rest) :
    lexemes d.quote (t.chars d.quote d.placeholder ++ rest)
      = (lexemes d.quote rest).map (t.lexemes d ++ ·) := by
  cases t with
  | word k => exact lexemes_word d k.text_ne_nil k.isWordChar_of_mem (hrest (by simp))
  | symbol s => exact lexemes_marks d rest _ s.isMark_of_mem
  | name n => exact lexemes_name d n.toList rest (hrest (by simp))
  | number n =>
    exact lexemes_word d Nat.toDigits_ne_nil isWordChar_of_mem_toDigits (hrest (by simp))
  | slot i => exact lexemes_placeholder d i (hrest (by simp))

/-- A token that touches one that is no symbol is itself a symbol, and what it
touches starts with a mark. -/
theorem apart_of_touches (d : Dialect) {t u : Token Nat} (h : t.touches u = true)
    (ht : ∀ s, t ≠ .symbol s) (rest : List Char) :
    Apart d.quote (u.chars d.quote d.placeholder ++ rest) := by
  have hu : ∃ s, u = .symbol s := by
    cases u with
    | symbol s => exact ⟨s, rfl⟩
    | _ => cases t <;> simp_all [Token.touches]
  obtain ⟨s, rfl⟩ := hu
  show Apart d.quote (s.text.toList ++ rest)
  obtain ⟨c, cs, hcs⟩ := List.exists_cons_of_ne_nil s.text_ne_nil
  rw [hcs]
  exact apart_mark d (cs ++ rest) (s.isMark_of_mem c (by rw [hcs]; exact List.mem_cons_self ..))

/-- Reading a layout gives the lexemes of its tokens. -/
theorem lexemes_layout (d : Dialect) :
    ∀ ts : Fragment Nat,
      lexemes d.quote (layout d.quote d.placeholder ts) = some (ts.flatMap (Token.lexemes d))
  | [] => rfl
  | [t] => by
    have h := lexemes_token d t [] fun _ => apart_nil _
    simpa [layout, lexemes, lexemesFrom, Reading.finish] using h
  | t :: u :: rest => by
    rw [layout, List.append_assoc, List.flatMap_cons]
    have ih := lexemes_layout d (u :: rest)
    cases htouch : t.touches u with
    | true =>
      -- nothing is written between the two, so one of them has to be a symbol
      have hapart : (∀ s, t ≠ .symbol s) →
          Apart d.quote (layout d.quote d.placeholder (u :: rest)) := by
        intro ht
        cases rest with
        | nil => simpa [layout] using apart_of_touches d htouch ht []
        | cons v rest =>
          rw [layout, List.append_assoc]
          exact apart_of_touches d htouch ht _
      rw [if_pos rfl, List.nil_append, lexemes_token d t _ hapart, ih]
      rfl
    | false =>
      rw [if_neg (by simp), List.singleton_append, lexemes_token d t _ fun _ => apart_blank d _,
        lexemes_blank, ih]
      rfl

/-- Reading the text of a fragment gives the lexemes of its tokens. -/
theorem lexemes_render {α : Type} (d : Dialect) (bound : Nat) (f : Fragment α) :
    lexemes d.quote (d.render bound f).toList = some (lexemesOf d bound f) := by
  rw [Dialect.render, String.toList_ofList]
  exact lexemes_layout d (number bound f)

/-- Fragments that are written one behind the other are read so, the second one numbered behind the
values of the first. -/
theorem lexemesOf_append {α : Type} (d : Dialect) (bound : Nat) (f g : Fragment α) :
    lexemesOf d bound (f ++ g)
      = lexemesOf d bound f ++ lexemesOf d (bound + (slots f).length) g := by
  unfold lexemesOf
  rw [number_append, List.flatMap_append]

end SqlQuery.Sql
