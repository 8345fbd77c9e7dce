import SqlQuery.Proofs.Sql.Lexeme

/-!
# One text behind other values

The placeholders of a fragment are counted on from the values before it, so the same fragment is
written with other numbers elsewhere; nothing else about its text depends on where it stands.
`reduced` says so of the texts: it reads SQL text and writes it again with a number taken off
every placeholder. What stands inside quoted names is no placeholder, whatever it looks like.

> `reduced_render`: a fragment that is written behind other values too has, without them, the
> text that it has alone.

> `sameButNumbers_render`: two texts of one fragment are the same but for where their numbers
> start.
-/

namespace SqlQuery.Sql

/-! ## Reducing the numbers in a text -/

/-- Where a reader of SQL text is. Of the number of a placeholder it has read some digits. -/
inductive Position where
  | plain
  | quoted
  | number (digits : List Char)

/-- What is left to write of a number that has been read, once `n` is taken off it. -/
def Position.pending (n : Nat) : Position → List Char
  | .number (c :: digits) => Nat.toDigits 10 (Nat.ofDigitChars 10 (c :: digits) 0 - n)
  | _ => []

/-- Where a character leads from plain text. -/
def Position.behind (quote c : Char) : Position :=
  if c = quote then .quoted else if c = '$' then .number [] else .plain

/-- The characters of text that goes on from a position, with `n` taken off the numbers of its
placeholders. -/
def reduceFrom (quote : Char) (n : Nat) : Position → List Char → List Char
  | place, [] => place.pending n
  | .plain, c :: rest => c :: reduceFrom quote n (.behind quote c) rest
  | .quoted, c :: rest =>
    c :: reduceFrom quote n (if c = quote then .plain else .quoted) rest
  | .number digits, c :: rest =>
    if c.isDigit then reduceFrom quote n (.number (digits ++ [c])) rest
    else Position.pending n (.number digits) ++ c :: reduceFrom quote n (.behind quote c) rest

/-- The text with `n` taken off the numbers of its placeholders. -/
def reduced (quote : Char) (n : Nat) (text : String) : String :=
  String.ofList (reduceFrom quote n .plain text.toList)

/-! ## Single tokens -/

variable {quote : Char} {n : Nat}

/-- A character that neither is a quote nor begins a placeholder stays as it is. -/
theorem reduceFrom_cons {c : Char} (h : c ≠ quote ∧ c ≠ '$') (rest : List Char) :
    reduceFrom quote n .plain (c :: rest) = c :: reduceFrom quote n .plain rest := by
  rw [reduceFrom, Position.behind, if_neg h.1, if_neg h.2]

/-- Characters that start neither a name nor a placeholder stay. -/
theorem reduceFrom_plain {cs : List Char} (h : ∀ c ∈ cs, c ≠ quote ∧ c ≠ '$')
    (rest : List Char) :
    reduceFrom quote n .plain (cs ++ rest) = cs ++ reduceFrom quote n .plain rest := by
  induction cs with
  | nil => rfl
  | cons c cs ih =>
    obtain ⟨hc, hcs⟩ := List.forall_mem_cons.mp h
    rw [List.cons_append, reduceFrom_cons hc, ih hcs, List.cons_append]

/-- The inside of a quoted name stays as it is. A doubled quote character ends the name and begins
it again. -/
theorem reduceFrom_quoted (cs rest : List Char) :
    reduceFrom quote n .quoted (doubled quote cs ++ quote :: rest)
      = doubled quote cs ++ quote :: reduceFrom quote n .plain rest := by
  induction cs with
  | nil => simp [doubled, reduceFrom]
  | cons c cs ih =>
    by_cases hc : c = quote
    · subst hc
      simp [doubled, reduceFrom, Position.behind, ih]
    · simp [doubled, reduceFrom, hc, ih]

/-- The digits behind a dollar sign are gathered. -/
theorem reduceFrom_digits {cs : List Char} (h : ∀ c ∈ cs, c.isDigit = true)
    (digits rest : List Char) :
    reduceFrom quote n (.number digits) (cs ++ rest)
      = reduceFrom quote n (.number (digits ++ cs)) rest := by
  induction cs generalizing digits with
  | nil => rw [List.nil_append, List.append_nil]
  | cons c cs ih =>
    obtain ⟨hc, hcs⟩ := List.forall_mem_cons.mp h
    rw [List.cons_append, reduceFrom, if_pos hc, ih hcs, List.append_assoc, List.singleton_append]

/-- A number ends where no digit follows. -/
theorem reduceFrom_number_end {rest : List Char}
    (h : ∀ c, rest.head? = some c → c.isDigit = false) (digits : List Char) :
    reduceFrom quote n (.number digits) rest
      = Position.pending n (.number digits) ++ reduceFrom quote n .plain rest := by
  cases rest with
  | nil => simp [reduceFrom, Position.pending]
  | cons c rest =>
    have hc : ¬c.isDigit = true := by simp [h c rfl]
    have hnumber : reduceFrom quote n (.number digits) (c :: rest)
        = Position.pending n (.number digits)
          ++ c :: reduceFrom quote n (.behind quote c) rest := by
      rw [reduceFrom, if_neg hc]
    rw [hnumber, reduceFrom]

/-- A number that has been read is written smaller. -/
theorem pending_toDigits (i : Nat) :
    Position.pending n (.number (Nat.toDigits 10 i)) = Nat.toDigits 10 (i - n) := by
  obtain ⟨c, cs, hcs⟩ := List.exists_cons_of_ne_nil (Nat.toDigits_ne_nil (b := 10) (n := i))
  have hread := Nat.ofDigitChars_toDigits (b := 10) (n := i) (by decide) (by decide)
  rw [hcs] at hread ⊢
  rw [Position.pending, hread]

/-- A token with `n` taken off the number in its slot. -/
def Token.reduce (n : Nat) : Token Nat → Token Nat
  | .slot i => .slot (i - n)
  | t => t

/-- A word has no quote characters and begins no placeholder. -/
theorem plain_of_isWordChar (d : Dialect) {c : Char} (h : isWordChar c = true) :
    c ≠ d.quote ∧ c ≠ '$' := by
  refine ⟨fun hc => ?_, fun hc => ?_⟩
  · rw [hc, not_isWordChar_quote] at h
    cases h
  · rw [hc] at h
    exact absurd h (by decide)

/-- Marks start neither a name nor a placeholder. -/
theorem plain_of_isMark (d : Dialect) {c : Char} (h : isMark c = true) :
    c ≠ d.quote ∧ c ≠ '$' := by
  refine ⟨fun hc => ?_, fun hc => ?_⟩
  · rw [hc] at h
    cases d <;> exact absurd h (by decide)
  · rw [hc] at h
    exact absurd h (by decide)

/-- One token is written again with its number reduced; a number has to be kept apart from what
follows. -/
theorem reduceFrom_token (d : Dialect) (t : Token Nat) {rest : List Char}
    (hrest : (∀ s, t ≠ .symbol s) → Apart d.quote rest) :
    reduceFrom d.quote n .plain (t.chars d.quote d.placeholder ++ rest)
      = (t.reduce n).chars d.quote d.placeholder ++ reduceFrom d.quote n .plain rest := by
  cases t with
  | word k =>
    exact reduceFrom_plain (fun c hc => plain_of_isWordChar d (k.isWordChar_of_mem c hc)) rest
  | symbol s =>
    exact reduceFrom_plain (fun c hc => plain_of_isMark d (s.isMark_of_mem c hc)) rest
  | number i =>
    exact reduceFrom_plain
      (fun c hc => plain_of_isWordChar d (isWordChar_of_mem_toDigits c hc)) rest
  | name name =>
    show reduceFrom d.quote n .plain (escapeChars d.quote name.toList ++ rest)
      = escapeChars d.quote name.toList ++ reduceFrom d.quote n .plain rest
    by_cases hstar : name.toList = ['*']
    · rw [hstar, escape_star]
      exact reduceFrom_cons (plain_of_isMark d (by decide)) rest
    · cases hbare : isBare name.toList with
      | true =>
        rw [escape_bare _ hbare]
        exact reduceFrom_plain
          (fun c hc => plain_of_isWordChar d ((isWordChar_of_isBare hbare).2 c hc)) rest
      | false =>
        rw [escape_quoted _ hstar hbare, List.cons_append, reduceFrom, Position.behind, if_pos rfl,
          List.append_assoc, List.singleton_append, reduceFrom_quoted]
        simp
  | slot i =>
    show reduceFrom d.quote n .plain ((d.placeholder i).toList ++ rest)
      = (d.placeholder (i - n)).toList ++ reduceFrom d.quote n .plain rest
    by_cases hd : d = .postgres
    · subst hd
      have hend : ∀ c, rest.head? = some c → c.isDigit = false := by
        intro c hc
        cases hdigit : c.isDigit with
        | false => rfl
        | true =>
          have hword := (hrest (by simp) c hc).1
          rw [isWordChar_of_isDigit hdigit] at hword
          cases hword
      rw [toList_dollar, toList_dollar, List.cons_append, reduceFrom, Position.behind,
        if_neg (by decide), if_pos rfl, reduceFrom_digits isDigit_of_mem_toDigits,
        List.nil_append, reduceFrom_number_end hend, pending_toDigits]
      rfl
    · rw [toList_question hd, toList_question hd]
      exact reduceFrom_cons (by cases d <;> decide) rest

/-! ## Fragments -/

/-- Smaller numbers are set apart as the old ones are. -/
theorem Token.reduce_touches (n : Nat) (t u : Token Nat) :
    (t.reduce n).touches (u.reduce n) = t.touches u := by
  cases t <;> cases u <;> rfl

/-- A layout is written again with its numbers reduced. -/
theorem reduceFrom_layout (d : Dialect) :
    ∀ ts : Fragment Nat,
      reduceFrom d.quote n .plain (layout d.quote d.placeholder ts)
        = layout d.quote d.placeholder (ts.map (Token.reduce n))
  | [] => rfl
  | [t] => by
    have hnil : Apart d.quote [] := apart_nil _
    have h := reduceFrom_token (n := n) d t fun _ => hnil
    simpa [layout, reduceFrom, Position.pending] using h
  | t :: u :: rest => by
    have ih := reduceFrom_layout d (u :: rest)
    rw [List.map_cons] at ih
    rw [layout, List.append_assoc, List.map_cons, List.map_cons, layout, Token.reduce_touches, ← ih]
    cases htouch : t.touches u with
    | true =>
      have hapart : (∀ s, t ≠ .symbol s) →
          Apart d.quote (layout d.quote d.placeholder (u :: rest)) := by
        intro ht
        cases rest with
        | nil => simpa [layout] using apart_of_touches d htouch ht []
        | cons v rest =>
          rw [layout, List.append_assoc]
          exact apart_of_touches d htouch ht _
      simp only [if_true, List.nil_append, List.append_nil]
      exact reduceFrom_token d t hapart
    | false =>
      have hblank : reduceFrom d.quote n .plain (' ' :: layout d.quote d.placeholder (u :: rest))
          = ' ' :: reduceFrom d.quote n .plain (layout d.quote d.placeholder (u :: rest)) :=
        reduceFrom_cons (by cases d <;> decide) _
      simp only [Bool.false_eq_true, if_false, List.singleton_append, List.append_assoc]
      rw [reduceFrom_token d t fun _ => apart_blank d _, hblank]

/-- Numbering behind fewer values gives the smaller numbers. -/
theorem map_reduce_number {α : Type} (n : Nat) (bound : Nat) (f : Fragment α) :
    (number (n + bound) f).map (Token.reduce n) = number bound f := by
  induction f generalizing bound with
  | nil => rfl
  | cons t f ih =>
    cases t with
    | slot a =>
      have hnumber : n + bound + 1 - n = bound + 1 := by omega
      rw [number, number, List.map_cons, Nat.add_assoc, ih (bound + 1), Token.reduce,
        ← Nat.add_assoc, hnumber]
    | _ => exact congrArg _ (ih bound)

/-- A fragment that is written behind `n` values more has, with `n` taken off its numbers, the
text that it has without them. -/
theorem reduced_render {α : Type} (d : Dialect) (n bound : Nat) (f : Fragment α) :
    reduced d.quote n (d.render (n + bound) f) = d.render bound f := by
  unfold reduced Dialect.render
  rw [String.toList_ofList, reduceFrom_layout, map_reduce_number]

/-- Where placeholders are question marks, their numbers are not seen. -/
theorem chars_reduce {d : Dialect} (hd : d ≠ .postgres) (n : Nat) (t : Token Nat) :
    (t.reduce n).chars d.quote d.placeholder = t.chars d.quote d.placeholder := by
  cases t with
  | slot i => exact (toList_question hd _).trans (toList_question hd i).symm
  | _ => rfl

/-- Where placeholders have no numbers, it makes no difference to take some off. -/
theorem layout_reduce {d : Dialect} (hd : d ≠ .postgres) (n : Nat) :
    ∀ ts : Fragment Nat,
      layout d.quote d.placeholder (ts.map (Token.reduce n)) = layout d.quote d.placeholder ts
  | [] => rfl
  | [t] => chars_reduce hd n t
  | t :: u :: rest => by
    have ih := layout_reduce hd n (u :: rest)
    rw [List.map_cons] at ih
    rw [List.map_cons, List.map_cons, layout, layout, Token.reduce_touches, chars_reduce hd, ih]

/-- Two texts that are the same but for the numbers of their placeholders: these are counted on
from `n` and from `n'`, where they are numbered at all. -/
structure SameButNumbers (d : Dialect) (n n' : Nat) (text text' : String) : Prop where
  reduced : reduced d.quote n text = reduced d.quote n' text'
  unnumbered : d ≠ .postgres → text = text'

/-- Two texts of one fragment are the same but for the numbers of their placeholders. -/
theorem sameButNumbers_render {α : Type} (d : Dialect) (n n' : Nat) (f : Fragment α) :
    SameButNumbers d n n' (d.render n f) (d.render n' f) := by
  refine ⟨(reduced_render d n 0 f).trans (reduced_render d n' 0 f).symm, ?_⟩
  intro hd
  have halone (k : Nat) : d.render k f = d.render 0 f := by
    unfold Dialect.render
    rw [← map_reduce_number k 0 f, Nat.add_zero, layout_reduce hd]
  rw [halone n, halone n']

-- the number that is part of a quoted name is none of a placeholder
example : reduced '"' 2 "\"a$3\" = $3 AND b IN ($4, $12)" = "\"a$3\" = $1 AND b IN ($2, $10)" := by
  decide +kernel

end SqlQuery.Sql
