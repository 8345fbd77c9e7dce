import SqlQuery.Proofs.Sql.Lexeme

/-!
# Reading the boolean level of SQL

A predicate is written without any thought of precedence (`Predicate.tokens`), so
what its text means is up to whoever reads it. `Formula.read` is that reader: NOT
binds tighter than AND, AND tighter than OR, parentheses group. It is told the
texts of the atoms, in order, and takes each of them as one unit wherever the text
goes on with it; all else must be AND, OR, NOT and parentheses.

The reader works in two steps. `Sign.cut` cuts the lexemes into atoms and connectives.
`Reader.step` then goes through these one by one and keeps, for every open
parenthesis, what stands before the operand that is being read: a disjunction, a
conjunction and a number of NOTs.

> `ReadsOperand`: the signs extend the conjunction before them by one operand,
> whatever stands around them.

> `ReadsWhole`: the signs are a whole formula between parentheses.
-/

namespace SqlQuery.Sql

/-- A boolean combination of atoms, which are numbered in the order of the text. -/
inductive Formula where
  | atom (i : Nat)
  | not (f : Formula)
  | and (f g : Formula)
  | or (f g : Formula)
deriving DecidableEq, Repr

/-- The truth value of a formula where that of every atom is given. -/
def Formula.eval (truth : Nat → Bool) : Formula → Bool
  | .atom i => truth i
  | .not f => !f.eval truth
  | .and f g => f.eval truth && g.eval truth
  | .or f g => f.eval truth || g.eval truth

/-- What the boolean level of a text is made of. -/
inductive Sign where
  | atom (i : Nat)
  | and
  | or
  | not
  | opening
  | closing
deriving DecidableEq, Repr

/-- The connective or parenthesis that a lexeme is. -/
def Sign.ofLexeme? : Lexeme → Option Sign
  | .word ['A', 'N', 'D'] => some .and
  | .word ['O', 'R'] => some .or
  | .word ['N', 'O', 'T'] => some .not
  | .mark '(' => some .opening
  | .mark ')' => some .closing
  | _ => none

/-- Whether the text goes on with the first of the atoms. -/
def atomAhead (atoms : List (List Lexeme)) (text : List Lexeme) : Bool :=
  match atoms with
  | [] => false
  | a :: _ => !a.isEmpty && a.isPrefixOf text

/-- Cuts a text into atoms, which are given in order and numbered from `next`, and
what stands between them. -/
def Sign.cut (next : Nat) (atoms : List (List Lexeme)) (text : List Lexeme) :
    Option (List Sign) :=
  match text with
  | [] => if atoms.isEmpty then some [] else none
  | l :: rest =>
    if atomAhead atoms (l :: rest) then
      (cut (next + 1) atoms.tail (rest.drop ((atoms.headD []).length - 1))).map
        (Sign.atom next :: ·)
    else do
      let s ← Sign.ofLexeme? l
      let more ← cut next atoms rest
      return s :: more
  termination_by text.length
  decreasing_by
    · simp only [List.length_drop, List.length_cons]; omega
    · simp only [List.length_cons]; omega

theorem Sign.cut_nil (next : Nat) : Sign.cut next [] [] = some [] := by
  rw [Sign.cut]
  rfl

/-- An atom that is given next is taken as one unit where the text goes on with it. -/
theorem Sign.cut_atom (next : Nat) {a : List Lexeme} (more : List (List Lexeme))
    (rest : List Lexeme) (ha : a ≠ []) :
    Sign.cut next (a :: more) (a ++ rest)
      = (Sign.cut (next + 1) more rest).map (Sign.atom next :: ·) := by
  obtain ⟨l, tail, rfl⟩ := List.exists_cons_of_ne_nil ha
  have hahead : atomAhead ((l :: tail) :: more) (l :: (tail ++ rest)) = true := by
    simp [atomAhead]
  rw [List.cons_append, Sign.cut, if_pos hahead]
  simp

/-- Where no atom is ahead, one lexeme is taken. -/
theorem Sign.cut_sign (next : Nat) {atoms : List (List Lexeme)} {l : Lexeme} {s : Sign}
    {rest : List Lexeme} (hl : Sign.ofLexeme? l = some s)
    (hahead : atomAhead atoms (l :: rest) = false) :
    Sign.cut next atoms (l :: rest) = (Sign.cut next atoms rest).map (s :: ·) := by
  rw [Sign.cut, hahead, if_neg (by simp), hl]
  cases Sign.cut next atoms rest <;> rfl

/-! ## The reader -/

/-- What stands before an operand: a disjunction that is complete, a conjunction
that goes on with the operand, and NOTs that apply to the operand alone. -/
structure Before where
  disjoined : Option Formula := none
  conjoined : Option Formula := none
  denials : Nat := 0
deriving DecidableEq, Repr

/-- The state of the reader: it waits for an operand or for what follows one. The
list holds what stands before every open parenthesis, the innermost first. -/
inductive Reader where
  | operand (before : Before) (outer : List Before)
  | operator (disjoined : Option Formula) (conjoined : Formula) (outer : List Before)
deriving DecidableEq, Repr

/-- A formula under some NOTs. -/
def Formula.denied (f : Formula) : Nat → Formula
  | 0 => f
  | n + 1 => .not (f.denied n)

/-- A formula connected to what stands before it, if anything does. -/
def Formula.after (f : Formula) (connect : Formula → Formula → Formula) :
    Option Formula → Formula
  | some g => connect g f
  | none => f

/-- The reader after an operand. -/
def Before.take (b : Before) (f : Formula) (outer : List Before) : Reader :=
  .operator b.disjoined ((f.denied b.denials).after .and b.conjoined) outer

/-- The reader after one more sign, if that can stand here. AND goes on with the
conjunction, OR completes it, and a parenthesis that closes makes an operand of
what was read since it was opened. -/
def Reader.step : Reader → Sign → Option Reader
  | .operand b outer, .atom i => some (b.take (.atom i) outer)
  | .operand b outer, .not => some (.operand { b with denials := b.denials + 1 } outer)
  | .operand b outer, .opening => some (.operand {} (b :: outer))
  | .operator d c outer, .and => some (.operand { disjoined := d, conjoined := some c } outer)
  | .operator d c outer, .or => some (.operand { disjoined := some (c.after .or d) } outer)
  | .operator d c (b :: outer), .closing => some (b.take (c.after .or d) outer)
  | _, _ => none

/-- What has been read where the text ends. -/
def Reader.finish : Reader → Option Formula
  | .operator d c [] => some (c.after .or d)
  | _ => none

/-- The formula that some signs are. -/
def Formula.ofSigns (ss : List Sign) : Option Formula :=
  (ss.foldlM Reader.step (.operand {} [])).bind Reader.finish

/-- The formula that some lexemes are, the atoms being given as the lexemes of
their texts. -/
def Formula.ofLexemes (atoms : List (List Lexeme)) (text : List Lexeme) : Option Formula :=
  (Sign.cut 0 atoms text).bind Formula.ofSigns

/-- The formula that SQL text is, the atoms being given as texts in order. -/
def Formula.read (quote : Char) (atoms : List String) (sql : String) : Option Formula := do
  let units ← atoms.mapM fun a => lexemes quote a.toList
  Formula.ofLexemes units (← lexemes quote sql.toList)

-- NOT takes the next operand alone, and AND goes before OR
example : Formula.read '"' ["a = ?", "b = ?", "c = ?"] "NOT a = ? OR b = ? AND c = ?"
    = some (.or (.not (.atom 0)) (.and (.atom 1) (.atom 2))) := by decide +kernel

/-! ## Signs that read as an operand or as a whole -/

/-- The signs are one operand of value `v` of the conjunction before them. -/
def ReadsOperand (ss : List Sign) (v : (Nat → Bool) → Bool) : Prop :=
  ∀ (d c : Option Formula) (outer : List Before), ∃ f : Formula,
    ss.foldlM Reader.step (.operand { disjoined := d, conjoined := c } outer)
        = some (.operator d f outer) ∧
      ∀ truth, f.eval truth = (c.all (·.eval truth) && v truth)

/-- The signs are all that stands between two parentheses, of value `v`. -/
def ReadsWhole (ss : List Sign) (v : (Nat → Bool) → Bool) : Prop :=
  ∀ outer : List Before, ∃ (d : Option Formula) (f : Formula),
    ss.foldlM Reader.step (.operand {} outer) = some (.operator d f outer) ∧
      ∀ truth, (f.after .or d).eval truth = v truth

/-- A part behind AND belongs to the conjunction before it. -/
theorem eval_after_and (f : Formula) (c : Option Formula) (truth : Nat → Bool) :
    (f.after .and c).eval truth = (c.all (·.eval truth) && f.eval truth) := by
  cases c <;> simp [Formula.after, Formula.eval]

/-- A part behind OR begins a conjunction of its own. -/
theorem eval_after_or (f : Formula) (d : Option Formula) (truth : Nat → Bool) :
    (f.after .or d).eval truth = (d.any (·.eval truth) || f.eval truth) := by
  cases d <;> simp [Formula.after, Formula.eval]

/-- An atom alone is an operand, and true where the atom is. -/
theorem readsOperand_atom (i : Nat) : ReadsOperand [.atom i] fun truth => truth i := by
  intro d c outer
  refine ⟨(Formula.atom i).after .and c, rfl, ?_⟩
  intro truth
  rw [eval_after_and]
  rfl

theorem ReadsOperand.whole {ss : List Sign} {v : (Nat → Bool) → Bool} (h : ReadsOperand ss v) :
    ReadsWhole ss v := by
  intro outer
  obtain ⟨f, hf, hv⟩ := h none none outer
  refine ⟨none, f, hf, ?_⟩
  intro truth
  rw [Formula.after, hv truth]
  rfl

/-- What stands between parentheses is an operand. -/
theorem ReadsWhole.group {ss : List Sign} {v : (Nat → Bool) → Bool} (h : ReadsWhole ss v) :
    ReadsOperand (.opening :: ss ++ [.closing]) v := by
  -- what stands before the parenthesis waits in the list until it is closed
  intro d c outer
  obtain ⟨d', f, hf, hv⟩ := h ({ disjoined := d, conjoined := c } :: outer)
  refine ⟨(f.after .or d').after .and c, ?_, ?_⟩
  · simp only [List.cons_append, List.foldlM_cons, Reader.step, Option.bind_eq_bind,
      Option.bind_some, List.foldlM_append, hf]
    rfl
  · intro truth
    rw [eval_after_and, hv truth]

/-- NOT in front of parentheses denies what stands between them. -/
theorem ReadsWhole.not {ss : List Sign} {v : (Nat → Bool) → Bool} (h : ReadsWhole ss v) :
    ReadsOperand (.not :: .opening :: ss ++ [.closing]) fun truth => !v truth := by
  intro d c outer
  obtain ⟨d', f, hf, hv⟩ := h ({ disjoined := d, conjoined := c, denials := 1 } :: outer)
  refine ⟨(Formula.not (f.after .or d')).after .and c, ?_, ?_⟩
  · simp only [List.cons_append, List.foldlM_cons, Reader.step, Option.bind_eq_bind,
      Option.bind_some, List.foldlM_append, hf]
    rfl
  · intro truth
    rw [eval_after_and, Formula.eval, hv truth]

/-- Two operands with AND between them are one operand to those who read on. -/
theorem ReadsOperand.and {ss ts : List Sign} {v w : (Nat → Bool) → Bool}
    (hs : ReadsOperand ss v) (ht : ReadsOperand ts w) :
    ReadsOperand (ss ++ .and :: ts) fun truth => v truth && w truth := by
  -- the first operand has become the conjunction that the second one extends
  intro d c outer
  obtain ⟨f, hf, hv⟩ := hs d c outer
  obtain ⟨g, hg, hw⟩ := ht d (some f) outer
  refine ⟨g, ?_, ?_⟩
  · simp only [List.foldlM_append, List.foldlM_cons, hf, Option.bind_eq_bind, Option.bind_some,
      Reader.step, hg]
  · intro truth
    rw [hw truth, Option.all_some, hv truth, Bool.and_assoc]

/-- An operand behind OR is one more alternative of the whole. -/
theorem ReadsWhole.or {ss ts : List Sign} {v w : (Nat → Bool) → Bool}
    (hs : ReadsWhole ss v) (ht : ReadsOperand ts w) :
    ReadsWhole (ss ++ .or :: ts) fun truth => v truth || w truth := by
  intro outer
  obtain ⟨d, f, hf, hv⟩ := hs outer
  obtain ⟨g, hg, hw⟩ := ht (some (f.after .or d)) none outer
  refine ⟨some (f.after .or d), g, ?_, ?_⟩
  · simp only [List.foldlM_append, List.foldlM_cons, hf, Option.bind_eq_bind, Option.bind_some,
      Reader.step, hg]
  · intro truth
    rw [eval_after_or, Option.any_some, hv truth, hw truth]
    rfl

/-- Signs that read as a whole give a formula of the same truth. -/
theorem ReadsWhole.ofSigns {ss : List Sign} {v : (Nat → Bool) → Bool} (h : ReadsWhole ss v) :
    ∃ f, Formula.ofSigns ss = some f ∧ ∀ truth, f.eval truth = v truth := by
  obtain ⟨d, f, hf, hv⟩ := h []
  refine ⟨f.after .or d, ?_, hv⟩
  unfold Formula.ofSigns
  rw [hf]
  rfl

end SqlQuery.Sql
