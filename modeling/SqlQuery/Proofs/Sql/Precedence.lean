import SqlQuery.Proofs.Sql.Formula
import SqlQuery.Proofs.Sql.Weave

/-!
# Predicates that are read as they were built

A predicate is written just as it stands, so some trees are read back as another
one: a disjunction of two parts beside an AND loses a part to it. `FitsAt` says
where a tree can stand, and the main statement is that nothing else is needed:

> `FitsAt.read_render`: where a tree fits, reading its text gives a formula with
> the tree's value under every truth assignment to the atoms.

The reader is told the texts of the atoms, so it has to find them again. It can,
because no atom begins like a connective or a parenthesis but the denial of a test
for no elements, `NOT (`, and behind these two comes what no group begins with.
-/

namespace SqlQuery.Sql

namespace Predicate

mutual

/-- The atoms of a predicate, in the order of the text. -/
def atoms : Predicate → List Atom
  | .atom a => [a]
  | .group p => atoms p
  | .not p => atoms p
  | .all parts => atomsOf parts
  | .any parts => atomsOf parts

/-- The atoms of some predicates, in the order of the text. -/
def atomsOf : List Predicate → List Atom
  | [] => []
  | p :: rest => atoms p ++ atomsOf rest

end

mutual

/-- The value of a predicate whose atoms are numbered from `start`. -/
def eval (truth : Nat → Bool) (start : Nat) : Predicate → Bool
  | .atom _ => truth start
  | .group p => eval truth start p
  | .not p => !eval truth start p
  | .all parts => (evalEach truth start parts).all id
  | .any parts => (evalEach truth start parts).any id

/-- The value of each of some predicates, their atoms being numbered on. -/
def evalEach (truth : Nat → Bool) (start : Nat) : List Predicate → List Bool
  | [] => []
  | p :: rest => eval truth start p :: evalEach truth (start + (atoms p).length) rest

end

mutual

/-- The signs of a predicate whose atoms are numbered from `start`. -/
def signs (start : Nat) : Predicate → List Sign
  | .atom _ => [.atom start]
  | .group p => .opening :: signs start p ++ [.closing]
  | .not p => .not :: .opening :: signs start p ++ [.closing]
  | .all parts => [Sign.and].intercalate (signsEach start parts)
  | .any parts => [Sign.or].intercalate (signsEach start parts)

/-- The signs of each of some predicates, their atoms being numbered on. -/
def signsEach (start : Nat) : List Predicate → List (List Sign)
  | [] => []
  | p :: rest => signs start p :: signsEach (start + (atoms p).length) rest

end

/-- Where a predicate can stand without parentheses around it: as an operand of AND
or OR, or alone. -/
inductive Place where
  | operand
  | alone
deriving DecidableEq, Repr

/-- A predicate means the same where it stands as it means by itself. Only a
disjunction of several parts needs to stand alone. -/
inductive FitsAt : Place → Predicate → Prop where
  | atom (a : Atom) : FitsAt .operand (.atom a)
  | group {p : Predicate} : FitsAt .alone p → FitsAt .operand (.group p)
  | not {p : Predicate} : FitsAt .alone p → FitsAt .operand (.not p)
  | all {p : Predicate} {rest : List Predicate} :
      (∀ q ∈ p :: rest, FitsAt .operand q) → FitsAt .operand (.all (p :: rest))
  | one {p : Predicate} : FitsAt .operand p → FitsAt .operand (.any [p])
  | any {p : Predicate} {rest : List Predicate} :
      (∀ q ∈ p :: rest, FitsAt .operand q) → FitsAt .alone (.any (p :: rest))
  | alone {p : Predicate} : FitsAt .operand p → FitsAt .alone p

/-! ## Reading the signs of a predicate -/

/-- Operands with AND between them are an operand. -/
theorem readsOperand_all :
    ∀ (rest : List Predicate) (p : Predicate) (start : Nat),
      (∀ q ∈ p :: rest, ∀ n, ReadsOperand (q.signs n) fun truth => q.eval truth n) →
        ReadsOperand ([Sign.and].intercalate (signsEach start (p :: rest)))
          fun truth => (evalEach truth start (p :: rest)).all id := by
  intro rest
  induction rest with
  | nil =>
    intro p start h
    simpa [signsEach, evalEach] using h p (List.mem_cons_self ..) start
  | cons q rest ih =>
    intro p start h
    have hp := h p (List.mem_cons_self ..) start
    have hrest := ih q (start + p.atoms.length) fun r hr => h r (List.mem_cons_of_mem _ hr)
    have hand := hp.and hrest
    simpa [signsEach, evalEach, List.intercalate_cons_cons] using hand

/-- Operands with OR between them are a whole. -/
theorem readsWhole_any :
    ∀ (rest : List Predicate) (p : Predicate) (start : Nat) (ss : List Sign)
      (v : (Nat → Bool) → Bool), ReadsWhole ss v →
      (∀ q ∈ p :: rest, ∀ n, ReadsOperand (q.signs n) fun truth => q.eval truth n) →
        ReadsWhole (ss ++ .or :: [Sign.or].intercalate (signsEach start (p :: rest)))
          fun truth => v truth || (evalEach truth start (p :: rest)).any id := by
  -- a disjunction is read from the left, so what has been read grows at its end
  intro rest
  induction rest with
  | nil =>
    intro p start ss v hss h
    have hor := hss.or (h p (List.mem_cons_self ..) start)
    simpa [signsEach, evalEach] using hor
  | cons q rest ih =>
    intro p start ss v hss h
    have hor := hss.or (h p (List.mem_cons_self ..) start)
    have hrest := ih q (start + p.atoms.length) _ _ hor
      fun r hr => h r (List.mem_cons_of_mem _ hr)
    simpa [signsEach, evalEach, List.intercalate_cons_cons, Bool.or_assoc] using hrest

/-- What the signs of a predicate are read as where it stands. -/
def ReadsAt : Place → List Sign → ((Nat → Bool) → Bool) → Prop
  | .operand => ReadsOperand
  | .alone => ReadsWhole

/-- The signs of a predicate that fits its place are read as the predicate, along its parts. -/
theorem FitsAt.readsAt {place : Place} {p : Predicate} (h : p.FitsAt place) :
    ∀ start, ReadsAt place (p.signs start) fun truth => p.eval truth start := by
  induction h with
  | atom a => intro start; exact readsOperand_atom start
  | group _ ih =>
    intro start
    rw [signs]
    exact ReadsWhole.group (ih start)
  | not _ ih =>
    intro start
    rw [signs]
    exact ReadsWhole.not (ih start)
  | @all p rest _ ih =>
    intro start
    rw [signs]
    exact readsOperand_all rest p start ih
  | @one p _ ih =>
    intro start
    have hp : ReadsOperand (p.signs start) fun truth => p.eval truth start := ih start
    simpa [ReadsAt, signs, signsEach, eval, evalEach] using hp
  | @any p rest _ ih =>
    intro start
    -- the first part is a whole by itself, to which the others are added
    have hp : ReadsOperand (p.signs start) fun truth => p.eval truth start :=
      ih p (List.mem_cons_self ..) start
    cases rest with
    | nil => simpa [ReadsAt, signs, signsEach, eval, evalEach] using hp.whole
    | cons q rest =>
      have hany := readsWhole_any rest q (start + p.atoms.length) _ _ hp.whole
        fun r hr => ih r (List.mem_cons_of_mem _ hr)
      simpa [ReadsAt, signs, signsEach, eval, evalEach, List.intercalate_cons_cons] using hany
  | alone _ ih => intro start; exact ReadsOperand.whole (ih start)

/-- The signs of a predicate that fits are a formula of its value. -/
theorem FitsAt.ofSigns {place : Place} {p : Predicate} (h : p.FitsAt place) (start : Nat) :
    ∃ f, Formula.ofSigns (p.signs start) = some f ∧ ∀ truth, f.eval truth = p.eval truth start := by
  cases place with
  | operand => exact (ReadsOperand.whole (h.readsAt start)).ofSigns
  | alone => exact ReadsWhole.ofSigns (h.readsAt start)

end Predicate

/-! ## How atoms begin -/

/-- Whether a token begins unlike any connective or parenthesis. -/
def Token.opensAtom {α : Type} : Token α → Bool
  | .word k => !decide (k = .and ∨ k = .or ∨ k = .not)
  | .symbol _ => false
  | _ => true

/-- A word is no sign unless it is one of the three that join conditions. -/
theorem Sign.ofLexeme?_word {w : List Char} (hand : w ≠ ['A', 'N', 'D']) (hor : w ≠ ['O', 'R'])
    (hnot : w ≠ ['N', 'O', 'T']) : Sign.ofLexeme? (.word w) = none := by
  unfold Sign.ofLexeme?
  split <;> simp_all

/-- Connectives are reserved words, so no bare name is one. -/
theorem Sign.ofLexeme?_ofName (name : List Char) : Sign.ofLexeme? (.ofName name) = none := by
  unfold Lexeme.ofName
  split
  · rfl
  · split
    next hbare =>
      refine Sign.ofLexeme?_word ?_ ?_ ?_ <;> intro he <;> rw [he] at hbare <;>
        exact absurd hbare (by decide)
    next => rfl

theorem Sign.ofLexeme?_digits (n : Nat) : Sign.ofLexeme? (.word (Nat.toDigits 10 n)) = none := by
  have hdigit : ∀ c ∈ Nat.toDigits 10 n, c.isDigit = true := fun c hc =>
    Nat.isDigit_of_mem_toDigits (by decide) (by decide) hc
  refine Sign.ofLexeme?_word ?_ ?_ ?_ <;> intro he <;> rw [he] at hdigit <;>
    exact absurd (hdigit _ (List.mem_cons_self ..)) (by decide)

theorem Sign.ofLexeme?_keyword {k : Keyword} (h : ¬(k = .and ∨ k = .or ∨ k = .not)) :
    Sign.ofLexeme? (.word k.text.toList) = none := by
  cases k <;> first | rfl | exact absurd h (by decide)

/-- A token that opens an atom is read as something else than a sign. -/
theorem lexemesOf_of_opensAtom {α : Type} (d : Dialect) (bound : Nat) {t : Token α}
    (h : t.opensAtom = true) (rest : Fragment α) :
    ∃ l ls, lexemesOf d bound (t :: rest) = l :: ls ∧ Sign.ofLexeme? l = none := by
  cases t with
  | word k => exact ⟨_, _, rfl, Sign.ofLexeme?_keyword (by simpa [Token.opensAtom] using h)⟩
  | symbol s => exact absurd h (by simp [Token.opensAtom])
  | name n => exact ⟨_, _, rfl, Sign.ofLexeme?_ofName n.toList⟩
  | number n => exact ⟨_, _, rfl, Sign.ofLexeme?_digits n⟩
  | slot a => exact ⟨_, _, rfl, rfl⟩

/-- A fragment begins like an atom. -/
def OpensAtom {α : Type} (f : Fragment α) : Prop :=
  ∃ t rest, f = t :: rest ∧ t.opensAtom = true

/-- How a fragment begins is seen from its first part. -/
theorem OpensAtom.append {α : Type} {f : Fragment α} (h : OpensAtom f) (g : Fragment α) :
    OpensAtom (f ++ g) := by
  obtain ⟨t, rest, rfl, ht⟩ := h
  exact ⟨t, rest ++ g, rfl, ht⟩

/-- How a fragment begins is seen from its first token. -/
theorem opensAtom_cons {α : Type} {t : Token α} (h : t.opensAtom = true) (rest : Fragment α) :
    OpensAtom (t :: rest) :=
  ⟨t, rest, rfl, h⟩

/-- A reference to a column begins with a name. -/
theorem ColumnRef.opensAtom {α : Type} (c : ColumnRef) : OpensAtom (c.tokens (α := α)) := by
  unfold ColumnRef.tokens
  split <;> exact opensAtom_cons rfl _

/-- An operand begins with a name or a function. -/
theorem Operand.opensAtom {α : Type} (o : Operand) : OpensAtom (o.tokens (α := α)) := by
  cases o with
  | column c => exact c.opensAtom
  | aggregate f c => cases f <;> exact opensAtom_cons rfl _

/-- Folding letter case begins with a function, or with what it leaves alone. -/
theorem opensAtom_folding {α : Type} (folded : Bool) {f : Fragment α} (h : OpensAtom f) :
    OpensAtom (folding folded f) := by
  cases folded with
  | true => exact opensAtom_cons rfl _
  | false => exact h

/-- Whether an array is empty is asked with a function first. -/
theorem ArrayStyle.opensAtom_isEmpty {α : Type} (s : ArrayStyle) (column : Fragment α) :
    OpensAtom (s.isEmpty column) := by
  cases s <;> exact opensAtom_cons rfl _

/-- How the lexemes of an atom begin: unlike a sign, or with `NOT (` and then unlike
a sign. -/
inductive AtomShape : List Lexeme → Prop where
  | plain {l : Lexeme} {ls : List Lexeme} : Sign.ofLexeme? l = none → AtomShape (l :: ls)
  | denial {l : Lexeme} {ls : List Lexeme} : Sign.ofLexeme? l = none →
      AtomShape (.word ['N', 'O', 'T'] :: .mark '(' :: l :: ls)

theorem AtomShape.ne_nil {ls : List Lexeme} (h : AtomShape ls) : ls ≠ [] := by
  cases h <;> simp

/-- What begins like an atom is read as something that no sign starts. -/
theorem OpensAtom.shape {α : Type} {f : Fragment α} (h : OpensAtom f) (d : Dialect) (bound : Nat) :
    AtomShape (lexemesOf d bound f) := by
  obtain ⟨t, rest, rfl, ht⟩ := h
  obtain ⟨l, ls, hl, hsign⟩ := lexemesOf_of_opensAtom d bound ht rest
  rw [hl]
  exact .plain hsign

/-- Every atom is read as something that no sign starts. -/
theorem Atom.shape (a : Atom) (d : Dialect) (bound : Nat) :
    AtomShape (lexemesOf d bound (a.tokens d)) := by
  cases a with
  | compare lhs folded op value =>
    exact ((opensAtom_folding folded lhs.opensAtom).append _).shape d bound
  | sameColumn a b => exact (a.opensAtom.append _).shape d bound
  | null lhs expected => cases expected <;> exact (lhs.opensAtom.append _).shape d bound
  | oneOf lhs folded expected items =>
    rw [Atom.tokens, List.append_assoc]
    exact ((opensAtom_folding folded lhs.opensAtom).append _).shape d bound
  | like lhs folded pattern =>
    exact ((opensAtom_folding folded lhs.opensAtom).append _).shape d bound
  | search lhs query =>
    cases d with
    | postgres => exact (opensAtom_cons rfl _).shape .postgres bound
    | mysql => exact (opensAtom_cons rfl _).shape .mysql bound
    | sqlite => exact (lhs.opensAtom.append _).shape .sqlite bound
  | constant truth => exact (opensAtom_cons rfl _).shape d bound
  | array style lhs test =>
    cases test with
    | empty expected =>
      cases expected with
      | true => exact (ArrayStyle.opensAtom_isEmpty style _).shape d bound
      | false =>
        obtain ⟨t, rest, ht, hopens⟩ := ArrayStyle.opensAtom_isEmpty style lhs.tokens
        obtain ⟨l, ls, hl, hsign⟩ :=
          lexemesOf_of_opensAtom d bound hopens (rest ++ [.symbol .close])
        have htokens : (Atom.array style lhs (.empty false)).tokens d
            = .word .not :: .symbol .group :: (t :: (rest ++ [.symbol .close])) := by
          rw [Atom.tokens, ArrayTest.tokens, grouped, ht]
          rfl
        rw [htokens]
        show AtomShape (.word ['N', 'O', 'T'] :: .mark '(' :: lexemesOf d bound (t :: (rest ++ _)))
        rw [hl]
        exact .denial hsign
    | has element => cases style <;> exact (opensAtom_cons rfl _).shape d bound
    | hasEvery elements =>
      cases style with
      | native => exact (lhs.opensAtom.append _).shape d bound
      | json => exact (opensAtom_cons rfl _).shape d bound
    | hasSome elements =>
      cases style with
      | native => exact (lhs.opensAtom.append _).shape d bound
      | json => exact (opensAtom_cons rfl _).shape d bound

/-! ## Atoms are pieces of the text -/

namespace Predicate

/-- The atoms of some predicates are those of each of them in turn. -/
theorem atomsOf_eq (parts : List Predicate) : atomsOf parts = parts.flatMap atoms := by
  induction parts with
  | nil => rfl
  | cons p rest ih => rw [atomsOf, ih]; rfl

theorem tokensOf_eq (d : Dialect) (parts : List Predicate) :
    tokensOf d parts = parts.map (·.tokens d) := by
  induction parts with
  | nil => rfl
  | cons p rest ih => rw [tokensOf, ih]; rfl

theorem map_atomsOf {β : Type} (f : Atom → β) (parts : List Predicate) :
    (atomsOf parts).map f = (parts.map fun p => p.atoms.map f).flatten := by
  rw [atomsOf_eq, List.map_flatMap, List.flatMap_def]

mutual

/-- The atoms of a predicate stand in its tokens in order, and nothing beside them
binds. -/
theorem woven_tokens (d : Dialect) :
    ∀ p : Predicate, Woven Token.isSlot (p.atoms.map (·.tokens d)) (p.tokens d)
  | .atom a => by
    rw [atoms, tokens]
    exact .self _
  | .group p => by
    rw [atoms, tokens]
    exact (woven_tokens d p).grouped
  | .not p => by
    rw [atoms, tokens, ← List.singleton_append]
    exact (woven_tokens d p).grouped.glue_append (by simp [Token.isSlot])
  | .all parts => by
    rw [atoms, tokens, map_atomsOf]
    exact Woven.intercalate (by simp [Token.isSlot]) (woven_tokensOf d parts)
  | .any parts => by
    rw [atoms, tokens, map_atomsOf]
    exact Woven.intercalate (by simp [Token.isSlot]) (woven_tokensOf d parts)

/-- The atoms of parts stand each in its own part. -/
theorem woven_tokensOf (d : Dialect) :
    ∀ parts : List Predicate,
      List.Forall₂ (Woven Token.isSlot) (parts.map fun p => p.atoms.map (·.tokens d))
        (tokensOf d parts)
  | [] => .nil
  | p :: rest => .cons (woven_tokens d p) (woven_tokensOf d rest)

end

/-! ## Cutting the text of a predicate -/

/-- Atoms that are written one after the other keep their shapes. -/
theorem shape_of_mem_lexemesOfAll (d : Dialect) :
    ∀ (as : List Atom) (bound : Nat),
      ∀ a ∈ lexemesOfAll d bound (as.map (·.tokens d)), AtomShape a := by
  intro as
  induction as with
  | nil => intro bound a ha; exact absurd ha (by simp [lexemesOfAll])
  | cons b as ih =>
    intro bound a ha
    rw [List.map_cons, lexemesOfAll] at ha
    rcases List.mem_cons.mp ha with rfl | ha
    · exact b.shape d bound
    · exact ih _ a ha

/-- No atom is ahead where the text goes on with a connective or a parenthesis other
than NOT. -/
theorem atomAhead_sign {atoms : List (List Lexeme)} (hshape : ∀ a ∈ atoms, AtomShape a)
    {l : Lexeme} {s : Sign} (hl : Sign.ofLexeme? l = some s) (hs : s ≠ .not)
    (rest : List Lexeme) : atomAhead atoms (l :: rest) = false := by
  cases atoms with
  | nil => rfl
  | cons a more =>
    cases hshape a (List.mem_cons_self ..) with
    | @plain l' ls hplain =>
      have hne : l' ≠ l := by
        rintro rfl
        rw [hplain] at hl
        exact absurd hl (by simp)
      simp [atomAhead, List.isPrefixOf, hne]
    | denial _ =>
      have hne : Lexeme.word ['N', 'O', 'T'] ≠ l := by
        rintro rfl
        cases hl
        exact hs rfl
      simp [atomAhead, List.isPrefixOf, hne]

/-- No atom is ahead of `NOT (` and a third lexeme that is either a sign or what the
first atom itself begins with. -/
theorem atomAhead_denial {a : List Lexeme} {more : List (List Lexeme)} (ha : AtomShape a)
    {l : Lexeme} (hl : (Sign.ofLexeme? l).isSome = true ∨ a.head? = some l) (rest : List Lexeme) :
    atomAhead (a :: more) (.word ['N', 'O', 'T'] :: .mark '(' :: l :: rest) = false := by
  cases ha with
  | @plain l' ls hplain =>
    have hne : l' ≠ .word ['N', 'O', 'T'] := by
      rintro rfl
      exact absurd hplain (by decide)
    simp [atomAhead, List.isPrefixOf, hne]
  | @denial l' ls hplain =>
    have hsign : (Sign.ofLexeme? l).isSome = true := by
      rcases hl with hl | hl
      · exact hl
      · cases hl
        decide
    have hne : l' ≠ l := by
      rintro rfl
      rw [hplain] at hsign
      exact absurd hsign (by simp)
    simp [atomAhead, List.isPrefixOf, hne]

/-- Joined fragments start with the first of them. -/
theorem joined_cons {α : Type} (k : Keyword) (f : Fragment α) (fs : List (Fragment α)) :
    ∃ g, joined k (f :: fs) = f ++ g := by
  cases fs with
  | nil => exact ⟨[], by simp [joined]⟩
  | cons f' fs =>
    refine ⟨.word k :: joined k (f' :: fs), ?_⟩
    simp [joined, List.intercalate_cons_cons]

/-- A predicate holds an atom, and its text begins with a sign or like that atom. -/
theorem FitsAt.first {place : Place} {p : Predicate} (h : p.FitsAt place) (d : Dialect) :
    ∃ a as, p.atoms = a :: as ∧
      ∀ bound, ∃ l ls, lexemesOf d bound (p.tokens d) = l :: ls ∧
        ((Sign.ofLexeme? l).isSome = true ∨ (lexemesOf d bound (a.tokens d)).head? = some l) := by
  -- the parts of a conjunction and of a disjunction begin with the first one
  have hparts : ∀ {k : Keyword} {q : Predicate} {rest : List Predicate},
      (∃ a as, q.atoms = a :: as ∧
        ∀ bound, ∃ l ls, lexemesOf d bound (q.tokens d) = l :: ls ∧
          ((Sign.ofLexeme? l).isSome = true ∨
            (lexemesOf d bound (a.tokens d)).head? = some l)) →
      ∃ a as, atomsOf (q :: rest) = a :: as ∧
        ∀ bound, ∃ l ls, lexemesOf d bound (joined k (tokensOf d (q :: rest))) = l :: ls ∧
          ((Sign.ofLexeme? l).isSome = true ∨
            (lexemesOf d bound (a.tokens d)).head? = some l) := by
    rintro k q rest ⟨a, as, hatoms, hfirst⟩
    refine ⟨a, as ++ atomsOf rest, by rw [atomsOf, hatoms]; rfl, ?_⟩
    intro bound
    obtain ⟨l, ls, hl, hsign⟩ := hfirst bound
    obtain ⟨g, hg⟩ := joined_cons k (q.tokens d) (tokensOf d rest)
    refine ⟨l, ls ++ lexemesOf d (bound + (slots (q.tokens d)).length) g, ?_, hsign⟩
    rw [tokensOf, hg, lexemesOf_append, hl]
    rfl
  induction h with
  | atom a =>
    refine ⟨a, [], rfl, ?_⟩
    intro bound
    obtain ⟨l, ls, hl⟩ := List.exists_cons_of_ne_nil (a.shape d bound).ne_nil
    exact ⟨l, ls, hl, Or.inr (by rw [hl]; rfl)⟩
  | group _ ih =>
    obtain ⟨a, as, hatoms, -⟩ := ih
    exact ⟨a, as, hatoms, fun bound => ⟨.mark '(', _, rfl, Or.inl rfl⟩⟩
  | not _ ih =>
    obtain ⟨a, as, hatoms, -⟩ := ih
    exact ⟨a, as, hatoms, fun bound => ⟨.word ['N', 'O', 'T'], _, rfl, Or.inl rfl⟩⟩
  | all _ ih => exact hparts (ih _ (List.mem_cons_self ..))
  | one _ ih => exact hparts ih
  | any _ ih => exact hparts (ih _ (List.mem_cons_self ..))
  | alone _ ih => exact ih

/-- Wherever a predicate stands and whatever atoms follow its own, its text is cut
into its signs. -/
def CutsAs (d : Dialect) (p : Predicate) : Prop :=
  ∀ (bound next : Nat) (more : List (List Lexeme)) (rest : List Lexeme),
    (∀ a ∈ more, AtomShape a) →
      Sign.cut next (lexemesOfAll d bound (p.atoms.map (·.tokens d)) ++ more)
          (lexemesOf d bound (p.tokens d) ++ rest)
        = (Sign.cut (next + p.atoms.length) more rest).map (p.signs next ++ ·)

/-- Parentheses are read around what stands in them. -/
theorem lexemesOf_grouped {α : Type} (d : Dialect) (bound : Nat) (f : Fragment α) :
    lexemesOf d bound (grouped f) = .mark '(' :: (lexemesOf d bound f ++ [.mark ')']) := by
  have hopen : lexemesOf d bound (grouped f)
      = .mark '(' :: lexemesOf d bound (f ++ [.symbol .close]) := rfl
  rw [hopen, lexemesOf_append]
  rfl

/-- The values that the atoms of a predicate bind are those that it binds. -/
theorem slots_tokens_eq (d : Dialect) (p : Predicate) :
    slots (p.tokens d) = (p.atoms.map (·.tokens d)).flatMap slots :=
  (woven_tokens d p).slots_eq

/-- The atoms of a group are followed by the parenthesis that closes it. -/
theorem CutsAs.close {d : Dialect} {p : Predicate} (h : CutsAs d p) (bound next : Nat)
    {more : List (List Lexeme)} (rest : List Lexeme) (hmore : ∀ a ∈ more, AtomShape a) :
    Sign.cut next (lexemesOfAll d bound (p.atoms.map (·.tokens d)) ++ more)
        (lexemesOf d bound (p.tokens d) ++ .mark ')' :: rest)
      = (Sign.cut (next + p.atoms.length) more rest).map
          (fun ss => p.signs next ++ .closing :: ss) := by
  have hclosing : Sign.cut (next + p.atoms.length) more (.mark ')' :: rest)
      = (Sign.cut (next + p.atoms.length) more rest).map (Sign.closing :: ·) :=
    Sign.cut_sign _ rfl (atomAhead_sign hmore rfl (by decide) rest)
  rw [h bound next more _ hmore, hclosing, Option.map_map]
  rfl

/-- Atoms in front of others keep their shapes. -/
theorem shape_of_mem_append (d : Dialect) (bound : Nat) (as : List Atom)
    {more : List (List Lexeme)} (hmore : ∀ a ∈ more, AtomShape a) :
    ∀ a ∈ lexemesOfAll d bound (as.map (·.tokens d)) ++ more, AtomShape a := by
  intro a ha
  rcases List.mem_append.mp ha with ha | ha
  · exact shape_of_mem_lexemesOfAll d as bound a ha
  · exact hmore a ha

/-- Parts with a connective between them are cut into their signs. -/
theorem cut_joined {d : Dialect} {k : Keyword} {s : Sign}
    (hk : Sign.ofLexeme? (.word k.text.toList) = some s) (hs : s ≠ .not) :
    ∀ (rest : List Predicate) (p : Predicate), (∀ q ∈ p :: rest, CutsAs d q) →
      ∀ (bound next : Nat) (more : List (List Lexeme)) (tail : List Lexeme),
        (∀ a ∈ more, AtomShape a) →
          Sign.cut next (lexemesOfAll d bound ((atomsOf (p :: rest)).map (·.tokens d)) ++ more)
              (lexemesOf d bound (joined k (tokensOf d (p :: rest))) ++ tail)
            = (Sign.cut (next + (atomsOf (p :: rest)).length) more tail).map
                ([s].intercalate (signsEach next (p :: rest)) ++ ·) := by
  intro rest
  induction rest with
  | nil =>
    intro p h bound next more tail hmore
    have hp := h p (List.mem_cons_self ..) bound next more tail hmore
    simpa [atomsOf, tokensOf, signsEach, joined] using hp
  | cons q rest ih =>
    intro p h bound next more tail hmore
    have hp := h p (List.mem_cons_self ..)
    have hrest := ih q (fun r hr => h r (List.mem_cons_of_mem _ hr))
    let after := bound + (slots (p.tokens d)).length
    have hatoms : lexemesOfAll d bound ((atomsOf (p :: q :: rest)).map (·.tokens d))
        = lexemesOfAll d bound (p.atoms.map (·.tokens d))
          ++ lexemesOfAll d after ((atomsOf (q :: rest)).map (·.tokens d)) := by
      rw [atomsOf, List.map_append, lexemesOfAll_append, ← slots_tokens_eq]
    have htokens : lexemesOf d bound (joined k (tokensOf d (p :: q :: rest)))
        = lexemesOf d bound (p.tokens d) ++ .word k.text.toList ::
          lexemesOf d after (joined k (tokensOf d (q :: rest))) := by
      rw [tokensOf, tokensOf, joined, List.intercalate_cons_cons, List.append_assoc,
        lexemesOf_append]
      rfl
    -- the connective is no beginning of the next atom
    have hshape := shape_of_mem_append d after (atomsOf (q :: rest)) hmore
    have hword : Sign.cut (next + p.atoms.length)
          (lexemesOfAll d after ((atomsOf (q :: rest)).map (·.tokens d)) ++ more)
          (.word k.text.toList :: (lexemesOf d after (joined k (tokensOf d (q :: rest))) ++ tail))
        = _ :=
      Sign.cut_sign _ hk (atomAhead_sign hshape hk hs _)
    rw [hatoms, htokens, List.append_assoc, List.append_assoc, List.cons_append,
      hp bound next _ _ hshape, hword, hrest after _ more tail hmore, Option.map_map,
      Option.map_map]
    have hlength : next + (atomsOf (p :: q :: rest)).length
        = next + p.atoms.length + (atomsOf (q :: rest)).length := by
      rw [atomsOf, List.length_append, Nat.add_assoc]
    rw [hlength]
    congr 1
    funext ss
    simp [signsEach, List.intercalate_cons_cons]

/-- A predicate that fits its place is cut into its atoms and its signs. -/
theorem FitsAt.cutsAs {place : Place} {p : Predicate} (h : p.FitsAt place) (d : Dialect) :
    CutsAs d p := by
  -- the atoms that follow are arbitrary, so the cases hold wherever the predicate stands
  induction h with
  | atom a =>
    intro bound next more rest _
    exact Sign.cut_atom next more rest (a.shape d bound).ne_nil
  | @group p _ ih =>
    intro bound next more rest hmore
    have hshape := shape_of_mem_append d bound p.atoms hmore
    rw [atoms, tokens, signs, lexemesOf_grouped, List.cons_append, List.append_assoc,
      Sign.cut_sign next rfl (atomAhead_sign hshape rfl (by decide) _), List.singleton_append,
      ih.close bound next rest hmore, Option.map_map]
    congr 1
    funext ss
    simp
  | @not p hfits ih =>
    intro bound next more rest hmore
    have hshape := shape_of_mem_append d bound p.atoms hmore
    have hnot : lexemesOf d bound (p.not.tokens d)
        = .word ['N', 'O', 'T'] :: .mark '('
          :: (lexemesOf d bound (p.tokens d) ++ [.mark ')']) := by
      rw [← lexemesOf_grouped]
      rfl
    -- the atom ahead may itself be a denial; then the third lexeme tells them apart
    have hahead : atomAhead (lexemesOfAll d bound (p.atoms.map (·.tokens d)) ++ more)
        (.word ['N', 'O', 'T'] :: .mark '(' ::
          (lexemesOf d bound (p.tokens d) ++ .mark ')' :: rest)) = false := by
      obtain ⟨a, as, hatoms, hfirst⟩ := hfits.first d
      obtain ⟨l, ls, hl, hbegins⟩ := hfirst bound
      rw [hatoms, hl]
      exact atomAhead_denial (a.shape d bound) hbegins _
    rw [hnot, atoms, signs, List.cons_append, List.cons_append, List.append_assoc,
      List.singleton_append, Sign.cut_sign next rfl hahead,
      Sign.cut_sign next rfl (atomAhead_sign hshape rfl (by decide) _),
      ih.close bound next rest hmore, Option.map_map, Option.map_map]
    congr 1
    funext ss
    simp
  | @all p rest _ ih =>
    intro bound next more tail hmore
    rw [atoms, tokens, signs]
    exact cut_joined rfl (by decide) rest p ih bound next more tail hmore
  | @one p _ ih =>
    intro bound next more tail hmore
    rw [atoms, tokens, signs]
    exact cut_joined rfl (by decide) [] p (by simpa using ih) bound next more tail hmore
  | @any p rest _ ih =>
    intro bound next more tail hmore
    rw [atoms, tokens, signs]
    exact cut_joined rfl (by decide) rest p ih bound next more tail hmore
  | alone _ ih => exact ih

/-! ## Reading the text of a predicate -/

/-- The lexemes of a predicate that fits are a formula of its value. -/
theorem FitsAt.ofLexemes {place : Place} {p : Predicate} (h : p.FitsAt place) (d : Dialect)
    (bound : Nat) :
    ∃ f, Formula.ofLexemes (lexemesOfAll d bound (p.atoms.map (·.tokens d)))
          (lexemesOf d bound (p.tokens d)) = some f ∧
      ∀ truth, f.eval truth = p.eval truth 0 := by
  obtain ⟨f, hf, hv⟩ := h.ofSigns 0
  have hcut := h.cutsAs d bound 0 [] [] (by simp)
  rw [List.append_nil, List.append_nil, Sign.cut_nil, Option.map_some, List.append_nil] at hcut
  refine ⟨f, ?_, hv⟩
  unfold Formula.ofLexemes
  rw [hcut, Option.bind_some, hf]

/-- The text of a predicate that fits is a formula of its value, the atoms being
given by their texts. -/
theorem FitsAt.read_render {place : Place} {p : Predicate} (h : p.FitsAt place) (c : Parameters) :
    ∃ f, Formula.read c.dialect.quote (c.writeAll (p.atoms.map (·.tokens c.dialect))).1
          (c.dialect.render c.bound.length (p.tokens c.dialect)) = some f ∧
      ∀ truth, f.eval truth = p.eval truth 0 := by
  obtain ⟨f, hf, hv⟩ := h.ofLexemes c.dialect c.bound.length
  refine ⟨f, ?_, hv⟩
  unfold Formula.read
  rw [mapM_lexemes_writeAll, lexemes_render]
  exact hf

end Predicate

end SqlQuery.Sql
