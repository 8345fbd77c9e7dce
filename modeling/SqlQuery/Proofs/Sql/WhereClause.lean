import SqlQuery.Proofs.Sql.AssignmentList
import SqlQuery.Proofs.Sql.Execution

/-!
# What stands behind WHERE

The condition of an update or a deletion stands behind its WHERE, and there is at most the request
for the written rows behind it. A reader of names finds the columns there that the condition looks
at. A condition that is made of constants looks at none, and no name is read from it: it is written
with numbers only, and with what joins them.

> `Statement.behind_where`: what is read behind WHERE.

> `ofName_not_mem_lexemesOf`, `Predicate.isPlain_tokens`: no name is read from a condition of
> constants.

> `Predicate.truth_of_known`: where the truth of all atoms is known, so is that of the condition.
-/

namespace SqlQuery.Sql

/-! ## Conditions whose atoms are known -/

namespace Predicate

variable {E : Engine} {look : Operand → Value} {truth : Nat → Bool}

mutual

/-- Where it is known of each atom whether it is true, a predicate is true exactly if it evaluates
to true. -/
theorem truth_of_known :
    ∀ (p : Predicate) (start : Nat),
      (∀ i a, p.atoms[i]? = some a → a.truth E look = some (truth (start + i))) →
        p.truth E look = some (p.eval truth start)
  | .atom a, start, h => by
    rw [Predicate.truth, eval]
    exact h 0 a rfl
  | .group p, start, h => by
    rw [Predicate.truth, eval]
    exact truth_of_known p start h
  | .not p, start, h => by
    rw [Predicate.truth, eval, truth_of_known p start h]
    rfl
  | .all parts, start, h => by
    rw [Predicate.truth, eval, truths_of_known parts start h]
    exact Truth.all_map_some _
  | .any parts, start, h => by
    rw [Predicate.truth, eval, truths_of_known parts start h]
    exact Truth.any_map_some _

/-- Parts of a predicate whose atoms are known to be true or false. -/
theorem truths_of_known :
    ∀ (ps : List Predicate) (start : Nat),
      (∀ i a, (atomsOf ps)[i]? = some a → a.truth E look = some (truth (start + i))) →
        truths E look ps = (evalEach truth start ps).map some
  | [], _, _ => rfl
  | p :: rest, start, h => by
    have hfirst : p.truth E look = some (p.eval truth start) := by
      refine truth_of_known p start fun i a hi => h i a ?_
      rw [atomsOf, List.getElem?_append_left (List.getElem?_eq_some_iff.mp hi).1]
      exact hi
    -- the atoms of the rest are counted on behind those of the first
    have hrest : truths E look rest = (evalEach truth (start + p.atoms.length) rest).map some := by
      refine truths_of_known rest _ fun i a hi => ?_
      rw [Nat.add_assoc]
      refine h (p.atoms.length + i) a ?_
      rw [atomsOf, List.getElem?_append_right (Nat.le_add_right _ _), Nat.add_sub_cancel_left]
      exact hi
    rw [truths, evalEach, List.map_cons, hfirst, hrest]

end

end Predicate

/-! ## The names in a condition -/

section

variable {α : Type}

/-- A column that is referred to is named. -/
theorem name_mem_of_mem_references {ref : ColumnRef} {f : Fragment α}
    (h : ref ∈ references f) : Token.name ref.column ∈ f := by
  fun_induction references f with
  | case1 => cases h
  | case2 _ _ ih | case3 _ _ ih | case4 _ _ ih =>
    exact List.mem_cons_of_mem _ (List.mem_cons_of_mem _ (ih h))
  | case5 q column rest ih =>
    rcases List.mem_cons.mp h with rfl | h
    · simp
    · simp [ih h]
  | case6 column rest _ ih =>
    rcases List.mem_cons.mp h with rfl | h
    · simp
    · simp [ih h]
  | case7 _ _ _ _ _ _ _ ih => exact List.mem_cons_of_mem _ (ih h)

/-- A name in a fragment is a lexeme of its text. -/
theorem ofName_mem_lexemesOf {name : String} {f : Fragment α} (h : Token.name name ∈ f)
    (d : Dialect) (bound : Nat) : Lexeme.ofName name.toList ∈ lexemesOf d bound f := by
  obtain ⟨before, after, rfl⟩ := List.append_of_mem h
  rw [lexemesOf_append]
  exact List.mem_append_right _ (List.mem_cons_self ..)

/-- Whether a token can stand in a condition that is made of constants. -/
def Token.isPlain : Token α → Bool
  | .word .and | .word .or | .word .not => true
  | .symbol .eq | .symbol .group | .symbol .close => true
  | .number 0 | .number 1 => true
  | _ => false

theorem Token.ofName_not_mem {t : Token α} (ht : t.isPlain = true) (d : Dialect) (bound : Nat)
    (name : List Char) : Lexeme.ofName name ∉ lexemesOf d bound [t] := by
  unfold isPlain at ht
  split at ht <;> intro hmem
  case h_9 => cases ht
  case h_4 | h_5 | h_6 => exact ofName_ne_mark (by decide) (List.mem_singleton.mp hmem)
  all_goals exact Lexeme.ofName_ne_word (by decide) (List.mem_singleton.mp hmem)

theorem isPlain_grouped {f : Fragment α} (hf : ∀ t ∈ f, t.isPlain = true) :
    ∀ t ∈ grouped f, t.isPlain = true := by
  unfold grouped
  intro t ht
  rcases List.mem_append.mp ht with ht | ht
  · rcases List.mem_cons.mp ht with rfl | ht
    · rfl
    · exact hf t ht
  · rw [List.mem_singleton.mp ht]
    rfl

/-- No name is read from what is made of constants. -/
theorem ofName_not_mem_lexemesOf {f : Fragment α} (hf : ∀ t ∈ f, t.isPlain = true) (d : Dialect)
    (name : List Char) : ∀ bound, Lexeme.ofName name ∉ lexemesOf d bound f := by
  induction f with
  | nil => exact fun _ => List.not_mem_nil
  | cons t f ih =>
    intro bound
    rw [← List.singleton_append, lexemesOf_append, List.mem_append, not_or]
    refine ⟨t.ofName_not_mem (hf t (List.mem_cons_self ..)) d bound name, ?_⟩
    exact ih (fun u hu => hf u (List.mem_cons_of_mem _ hu)) _

end

namespace Predicate

variable {d : Dialect}

mutual

/-- A predicate of constants is made of numbers and what joins them. -/
theorem isPlain_tokens :
    ∀ p : Predicate, (∀ a ∈ p.atoms, ∃ truth, a = .constant truth) →
      ∀ t ∈ p.tokens d, t.isPlain = true
  | .atom a, h, t, ht => by
    obtain ⟨truth, rfl⟩ := h a (List.mem_singleton_self a)
    cases truth <;> revert t <;> simp [tokens, Atom.tokens, compared, Token.isPlain]
  | .group p, h, t, ht => isPlain_grouped (isPlain_tokens p h) t ht
  | .not p, h, t, ht => by
    rcases List.mem_cons.mp ht with rfl | ht
    · rfl
    · exact isPlain_grouped (isPlain_tokens p h) t ht
  | .all parts, h, t, ht => by
    rcases mem_intercalate ht with rfl | ⟨f, hf, ht⟩
    · rfl
    · exact isPlain_tokensOf parts h f hf t ht
  | .any parts, h, t, ht => by
    rcases mem_intercalate ht with rfl | ⟨f, hf, ht⟩
    · rfl
    · exact isPlain_tokensOf parts h f hf t ht

theorem isPlain_tokensOf :
    ∀ ps : List Predicate, (∀ a ∈ atomsOf ps, ∃ truth, a = .constant truth) →
      ∀ f ∈ tokensOf d ps, ∀ t ∈ f, t.isPlain = true
  | [], _, f, hf => absurd hf List.not_mem_nil
  | p :: rest, h, f, hf => by
    rcases List.mem_cons.mp hf with rfl | hf
    · exact isPlain_tokens p fun a ha => h a (List.mem_append_left _ ha)
    · exact isPlain_tokensOf rest (fun a ha => h a (List.mem_append_right _ ha)) f hf

end

end Predicate

/-! ## Behind WHERE -/

namespace Statement

/-- The condition of an update or a deletion. -/
def where? : Statement → Option Predicate
  | .update _ _ p _ => some p
  | .delete _ p _ => some p
  | _ => none

/-- The request for the written rows is read in the same way behind any values. -/
theorem lexemesOf_returningTokens (d : Dialect) (bound : Nat) (returning : Bool) :
    lexemesOf d bound (returningTokens (α := Value) d returning) = [] ∨
      lexemesOf d bound (returningTokens (α := Value) d returning)
        = [Keyword.returning.lexeme, .mark '*'] := by
  unfold returningTokens
  split
  · exact Or.inr rfl
  · exact Or.inl rfl

variable {s : Statement} {p : Predicate}

/-- What is read behind the first WHERE of a statement. -/
theorem behind_where_of_tokens {d : Dialect} {before : Fragment Value} {returning : Bool}
    (htokens : s.tokens d
      = before ++ Token.word .where_ :: (p.tokens d ++ returningTokens d returning))
    (hbefore : Token.word .where_ ∉ before) :
    ∃ bound tail, (tail = [] ∨ tail = [Keyword.returning.lexeme, .mark '*']) ∧
      (lexemes d.quote (s.prepare d).sql.toList).map (Lexeme.behind .where_)
        = some (lexemesOf d bound (p.tokens d) ++ tail) := by
  have hbehind := behind_lexemesOf Keyword.reserved_where d 0 _ _ htokens hbefore
  rw [lexemesOf_append] at hbehind
  rw [lexemes_prepare, Option.map_some]
  exact ⟨_, _, lexemesOf_returningTokens d _ returning, congrArg some hbehind⟩

/-- Behind WHERE stands the condition, and behind that at most the request for the written rows. -/
theorem behind_where (h : s.where? = some p) (d : Dialect) :
    ∃ bound tail, (tail = [] ∨ tail = [Keyword.returning.lexeme, .mark '*']) ∧
      (lexemes d.quote (s.prepare d).sql.toList).map (Lexeme.behind .where_)
        = some (lexemesOf d bound (p.tokens d) ++ tail) := by
  cases s with
  | update table assignments q returning =>
    cases h
    have htokens : (update table assignments p returning).tokens d
        = [Token.word .update, .name table, .word .set] ++ assignmentList d assignments
          ++ Token.word .where_ :: (p.tokens d ++ returningTokens d returning) :=
      List.append_assoc ..
    exact behind_where_of_tokens htokens (by simp [not_mem_assignmentList])
  | delete table q returning =>
    cases h
    have htokens : (delete table p returning).tokens d
        = [Token.word .delete, .word .from_, .name table]
          ++ Token.word .where_ :: (p.tokens d ++ returningTokens d returning) :=
      List.append_assoc ..
    exact behind_where_of_tokens htokens (by simp)
  | select | insert | insertUnless => cases h

end Statement

end SqlQuery.Sql
