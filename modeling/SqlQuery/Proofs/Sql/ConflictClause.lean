import SqlQuery.Proofs.Sql.AssignmentList

/-!
# Reading what an insertion does on a conflict

An insertion that may meet a row names the keys by which it looks for one, in parentheses behind
ON CONFLICT, and may set a column to what it proposed for one: to EXCLUDED and the column, or in
MySQL, which has no list of keys, to VALUES of the column.

> `conflictColumns_tokens`: the keys that are read are those that the insertion names.

> `proposedColumns_tokens`: the columns that are read back are those that are set to what was
> proposed.
-/

namespace SqlQuery.Sql

namespace Lexeme

/-- What is read back of an insertion at the start of some lexemes. -/
def proposed? : List Lexeme → Option Lexeme
  | w :: .mark c :: l :: _ =>
    if w = Keyword.excluded.lexeme ∧ c = '.' ∨ w = Keyword.values.lexeme ∧ c = '(' then some l
    else none
  | _ => none

/-- What is read back of an insertion. -/
def readBack : List Lexeme → List Lexeme
  | [] => []
  | l :: rest => (proposed? (l :: rest)).toList ++ readBack rest

end Lexeme

open Lexeme

/-- The keys for which an insertion looks for another row, as they are read from its lexemes. -/
def conflictColumns (ls : List Lexeme) : List String :=
  if (behind .on ls).head? = some Keyword.conflict.lexeme then listed ((behind .on ls).drop 2)
  else []

/-- The columns that are read back of what an insertion proposed, as they are read from its
lexemes. -/
def proposedColumns (ls : List Lexeme) : List String :=
  (readBack (behind .on ls)).filterMap name?

/-! ## What is read back -/

theorem readBack_cons {l : Lexeme} {rest : List Lexeme} (h : proposed? (l :: rest) = none) :
    readBack (l :: rest) = readBack rest := by
  rw [readBack, h]
  rfl

/-- Nothing is read back where what goes first is another word, or none. -/
theorem readBack_of_ne {l : Lexeme} (hexcluded : l ≠ Keyword.excluded.lexeme)
    (hvalues : l ≠ Keyword.values.lexeme) (rest : List Lexeme) :
    readBack (l :: rest) = readBack rest := by
  refine readBack_cons ?_
  unfold proposed?
  split
  next he =>
    cases he
    refine if_neg ?_
    rintro (⟨hw, -⟩ | ⟨hw, -⟩)
    · exact hexcluded hw
    · exact hvalues hw
  next => rfl

theorem readBack_mark (c : Char) (rest : List Lexeme) :
    readBack (.mark c :: rest) = readBack rest :=
  readBack_of_ne (by simp [Keyword.lexeme]) (by simp [Keyword.lexeme]) rest

/-- Nothing is read back where what comes second opens nothing. -/
theorem readBack_of_head {l : Lexeme} {rest : List Lexeme}
    (h : ∀ c ∈ ['.', '('], rest.head? ≠ some (.mark c)) : readBack (l :: rest) = readBack rest := by
  refine readBack_cons ?_
  unfold proposed?
  split
  next he =>
    cases he
    refine if_neg ?_
    rintro (⟨-, rfl⟩ | ⟨-, rfl⟩)
    · exact h '.' (by simp) rfl
    · exact h '(' (by simp) rfl
  next => rfl

/-- Behind a list of assignments no dot and no parenthesis follows. -/
theorem EndsAssignment.head {rest : List Lexeme} (h : EndsAssignment rest) :
    ∀ c ∈ ['.', '('], rest.head? ≠ some (.mark c) := by
  intro c hc he
  rw [h c he] at hc
  exact absurd hc (by decide)

/-- What opens nothing is passed over. -/
theorem readBack_append {ls rest : List Lexeme} (hls : ∀ c ∈ ['.', '('], Lexeme.mark c ∉ ls)
    (hrest : ∀ c ∈ ['.', '('], rest.head? ≠ some (.mark c)) :
    readBack (ls ++ rest) = readBack rest := by
  induction ls with
  | nil => rfl
  | cons l ls ih =>
    have htail : ∀ c ∈ ['.', '('], Lexeme.mark c ∉ ls :=
      fun c hc hmem => hls c hc (List.mem_cons_of_mem _ hmem)
    rw [List.cons_append,
      readBack_of_head fun c hc => head?_append_ne (htail c hc) (hrest c hc)]
    exact ih htail

/-- Of an assignment its column is read back where it is set to what was proposed. -/
theorem readBack_assignment (d : Dialect) (bound : Nat) (a : Assignment) {rest : List Lexeme}
    (hrest : EndsAssignment rest) :
    readBack (lexemesOf d bound (a.tokens d) ++ rest)
      = (if a.source = .proposed then [Lexeme.ofName a.column.toList] else [])
        ++ readBack rest := by
  rw [lexemesOf_assignment, List.cons_append, List.cons_append, readBack_of_head (by simp),
    readBack_mark]
  unfold Assignment.sourceTokens
  cases hsource : a.source with
  | value v =>
    rw [if_neg (by simp)]
    exact readBack_of_ne (by simp [Keyword.lexeme]) (by simp [Keyword.lexeme]) rest
  | null =>
    rw [if_neg (by simp)]
    exact readBack_of_head hrest.head
  | proposed =>
    rw [if_pos rfl]
    cases d with
    | mysql =>
      show readBack (Keyword.values.lexeme :: .mark '(' :: .ofName a.column.toList
        :: .mark ')' :: rest) = _
      rw [readBack, readBack_mark, readBack_of_head (by simp),
        readBack_mark]
      rfl
    | postgres | sqlite =>
      show readBack (Keyword.excluded.lexeme :: .mark '.' :: .ofName a.column.toList :: rest) = _
      rw [readBack, readBack_mark, readBack_of_head hrest.head]
      rfl

/-! ## Insertions that may meet a row -/

/-- What stands behind the word ON in an insertion that may meet a row. -/
def behindOn (d : Dialect) (keys : List String) : Fragment Value :=
  match d with
  | .mysql => [.word .duplicate, .word .key, .word .update]
  | _ => .word .conflict :: grouped (nameList keys) ++ [.word .do_, .word .update, .word .set]

/-- Behind ON stands what is done on a conflict, and nothing that is bound in front of it is read.
-/
theorem behind_onConflict (d : Dialect) (table : String) (columns : List String)
    (rows : List (List Value)) (c : Conflict) (returning : Bool) :
    ∃ bound, behind .on (lexemesOf d 0
        ((Statement.insert table columns rows (some c) returning).tokens d))
      = lexemesOf d bound (behindOn d c.keys ++ assignmentList d c.assignments
        ++ returningTokens d returning) := by
  have hbefore := word_not_mem_rows (k := .on) (by decide) table columns rows
  refine ⟨_, behind_lexemesOf Keyword.reserved_on d 0 _ _ ?_ hbefore⟩
  rw [tokens_onConflict, insertionLead]
  cases d <;> simp [Dialect.onConflict, behindOn]

/-- Where conflicts name their keys, these are read in parentheses before what is set. -/
theorem lexemesOf_behindOn {d : Dialect} (hd : d ≠ .mysql) (bound : Nat) (keys : List String)
    (f : Fragment Value) :
    lexemesOf d bound (behindOn d keys ++ f)
      = Keyword.conflict.lexeme :: .mark '('
        :: (lexemesOf d bound (nameList (α := Value) keys) ++ Lexeme.mark ')' :: Keyword.do_.lexeme
          :: Keyword.update.lexeme :: Keyword.set.lexeme :: lexemesOf d bound f) := by
  have htokens : behindOn d keys ++ f = [Token.word .conflict, .symbol .group] ++ (nameList keys
      ++ ([Token.symbol .close, .word .do_, .word .update, .word .set] ++ f)) := by
    unfold behindOn
    cases d with
    | mysql => exact absurd rfl hd
    | postgres | sqlite => simp [grouped]
  rw [htokens, lexemesOf_append, lexemesOf_append, lexemesOf_append, slots_nameList]
  rfl

/-- Nothing is read back between the word ON and the assignments. -/
theorem readBack_behindOn (d : Dialect) (bound : Nat) (keys : List String) {f : Fragment Value}
    (hf : ∀ bound, ∀ c ∈ ['.', '('], (lexemesOf d bound f).head? ≠ some (.mark c)) :
    ∃ bound', readBack (lexemesOf d bound (behindOn d keys ++ f))
      = readBack (lexemesOf d bound' f) := by
  by_cases hd : d = .mysql
  · subst hd
    have hwords : ∀ c ∈ ['.', '('], Lexeme.mark c ∉ lexemesOf .mysql bound
        (behindOn .mysql keys) := by
      simp [behindOn, lexemesOf, number, Token.lexemes]
    rw [lexemesOf_append]
    exact ⟨_, readBack_append hwords (hf _)⟩
  · have hcomma : ∀ c ∈ ['.', '('], c ∉ Symbol.comma.text.toList := by simp [Symbol.text]
    have hnames : ∀ c ∈ ['.', '('], Lexeme.mark c ∉
        lexemesOf d bound (nameList (α := Value) keys) := by
      intro c hc
      refine mark_not_mem d (by rintro rfl; simp at hc) (fun s hs => ?_) bound
      rw [symbol_mem_nameList hs]
      exact hcomma c hc
    rw [lexemesOf_behindOn hd, readBack_of_ne (by decide) (by decide), readBack_mark,
      readBack_append hnames (by simp), readBack_mark, readBack_of_ne (by decide) (by decide),
      readBack_of_ne (by decide) (by decide), readBack_of_ne (by decide) (by decide)]
    exact ⟨bound, rfl⟩

/-- The keys that are read from an insertion are those that it names. MySQL names none: it looks
for any row that is in the way. -/
theorem conflictColumns_tokens (d : Dialect) (table : String) (columns : List String)
    (rows : List (List Value)) (c : Conflict) (returning : Bool) :
    conflictColumns (lexemesOf d 0
        ((Statement.insert table columns rows (some c) returning).tokens d))
      = if d = .mysql then [] else c.keys := by
  obtain ⟨bound, hbehind⟩ := behind_onConflict d table columns rows c returning
  unfold conflictColumns
  rw [hbehind, List.append_assoc]
  by_cases hd : d = .mysql
  · subst hd
    rw [if_pos rfl]
    exact if_neg (by simp [behindOn, lexemesOf, number, Token.lexemes, Keyword.lexeme,
      Keyword.text])
  · rw [lexemesOf_behindOn hd, if_neg hd, if_pos (by rfl)]
    exact listed_nameList d bound c.keys _

/-- The columns that are read back are those that are set to what was proposed. -/
theorem proposedColumns_tokens (d : Dialect) (table : String) (columns : List String)
    (rows : List (List Value)) (c : Conflict) (returning : Bool) :
    proposedColumns (lexemesOf d 0
        ((Statement.insert table columns rows (some c) returning).tokens d))
      = (c.assignments.filter (·.source = .proposed)).map (·.column) := by
  obtain ⟨bound, hbehind⟩ := behind_onConflict d table columns rows c returning
  have hends (bound : Nat) :
      EndsAssignment (lexemesOf d bound (returningTokens (α := Value) d returning)) :=
    endsAssignment_returning d bound returning
  have hhead : ∀ bound, ∀ c' ∈ ['.', '('], (lexemesOf d bound (assignmentList d c.assignments
      ++ returningTokens d returning)).head? ≠ some (.mark c') := by
    intro bound c' hc'
    rw [lexemesOf_append]
    exact head?_assignmentList d bound _ (by rintro rfl; simp at hc') ((hends _).head c' hc')
  obtain ⟨bound', hread⟩ := readBack_behindOn d bound c.keys hhead
  have hreturning : ∀ bound, readBack (lexemesOf d bound
      (returningTokens (α := Value) d returning)) = [] := by
    intro bound
    unfold returningTokens
    split
    · show readBack [Keyword.returning.lexeme, .ofName "*".toList] = []
      decide
    · rfl
  unfold proposedColumns
  rw [hbehind, List.append_assoc, hread, lexemesOf_append,
    read_assignments d (fun bound a _ => readBack_assignment d bound a)
      (fun n more => readBack_mark ',' _) (hends _), hreturning, List.append_nil]
  induction c.assignments with
  | nil => rfl
  | cons a as ih =>
    rw [List.flatMap_cons, List.filterMap_append, ih]
    by_cases ha : a.source = .proposed
    · rw [if_pos ha, List.filter_cons_of_pos (by simpa using ha), List.map_cons,
        List.filterMap_cons_some (name?_ofName a.column)]
      rfl
    · rw [if_neg ha, List.filter_cons_of_neg (by simpa using ha)]
      rfl

end SqlQuery.Sql
